import RobotMoney.Indexer.Records

/-!
# What the ingestion of a range keeps

`Settled` is the invariant of the database between ticks: up to the cursor, the stored headers and the
rows are those of one chain, and no row of it is missing; and every row, also above the cursor, is one of
the chain that the header stored at its height commits to.  During a tick, `Stage` says moreover that
all stored headers are those of the chain the tick sees.

Ingestion keeps `Stage` after every call, so also when it fails, and when it does not fail it moves the
cursor to its target (`ingest_triple`).
-/

namespace RobotMoney.Indexer

open RobotMoney.Lib Fallible

/-! ### The chain of a tick -/

/-- What a tick meets: a chain, which does not change while the tick runs, the answers to view calls,
and the calls that fail. -/
structure Poll where
  chain : Chain
  ethCall : ℕ → Address → View → (block : ℕ) → CallAnswer
  fails : ℕ → Bool

def Poll.session (p : Poll) : Session := ⟨fun k => ⟨p.chain, p.ethCall k⟩, p.fails⟩

/-- The watched events are ones that the contracts can emit: no two have the same place, or, for
proposals and votes, the same proposal, or the same proposal and voter; and a vote comes after its
proposal. -/
structure Sound (cfg : IndexerConfig) (bs : List Block) : Prop where
  unique : ∀ x ∈ records cfg bs, ∀ y ∈ records cfg bs, x.key = y.key → x = y
  votes : ∀ pre v post, records cfg bs = pre ++ .vote v :: post →
    ∃ c, .proposal c ∈ pre ∧ c.proposalKey = (v.chainId, v.proposalId)

/-- Nothing in a range makes a tick fail: no call fails, no log that must decode does not, the names of
vaults are text, and the vaults `known` answer. -/
structure Smooth (cfg : IndexerConfig) (p : Poll) (src dst : ℕ) (known : Address → Prop) : Prop where
  calls : ∀ k, p.fails k = false
  logs : ∀ e ∈ watchedLogs cfg p.chain src dst, ∀ t, e.log.data = .raw t → t.decoded = false
  names : ∀ e ∈ watchedLogs cfg p.chain src dst, ∀ v name asset,
    e.log.data = .event (.vaultRegistered v name asset) → Db.isText name = true
  views : ∀ a, known a → ∀ k n, src ≤ n → n ≤ dst →
    (∃ v, p.ethCall k a .totalAssets n = .word v) ∧ ∃ v, p.ethCall k a .totalSupply n = .word v

/-! ### The invariant -/

/-- The database up to the cursor `c` is that of a chain with the blocks `bs`. -/
structure Settled (cfg : IndexerConfig) (bs : List Block) (c : Option ℕ) (db : Db) : Prop where
  headers : ∀ n P, n < fromBlock c → db.getBlockHash cfg.chainId n = some P →
    n < bs.length ∧ P = ⟨bs.take (n + 1)⟩
  cursor : ∀ n, c = some n → n < bs.length ∧ db.getBlockHash cfg.chainId n = some ⟨bs.take (n + 1)⟩
  rows : ∀ x, db.Holds x → x.position.chainId = cfg.chainId →
    ∃ P, db.getBlockHash cfg.chainId x.position.blockNumber = some P ∧
      x ∈ recordsAt cfg P.ancestry x.position.blockNumber
  complete : ∀ n < fromBlock c, ∀ x ∈ recordsAt cfg bs n, db.Holds x
  keyed : ∀ x y, db.Holds x → db.Holds y → x.key = y.key → x = y

/-- The contracts that snapshots refer to are there. -/
structure Vaults (cfg : IndexerConfig) (known : Address → Prop) (db : Db) : Prop where
  configured : Table.taken ContractRow.key db.contracts (cfg.chainId, cfg.vault) = true
  registered : ∀ r ∈ db.vaults, r.chainId = cfg.chainId →
    known r.vaultAddress ∧ Table.taken ContractRow.key db.contracts (cfg.chainId, r.vaultAddress) = true

/-- The database while a tick sees `chain`: settled up to `c`, no header of another chain, and the runs
as they were. -/
structure Stage (cfg : IndexerConfig) (chain : Chain) (c : Option ℕ) (known : Address → Prop)
    (runs : List RunRow × ℕ) (db : Db) : Prop extends Settled cfg chain.blocks c db where
  current : ∀ n P, db.getBlockHash cfg.chainId n = some P →
    n < chain.blocks.length ∧ P = ⟨chain.blocks.take (n + 1)⟩
  vaults : Vaults cfg known db
  runs_eq : (db.indexerRuns, db.nextRun) = runs

/-- A header is stored. -/
def HasHeader (cfg : IndexerConfig) (n : ℕ) (db : Db) : Prop :=
  ∃ P, db.getBlockHash cfg.chainId n = some P

variable {cfg : IndexerConfig} {p : Poll} {c : Option ℕ} {known : Address → Prop} {runs : List RunRow × ℕ}
  {src dst : ℕ} {db db' : Db} {x : Record}

/-- Every row is one of the chain. -/
theorem Stage.row (h : Stage cfg p.chain c known runs db) (hx : db.Holds x)
    (hc : x.position.chainId = cfg.chainId) : x ∈ records cfg p.chain.blocks := by
  obtain ⟨P, hP, hmem⟩ := h.rows x hx hc
  obtain ⟨-, rfl⟩ := h.current _ P hP
  rw [recordsAt_take (Nat.lt_succ_self _)] at hmem
  exact mem_records.mpr ⟨_, hmem⟩

/-- A statement that leaves headers and rows. -/
theorem Settled.unmoved {bs : List Block} (h : Settled cfg bs c db) (hun : Unmoved db db') :
    Settled cfg bs c db' where
  headers n P hn hP := h.headers n P hn (hun.getBlockHash ▸ hP)
  cursor n hn := by
    rw [hun.getBlockHash]
    exact h.cursor n hn
  rows x hx hc := by
    rw [hun.getBlockHash]
    exact h.rows x ((hun.holds x).mp hx) hc
  complete n hn x hx := (hun.holds x).mpr (h.complete n hn x hx)
  keyed x y hx hy := h.keyed x y ((hun.holds x).mp hx) ((hun.holds y).mp hy)

theorem Stage.unmoved (h : Stage cfg p.chain c known runs db) (hun : Unmoved db db')
    (hv : Vaults cfg known db') (hr : (db'.indexerRuns, db'.nextRun) = (db.indexerRuns, db.nextRun)) :
    Stage cfg p.chain c known runs db' where
  toSettled := h.toSettled.unmoved hun
  current n P hP := h.current n P (hun.getBlockHash ▸ hP)
  vaults := hv
  runs_eq := hr.trans h.runs_eq

/-- A header of the chain is inserted. -/
theorem Stage.insertBlock (h : Stage cfg p.chain c known runs db) {header : BlockHeader} {n r : ℕ}
    (hheader : p.chain.header n = some header)
    (hok : Db.insertBlock (blockRow cfg header n) db = .ok (r, db')) :
    Stage cfg p.chain c known runs db' ∧ HasHeader cfg n db' ∧
      ∀ k, HasHeader cfg k db → HasHeader cfg k db' := by
  have hhash := getBlockHash_insertBlock hok
  have hnew : header.hash = ⟨p.chain.blocks.take (n + 1)⟩ ∧ n < p.chain.blocks.length := by
    unfold Chain.header at hheader
    obtain ⟨b, hb, rfl⟩ := Option.map_eq_some_iff.mp hheader
    exact ⟨rfl, (List.getElem?_eq_some_iff.mp hb).1⟩
  have hkeep : ∀ k P, db.getBlockHash cfg.chainId k = some P →
      db'.getBlockHash cfg.chainId k = some P := by
    intro k P hP
    rw [hhash, hP]
    rfl
  have hcurrent : ∀ k P, db'.getBlockHash cfg.chainId k = some P →
      k < p.chain.blocks.length ∧ P = ⟨p.chain.blocks.take (k + 1)⟩ := by
    intro k P hP
    rw [hhash] at hP
    rcases Option.or_eq_some_iff.mp hP with hold | ⟨-, hins⟩
    · exact h.current k P hold
    · split at hins
      · rename_i hkey
        obtain ⟨-, rfl⟩ : cfg.chainId = cfg.chainId ∧ n = k := Prod.mk.injEq .. ▸ hkey
        cases hins
        exact ⟨hnew.2, hnew.1⟩
      · cases hins
  have hholds : ∀ y, db'.Holds y ↔ db.Holds y := by
    cases hok
    intro y
    cases y <;> exact Iff.rfl
  refine ⟨?_, ?_, ?_⟩
  · refine { headers := ?_, cursor := ?_, rows := ?_, complete := ?_, keyed := ?_,
             current := hcurrent, vaults := ?_, runs_eq := ?_ }
    · intro k P _ hP
      exact hcurrent k P hP
    · intro k hk
      obtain ⟨hlt, hP⟩ := h.cursor k hk
      exact ⟨hlt, hkeep k _ hP⟩
    · intro y hy hc
      obtain ⟨P, hP, hmem⟩ := h.rows y ((hholds y).mp hy) hc
      exact ⟨P, hkeep _ P hP, hmem⟩
    · intro k hk y hy
      exact (hholds y).mpr (h.complete k hk y hy)
    · intro y z hy hz
      exact h.keyed y z ((hholds y).mp hy) ((hholds z).mp hz)
    · cases hok
      exact ⟨h.vaults.configured, h.vaults.registered⟩
    · cases hok
      exact h.runs_eq
  · show ∃ P, _ = some P
    rw [hhash]
    cases db.getBlockHash cfg.chainId n with
    | some P => exact ⟨P, rfl⟩
    | none => exact ⟨header.hash, by simp [blockRow, BlockRow.key]⟩
  · rintro k ⟨P, hP⟩
    exact ⟨P, hkeep k P hP⟩

/-- A row of the chain is there after its insert: a row with its key is the row itself. -/
theorem Stage.holds_inserted (h : Stage cfg p.chain c known runs db) (hsound : Sound cfg p.chain.blocks)
    {n r : ℕ} (hx : x ∈ recordsAt cfg p.chain.blocks n) (hok : Db.insertRecord x db = .ok (r, db')) :
    db'.Holds x := by
  rw [holds_insertRecord hok]
  by_cases hfree : ∀ z, db.Holds z → z.key ≠ x.key
  · exact .inr ⟨rfl, hfree⟩
  · left
    obtain ⟨z, hz⟩ := not_forall.mp hfree
    obtain ⟨hz, hne⟩ := Classical.not_imp.mp hz
    have hkey : z.key = x.key := not_not.mp hne
    have hchain : z.position.chainId = cfg.chainId := by
      rw [← (recordsAt_position hx).1]
      exact chainId_of_key hkey
    rw [hsound.unique x (mem_records.mpr ⟨n, hx⟩) z (h.row hz hchain) hkey.symm]
    exact hz

/-- A row of the chain is inserted, or was there. -/
theorem Stage.insertRecord (h : Stage cfg p.chain c known runs db) (hsound : Sound cfg p.chain.blocks)
    {n r : ℕ} (hx : x ∈ recordsAt cfg p.chain.blocks n) (hheader : HasHeader cfg n db)
    (hok : Db.insertRecord x db = .ok (r, db')) :
    Stage cfg p.chain c known runs db' ∧ db'.Holds x ∧
      (∀ y, db.Holds y → db'.Holds y) ∧ ∀ k, HasHeader cfg k db → HasHeader cfg k db' := by
  have hholds := holds_insertRecord hok
  obtain ⟨hblocks, hcontracts, hvaults, hruns⟩ := insertRecord_frame hok
  obtain ⟨-, hnum, -⟩ := recordsAt_position hx
  have hhash : ∀ k, db'.getBlockHash cfg.chainId k = db.getBlockHash cfg.chainId k := by
    intro k
    unfold Db.getBlockHash
    rw [hblocks]
  refine ⟨?_, h.holds_inserted hsound hx hok, fun y hy => (hholds y).mpr (.inl hy), ?_⟩
  · refine { headers := ?_, cursor := ?_, rows := ?_, complete := ?_, keyed := ?_, current := ?_,
             vaults := ?_, runs_eq := hruns.trans h.runs_eq }
    · intro k P hk hP
      exact h.headers k P hk (hhash k ▸ hP)
    · intro k hk
      rw [hhash]
      exact h.cursor k hk
    · intro y hy hc
      rw [hhash]
      rcases (hholds y).mp hy with hy | ⟨rfl, -⟩
      · exact h.rows y hy hc
      · obtain ⟨P, hP⟩ := hheader
        obtain ⟨-, rfl⟩ := h.current n P hP
        rw [hnum]
        refine ⟨_, hP, ?_⟩
        rw [recordsAt_take (Nat.lt_succ_self n)]
        exact hx
    · intro k hk y hy
      exact (hholds y).mpr (.inl (h.complete k hk y hy))
    · exact keyed_insertRecord hok h.keyed
    · intro k P hP
      exact h.current k P (hhash k ▸ hP)
    · refine ⟨?_, ?_⟩
      · rw [hcontracts]
        exact h.vaults.configured
      · rw [hcontracts, hvaults]
        exact h.vaults.registered
  · rintro k ⟨P, hP⟩
    exact ⟨P, hhash k ▸ hP⟩

/-! ### Calls -/

/-- A property of the database, in a tick. -/
def On (P : Db → Prop) : World → Prop := fun w => P w.db

section Calls

variable {α : Type} {P E : Db → Prop} {Q : α → Db → Prop}

theorem triple_rpc {f : Node → Except IndexerError α}
    (hfail : ∀ k, p.fails k = true → ∀ db, P db → E db)
    (hok : ∀ k a, f ⟨p.chain, p.ethCall k⟩ = .ok a → ∀ db, P db → Q a db)
    (herr : ∀ k e, f ⟨p.chain, p.ethCall k⟩ = .error e → ∀ db, P db → E db) :
    Triple (On P) (rpc p.session f) (fun a => On (Q a)) (On E) := by
  intro w hw
  unfold rpc
  by_cases hk : p.session.fails w.calls = true
  · rw [if_pos hk]
    exact hfail w.calls hk w.db hw
  · rw [if_neg hk]
    cases hf : f (p.session.node w.calls) with
    | ok a => exact hok w.calls a hf w.db hw
    | error e => exact herr w.calls e hf w.db hw

theorem triple_sql {f : Statement α} (hfail : ∀ k, p.fails k = true → ∀ db, P db → E db)
    (hok : ∀ db a db', P db → f db = .ok (a, db') → Q a db')
    (herr : ∀ db e, P db → f db = .error e → E db) :
    Triple (On P) (sql p.session f) (fun a => On (Q a)) (On E) := by
  intro w hw
  unfold sql
  by_cases hk : p.session.fails w.calls = true
  · rw [if_pos hk]
    exact hfail w.calls hk w.db hw
  · rw [if_neg hk]
    cases hf : f w.db with
    | ok r => exact hok w.db r.1 r.2 hw hf
    | error e => exact herr w.db e hw hf

/-- A statement that does not fail of itself. -/
theorem triple_sql_ok {f : Statement α} (hfail : ∀ k, p.fails k = true → ∀ db, P db → E db)
    (hf : ∀ db, P db → ∃ a db', f db = .ok (a, db') ∧ Q a db') :
    Triple (On P) (sql p.session f) (fun a => On (Q a)) (On E) := by
  refine triple_sql hfail ?_ ?_
  · intro db a db' hP h
    obtain ⟨a', db'', h', hQ⟩ := hf db hP
    rw [h] at h'
    cases h'
    exact hQ
  · intro db e hP h
    obtain ⟨a', db'', h', -⟩ := hf db hP
    rw [h] at h'
    cases h'

theorem triple_select {f : Db → α} (hfail : ∀ k, p.fails k = true → ∀ db, P db → E db)
    (hQ : ∀ db, P db → Q (f db) db) :
    Triple (On P) (select p.session f) (fun a => On (Q a)) (On E) := by
  refine triple_sql_ok hfail ?_
  intro db hP
  exact ⟨f db, db, rfl, hQ db hP⟩

/-- A query of the node that always has an answer. -/
theorem triple_ask {f : Chain → α} (hfail : ∀ k, p.fails k = true → ∀ db, P db → E db) :
    Triple (On P) (rpc p.session fun node => .ok (f node.chain)) (fun a => On fun db =>
      P db ∧ a = f p.chain) (On E) := by
  refine triple_rpc hfail ?_ ?_
  · intro k a ha db hP
    cases ha
    exact ⟨hP, rfl⟩
  · intro k e he
    cases he

end Calls

/-! ### Ingestion -/

section Ingestion

variable (hsound : Sound cfg p.chain.blocks)
  (hvault : known cfg.vault)
  (hknown : ∀ e ∈ watchedLogs cfg p.chain src dst, ∀ v name asset,
    e.log.data = .event (.vaultRegistered v name asset) → known v)
  (hdst : dst < p.chain.blocks.length)

/-- A failure in the middle: the stage is kept, and something was not smooth. -/
def Broken (cfg : IndexerConfig) (p : Poll) (src dst : ℕ) (known : Address → Prop)
    (P : Db → Prop) (db : Db) : Prop :=
  P db ∧ ¬ Smooth cfg p src dst known

theorem broken_of_fails {P : Db → Prop} (k : ℕ) (hk : p.fails k = true) (db : Db) (hP : P db) :
    Broken cfg p src dst known P db := by
  refine ⟨hP, ?_⟩
  intro hsmooth
  rw [hsmooth.calls k] at hk
  cases hk

/-- Receipts are only read. -/
theorem withStatus_triple {P : Db → Prop} (txs : List Transaction) :
    Triple (On P) (withStatus p.session txs) (fun _ => On P) (On (Broken cfg p src dst known P)) := by
  induction txs with
  | nil => exact triple_pure fun _ hs => hs
  | cons t txs ih =>
    unfold withStatus
    refine triple_bind (triple_ask (f := fun chain => chain.txStatus t.txHash) broken_of_fails) ?_
    intro status
    refine triple_bind (triple_pre ih fun _ hs => hs.1) ?_
    intro rest
    exact triple_pure fun _ hs => hs

theorem blockWithTxs_triple {P : Db → Prop} {n : ℕ} (hn : n < p.chain.blocks.length) :
    Triple (On P) (blockWithTxs p.session n)
      (fun r => On fun db => P db ∧ p.chain.header n = some r.1)
      (On (Broken cfg p src dst known P)) := by
  have hheader : ∃ header, p.chain.header n = some header := by
    unfold Chain.header
    rw [List.getElem?_eq_getElem hn]
    exact ⟨_, rfl⟩
  obtain ⟨header, hheader⟩ := hheader
  unfold blockWithTxs
  refine triple_bind (Q := fun r => On fun db => P db ∧ p.chain.header n = some r.1)
    (triple_rpc broken_of_fails ?_ ?_) ?_
  · intro k a ha db hP
    simp only [hheader, List.getElem?_eq_getElem hn] at ha
    cases ha
    exact ⟨hP, hheader⟩
  · intro k e he
    simp only [hheader, List.getElem?_eq_getElem hn] at he
    cases he
  · rintro ⟨h, txs⟩
    refine triple_of_fact (p := p.chain.header n = some h) (fun _ hs => hs.2) ?_
    intro hh
    refine triple_bind (triple_pre (withStatus_triple txs) fun _ hs => hs.1) ?_
    intro txs'
    exact triple_pure fun _ hs => ⟨hs, hh⟩

/-- A failure leaves less than what held. -/
theorem triple_broken {α : Type} {A : World → Prop} {m : Tick α} {Q : α → World → Prop}
    {P P' : Db → Prop} (h : Triple A m Q (On (Broken cfg p src dst known P)))
    (hP : ∀ db, P db → P' db) : Triple A m Q (On (Broken cfg p src dst known P')) :=
  triple_error h fun w hs => ⟨hP w.db hs.1, hs.2⟩

/-- The stage, with some headers stored. -/
def Filled (cfg : IndexerConfig) (chain : Chain) (c : Option ℕ) (known : Address → Prop)
    (runs : List RunRow × ℕ) (ns : List ℕ) (db : Db) : Prop :=
  Stage cfg chain c known runs db ∧ ∀ n ∈ ns, HasHeader cfg n db

theorem filled_nil (h : Stage cfg p.chain c known runs db) :
    Filled cfg p.chain c known runs [] db := by
  refine ⟨h, ?_⟩
  intro n hn
  cases hn

theorem insertTransactions_triple {ns : List ℕ} (n : ℕ) (txs : List Transaction) :
    Triple (On (Filled cfg p.chain c known runs ns))
      (total (fun t => sql p.session (Db.insertTransaction (transactionRow cfg n t))) txs)
      (fun _ => On (Filled cfg p.chain c known runs ns))
      (On (Broken cfg p src dst known (Stage cfg p.chain c known runs))) := by
  refine triple_total_keeps ?_
  intro t _
  refine triple_broken (triple_sql_ok broken_of_fails ?_) fun _ h => h.1
  rintro db ⟨hstage, hns⟩
  refine ⟨_, _, rfl, ?_, hns⟩
  exact hstage.unmoved (unmoved_of_tables rfl rfl rfl rfl rfl rfl rfl)
    ⟨hstage.vaults.configured, hstage.vaults.registered⟩ rfl

theorem insertBlock_triple {ns : List ℕ} {n : ℕ} {header : BlockHeader}
    (hheader : p.chain.header n = some header) :
    Triple (On (Filled cfg p.chain c known runs ns)) (sql p.session (Db.insertBlock (blockRow cfg header n)))
      (fun _ => On (Filled cfg p.chain c known runs (ns ++ [n])))
      (On (Broken cfg p src dst known (Stage cfg p.chain c known runs))) := by
  refine triple_broken (triple_sql_ok broken_of_fails ?_) fun _ h => h.1
  rintro db ⟨hstage, hns⟩
  refine ⟨_, _, rfl, ?_⟩
  obtain ⟨hstage', hnew, hkeep⟩ := hstage.insertBlock hheader rfl
  refine ⟨hstage', ?_⟩
  intro k hk
  rcases List.mem_append.mp hk with hk | hk
  · exact hkeep k (hns k hk)
  · rw [List.mem_singleton.mp hk]
    exact hnew

theorem ingestBlock_triple {ns : List ℕ} {n : ℕ} (hn : n < p.chain.blocks.length) :
    Triple (On (Filled cfg p.chain c known runs ns)) (ingestBlock p.session cfg n)
      (fun _ => On (Filled cfg p.chain c known runs (ns ++ [n])))
      (On (Broken cfg p src dst known (Stage cfg p.chain c known runs))) := by
  unfold ingestBlock
  refine triple_bind (triple_broken (blockWithTxs_triple hn) fun _ h => h.1) ?_
  rintro ⟨header, txs⟩
  refine triple_of_fact (p := p.chain.header n = some header) (fun _ hs => hs.2) ?_
  intro hheader
  refine triple_bind (triple_pre (insertBlock_triple hheader) fun _ hs => hs.1) ?_
  intro r
  refine triple_bind (insertTransactions_triple n txs) ?_
  intro rs
  exact triple_pure fun _ hs => hs

theorem ingestCursor_triple {ns : List ℕ} {logs : List LogEntry}
    (hlogs : ∀ n ∈ blocksWithEvents logs, n ∈ ns) (hdst : dst < p.chain.blocks.length) :
    Triple (On (Filled cfg p.chain c known runs ns)) (ingestCursor p.session cfg logs dst)
      (fun _ => On (Filled cfg p.chain c known runs (ns ++ [dst])))
      (On (Broken cfg p src dst known (Stage cfg p.chain c known runs))) := by
  unfold ingestCursor
  split
  · rename_i hmem
    refine triple_pure ?_
    rintro w ⟨hstage, hns⟩
    refine ⟨hstage, ?_⟩
    intro k hk
    rcases List.mem_append.mp hk with hk | hk
    · exact hns k hk
    · rw [List.mem_singleton.mp hk]
      exact hns dst (hlogs dst hmem)
  · refine triple_bind (triple_broken (triple_ask (f := fun chain => chain.header dst) broken_of_fails)
      fun _ h => h.1) ?_
    intro header
    refine triple_of_fact (p := header = p.chain.header dst) (fun _ hs => hs.2) ?_
    rintro rfl
    cases hheader : p.chain.header dst with
    | none =>
      unfold Chain.header at hheader
      rw [List.getElem?_eq_getElem hdst] at hheader
      cases hheader
    | some header => exact triple_pre (insertBlock_triple hheader) fun _ hs => hs.1

/-- The stage, with some headers stored and the rows of some logs. -/
structure Logged (cfg : IndexerConfig) (chain : Chain) (c : Option ℕ) (known : Address → Prop)
    (runs : List RunRow × ℕ) (ns : List ℕ) (logs : List LogEntry) (db : Db) : Prop where
  filled : Filled cfg chain c known runs ns db
  rows : ∀ e ∈ logs, ∀ x, recordOf cfg e = some x → db.Holds x

theorem Logged.unmoved {ns : List ℕ} {logs : List LogEntry}
    (h : Logged cfg p.chain c known runs ns logs db) (hun : Unmoved db db')
    (hv : Vaults cfg known db') (hr : (db'.indexerRuns, db'.nextRun) = (db.indexerRuns, db.nextRun)) :
    Logged cfg p.chain c known runs ns logs db' := by
  refine ⟨⟨h.filled.1.unmoved hun hv hr, ?_⟩, ?_⟩
  · intro n hn
    obtain ⟨P, hP⟩ := h.filled.2 n hn
    exact ⟨P, hun.getBlockHash.trans hP⟩
  · intro e he x hx
    exact (hun.holds x).mpr (h.rows e he x hx)

/-- A log without a row is done. -/
theorem Logged.snoc {ns : List ℕ} {logs : List LogEntry} {e : LogEntry}
    (h : Logged cfg p.chain c known runs ns logs db) (he : recordOf cfg e = none) :
    Logged cfg p.chain c known runs ns (logs ++ [e]) db := by
  refine ⟨h.filled, ?_⟩
  intro e' he' x hx
  rcases List.mem_append.mp he' with he' | he'
  · exact h.rows e' he' x hx
  · rw [List.mem_singleton.mp he', he] at hx
    cases hx

/-- More contracts are known. -/
theorem Vaults.upsertContract {r : ContractRow} (h : Vaults cfg known db) :
    Vaults cfg known { db with contracts := Table.insertNew ContractRow.key db.contracts r } := by
  have hgrow : ∀ k, Table.taken ContractRow.key db.contracts k = true →
      Table.taken ContractRow.key (Table.insertNew ContractRow.key db.contracts r) k = true := by
    intro k hk
    obtain ⟨y, hy, rfl⟩ := Table.taken_iff.mp hk
    exact Table.taken_iff.mpr ⟨y, Table.subset_insertNew hy, rfl⟩
  refine ⟨hgrow _ h.configured, ?_⟩
  intro v hv hc
  obtain ⟨hk, ht⟩ := h.registered v hv hc
  exact ⟨hk, hgrow _ ht⟩

/-- A registered vault whose contract is there. -/
theorem Vaults.upsertVault {r : VaultRow} (h : Vaults cfg known db) (hk : known r.vaultAddress)
    (ht : Table.taken ContractRow.key db.contracts (cfg.chainId, r.vaultAddress) = true) :
    Vaults cfg known { db with vaults := Table.insertNew VaultRow.key db.vaults r } := by
  refine ⟨h.configured, ?_⟩
  intro v hv hc
  rcases Table.mem_insertNew.mp hv with hv | ⟨rfl, -⟩
  · exact h.registered v hv hc
  · exact ⟨hk, ht⟩

theorem Vaults.updateStatus {vault : Address} {newStatus changedAt n : ℕ} {chainId : ℤ}
    (h : Vaults cfg known db)
    (hok : Db.updateVaultStatus chainId vault newStatus changedAt db = .ok (n, db')) :
    Vaults cfg known db' := by
  cases hok
  refine ⟨h.configured, ?_⟩
  intro v hv hc
  obtain ⟨u, hu, rfl⟩ := List.mem_map.mp hv
  have hsame : (if u.key = (chainId, vault) then
      { u with status := newStatus, statusChangedAt := some changedAt } else u).chainId = u.chainId ∧
      (if u.key = (chainId, vault) then
        { u with status := newStatus, statusChangedAt := some changedAt } else u).vaultAddress =
        u.vaultAddress := by
    split <;> exact ⟨rfl, rfl⟩
  rw [hsame.2]
  exact h.registered u hu (hsame.1 ▸ hc)

include hknown in
/-- Events that change vaults or proposals keep what is logged. -/
theorem handleUpdate_triple {ns : List ℕ} {logs : List LogEntry} {e : LogEntry} {ev : Event}
    (he : e ∈ watchedLogs cfg p.chain src dst) (hev : e.log.data = .event ev) :
    Triple (On (Logged cfg p.chain c known runs ns logs)) (handleUpdate p.session cfg e ev)
      (fun _ => On (Logged cfg p.chain c known runs ns logs))
      (On (Broken cfg p src dst known (Stage cfg p.chain c known runs))) := by
  cases ev with
  | vaultRegistered vault name asset =>
    unfold handleUpdate
    refine triple_bind (Q := fun _ => On fun db => Logged cfg p.chain c known runs ns logs db ∧
      Table.taken ContractRow.key db.contracts (cfg.chainId, vault) = true)
      (triple_broken (triple_sql_ok broken_of_fails ?_) fun _ h => h.filled.1) ?_
    · intro db h
      refine ⟨_, _, rfl, h.unmoved (unmoved_of_tables rfl rfl rfl rfl rfl rfl rfl)
        h.filled.1.vaults.upsertContract rfl, ?_⟩
      exact Table.taken_iff.mpr Table.exists_key_insertNew
    · intro r
      refine triple_broken (triple_sql broken_of_fails ?_ ?_) fun _ h => h.1.filled.1
      · rintro db rows db' ⟨h, ht⟩ hok
        obtain ⟨-, rfl⟩ := upsertVault_eq_ok hok
        refine h.unmoved (unmoved_of_tables rfl rfl rfl rfl rfl rfl rfl) ?_ rfl
        exact h.filled.1.vaults.upsertVault (hknown e he vault name asset hev) ht
      · intro db err h herr
        refine ⟨h, ?_⟩
        intro hsmooth
        unfold Db.upsertVault at herr
        rw [if_pos (hsmooth.names e he vault name asset hev)] at herr
        cases herr
  | vaultStatusChanged vault newStatus timestamp =>
    unfold handleUpdate
    refine triple_broken (triple_sql_ok broken_of_fails ?_) fun _ h => h.filled.1
    intro db h
    refine ⟨_, _, rfl, h.unmoved (unmoved_of_tables rfl rfl rfl rfl rfl rfl rfl) ?_ rfl⟩
    exact h.filled.1.vaults.updateStatus rfl
  | proposalExecuted proposalId executor =>
    unfold handleUpdate
    refine triple_broken (triple_sql_ok broken_of_fails ?_) fun _ h => h.filled.1
    intro db h
    refine ⟨_, _, rfl, h.unmoved (unmoved_executeProposal rfl) ?_ rfl⟩
    exact ⟨h.filled.1.vaults.configured, h.filled.1.vaults.registered⟩
  | _ => exact triple_pure fun _ hs => hs

include hsound hdst in
/-- The proposal of a vote is there before it: it is below the range, or among the logs done. -/
theorem proposal_of_vote {ns : List ℕ} {pre post : List LogEntry} {e : LogEntry} {v : VoteRow}
    (hsrc : src = fromBlock c) (hle : src ≤ dst)
    (hsplit : watchedLogs cfg p.chain src dst = pre ++ e :: post) (he : recordOf cfg e = some (.vote v))
    (h : Logged cfg p.chain c known runs ns pre db) :
    ∃ q, db.Holds (.proposal q) ∧ q.proposalKey = (v.chainId, v.proposalId) := by
  have hrecords : records cfg p.chain.blocks = _ := records_split hle hdst
  rw [hsplit, List.filterMap_append, List.filterMap_cons, he] at hrecords
  obtain ⟨q, hq, hkey⟩ := hsound.votes
    ((List.range src).flatMap (recordsAt cfg p.chain.blocks) ++ pre.filterMap (recordOf cfg)) v
    (post.filterMap (recordOf cfg) ++ (List.range' (dst + 1) (p.chain.blocks.length - (dst + 1))).flatMap
      (recordsAt cfg p.chain.blocks)) (by simpa [List.append_assoc] using hrecords)
  refine ⟨q, ?_, hkey⟩
  rcases List.mem_append.mp hq with hq | hq
  · obtain ⟨n, hn, hq⟩ := List.mem_flatMap.mp hq
    rw [List.mem_range, hsrc] at hn
    exact h.filled.1.complete n hn _ hq
  · obtain ⟨e', he', hq⟩ := List.mem_filterMap.mp hq
    exact h.rows e' he' _ hq

include hsound hknown hdst in
/-- **One log.**  Its row is there after it. -/
theorem handleLog_triple {ns : List ℕ} {pre post : List LogEntry} {e : LogEntry}
    (hsrc : src = fromBlock c) (hle : src ≤ dst)
    (hsplit : watchedLogs cfg p.chain src dst = pre ++ e :: post) (hns : e.blockNumber ∈ ns) :
    Triple (On (Logged cfg p.chain c known runs ns pre)) (handleLog p.session cfg e)
      (fun _ => On (Logged cfg p.chain c known runs ns (pre ++ [e])))
      (On (Broken cfg p src dst known (Stage cfg p.chain c known runs))) := by
  have he : e ∈ watchedLogs cfg p.chain src dst := by
    rw [hsplit]
    simp
  obtain ⟨hwatched, n, -, -, hlogs⟩ := mem_watchedLogs.mp he
  unfold handleLog
  cases hdata : e.log.data with
  | foreign =>
    refine triple_pure ?_
    intro w h
    exact h.snoc (by simp [recordOf, hdata])
  | raw t =>
    dsimp only
    split
    · rename_i hdecoded
      refine triple_fail ?_
      intro w h
      refine ⟨h.filled.1, ?_⟩
      intro hsmooth
      rw [hsmooth.logs e he t hdata] at hdecoded
      cases hdecoded
    · refine triple_pure ?_
      intro w h
      exact h.snoc (by simp [recordOf, hdata])
  | event ev =>
    have hof : recordOf cfg e = ev.record cfg e := by
      unfold recordOf
      rw [hdata]
    dsimp only
    cases hrecord : ev.record cfg e with
    | none =>
      refine triple_post (handleUpdate_triple hknown he hdata) ?_
      intro _ w h
      exact h.snoc (hof.trans hrecord)
    | some x =>
      refine triple_broken (triple_sql_ok broken_of_fails ?_) fun _ h => h.filled.1
      intro db h
      have hx : x ∈ recordsAt cfg p.chain.blocks n := by
        refine List.mem_filterMap.mpr ⟨e, List.mem_filter.mpr ⟨hlogs, hwatched⟩, hof.trans hrecord⟩
      have hnum : e.blockNumber = n := (logsAt_blockNumber hlogs).1
      obtain ⟨⟨r, db'⟩, hok⟩ : ∃ r, Db.insertRecord x db = .ok r := by
        refine insertRecord_ok ?_
        rintro v rfl
        exact proposal_of_vote hsound hdst hsrc hle hsplit (hof.trans hrecord) h
      obtain ⟨hstage, hholds, hkeep, hheaders⟩ := h.filled.1.insertRecord hsound hx
        (hnum ▸ h.filled.2 _ hns) hok
      refine ⟨r, db', hok, ⟨hstage, ?_⟩, ?_⟩
      · intro k hk
        exact hheaders k (h.filled.2 k hk)
      · intro e' he' y hy
        rcases List.mem_append.mp he' with he' | he'
        · exact hkeep y (h.rows e' he' y hy)
        · rw [List.mem_singleton.mp he', hof, hrecord] at hy
          cases hy
          exact hholds

/-! ### Snapshots -/

/-- What is logged, and the contracts of some vaults. -/
structure Ready (cfg : IndexerConfig) (chain : Chain) (c : Option ℕ) (known : Address → Prop)
    (runs : List RunRow × ℕ) (ns : List ℕ) (logs : List LogEntry) (vs : List Address) (db : Db) : Prop where
  logged : Logged cfg chain c known runs ns logs db
  contracts : ∀ a ∈ vs,
    known a ∧ Table.taken ContractRow.key db.contracts (cfg.chainId, a) = true

/-- A view that must answer. -/
theorem callU256_triple {P : Db → Prop} {a : Address} {view : View} {n : ℕ}
    (hview : Smooth cfg p src dst known → ∀ k, ∃ v, p.ethCall k a view n = .word v) :
    Triple (On P) (callU256 p.session a view n) (fun _ => On P)
      (On (Broken cfg p src dst known P)) := by
  refine triple_rpc broken_of_fails ?_ ?_
  · intro k v _ db hP
    exact hP
  · intro k e he db hP
    refine ⟨hP, ?_⟩
    intro hsmooth
    obtain ⟨v, hv⟩ := hview hsmooth k
    dsimp only at he
    rw [hv] at he
    cases he

/-- A view that need not answer. -/
theorem callU256_keeps {P : Db → Prop} {a : Address} {view : View} {n : ℕ} :
    Triple (On P) (callU256 p.session a view n) (fun _ => On P) (On P) := by
  refine triple_rpc ?_ ?_ ?_
  · intro k _ db hP
    exact hP
  · intro k v _ db hP
    exact hP
  · intro k e _ db hP
    exact hP

theorem callBool_keeps {P : Db → Prop} {a : Address} {view : View} {n : ℕ} :
    Triple (On P) (callBool p.session a view n) (fun _ => On P) (On P) := by
  refine triple_bind callU256_keeps ?_
  intro v
  exact triple_pure fun _ hs => hs

theorem insertVaultSnapshot_triple {ns : List ℕ} {logs : List LogEntry} {vs : List Address}
    {r : SnapshotRow} (hchain : r.chainId = cfg.chainId) (hvs : r.contract ∈ vs) :
    Triple (On (Ready cfg p.chain c known runs ns logs vs))
      (sql p.session (Db.insertVaultSnapshot r))
      (fun _ => On (Ready cfg p.chain c known runs ns logs vs))
      (On (Broken cfg p src dst known (Stage cfg p.chain c known runs))) := by
  refine triple_broken (triple_sql_ok broken_of_fails ?_) fun _ h => h.logged.filled.1
  intro db h
  have ht := (h.contracts r.contract hvs).2
  rw [← hchain] at ht
  unfold Db.insertVaultSnapshot
  rw [if_pos ht]
  split
  · exact ⟨_, _, rfl, h⟩
  · refine ⟨_, _, rfl, h.logged.unmoved (unmoved_of_tables rfl rfl rfl rfl rfl rfl rfl) ?_ rfl,
      h.contracts⟩
    exact ⟨h.logged.filled.1.vaults.configured, h.logged.filled.1.vaults.registered⟩

theorem snapshot_triple {ns : List ℕ} {logs : List LogEntry} {vs : List Address} {a : Address} {n : ℕ}
    (ha : a ∈ vs) (hn : src ≤ n) (hn' : n ≤ dst) :
    Triple (On (Ready cfg p.chain c known runs ns logs vs)) (snapshotVaultAddress p.session cfg a n)
      (fun _ => On (Ready cfg p.chain c known runs ns logs vs))
      (On (Broken cfg p src dst known (Stage cfg p.chain c known runs))) := by
  refine triple_of_fact (p := known a) (fun _ hs => (hs.contracts a ha).1) ?_
  intro hknown
  unfold snapshotVaultAddress
  refine triple_bind (triple_broken (callU256_triple fun hsmooth k =>
    (hsmooth.views a hknown k n hn hn').1) fun _ h => h.logged.filled.1) ?_
  intro totalAssets
  refine triple_bind (triple_broken (callU256_triple fun hsmooth k =>
    (hsmooth.views a hknown k n hn hn').2) fun _ h => h.logged.filled.1) ?_
  intro totalSupply
  refine triple_bind (triple_unwrapOr callU256_keeps) ?_
  intro exitFeeBps
  refine triple_bind (triple_unwrapOr callU256_keeps) ?_
  intro tvlCap
  refine triple_bind (triple_unwrapOr callBool_keeps) ?_
  intro paused
  exact insertVaultSnapshot_triple rfl ha

theorem heartbeat_triple {ns : List ℕ} {logs : List LogEntry} {vs : List Address} {a : Address}
    (ha : a ∈ vs) (hle : src ≤ dst) :
    Triple (On (Ready cfg p.chain c known runs ns logs vs)) (heartbeat p.session cfg dst a)
      (fun _ => On (Ready cfg p.chain c known runs ns logs vs))
      (On (Broken cfg p src dst known (Stage cfg p.chain c known runs))) := by
  unfold heartbeat
  refine triple_bind (Q := fun _ => On (Ready cfg p.chain c known runs ns logs vs))
    (triple_broken (triple_select broken_of_fails fun _ h => h) fun _ h => h.logged.filled.1) ?_
  intro last
  cases last with
  | none => exact snapshot_triple ha hle (Nat.le_refl dst)
  | some prev =>
    dsimp only
    split
    · exact snapshot_triple ha hle (Nat.le_refl dst)
    · exact triple_pure fun _ hs => hs

/-! ### The whole range -/

theorem mem_blocksWithEvents {logs : List LogEntry} {n : ℕ} :
    n ∈ blocksWithEvents logs ↔ ∃ e ∈ logs, e.blockNumber = n := by
  unfold blocksWithEvents
  rw [(List.perm_insertionSort _ _).mem_iff, List.mem_dedup, List.mem_map]

theorem mem_eventBlocksPerContract {logs : List LogEntry} {b : ℕ × Address} :
    b ∈ eventBlocksPerContract logs ↔ ∃ e ∈ logs, (e.blockNumber, e.log.address) = b := by
  unfold eventBlocksPerContract
  rw [(List.perm_insertionSort _ _).mem_iff, List.mem_dedup, List.mem_map]

theorem watchedLogs_range {e : LogEntry} (he : e ∈ watchedLogs cfg p.chain src dst) :
    src ≤ e.blockNumber ∧ e.blockNumber ≤ dst := by
  obtain ⟨-, n, h₁, h₂, hlogs⟩ := mem_watchedLogs.mp he
  rw [(logsAt_blockNumber hlogs).1]
  exact ⟨h₁, h₂⟩

/-- The vaults of a heartbeat have their contracts. -/
theorem ready_heartbeat {ns : List ℕ} {logs : List LogEntry} {vs : List Address} (hvault : known cfg.vault)
    (h : Ready cfg p.chain c known runs ns logs vs db) :
    Ready cfg p.chain c known runs ns logs (heartbeatVaults cfg (db.activeVaults cfg.chainId)) db := by
  refine ⟨h.logged, ?_⟩
  intro a ha
  have hvaults := h.logged.filled.1.vaults
  rcases List.mem_cons.mp ha with rfl | ha
  · exact ⟨hvault, hvaults.configured⟩
  · have hactive := (List.mem_filter.mp (List.mem_dedup.mp ha)).1
    unfold Db.activeVaults at hactive
    rw [(List.perm_insertionSort _ _).mem_iff] at hactive
    obtain ⟨r, hr, rfl⟩ := List.mem_map.mp hactive
    obtain ⟨hr, hc⟩ := List.mem_filter.mp hr
    exact hvaults.registered r hr (by simpa using (of_decide_eq_true hc).1)

/-- With the rows of all logs of the range, and the header of its end, the cursor moves there. -/
theorem Logged.advance {ns : List ℕ} (hsrc : src = fromBlock c) (hns : dst ∈ ns)
    (h : Logged cfg p.chain c known runs ns (watchedLogs cfg p.chain src dst) db) :
    Stage cfg p.chain (some dst) known runs db := by
  have hstage := h.filled.1
  refine { headers := ?_, cursor := ?_, rows := hstage.rows, complete := ?_, keyed := hstage.keyed,
           current := hstage.current, vaults := hstage.vaults, runs_eq := hstage.runs_eq }
  · intro n P _ hP
    exact hstage.current n P hP
  · rintro n ⟨⟩
    obtain ⟨P, hP⟩ := h.filled.2 dst hns
    obtain ⟨hlt, rfl⟩ := hstage.current dst P hP
    exact ⟨hlt, hP⟩
  · intro n hn x hx
    have hn : n ≤ dst := Nat.le_of_lt_succ hn
    by_cases hlow : n < fromBlock c
    · exact hstage.complete n hlow x hx
    · obtain ⟨e, he, hrecord⟩ := List.mem_filterMap.mp hx
      obtain ⟨hlogs, hwatched⟩ := List.mem_filter.mp he
      exact h.rows e (mem_watchedLogs.mpr ⟨hwatched, n, by omega, hn, hlogs⟩) x hrecord

include hsound hknown hdst hvault in
/-- **The ingestion of a range.**  It keeps the stage, also when it fails; when it does not fail, the
stage has moved to the end of the range; and it fails only where something is not smooth. -/
theorem ingest_triple (hsrc : src = fromBlock c) (hle : src ≤ dst) :
    Triple (On (Stage cfg p.chain c known runs)) (ingest p.session cfg src dst)
      (fun _ => On fun db => Stage cfg p.chain c known runs db ∧
        Stage cfg p.chain (some dst) known runs db)
      (On (Broken cfg p src dst known (Stage cfg p.chain c known runs))) := by
  set logs := watchedLogs cfg p.chain src dst with hlogs
  set ns := blocksWithEvents logs ++ [dst] with hns
  have hmem : ∀ e ∈ logs, e.blockNumber ∈ ns := by
    intro e he
    exact List.mem_append.mpr (.inl (mem_blocksWithEvents.mpr ⟨e, he, rfl⟩))
  unfold ingest
  refine triple_bind (triple_ask (f := fun chain => watchedLogs cfg chain src dst) broken_of_fails) ?_
  intro logs'
  refine triple_of_fact (p := logs' = logs) (fun _ hs => hs.2) ?_
  rintro rfl
  refine triple_bind (Q := fun _ => On (Filled cfg p.chain c known runs (blocksWithEvents logs)))
    (triple_pre (triple_total (I := fun pre => On (Filled cfg p.chain c known runs pre)) ?_)
      fun _ hs => filled_nil hs.1) ?_
  · intro pre n post hsplit
    refine ingestBlock_triple ?_
    have hn : n ∈ blocksWithEvents logs := by
      rw [hsplit]
      simp
    obtain ⟨e, he, rfl⟩ := mem_blocksWithEvents.mp hn
    have := (watchedLogs_range he).2
    omega
  intro r₁
  refine triple_bind (ingestCursor_triple (fun n hn => hn) hdst) ?_
  intro r₂
  refine triple_bind (Q := fun _ => On (Logged cfg p.chain c known runs ns logs))
    (triple_pre (triple_total (I := fun pre => On (Logged cfg p.chain c known runs ns pre)) ?_) ?_) ?_
  · intro pre e post hsplit
    refine handleLog_triple hsound hknown hdst hsrc hle hsplit (hmem e ?_)
    rw [hsplit]
    simp
  · intro w hs
    refine ⟨hs, ?_⟩
    intro e he
    cases he
  intro r₃
  refine triple_bind (Q := fun _ => On (Ready cfg p.chain c known runs ns logs [cfg.vault]))
    (triple_pre (triple_total_keeps ?_) ?_) ?_
  · rintro ⟨n, a⟩ hb
    obtain ⟨e, he, heq⟩ := mem_eventBlocksPerContract.mp hb
    obtain ⟨rfl, rfl⟩ := Prod.mk.injEq .. ▸ heq
    obtain ⟨h₁, h₂⟩ := watchedLogs_range he
    unfold snapshotAt
    split
    · exact snapshot_triple List.mem_cons_self h₁ h₂
    · exact triple_pure fun _ hs => hs
  · intro w hs
    refine ⟨hs, ?_⟩
    intro a ha
    rw [List.mem_singleton.mp ha]
    exact ⟨hvault, hs.filled.1.vaults.configured⟩
  intro r₄
  refine triple_bind (Q := fun active => On (Ready cfg p.chain c known runs ns logs
    (heartbeatVaults cfg active)))
    (triple_broken (triple_select broken_of_fails fun _ h => ready_heartbeat hvault h)
      fun _ h => h.logged.filled.1) ?_
  intro active
  refine triple_bind (triple_total_keeps fun a ha => heartbeat_triple ha hle) ?_
  intro r₅
  refine triple_pure ?_
  intro w hs
  exact ⟨hs.logged.filled.1, hs.logged.advance hsrc (by simp [hns])⟩

end Ingestion

end RobotMoney.Indexer
