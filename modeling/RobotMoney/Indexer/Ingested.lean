import RobotMoney.Indexer.Fold

/-!
# What logs leave outside the tables of events

For a log the service also stores the header and the transactions of its block, and a log that registers
a vault stores the vault as a contract.  `Db.Has` says that all of this is there for a log, and that the
log does not fail to decode; a tick on a chain that only grows, if it ends without an error, leaves it so
for every log up to its cursor (`tick_hasUpTo`).
-/

namespace RobotMoney.Indexer

open RobotMoney.Lib Fallible

variable {cfg : IndexerConfig} {chain : Chain} {db db' d : Db} {p : Poll} {n : ℕ} {e : LogEntry}
  {ns : List ℕ} {logs logs' : List LogEntry} {c : Option ℕ}

/-! ### Keys that stay -/

/-- No header, transaction or contract is gone. -/
structure Extends (db db' : Db) : Prop where
  blocks : ∀ k, Table.taken BlockRow.key db.blocks k = true → Table.taken BlockRow.key db'.blocks k = true
  transactions : ∀ k, Table.taken TransactionRow.key db.transactions k = true →
    Table.taken TransactionRow.key db'.transactions k = true
  contracts : ∀ k, Table.taken ContractRow.key db.contracts k = true →
    Table.taken ContractRow.key db'.contracts k = true

theorem extends_of_tables (hb : db'.blocks = db.blocks) (ht : db'.transactions = db.transactions)
    (hc : db'.contracts = db.contracts) : Extends db db' := by
  constructor
  · rw [hb]
    exact fun _ h => h
  · rw [ht]
    exact fun _ h => h
  · rw [hc]
    exact fun _ h => h

theorem extends_upsertContract {r : ContractRow} (h : Db.upsertContract r db = .ok (n, db')) :
    Extends db db' := by
  cases h
  exact ⟨fun _ h => h, fun _ h => h, fun _ h => Table.taken_insertNew h⟩

theorem extends_insertRecord {x : Record} (h : Db.insertRecord x db = .ok (n, db')) : Extends db db' := by
  cases x with
  | vote r =>
    have h : Db.insertVote r db = .ok (n, db') := h
    unfold Db.insertVote at h
    split at h
    · cases h
      exact extends_of_tables rfl rfl rfl
    · split at h
      · cases h
        exact extends_of_tables rfl rfl rfl
      · cases h
  | _ =>
    cases h
    exact extends_of_tables rfl rfl rfl

theorem extends_upsertVault {r : VaultRow} (h : Db.upsertVault r db = .ok (n, db')) : Extends db db' := by
  obtain ⟨-, rfl⟩ := upsertVault_eq_ok h
  exact extends_of_tables rfl rfl rfl

theorem extends_insertVaultSnapshot {r : SnapshotRow} (h : Db.insertVaultSnapshot r db = .ok (n, db')) :
    Extends db db' := by
  unfold Db.insertVaultSnapshot at h
  split at h
  · cases h
    exact extends_of_tables rfl rfl rfl
  · split at h
    · cases h
      exact extends_of_tables rfl rfl rfl
    · cases h

/-! ### What a log leaves -/

/-- The header of the block at a height is stored, and all its transactions. -/
structure Db.HasBlock (cfg : IndexerConfig) (chain : Chain) (n : ℕ) (db : Db) : Prop where
  header : Table.taken BlockRow.key db.blocks (cfg.chainId, n) = true
  transactions : ∀ b, chain.blocks[n]? = some b → ∀ t ∈ b.txs,
    Table.taken TransactionRow.key db.transactions (cfg.chainId, t.txHash) = true

/-- A log that was handled: it decodes, and the vault that it registers has a name that is text, and is a
contract. -/
structure Db.HasLog (cfg : IndexerConfig) (e : LogEntry) (db : Db) : Prop where
  decoded : ∀ t, e.log.data = .raw t → t.decoded = false
  name : ∀ vault name asset, e.log.data = .event (.vaultRegistered vault name asset) →
    Db.isText name = true
  contract : ∀ vault name asset, e.log.data = .event (.vaultRegistered vault name asset) →
    Table.taken ContractRow.key db.contracts (cfg.chainId, vault) = true

/-- Everything outside the tables of events that the ingestion of a log leaves. -/
def Db.Has (cfg : IndexerConfig) (chain : Chain) (e : LogEntry) (db : Db) : Prop :=
  db.HasBlock cfg chain e.blockNumber ∧ db.HasLog cfg e

theorem Db.HasBlock.mono (h : db.HasBlock cfg chain n) (hext : Extends db db') :
    db'.HasBlock cfg chain n :=
  ⟨hext.blocks _ h.header, fun b hb t ht => hext.transactions _ (h.transactions b hb t ht)⟩

theorem Db.HasLog.mono (h : db.HasLog cfg e) (hext : Extends db db') : db'.HasLog cfg e :=
  ⟨h.decoded, h.name, fun vault name asset he => hext.contracts _ (h.contract vault name asset he)⟩

/-- Some heights, and some logs, have been ingested. -/
structure Db.Knows (cfg : IndexerConfig) (chain : Chain) (ns : List ℕ) (logs : List LogEntry) (db : Db) :
    Prop where
  blocks : ∀ n ∈ ns, db.HasBlock cfg chain n
  logs : ∀ e ∈ logs, db.HasLog cfg e

theorem Db.Knows.mono (h : db.Knows cfg chain ns logs) (hext : Extends db db') :
    db'.Knows cfg chain ns logs :=
  ⟨fun n hn => (h.blocks n hn).mono hext, fun e he => (h.logs e he).mono hext⟩

theorem Db.Knows.snoc_block (h : db.Knows cfg chain ns logs) (hn : db.HasBlock cfg chain n) :
    db.Knows cfg chain (ns ++ [n]) logs := by
  refine ⟨?_, h.logs⟩
  intro m hm
  rcases List.mem_append.mp hm with hm | hm
  · exact h.blocks m hm
  · rw [List.mem_singleton.mp hm]
    exact hn

theorem Db.Knows.snoc_log (h : db.Knows cfg chain ns logs) (he : db.HasLog cfg e) :
    db.Knows cfg chain ns (logs ++ [e]) := by
  refine ⟨h.blocks, ?_⟩
  intro e' he'
  rcases List.mem_append.mp he' with he' | he'
  · exact h.logs e' he'
  · rw [List.mem_singleton.mp he']
    exact he

/-- A statement that only adds. -/
theorem sql_knows {α : Type} {f : Statement α} {sess : Session}
    (hf : ∀ db a db', f db = .ok (a, db') → Extends db db') :
    Triple (On (Db.Knows cfg chain ns logs)) (sql sess f) (fun _ => On (Db.Knows cfg chain ns logs))
      (fun _ => True) :=
  triple_lenient (sql_keeps fun db a db' h hok => h.mono (hf db a db' hok))

/-! ### Ingestion -/

/-- The transactions of a block come with their hashes. -/
theorem withStatus_hashes {P : Db → Prop} {sess : Session} (txs : List Transaction) :
    Triple (On P) (withStatus sess txs)
      (fun txs' w => txs'.map (fun t => t.txHash) = txs.map (fun t => t.txHash) ∧ On P w) (On P) := by
  induction txs with
  | nil => exact triple_pure fun _ hs => ⟨rfl, hs⟩
  | cons t txs ih =>
    unfold withStatus
    refine triple_bind read_keeps ?_
    intro status
    refine triple_bind ih ?_
    intro rest
    refine triple_pure ?_
    rintro w ⟨hrest, hw⟩
    refine ⟨?_, hw⟩
    rw [List.map_cons, List.map_cons, hrest]

theorem blockWithTxs_hashes {P : Db → Prop} :
    Triple (On P) (blockWithTxs p.session n)
      (fun r w => (∃ b, p.chain.blocks[n]? = some b ∧
        r.2.map (fun t => t.txHash) = b.txs.map (fun t => t.txHash)) ∧ On P w) (On P) := by
  unfold blockWithTxs
  refine triple_bind (Q := fun r w => p.chain.blocks[n]?.map (fun b => b.txs) = some r.2 ∧ On P w) ?_ ?_
  · refine triple_rpc (Q := fun (r : BlockHeader × List Transaction) db =>
      p.chain.blocks[n]?.map (fun b => b.txs) = some r.2 ∧ P db) (fun _ _ _ h => h) ?_ (fun _ _ _ _ h => h)
    intro k r hr db hP
    refine ⟨?_, hP⟩
    split at hr
    · rename_i b _ hb
      cases hr
      rw [show p.chain.blocks[n]? = some b from hb]
      rfl
    · cases hr
  · rintro ⟨header, txs⟩
    refine triple_of_fact (fun _ hs => hs.1) ?_
    intro htxs
    obtain ⟨b, hb, hbtxs⟩ := Option.map_eq_some_iff.mp htxs
    refine triple_bind (triple_pre (withStatus_hashes txs) fun _ hs => hs.2) ?_
    intro txs'
    refine triple_pure ?_
    rintro w ⟨hhashes, hw⟩
    refine ⟨⟨b, hb, ?_⟩, hw⟩
    rw [hbtxs]
    exact hhashes

/-- The header of a block and its transactions. -/
theorem ingestBlock_knows (hgrown : p.chain.blocks <+: chain.blocks) :
    Triple (On (Db.Knows cfg chain ns logs)) (ingestBlock p.session cfg n)
      (fun _ => On (Db.Knows cfg chain (ns ++ [n]) logs)) (fun _ => True) := by
  unfold ingestBlock
  refine triple_bind (triple_lenient blockWithTxs_hashes) ?_
  rintro ⟨header, txs⟩
  refine triple_of_fact (fun _ hs => hs.1) ?_
  rintro ⟨b, hb, htxs⟩
  have hblock : chain.blocks[n]? = some b := by
    obtain ⟨rest, hrest⟩ := hgrown
    rw [← hrest, List.getElem?_append_left (List.getElem?_eq_some_iff.mp hb).1]
    exact hb
  -- the header is there, and the transactions inserted so far
  let I (pre : List Transaction) (db : Db) : Prop := db.Knows cfg chain ns logs ∧
    Table.taken BlockRow.key db.blocks (cfg.chainId, n) = true ∧
    ∀ t ∈ pre, Table.taken TransactionRow.key db.transactions (cfg.chainId, t.txHash) = true
  refine triple_bind (Q := fun _ => On (I [])) (triple_conseq (past_sql (k := 0)
    (P := Db.Knows cfg chain ns logs) (Q := fun _ => I []) ?_)
    (fun _ hs => ⟨Nat.zero_le _, hs.2⟩) (fun _ _ hs => hs.2) fun _ _ => trivial) ?_
  · rintro db r db' h hok
    cases hok
    refine ⟨h.mono ⟨fun _ hk => Table.taken_insertNew hk, fun _ hk => hk, fun _ hk => hk⟩,
      Table.taken_insertNew_self (r := blockRow cfg header n), ?_⟩
    intro t ht
    cases ht
  intro r
  refine triple_bind (Q := fun _ => On (I txs)) (triple_total (I := fun pre => On (I pre)) ?_) ?_
  · intro pre t post _
    refine triple_conseq (past_sql (k := 0) (P := I pre) (Q := fun _ => I (pre ++ [t])) ?_)
      (fun _ hs => ⟨Nat.zero_le _, hs⟩) (fun _ _ hs => hs.2) fun _ _ => trivial
    rintro db r db' ⟨h, hheader, hpre⟩ hok
    cases hok
    refine ⟨h.mono ⟨fun _ hk => hk, fun _ hk => Table.taken_insertNew hk, fun _ hk => hk⟩, hheader, ?_⟩
    intro t' ht'
    rcases List.mem_append.mp ht' with ht' | ht'
    · exact Table.taken_insertNew (hpre t' ht')
    · rw [List.mem_singleton.mp ht']
      exact Table.taken_insertNew_self (r := transactionRow cfg n t)
  · intro rs
    refine triple_pure ?_
    rintro w ⟨h, hheader, hall⟩
    refine h.snoc_block ⟨hheader, ?_⟩
    intro b' hb' t ht
    cases hblock.symm.trans hb'
    have hmem : t.txHash ∈ txs.map (fun t => t.txHash) := htxs ▸ List.mem_map_of_mem ht
    obtain ⟨t', ht', heq⟩ := List.mem_map.mp hmem
    rw [← heq]
    exact hall t' ht'

theorem ingestCursor_knows : Triple (On (Db.Knows cfg chain ns logs')) (ingestCursor p.session cfg logs n)
    (fun _ => On (Db.Knows cfg chain ns logs')) (fun _ => True) := by
  unfold ingestCursor
  split
  · exact triple_pure fun _ hs => hs
  · refine triple_bind (triple_lenient read_keeps) ?_
    intro header
    cases header with
    | none => exact triple_pure fun _ hs => hs
    | some header =>
      refine sql_knows ?_
      rintro db a db' hok
      cases hok
      exact ⟨fun _ hk => Table.taken_insertNew hk, fun _ hk => hk, fun _ hk => hk⟩

/-- A log that is handled without an error. -/
theorem handleLog_knows {sess : Session} :
    Triple (On (Db.Knows cfg chain ns logs)) (handleLog sess cfg e)
      (fun _ => On (Db.Knows cfg chain ns (logs ++ [e]))) (fun _ => True) := by
  have hplain : ∀ {db : Db}, db.Knows cfg chain ns logs → (∀ t, e.log.data ≠ .raw t) →
      (∀ vault name asset, e.log.data ≠ .event (.vaultRegistered vault name asset)) →
      db.Knows cfg chain ns (logs ++ [e]) := by
    intro db h hraw hreg
    exact h.snoc_log ⟨fun t ht => absurd ht (hraw t),
      fun vault name asset he => absurd he (hreg vault name asset),
      fun vault name asset he => absurd he (hreg vault name asset)⟩
  unfold handleLog
  cases hdata : e.log.data with
  | foreign =>
    refine triple_pure ?_
    intro w hw
    exact hplain hw (by simp [hdata]) (by simp [hdata])
  | raw t =>
    dsimp only
    split
    · exact triple_fail fun _ _ => trivial
    · rename_i hdecoded
      refine triple_pure ?_
      intro w hw
      refine Db.Knows.snoc_log hw ⟨?_, by simp [hdata], by simp [hdata]⟩
      rintro t' ht'
      rw [hdata] at ht'
      cases ht'
      simpa using hdecoded
  | event ev =>
    dsimp only
    cases hrecord : ev.record cfg e with
    | some x =>
      refine triple_post (sql_knows fun db a db' hok => extends_insertRecord hok) ?_
      intro a w hw
      refine hplain hw (by simp [hdata]) ?_
      rintro vault name asset he
      rw [hdata] at he
      cases he
      cases hrecord
    | none =>
      dsimp only
      unfold handleUpdate
      cases ev with
      | vaultRegistered vault name asset =>
        refine triple_bind (Q := fun _ => On fun db => db.Knows cfg chain ns logs ∧
          Table.taken ContractRow.key db.contracts (cfg.chainId, vault) = true)
          (triple_conseq (past_sql (k := 0) (P := Db.Knows cfg chain ns logs) (Q := fun _ db =>
            db.Knows cfg chain ns logs ∧
              Table.taken ContractRow.key db.contracts (cfg.chainId, vault) = true) ?_)
            (fun _ hs => ⟨Nat.zero_le _, hs⟩) (fun _ _ hs => hs.2) fun _ _ => trivial) ?_
        · rintro db a db' h hok
          refine ⟨h.mono (extends_upsertContract hok), ?_⟩
          cases hok
          exact Table.taken_insertNew_self (r := (⟨cfg.chainId, vault, "vault", none⟩ : ContractRow))
        · intro _
          refine triple_conseq (past_sql (k := 0) (P := fun db => db.Knows cfg chain ns logs ∧
            Table.taken ContractRow.key db.contracts (cfg.chainId, vault) = true)
            (Q := fun _ => Db.Knows cfg chain ns (logs ++ [e])) ?_)
            (fun _ hs => ⟨Nat.zero_le _, hs⟩) (fun _ _ hs => hs.2) fun _ _ => trivial
          rintro db a db' ⟨h, hc⟩ hok
          have hext := extends_upsertVault hok
          refine (h.mono hext).snoc_log ⟨?_, ?_, ?_⟩
          · intro t ht
            rw [hdata] at ht
            cases ht
          · rintro vault' name' asset' he
            rw [hdata] at he
            cases he
            exact (upsertVault_eq_ok hok).1
          · rintro vault' name' asset' he
            rw [hdata] at he
            cases he
            exact hext.contracts _ hc
      | vaultStatusChanged vault newStatus timestamp =>
        refine triple_post (sql_knows ?_) fun _ _ hw => hplain hw (by simp [hdata]) (by simp [hdata])
        rintro db a db' hok
        cases hok
        exact extends_of_tables rfl rfl rfl
      | proposalExecuted proposalId executor =>
        refine triple_post (sql_knows ?_) fun _ _ hw => hplain hw (by simp [hdata]) (by simp [hdata])
        rintro db a db' hok
        cases hok
        exact extends_of_tables rfl rfl rfl
      | _ => cases hrecord

/-- The ingestion of logs. -/
theorem ingestLogs_knows (hgrown : p.chain.blocks <+: chain.blocks) :
    Triple (On (Db.Knows cfg chain ns logs')) (ingestLogs p.session cfg logs n)
      (fun _ => On (Db.Knows cfg chain (ns ++ blocksWithEvents logs) (logs' ++ logs)))
      (fun _ => True) := by
  have hsnapshot : ∀ (r : SnapshotRow) (k : ℕ) (db db' : Db),
      db.Knows cfg chain (ns ++ blocksWithEvents logs) (logs' ++ logs) →
      Db.insertVaultSnapshot r db = .ok (k, db') →
      db'.Knows cfg chain (ns ++ blocksWithEvents logs) (logs' ++ logs) :=
    fun r k db db' h hok => h.mono (extends_insertVaultSnapshot hok)
  unfold ingestLogs
  refine triple_bind (Q := fun _ => On (Db.Knows cfg chain (ns ++ blocksWithEvents logs) logs'))
    (triple_pre (triple_total (I := fun pre => On (Db.Knows cfg chain (ns ++ pre) logs')) ?_)
      fun _ hs => by simpa using hs) ?_
  · intro pre n post _
    rw [← List.append_assoc]
    exact ingestBlock_knows hgrown
  intro r₁
  refine triple_bind ingestCursor_knows ?_
  intro r₂
  refine triple_bind (Q := fun _ => On (Db.Knows cfg chain (ns ++ blocksWithEvents logs) (logs' ++ logs)))
    (triple_pre (triple_total (I := fun pre =>
      On (Db.Knows cfg chain (ns ++ blocksWithEvents logs) (logs' ++ pre))) ?_)
      fun _ hs => by simpa using hs) ?_
  · intro pre e post _
    rw [← List.append_assoc]
    exact handleLog_knows
  intro r₃
  refine triple_bind (triple_total_keeps fun b _ => triple_lenient (snapshotAt_keeps hsnapshot)) ?_
  intro r₄
  refine triple_bind (triple_lenient select_keeps) ?_
  intro active
  refine triple_bind (triple_total_keeps fun a _ => triple_lenient (heartbeat_keeps hsnapshot)) ?_
  intro r₅
  exact triple_pure fun _ hs => hs

/-! ### Ticks -/

/-- The database has every watched log of the chain up to the cursor `c`. -/
def Db.HasUpTo (cfg : IndexerConfig) (chain : Chain) (c : Option ℕ) (db : Db) : Prop :=
  ∀ e ∈ logsIn cfg chain 0 (fromBlock c), db.Has cfg chain e

theorem Db.HasUpTo.mono (h : db.HasUpTo cfg chain c) (hext : Extends db db') : db'.HasUpTo cfg chain c :=
  fun e he => ⟨(h e he).1.mono hext, (h e he).2.mono hext⟩

theorem Extends.trans {db'' : Db} (h : Extends db db') (h' : Extends db' db'') : Extends db db'' :=
  ⟨fun k hk => h'.blocks k (h.blocks k hk), fun k hk => h'.transactions k (h.transactions k hk),
    fun k hk => h'.contracts k (h.contracts k hk)⟩

/-- The ingestion of the logs of a range. -/
theorem ingestLogs_hasUpTo (hgrown : p.chain.blocks <+: chain.blocks) {target : ℕ}
    (hle : fromBlock c ≤ target) (htip : target ≤ p.chain.tip) :
    Triple (On (Db.HasUpTo cfg chain c))
      (ingestLogs p.session cfg (watchedLogs cfg p.chain (fromBlock c) target) target)
      (fun _ => On (Db.HasUpTo cfg chain (some target))) (fun _ => True) := by
  have hlogs : watchedLogs cfg p.chain (fromBlock c) target =
      logsIn cfg chain (fromBlock c) (target + 1) :=
    logsIn_of_grown hgrown (Chain.lt_length_iff.mpr htip)
  refine triple_conseq (P := On (Db.Knows cfg chain
    ((logsIn cfg chain 0 (fromBlock c)).map fun e => e.blockNumber) (logsIn cfg chain 0 (fromBlock c))))
    (ingestLogs_knows hgrown) ?_ ?_ fun _ _ => trivial
  · intro w hw
    refine ⟨?_, fun e he => (hw e he).2⟩
    intro n hn
    obtain ⟨e, he, rfl⟩ := List.mem_map.mp hn
    exact (hw e he).1
  · intro a w hw e he
    rw [hlogs] at hw
    have hsplit : logsIn cfg chain 0 (fromBlock (some target)) =
        logsIn cfg chain 0 (fromBlock c) ++ logsIn cfg chain (fromBlock c) (target + 1) :=
      logsIn_append (Nat.zero_le _) (Nat.le_succ_of_le hle)
    rw [hsplit] at he
    refine ⟨hw.blocks _ ?_, hw.logs e he⟩
    rcases List.mem_append.mp he with he | he
    · exact List.mem_append_left _ (List.mem_map_of_mem he)
    · exact List.mem_append_right _ (mem_blocksWithEvents.mpr ⟨e, he, rfl⟩)

theorem runInner_hasUpTo (hgrown : p.chain.blocks <+: chain.blocks)
    (hno : ¬ Reorganized (d.stored cfg) p.chain c) (h : d.HasUpTo cfg chain c) :
    Triple (On (· = d)) (runInner p.session cfg c)
      (fun o => On (Db.HasUpTo cfg chain o.lastIndexedBlock)) (fun _ => True) := by
  unfold runInner
  refine triple_bind (Q := fun r w => r.1 = c ∧ On (Db.HasUpTo cfg chain c) w)
    (triple_post reorgCheck_stands ?_) ?_
  · rintro ⟨c₁, reorg⟩ w hcheck
    have hcheck : CheckedTo cfg p.chain c d c₁ w.db := hcheck
    generalize hdb : w.db = d' at hcheck
    cases hcheck with
    | quiet =>
      refine ⟨rfl, ?_⟩
      show w.db.HasUpTo cfg chain c
      rw [hdb]
      exact h
    | rolled hre => exact absurd hre hno
  rintro ⟨c₁, reorg⟩
  refine triple_of_fact (fun _ hs => hs.1) ?_
  rintro rfl
  refine triple_bind (triple_pre (lenient_ask (f := fun chain => chain.tip)) fun _ hs => hs.2) ?_
  intro tip
  refine triple_of_fact (fun _ hs => hs.1) ?_
  rintro rfl
  refine triple_pre (P := On (Db.HasUpTo cfg chain c₁)) ?_ fun _ hs => hs.2
  cases htarget : targetOf cfg (fromBlock c₁) p.chain.tip with
  | none => exact triple_pure fun _ hs => hs
  | some target =>
    obtain ⟨hle, htip⟩ := targetOf_eq_some htarget
    dsimp only
    rw [ingest_eq, bind_assoc]
    refine triple_bind (lenient_ask (f := fun chain => watchedLogs cfg chain (fromBlock c₁) target)) ?_
    intro logs
    refine triple_of_fact (fun _ hs => hs.1) ?_
    rintro rfl
    refine triple_bind (triple_pre (ingestLogs_hasUpTo hgrown hle htip) fun _ hs => hs.2) ?_
    intro rows
    exact triple_pure fun _ hs => hs

theorem openRun_extends {sess : Session} : Triple (On (Extends db)) (openRun sess cfg)
    (fun _ => On (Extends db)) (On (Extends db)) := by
  have hupsert : ∀ {r : ContractRow}, Triple (On (Extends db)) (sql sess (Db.upsertContract r))
      (fun _ => On (Extends db)) (On (Extends db)) := by
    intro r
    refine sql_keeps ?_
    intro d a d' h hok
    exact h.trans (extends_upsertContract hok)
  unfold openRun upsertContracts
  simp only [bind_assoc, pure_bind]
  refine triple_bind (sql_keeps ?_) ?_
  · intro d a d' h hok
    cases hok
    exact h.trans (extends_of_tables rfl rfl rfl)
  intro _
  refine triple_bind hupsert ?_
  intro _
  refine triple_bind hupsert ?_
  intro _
  refine triple_bind (triple_total_keeps fun _ _ => hupsert) ?_
  intro _
  refine triple_bind (triple_total_keeps fun _ _ => hupsert) ?_
  intro _
  refine triple_bind select_keeps ?_
  intro c
  refine triple_bind (sql_keeps ?_) ?_
  · intro d a d' h hok
    cases hok
    exact h.trans (extends_of_tables rfl rfl rfl)
  · intro _
    exact triple_pure fun _ hs => hs

/-- The end of a tick, when its run has returned. -/
theorem finishTick_hasUpTo {runId src : ℕ} (hgrown : p.chain.blocks <+: chain.blocks)
    (hno : ¬ Reorganized (d.stored cfg) p.chain c) (h : d.HasUpTo cfg chain c) :
    Triple (On (· = d)) (finishTick p.session cfg runId src c)
      (fun o => On fun db => o.error = none → db.HasUpTo cfg chain o.lastIndexedBlock)
      (fun _ => True) := by
  unfold finishTick
  refine triple_bind (triple_attempt (R := fun r w => ∀ o, r = .ok o →
    w.db.HasUpTo cfg chain o.lastIndexedBlock) (runInner_hasUpTo hgrown hno h) ?_ ?_) ?_
  · rintro o w hw o' ⟨⟩
    exact hw
  · rintro e w _ o ⟨⟩
  intro r
  cases r with
  | ok o =>
    refine triple_bind (Q := fun _ => On (Db.HasUpTo cfg chain o.lastIndexedBlock))
      (triple_pre (triple_lenient (sql_keeps ?_)) fun w hw => hw o rfl) ?_
    · intro db a db' hdb hok
      cases hok
      exact hdb.mono (extends_of_tables rfl rfl rfl)
    · intro _
      exact triple_pure fun _ hs _ => hs
  | error e =>
    refine triple_bind (Q := fun _ _ => True) ?_ ?_
    · intro w _
      split <;> trivial
    · intro _
      refine triple_pure ?_
      intro w _ herr
      cases herr

/-- **One tick** on a chain that only grows. -/
theorem tick_hasUpTo {o : IndexerOutcome} (hgrown : p.chain.blocks <+: chain.blocks)
    (hno : ¬ Reorganized (db.stored cfg) p.chain (db.lastIndexedBlock cfg.chainId))
    (h : db.HasUpTo cfg chain (db.lastIndexedBlock cfg.chainId))
    (hok : tick p.session cfg db = (.ok o, db')) (herr : o.error = none) :
    db'.HasUpTo cfg chain o.lastIndexedBlock := by
  have htriple : Triple (On (· = db)) (runOnce p.session cfg)
      (fun o => On fun db' => o.error = none → db'.HasUpTo cfg chain o.lastIndexedBlock)
      (fun _ => True) := by
    rw [runOnce_eq]
    refine triple_bind (triple_error (triple_and openRun_stands (triple_pre (P := On (Extends db))
      openRun_extends ?_)) fun _ _ => trivial) ?_
    · rintro w rfl
      exact extends_of_tables rfl rfl rfl
    rintro r w ⟨⟨hopen, rfl⟩, hext⟩
    have hno' : ¬ Reorganized (w.db.stored cfg) p.chain (db.lastIndexedBlock cfg.chainId) := by
      rw [hopen.stored]
      exact hno
    exact finishTick_hasUpTo hgrown hno' (h.mono hext) w rfl
  have htriple := htriple ⟨db, 0⟩ rfl
  unfold tick at hok
  rcases hrun : runOnce p.session cfg ⟨db, 0⟩ with ⟨e | o', w⟩
  · rw [hrun] at hok
    cases hok
  · rw [hrun] at htriple hok
    cases hok
    exact htriple herr

end RobotMoney.Indexer
