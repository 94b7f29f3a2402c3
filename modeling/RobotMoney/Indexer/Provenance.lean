import RobotMoney.Indexer.Completeness

/-!
# Where rows come from

A tick reads logs and headers by height, in different calls, and a row has no block hash of its own.
`Origin` is the invariant that ties them together: every row is that of the log it came from, and the log
is in the block whose header is stored at its height.

* During a tick the node may switch from one chain to another at any call.  The invariant is kept if
  the blocks of the logs stay (`Firm`), and no header stored above the cursor is of another block
  (`Clear`): `rows_agree`.
* Between ticks the chain may be reorganized.  If the check at the cursor notices whenever a stored header
  is no longer the chain's (`Checked`), the rows after a tick are those of its chain: `rows_fresh`.

Neither is so in general: the calls of a tick are not made on one block, and a tick that fails leaves
headers and rows above the cursor, where nobody looks (`logs_of_another_block`, `stale_row_survives`).
-/

namespace RobotMoney.Indexer

open RobotMoney.Lib Fallible

/-- Which log a row came from. -/
abbrev Source : Type := Record → LogEntry → Prop

variable {cfg : IndexerConfig} {sess : Session} {db db' d : Db} {k n : ℕ} {c : Option ℕ} {x : Record}
  {S : Source} {G G' : ℕ → BlockHash → Prop} {logs : List LogEntry} {ns : List ℕ}

/-! ### Calls -/

/-- Exactly `k` calls were made. -/
def At (k : ℕ) (P : Db → Prop) (w : World) : Prop := w.calls = k ∧ P w.db

/-- At least `k` calls were made. -/
def Past (k : ℕ) (P : Db → Prop) (w : World) : Prop := k ≤ w.calls ∧ P w.db

section Calls

variable {α : Type} {P : Db → Prop} {Q : α → Db → Prop}

theorem at_rpc {f : Node → Except IndexerError α} :
    Triple (At k P) (rpc sess f) (fun a w => f (sess.node k) = .ok a ∧ At (k + 1) P w) (On P) := by
  rintro w ⟨rfl, hP⟩
  unfold rpc
  by_cases hk : sess.fails w.calls = true
  · rw [if_pos hk]
    exact hP
  · rw [if_neg hk]
    cases hf : f (sess.node w.calls) with
    | ok a => exact ⟨rfl, rfl, hP⟩
    | error e => exact hP

theorem at_sql {f : Statement α} (hf : ∀ db a db', P db → f db = .ok (a, db') → Q a db') :
    Triple (At k P) (sql sess f) (fun a => At (k + 1) (Q a)) (On P) := by
  rintro w ⟨rfl, hP⟩
  unfold sql
  by_cases hk : sess.fails w.calls = true
  · rw [if_pos hk]
    exact hP
  · rw [if_neg hk]
    cases hok : f w.db with
    | ok r => exact ⟨rfl, hf w.db r.1 r.2 hP hok⟩
    | error e => exact hP

theorem at_select {f : Db → α} :
    Triple (At k P) (select sess f) (fun a => At (k + 1) fun db => P db ∧ a = f db) (On P) := by
  refine at_sql ?_
  intro db a db' hP h
  cases h
  exact ⟨hP, rfl⟩

theorem past_rpc {f : Node → Except IndexerError α} :
    Triple (Past k P) (rpc sess f)
      (fun a w => ∃ m, k ≤ m ∧ f (sess.node m) = .ok a ∧ Past (m + 1) P w) (On P) := by
  rintro w ⟨hk, hP⟩
  unfold rpc
  by_cases hfail : sess.fails w.calls = true
  · rw [if_pos hfail]
    exact hP
  · rw [if_neg hfail]
    cases hf : f (sess.node w.calls) with
    | ok a => exact ⟨w.calls, hk, hf, le_refl _, hP⟩
    | error e => exact hP

theorem past_sql {f : Statement α} (hf : ∀ db a db', P db → f db = .ok (a, db') → Q a db') :
    Triple (Past k P) (sql sess f) (fun a => Past k (Q a)) (On P) := by
  rintro w ⟨hk, hP⟩
  unfold sql
  by_cases hfail : sess.fails w.calls = true
  · rw [if_pos hfail]
    exact hP
  · rw [if_neg hfail]
    cases hok : f w.db with
    | ok r => exact ⟨Nat.le_succ_of_le hk, hf w.db r.1 r.2 hP hok⟩
    | error e => exact hP

/-- A call of the node whose answer does not matter. -/
theorem read_keeps {f : Node → Except IndexerError α} :
    Triple (On P) (rpc sess f) (fun _ => On P) (On P) := by
  intro w hP
  unfold rpc
  by_cases hfail : sess.fails w.calls = true
  · rw [if_pos hfail]
    exact hP
  · rw [if_neg hfail]
    cases f (sess.node w.calls) with
    | ok a => exact hP
    | error e => exact hP

theorem sql_keeps {f : Statement α} (hf : ∀ db a db', P db → f db = .ok (a, db') → P db') :
    Triple (On P) (sql sess f) (fun _ => On P) (On P) :=
  triple_conseq (past_sql (Q := fun _ => P) (k := 0) hf) (fun _ hs => ⟨Nat.zero_le _, hs⟩)
    (fun _ _ hs => hs.2) fun _ hs => hs

theorem select_keeps {f : Db → α} : Triple (On P) (select sess f) (fun _ => On P) (On P) := by
  refine sql_keeps ?_
  intro db a db' hP h
  cases h
  exact hP

end Calls

/-! ### The invariant -/

/-- The log `e` has the row `x`, is one that the service watches in the block it names, and the header
of that block is stored. -/
structure Placed (cfg : IndexerConfig) (db : Db) (x : Record) (e : LogEntry) : Prop where
  record : recordOf cfg e = some x
  watched : watches cfg e = true
  logged : e ∈ logsAt e.blockHash.ancestry e.blockNumber
  header : db.getBlockHash cfg.chainId e.blockNumber = some e.blockHash

/-- Every row came from a log in the block whose header is stored at its height; the stored headers are
those that `G` admits. -/
structure Origin (cfg : IndexerConfig) (S : Source) (G : ℕ → BlockHash → Prop) (db : Db) : Prop where
  sourced : ∀ x, db.Holds x → ∃ e, S x e
  placed : ∀ x, db.Holds x → ∀ e, S x e → Placed cfg db x e
  headers : ∀ n P, db.getBlockHash cfg.chainId n = some P → G n P

theorem Placed.congr {e : LogEntry} (h : Placed cfg db x e)
    (hkeep : ∀ n P, db.getBlockHash cfg.chainId n = some P → db'.getBlockHash cfg.chainId n = some P) :
    Placed cfg db' x e :=
  ⟨h.record, h.watched, h.logged, hkeep _ _ h.header⟩

namespace Origin

theorem unmoved (h : Origin cfg S G db) (hun : Unmoved db db') : Origin cfg S G db' where
  sourced x hx := h.sourced x ((hun.holds x).mp hx)
  placed x hx e he := (h.placed x ((hun.holds x).mp hx) e he).congr fun _ _ hP =>
    hun.getBlockHash.trans hP
  headers n P hP := h.headers n P (hun.getBlockHash ▸ hP)

/-- The stored headers are also of another kind. -/
theorem regard (h : Origin cfg S G db)
    (hG : ∀ n P, db.getBlockHash cfg.chainId n = some P → G' n P) : Origin cfg S G' db :=
  ⟨h.sourced, h.placed, hG⟩

/-- A rollback deletes the rows above its root and their headers. -/
theorem belowRoot (h : Origin cfg S G db) (root : ℤ) :
    Origin cfg S G (db.belowRoot cfg.chainId root) where
  sourced x hx := h.sourced x ((holds_belowRoot x).mp hx).1
  placed x hx e he := by
    obtain ⟨hx, hbelow⟩ := (holds_belowRoot x).mp hx
    have hplaced := h.placed x hx e he
    rw [recordOf_position hplaced.record] at hbelow
    have hroot : ¬ root < (e.blockNumber : ℤ) := fun hlt => hbelow ⟨rfl, hlt⟩
    refine ⟨hplaced.record, hplaced.watched, hplaced.logged, ?_⟩
    rw [getBlockHash_belowRoot, if_neg hroot]
    exact hplaced.header
  headers n P hP := by
    rw [getBlockHash_belowRoot] at hP
    split at hP
    · cases hP
    · exact h.headers n P hP

end Origin

/-- The sources after a tick that found the tables `d` and fetched the logs `logs`: a row that was not
there came from one of them. -/
def sourceAfter (cfg : IndexerConfig) (logs : List LogEntry) (d : Db) (S : Source) : Source := fun x e =>
  (d.Holds x ∧ S x e) ∨ (¬ d.Holds x ∧ e ∈ logs ∧ recordOf cfg e = some x)

/-- The rows that were there have the source they had. -/
theorem Origin.start (h : Origin cfg S G d) (logs : List LogEntry) :
    Origin cfg (sourceAfter cfg logs d S) G d where
  sourced x hx := by
    obtain ⟨e, he⟩ := h.sourced x hx
    exact ⟨e, .inl ⟨hx, he⟩⟩
  placed x hx e he := by
    rcases he with ⟨-, he⟩ | ⟨hnot, -⟩
    · exact h.placed x hx e he
    · exact absurd hx hnot
  headers := h.headers

/-- While the logs `logs` are ingested, on top of the tables `d`: their blocks are those of the stored
headers, and the heights `ns` have one. -/
structure Traced (cfg : IndexerConfig) (S : Source) (G : ℕ → BlockHash → Prop) (d : Db)
    (logs : List LogEntry) (ns : List ℕ) (db : Db) : Prop where
  origin : Origin cfg (sourceAfter cfg logs d S) G db
  kept : ∀ x, d.Holds x → db.Holds x
  agrees : ∀ e ∈ logs, ∀ P, db.getBlockHash cfg.chainId e.blockNumber = some P → P = e.blockHash
  filled : ∀ n ∈ ns, HasHeader cfg n db

namespace Traced

theorem unmoved (h : Traced cfg S G d logs ns db) (hun : Unmoved db db') :
    Traced cfg S G d logs ns db' where
  origin := h.origin.unmoved hun
  kept x hx := (hun.holds x).mpr (h.kept x hx)
  agrees e he P hP := h.agrees e he P (hun.getBlockHash ▸ hP)
  filled n hn := by
    obtain ⟨P, hP⟩ := h.filled n hn
    exact ⟨P, hun.getBlockHash.trans hP⟩

/-- A header is inserted, of the block that the logs at its height are in. -/
theorem insertBlock (h : Traced cfg S G d logs ns db) {header : BlockHeader} {r : ℕ}
    (hG : G n header.hash) (hlogs : ∀ e ∈ logs, e.blockNumber = n → header.hash = e.blockHash)
    (hok : Db.insertBlock (blockRow cfg header n) db = .ok (r, db')) :
    Traced cfg S G d logs (ns ++ [n]) db' := by
  have hhash := getBlockHash_insertBlock hok
  have hkeep : ∀ m P, db.getBlockHash cfg.chainId m = some P →
      db'.getBlockHash cfg.chainId m = some P := by
    intro m P hP
    rw [hhash, hP]
    rfl
  have hback : ∀ m P, db'.getBlockHash cfg.chainId m = some P →
      db.getBlockHash cfg.chainId m = some P ∨ (m = n ∧ P = header.hash) := by
    intro m P hP
    rw [hhash] at hP
    rcases Option.or_eq_some_iff.mp hP with hold | ⟨-, hins⟩
    · exact .inl hold
    · split at hins
      · rename_i hkey
        obtain ⟨-, rfl⟩ : cfg.chainId = cfg.chainId ∧ n = m := Prod.mk.injEq .. ▸ hkey
        cases hins
        exact .inr ⟨rfl, rfl⟩
      · cases hins
  have hholds : ∀ y, db'.Holds y ↔ db.Holds y := by
    cases hok
    intro y
    cases y <;> exact Iff.rfl
  refine ⟨⟨?_, ?_, ?_⟩, ?_, ?_, ?_⟩
  · intro x hx
    exact h.origin.sourced x ((hholds x).mp hx)
  · intro x hx e he
    exact (h.origin.placed x ((hholds x).mp hx) e he).congr hkeep
  · intro m P hP
    rcases hback m P hP with hold | ⟨rfl, rfl⟩
    · exact h.origin.headers m P hold
    · exact hG
  · intro x hx
    exact (hholds x).mpr (h.kept x hx)
  · intro e he P hP
    rcases hback _ P hP with hold | ⟨hn, rfl⟩
    · exact h.agrees e he P hold
    · exact hlogs e he hn
  · intro m hm
    rcases List.mem_append.mp hm with hm | hm
    · obtain ⟨P, hP⟩ := h.filled m hm
      exact ⟨P, hkeep m P hP⟩
    · rw [List.mem_singleton.mp hm]
      show ∃ P, _ = some P
      rw [hhash]
      cases db.getBlockHash cfg.chainId n with
      | some P => exact ⟨P, rfl⟩
      | none => exact ⟨header.hash, by simp [blockRow, BlockRow.key]⟩

/-- The row of a log is inserted, where the heights of all logs have a header. -/
theorem insertRecord (h : Traced cfg S G d logs ns db)
    (hlogs : ∀ e ∈ logs, watches cfg e = true ∧ e ∈ logsAt e.blockHash.ancestry e.blockNumber)
    (hns : ∀ e ∈ logs, e.blockNumber ∈ ns) {e : LogEntry} {r : ℕ} (he : e ∈ logs)
    (hx : recordOf cfg e = some x) (hok : Db.insertRecord x db = .ok (r, db')) :
    Traced cfg S G d logs ns db' := by
  have hhash : ∀ n, db'.getBlockHash cfg.chainId n = db.getBlockHash cfg.chainId n := by
    intro n
    unfold Db.getBlockHash
    rw [(insertRecord_frame hok).1]
  -- a new row was not there before the tick, so its sources are logs of the tick
  have hsplit : ∀ y, db'.Holds y → db.Holds y ∨ (y = x ∧ ¬ d.Holds x) := by
    intro y hy
    rcases (holds_insertRecord hok y).mp hy with hy | ⟨rfl, hfree⟩
    · exact .inl hy
    · exact .inr ⟨rfl, fun hd => hfree y (h.kept y hd) rfl⟩
  refine ⟨⟨?_, ?_, ?_⟩, ?_, ?_, ?_⟩
  · intro y hy
    rcases hsplit y hy with hy | ⟨rfl, hnew⟩
    · exact h.origin.sourced y hy
    · exact ⟨e, .inr ⟨hnew, he, hx⟩⟩
  · intro y hy e' he'
    rcases hsplit y hy with hy | ⟨rfl, hnew⟩
    · exact (h.origin.placed y hy e' he').congr fun n P hP => (hhash n).trans hP
    · rcases he' with ⟨hd, -⟩ | ⟨-, hmem, hrecord⟩
      · exact absurd hd hnew
      · obtain ⟨P, hP⟩ := h.filled _ (hns e' hmem)
        obtain ⟨hwatched, hlogged⟩ := hlogs e' hmem
        refine ⟨hrecord, hwatched, hlogged, ?_⟩
        rw [hhash, hP, h.agrees e' hmem P hP]
  · intro n P hP
    exact h.origin.headers n P (hhash n ▸ hP)
  · intro y hy
    exact (holds_insertRecord hok y).mpr (.inl (h.kept y hy))
  · intro e' he' P hP
    exact h.agrees e' he' P (hhash _ ▸ hP)
  · intro n hn
    obtain ⟨P, hP⟩ := h.filled n hn
    exact ⟨P, (hhash n).trans hP⟩

end Traced

/-! ### Ingestion -/

/-- What `ingest` does with the logs of its range. -/
def ingestLogs (sess : Session) (cfg : IndexerConfig) (logs : List LogEntry) (target : ℕ) : Tick ℕ := do
  let r₁ ← total (ingestBlock sess cfg) (blocksWithEvents logs)
  let r₂ ← ingestCursor sess cfg logs target
  let r₃ ← total (handleLog sess cfg) logs
  let r₄ ← total (snapshotAt sess cfg) (eventBlocksPerContract logs)
  let active ← select sess (Db.activeVaults cfg.chainId)
  let r₅ ← total (heartbeat sess cfg target) (heartbeatVaults cfg active)
  pure (r₁ + r₂ + r₃ + r₄ + r₅)

theorem ingest_eq {src dst : ℕ} : ingest sess cfg src dst =
    getLogs sess cfg src dst >>= fun logs => ingestLogs sess cfg logs dst := rfl

theorem unmoved_insertVaultSnapshot {r : SnapshotRow}
    (h : Db.insertVaultSnapshot r db = .ok (n, db')) : Unmoved db db' := by
  unfold Db.insertVaultSnapshot at h
  split at h
  · cases h
    exact ⟨rfl, fun _ => Iff.rfl⟩
  · split at h
    · cases h
      exact unmoved_of_tables rfl rfl rfl rfl rfl rfl rfl
    · cases h

section Snapshots

variable {P : Db → Prop}
  (hsnap : ∀ r n db db', P db → Db.insertVaultSnapshot r db = .ok (n, db') → P db')

theorem callBool_reads {a : Address} {view : View} :
    Triple (On P) (callBool sess a view n) (fun _ => On P) (On P) := by
  refine triple_bind read_keeps ?_
  intro v
  exact triple_pure fun _ hs => hs

include hsnap

theorem snapshotVaultAddress_keeps {a : Address} :
    Triple (On P) (snapshotVaultAddress sess cfg a n) (fun _ => On P) (On P) := by
  unfold snapshotVaultAddress
  refine triple_bind read_keeps ?_
  intro totalAssets
  refine triple_bind read_keeps ?_
  intro totalSupply
  refine triple_bind (triple_unwrapOr read_keeps) ?_
  intro exitFeeBps
  refine triple_bind (triple_unwrapOr read_keeps) ?_
  intro tvlCap
  refine triple_bind (triple_unwrapOr callBool_reads) ?_
  intro paused
  refine sql_keeps ?_
  intro db r db' hP hok
  exact hsnap _ r db db' hP hok

theorem snapshotAt_keeps {b : ℕ × Address} :
    Triple (On P) (snapshotAt sess cfg b) (fun _ => On P) (On P) := by
  unfold snapshotAt
  split
  · exact snapshotVaultAddress_keeps hsnap
  · exact triple_pure fun _ hs => hs

theorem heartbeat_keeps {a : Address} :
    Triple (On P) (heartbeat sess cfg n a) (fun _ => On P) (On P) := by
  unfold heartbeat
  refine triple_bind select_keeps ?_
  intro last
  cases last with
  | none => exact snapshotVaultAddress_keeps hsnap
  | some prev =>
    dsimp only
    split
    · exact snapshotVaultAddress_keeps hsnap
    · exact triple_pure fun _ hs => hs

end Snapshots

/-- Events that change vaults or proposals leave headers and rows. -/
theorem handleUpdate_keeps {P : Db → Prop} (hframe : ∀ db db', P db → Unmoved db db' → P db')
    {e : LogEntry} {ev : Event} :
    Triple (On P) (handleUpdate sess cfg e ev) (fun _ => On P) (On P) := by
  cases ev with
  | vaultRegistered vault name asset =>
    unfold handleUpdate
    refine triple_bind (sql_keeps ?_) ?_
    · intro db r db' hP hok
      cases hok
      exact hframe db _ hP (unmoved_of_tables rfl rfl rfl rfl rfl rfl rfl)
    · intro r
      refine sql_keeps ?_
      intro db r db' hP hok
      obtain ⟨-, rfl⟩ := upsertVault_eq_ok hok
      exact hframe db _ hP (unmoved_of_tables rfl rfl rfl rfl rfl rfl rfl)
  | vaultStatusChanged vault newStatus timestamp =>
    unfold handleUpdate
    refine sql_keeps ?_
    intro db r db' hP hok
    cases hok
    exact hframe db _ hP (unmoved_of_tables rfl rfl rfl rfl rfl rfl rfl)
  | proposalExecuted proposalId executor =>
    unfold handleUpdate
    refine sql_keeps ?_
    intro db r db' hP hok
    exact hframe db _ hP (unmoved_executeProposal hok)
  | _ => exact triple_pure fun _ hs => hs

section Ingestion

/-- Receipts are only read. -/
theorem withStatus_keeps {P : Db → Prop} (txs : List Transaction) :
    Triple (Past k P) (withStatus sess txs) (fun _ => Past k P) (On P) := by
  induction txs with
  | nil => exact triple_pure fun _ hs => hs
  | cons t txs ih =>
    unfold withStatus
    refine triple_bind (Q := fun _ => Past k P) (triple_post past_rpc ?_) ?_
    · rintro status w ⟨m, hm, -, hcalls, hP⟩
      exact ⟨by omega, hP⟩
    intro status
    refine triple_bind ih ?_
    intro rest
    exact triple_pure fun _ hs => hs

/-- The header of a block is that of the chain at one of the calls. -/
theorem blockWithTxs_past {P : Db → Prop} : Triple (Past k P) (blockWithTxs sess n)
    (fun r w => (∃ m, k ≤ m ∧ (sess.node m).chain.hashAt n = some r.1.hash) ∧ Past k P w) (On P) := by
  unfold blockWithTxs
  refine triple_bind (Q := fun r w => (∃ m, k ≤ m ∧ (sess.node m).chain.hashAt n = some r.1.hash) ∧
    Past k P w) (triple_post past_rpc ?_) ?_
  · rintro ⟨header, txs⟩ w ⟨m, hm, hf, hcalls, hP⟩
    refine ⟨⟨m, hm, ?_⟩, by omega, hP⟩
    split at hf
    · rename_i hheader _
      cases hf
      rw [← Chain.header_hash, hheader]
      rfl
    · cases hf
  · rintro ⟨header, txs⟩
    refine triple_of_fact (fun _ hs => hs.1) ?_
    intro hheader
    refine triple_bind (triple_pre (withStatus_keeps txs) fun _ hs => hs.2) ?_
    intro txs'
    exact triple_pure fun _ hs => ⟨hheader, hs⟩

variable (hshown : ∀ m, k ≤ m → ∀ n P, (sess.node m).chain.hashAt n = some P →
    G n P ∧ ∀ e ∈ logs, e.blockNumber = n → P = e.blockHash)
  (hlogs : ∀ e ∈ logs, watches cfg e = true ∧ e ∈ logsAt e.blockHash.ancestry e.blockNumber)

include hshown

theorem insertBlock_traced {header : BlockHeader}
    (hheader : ∃ m, k ≤ m ∧ (sess.node m).chain.hashAt n = some header.hash) :
    Triple (Past k (Traced cfg S G d logs ns)) (sql sess (Db.insertBlock (blockRow cfg header n)))
      (fun _ => Past k (Traced cfg S G d logs (ns ++ [n]))) (On (Traced cfg S G d logs ns)) := by
  obtain ⟨m, hm, hhash⟩ := hheader
  obtain ⟨hG, hagree⟩ := hshown m hm n header.hash hhash
  refine past_sql ?_
  intro db r db' h hok
  exact h.insertBlock hG hagree hok

theorem ingestBlock_traced :
    Triple (Past k (Traced cfg S G d logs ns)) (ingestBlock sess cfg n)
      (fun _ => Past k (Traced cfg S G d logs (ns ++ [n])))
      (On fun db => ∃ ns, Traced cfg S G d logs ns db) := by
  unfold ingestBlock
  refine triple_bind (triple_error blockWithTxs_past fun _ hs => ⟨ns, hs⟩) ?_
  rintro ⟨header, txs⟩
  refine triple_of_fact (fun _ hs => hs.1) ?_
  intro hheader
  refine triple_bind (triple_conseq (insertBlock_traced hshown hheader) (fun _ hs => hs.2)
    (fun _ _ hs => hs) fun _ hs => ⟨ns, hs⟩) ?_
  intro r
  refine triple_bind (Q := fun _ => Past k (Traced cfg S G d logs (ns ++ [n])))
    (triple_error (triple_total_keeps ?_) fun _ hs => ⟨ns ++ [n], hs⟩) ?_
  · intro t _
    refine past_sql ?_
    intro db r db' h hok
    cases hok
    exact h.unmoved (unmoved_of_tables rfl rfl rfl rfl rfl rfl rfl)
  · intro rs
    exact triple_pure fun _ hs => hs

/-- The header at the end of the range, if the chain still has a block there. -/
theorem ingestCursor_traced :
    Triple (Past k (Traced cfg S G d logs ns)) (ingestCursor sess cfg logs n)
      (fun _ => On (Traced cfg S G d logs ns)) (On (Traced cfg S G d logs ns)) := by
  unfold ingestCursor
  split
  · exact triple_pure fun _ hs => hs.2
  · refine triple_bind past_rpc ?_
    intro header
    cases header with
    | none =>
      refine triple_pure ?_
      rintro w ⟨m, -, -, -, h⟩
      exact h
    | some header =>
      refine triple_of_fact (p := ∃ m, k ≤ m ∧ (sess.node m).chain.hashAt n = some header.hash) ?_ ?_
      · rintro w ⟨m, hm, hf, -⟩
        refine ⟨m, hm, ?_⟩
        rw [← Chain.header_hash, Except.ok.inj hf]
        rfl
      · intro hheader
        refine triple_conseq (insertBlock_traced hshown hheader) ?_ ?_ fun _ hs => hs
        · rintro w ⟨m, hm, -, hcalls, h⟩
          exact ⟨by omega, h⟩
        · rintro r w ⟨-, h⟩
          refine ⟨h.origin, h.kept, h.agrees, ?_⟩
          intro j hj
          exact h.filled j (List.mem_append_left _ hj)

omit hshown in
include hlogs in
/-- The row of a log, when all headers of logs are stored. -/
theorem handleLog_traced (hns : ∀ e ∈ logs, e.blockNumber ∈ ns) {e : LogEntry} (he : e ∈ logs) :
    Triple (On (Traced cfg S G d logs ns)) (handleLog sess cfg e)
      (fun _ => On (Traced cfg S G d logs ns)) (On (Traced cfg S G d logs ns)) := by
  unfold handleLog
  cases hdata : e.log.data with
  | foreign => exact triple_pure fun _ hs => hs
  | raw t =>
    dsimp only
    split
    · exact triple_fail fun _ hs => hs
    · exact triple_pure fun _ hs => hs
  | event ev =>
    dsimp only
    cases hrecord : ev.record cfg e with
    | none => exact handleUpdate_keeps fun db db' h hun => h.unmoved hun
    | some x =>
      have hx : recordOf cfg e = some x := by
        unfold recordOf
        rw [hdata]
        exact hrecord
      refine sql_keeps ?_
      intro db r db' h hok
      exact h.insertRecord hlogs hns he hx hok

include hlogs in
/-- **The ingestion of logs** keeps the invariant after every call. -/
theorem ingestLogs_origin {target : ℕ} :
    Triple (Past k (Traced cfg S G d logs [])) (ingestLogs sess cfg logs target)
      (fun _ => On (Origin cfg (sourceAfter cfg logs d S) G))
      (On (Origin cfg (sourceAfter cfg logs d S) G)) := by
  have hsnap : ∀ r n db db', Traced cfg S G d logs (blocksWithEvents logs) db →
      Db.insertVaultSnapshot r db = .ok (n, db') → Traced cfg S G d logs (blocksWithEvents logs) db' :=
    fun r n db db' h hok => h.unmoved (unmoved_insertVaultSnapshot hok)
  unfold ingestLogs
  refine triple_bind (Q := fun _ => Past k (Traced cfg S G d logs (blocksWithEvents logs))) ?_ ?_
  · refine triple_total (I := fun pre => Past k (Traced cfg S G d logs pre)) ?_
    intro pre n post _
    refine triple_error (ingestBlock_traced hshown) ?_
    rintro w ⟨ns, h⟩
    exact h.origin
  intro r₁
  -- from here on the headers are there, and no statement that fails undoes them
  suffices h : Triple (Past k (Traced cfg S G d logs (blocksWithEvents logs))) _
      (fun _ => On (Traced cfg S G d logs (blocksWithEvents logs)))
      (On (Traced cfg S G d logs (blocksWithEvents logs))) from
    triple_conseq h (fun _ hs => hs) (fun _ _ hs => hs.origin) fun _ hs => hs.origin
  refine triple_bind (ingestCursor_traced hshown) ?_
  intro r₂
  refine triple_bind (triple_total_keeps fun e he => handleLog_traced hlogs ?_ he) ?_
  · intro e he
    exact mem_blocksWithEvents.mpr ⟨e, he, rfl⟩
  intro r₃
  refine triple_bind (triple_total_keeps fun b _ => snapshotAt_keeps hsnap) ?_
  intro r₄
  refine triple_bind select_keeps ?_
  intro active
  refine triple_bind (triple_total_keeps fun a _ => heartbeat_keeps hsnap) ?_
  intro r₅
  exact triple_pure fun _ hs => hs

end Ingestion

/-! ### Up to the logs -/

/-- The node showed, from the call `k` on, the header that is stored at a height. -/
def ShownAt (cfg : IndexerConfig) (sess : Session) (k : ℕ) (d : Db) (n : ℕ) : Prop :=
  ∃ m P, k ≤ m ∧ d.getBlockHash cfg.chainId n = some P ∧ (sess.node m).chain.hashAt n = some P

/-- What the check leaves, from the cursor `c` and the tables `d`: where the chain has no other block at
the cursor, all as it was; else what is below a root whose stored header the node showed. -/
inductive AfterCheck (cfg : IndexerConfig) (sess : Session) (k : ℕ) (c : Option ℕ) (d : Db) :
    Option ℕ → Db → Prop where
  | quiet (h : ¬ Reorganized (fun n => d.getBlockHash cfg.chainId n) (sess.node (k + 1)).chain c) :
      AfterCheck cfg sess k c d c d
  | rolled {root : ℤ} (h : ∀ n : ℕ, root = (n : ℤ) → ShownAt cfg sess k d n) :
      AfterCheck cfg sess k c d (resumeAt root) (d.belowRoot cfg.chainId root)

theorem matchesAt_past : Triple (Past k (· = d)) (matchesAt sess cfg n)
    (fun found w => (found = true → ShownAt cfg sess k d n) ∧ Past k (· = d) w) (On (· = d)) := by
  unfold matchesAt
  refine triple_bind (past_sql (Q := fun hash db => hash = d.getBlockHash cfg.chainId n ∧ db = d) ?_) ?_
  · rintro db hash db' rfl hok
    cases hok
    exact ⟨rfl, rfl⟩
  intro hash
  refine triple_of_fact (fun _ hs => hs.2.1) ?_
  rintro rfl
  cases hstored : d.getBlockHash cfg.chainId n with
  | none =>
    refine triple_pure ?_
    rintro w ⟨hk, -, hd⟩
    exact ⟨fun h => (by cases h), hk, hd⟩
  | some P =>
    refine triple_bind (triple_pre (past_rpc (P := (· = d))) fun w hs => ⟨hs.1, hs.2.2⟩) ?_
    intro header
    refine triple_pure ?_
    rintro w ⟨m, hm, hf, hcalls, hd⟩
    refine ⟨?_, by omega, hd⟩
    intro hfound
    refine ⟨m, P, hm, hstored, ?_⟩
    rw [← Chain.header_hash, Except.ok.inj hf]
    exact of_decide_eq_true hfound

theorem walkBackToMatch_past : Triple (Past k (· = d)) (walkBackToMatch sess cfg n)
    (fun root w => (∀ m : ℕ, root = (m : ℤ) → ShownAt cfg sess k d m) ∧ Past k (· = d) w)
    (On (· = d)) := by
  induction n with
  | zero =>
    unfold walkBackToMatch
    refine triple_bind matchesAt_past ?_
    intro found
    refine triple_pure ?_
    rintro w ⟨hfound, hw⟩
    refine ⟨?_, hw⟩
    intro m hm
    split at hm
    · obtain rfl : m = 0 := by omega
      exact hfound ‹_›
    · omega
  | succ n ih =>
    unfold walkBackToMatch
    refine triple_bind matchesAt_past ?_
    intro found
    split
    · refine triple_pure ?_
      rintro w ⟨hfound, hw⟩
      refine ⟨?_, hw⟩
      intro m hm
      obtain rfl : m = n + 1 := by omega
      exact hfound ‹_›
    · exact triple_pre ih fun _ hs => hs.2

/-- **The check.**  It rolls back, or there is no other block at the cursor. -/
theorem reorgCheck_at : Triple (At k (· = d)) (reorgCheck sess cfg c)
    (fun r => Past k (AfterCheck cfg sess k c d r.1)) (On (· = d)) := by
  cases c with
  | none =>
    refine triple_pure ?_
    rintro w ⟨hk, rfl⟩
    refine ⟨hk.ge, .quiet ?_⟩
    rintro ⟨n, P, Q, hn, -⟩
    cases hn
  | some n =>
    unfold reorgCheck
    refine triple_bind at_select ?_
    intro hash
    refine triple_of_fact (p := hash = d.getBlockHash cfg.chainId n) ?_ ?_
    · rintro w ⟨-, rfl, rfl⟩
      rfl
    rintro rfl
    refine triple_pre (P := At (k + 1) (· = d)) ?_ fun w hs => ⟨hs.1, hs.2.1⟩
    cases hstored : d.getBlockHash cfg.chainId n with
    | none =>
      refine triple_pure ?_
      rintro w ⟨hk, rfl⟩
      refine ⟨by omega, .quiet ?_⟩
      rintro ⟨n', P, Q, hn, hP, -⟩
      cases hn
      cases hstored.symm.trans hP
    | some P =>
      refine triple_bind at_rpc ?_
      intro header
      refine triple_of_fact (fun _ hs => hs.1) ?_
      intro hheader
      have hhash : (sess.node (k + 1)).chain.hashAt n = header.map fun h => h.hash := by
        rw [← Chain.header_hash, Except.ok.inj hheader]
      refine triple_pre (P := At (k + 2) (· = d)) ?_ fun w hs => hs.2
      have hquiet : (∀ h, header = some h → h.hash = P) → ∀ w, At (k + 2) (· = d) w →
          Past k (AfterCheck cfg sess k (some n) d (some n)) w := by
        rintro hsame w ⟨hk, rfl⟩
        refine ⟨by omega, .quiet ?_⟩
        rintro ⟨n', P', Q, hn, hP, hQ, hne⟩
        cases hn
        cases hstored.symm.trans hP
        rw [hhash] at hQ
        obtain ⟨h, hh, rfl⟩ := Option.map_eq_some_iff.mp hQ
        exact hne (hsame h hh)
      cases header with
      | none => exact triple_pure (hquiet fun h hh => by cases hh)
      | some header =>
        dsimp only
        split
        · refine triple_bind (triple_pre (P := Past k (· = d)) walkBackToMatch_past ?_) ?_
          · rintro w ⟨hk, hd⟩
            exact ⟨by omega, hd⟩
          intro root
          refine triple_of_fact (fun _ hs => hs.1) ?_
          intro hroot
          refine triple_bind (triple_pre (past_sql (Q := fun _ db =>
            db = d.belowRoot cfg.chainId root) ?_) fun _ hs => hs.2) ?_
          · rintro db a db' rfl hok
            unfold Db.deleteAboveBlock at hok
            split at hok
            · cases hok
            · cases hok
              rfl
          · intro _
            refine triple_pure ?_
            rintro w ⟨hk, hd⟩
            refine ⟨hk, ?_⟩
            rw [hd]
            exact .rolled hroot
        · rename_i hsame
          refine triple_pure (hquiet ?_)
          rintro h ⟨⟩
          exact not_not.mp hsame

/-- `run_inner` up to the logs of its range: where it goes on from, and the end of the range with its
logs if there is one. -/
def fetch (sess : Session) (cfg : IndexerConfig) (c : Option ℕ) :
    Tick ((Option ℕ × Bool) × Option (ℕ × List LogEntry)) := do
  let r ← reorgCheck sess cfg c
  let tip ← blockNumber sess
  match targetOf cfg (fromBlock r.1) tip with
  | none => pure (r, none)
  | some target => do
    let logs ← getLogs sess cfg (fromBlock r.1) target
    pure (r, some (target, logs))

/-- `run_inner` from there. -/
def resume (sess : Session) (cfg : IndexerConfig)
    (f : (Option ℕ × Bool) × Option (ℕ × List LogEntry)) : Tick IndexerOutcome :=
  match f.2 with
  | none => pure { lastIndexedBlock := f.1.1, reorgDetected := f.1.2 }
  | some (target, logs) => do
    let rowsInserted ← ingestLogs sess cfg logs target
    pure { toBlock := some target, lastIndexedBlock := some target, rowsInserted,
           reorgDetected := f.1.2 }

theorem runInner_eq : runInner sess cfg c = fetch sess cfg c >>= resume sess cfg := by
  unfold runInner fetch
  rw [bind_assoc]
  refine bind_congr fun r => ?_
  rw [bind_assoc]
  refine bind_congr fun tip => ?_
  cases targetOf cfg (fromBlock r.1) tip with
  | none => rfl
  | some target =>
    dsimp only
    rw [ingest_eq, bind_assoc, bind_assoc]
    rfl

/-- The logs are those of the range after the cursor, at one of the calls. -/
theorem fetch_at : Triple (At k (· = d)) (fetch sess cfg c)
    (fun f w => AfterCheck cfg sess k c d f.1.1 w.db ∧ ∀ target logs, f.2 = some (target, logs) →
      ∃ m, k ≤ m ∧ m < w.calls ∧
        logs = watchedLogs cfg (sess.node m).chain (fromBlock f.1.1) target)
    (On fun db => db = d ∨ ∃ r, AfterCheck cfg sess k c d r db) := by
  unfold fetch
  refine triple_bind (triple_error reorgCheck_at fun _ hs => .inl hs) ?_
  intro r
  refine triple_bind (Q := fun _ => Past k (AfterCheck cfg sess k c d r.1))
    (triple_conseq past_rpc (fun _ hs => hs) ?_ fun _ hs => .inr ⟨r.1, hs⟩) ?_
  · rintro tip w ⟨m, hm, -, hcalls, h⟩
    exact ⟨by omega, h⟩
  intro tip
  cases targetOf cfg (fromBlock r.1) tip with
  | none =>
    refine triple_pure ?_
    rintro w ⟨-, h⟩
    refine ⟨h, ?_⟩
    intro target logs hnone
    cases hnone
  | some target =>
    refine triple_bind (triple_error past_rpc fun _ hs => .inr ⟨r.1, hs⟩) ?_
    intro logs
    refine triple_pure ?_
    rintro w ⟨m, hm, hf, hcalls, h⟩
    refine ⟨h, ?_⟩
    rintro target' logs' ⟨⟩
    exact ⟨m, hm, hcalls, (Except.ok.inj hf).symm⟩

/-! ### The whole tick -/

/-- `run_once` up to the run it opens: the cursor and the identifier. -/
def openRun (sess : Session) (cfg : IndexerConfig) : Tick (Option ℕ × ℕ) := do
  upsertContracts sess cfg
  let lastIndexed ← select sess (Db.lastIndexedBlock cfg.chainId)
  let runId ← sql sess (Db.startRun cfg.chainId (fromBlock lastIndexed))
  pure (lastIndexed, runId)

theorem runOnce_eq : runOnce sess cfg =
    openRun sess cfg >>= fun r => finishTick sess cfg r.2 (fromBlock r.1) r.1 := by
  unfold runOnce openRun
  simp only [bind_assoc, pure_bind]

theorem upserts_at {P : Db → Prop} {kind : String}
    (hP : ∀ db r, P db → P { db with contracts := Table.insertNew ContractRow.key db.contracts r })
    (o : Option Address) :
    Triple (At k P)
      (total (fun a => sql sess (Db.upsertContract ⟨cfg.chainId, a, kind, none⟩)) o.toList)
      (fun _ => At (k + o.toList.length) P) (On P) := by
  cases o with
  | none => exact triple_pure fun _ hs => hs
  | some a =>
    refine triple_bind (at_sql (Q := fun _ => P) ?_) ?_
    · intro db r db' h hok
      cases hok
      exact hP db _ h
    · intro r
      refine triple_bind (Q := fun _ => At (k + 1) P) (triple_pure fun _ hs => hs) ?_
      intro r'
      exact triple_pure fun _ hs => hs

/-- A tick opens its run without touching headers and rows. -/
theorem openRun_at : Triple (At 0 (· = db)) (openRun sess cfg)
    (fun r => At (startCalls cfg) fun d => Unmoved db d ∧ r.1 = db.lastIndexedBlock cfg.chainId)
    (On (Unmoved db)) := by
  have hcontract : ∀ d r, Prepared db d →
      Prepared db { d with contracts := Table.insertNew ContractRow.key d.contracts r } :=
    fun d r h => h.upsertContract
  have hupsert : ∀ {k : ℕ} {r : ContractRow}, Triple (At k (Prepared db)) (sql sess (Db.upsertContract r))
      (fun _ => At (k + 1) (Prepared db)) (On (Prepared db)) := by
    intro k r
    refine at_sql ?_
    intro d a d' h hok
    cases hok
    exact hcontract d r h
  refine triple_error (E := On (Prepared db)) ?_ fun _ hs => hs.unmoved
  unfold openRun upsertContracts
  simp only [bind_assoc, pure_bind]
  refine triple_bind (Q := fun _ => At 1 (Prepared db)) (triple_pre (P := At 0 (Prepared db))
    (at_sql ?_) ?_) ?_
  · intro d a d' h hok
    cases hok
    exact ⟨⟨h.unmoved.trans (unmoved_of_tables rfl rfl rfl rfl rfl rfl rfl), h.vaults, h.contracts⟩,
      h.runs⟩
  · rintro w ⟨hk, hw⟩
    exact ⟨hk, hw ▸ Prepared.refl⟩
  intro _
  refine triple_bind hupsert ?_
  intro _
  refine triple_bind hupsert ?_
  intro _
  refine triple_bind (upserts_at hcontract _) ?_
  intro _
  refine triple_bind (upserts_at hcontract _) ?_
  intro _
  refine triple_bind at_select ?_
  intro c
  refine triple_bind (triple_error (at_sql (Q := fun _ d => Unmoved db d ∧
    c = db.lastIndexedBlock cfg.chainId) ?_) fun _ hs => hs.1) ?_
  · rintro d a d' ⟨h, rfl⟩ hok
    cases hok
    exact ⟨h.unmoved.trans (unmoved_of_tables rfl rfl rfl rfl rfl rfl rfl), h.cursor⟩
  intro runId
  refine triple_pure ?_
  rintro w ⟨hcalls, hw⟩
  refine ⟨?_, hw⟩
  rw [hcalls]
  unfold startCalls
  omega

/-- The record of a run leaves headers and rows. -/
theorem finishTick_keeps {A : World → Prop} {P P' : Db → Prop} {runId src : ℕ}
    (hframe : ∀ db db', P db → Unmoved db db' → P db')
    (hframe' : ∀ db db', P' db → Unmoved db db' → P' db')
    (h : Triple A (runInner sess cfg c) (fun _ => On P) (On P')) :
    Triple A (finishTick sess cfg runId src c)
      (fun o => On fun db => (P' db ∨ P db) ∧ (o.error = none → P db)) (On fun db => P' db ∨ P db) := by
  unfold finishTick
  refine triple_bind (triple_attempt (R := fun r w => (∀ o, r = .ok o → P w.db) ∧
    ∀ e, r = .error e → P' w.db) h ?_ ?_) ?_
  · intro o w hs
    refine ⟨fun _ _ => hs, ?_⟩
    rintro e ⟨⟩
  · intro e w hs
    refine ⟨?_, fun _ _ => hs⟩
    rintro o ⟨⟩
  intro r
  cases r with
  | ok o =>
    refine triple_pre (P := On P) ?_ fun w hs => hs.1 o rfl
    refine triple_bind (triple_error (sql_keeps (P := P) ?_) fun _ hs => .inr hs) ?_
    · intro db a db' hP hok
      exact hframe db db' hP (unmoved_finishRun hok)
    · intro _
      exact triple_pure fun w hs => ⟨.inr hs, fun _ => hs⟩
  | error e =>
    refine triple_pre (P := On P') ?_ fun w hs => hs.2 e rfl
    refine triple_bind (triple_error (sql_keeps (P := P') ?_) fun _ hs => .inl hs) ?_
    · intro db a db' hP hok
      exact hframe' db db' hP (unmoved_finishRun hok)
    · intro _
      refine triple_pure ?_
      intro w hs
      exact ⟨.inl hs, fun herr => by cases herr⟩

/-- The logs of a fetch, none if it does not come so far, and the tables after it. -/
def landed : Except IndexerError ((Option ℕ × Bool) × Option (ℕ × List LogEntry)) × World →
    List LogEntry × Db
  | (.ok f, w) => ((f.2.map Prod.snd).getD [], w.db)
  | (.error _, w) => ([], w.db)

/-- The logs that a tick fetches, and the tables at that moment. -/
def fetched (sess : Session) (cfg : IndexerConfig) (db : Db) : List LogEntry × Db :=
  landed ((openRun sess cfg >>= fun r => fetch sess cfg r.1) ⟨db, 0⟩)

/-- The source of each row after a tick. -/
def nextSource (sess : Session) (cfg : IndexerConfig) (db : Db) (S : Source) : Source :=
  sourceAfter cfg (fetched sess cfg db).1 (fetched sess cfg db).2 S

/-- The blocks with watched logs stay as they are, from the call `k` on. -/
def Firm (cfg : IndexerConfig) (sess : Session) (k : ℕ) : Prop :=
  ∀ m m', k ≤ m → m ≤ m' → ∀ n, ∀ e ∈ logsAt (sess.node m).chain.blocks n, watches cfg e = true →
    ∀ P, (sess.node m').chain.hashAt n = some P → P = e.blockHash

/-- No header stored above the cursor is of another block than the watched logs at its height. -/
def Clear (cfg : IndexerConfig) (sess : Session) (k : ℕ) (stored : ℕ → Option BlockHash)
    (c : Option ℕ) : Prop :=
  ∀ m, k ≤ m → ∀ n, fromBlock c ≤ n → ∀ e ∈ logsAt (sess.node m).chain.blocks n,
    watches cfg e = true → ∀ P, stored n = some P → P = e.blockHash

/-- A tick whose logs and headers are of the same blocks, by the database it starts from. -/
structure Consistent (cfg : IndexerConfig) (db : Db) (sess : Session) : Prop where
  firm : Firm cfg sess (startCalls cfg)
  clear : Reorganized (fun n => db.getBlockHash cfg.chainId n) (sess.node (startCalls cfg + 1)).chain
      (db.lastIndexedBlock cfg.chainId) ∨
    Clear cfg sess (startCalls cfg) (fun n => db.getBlockHash cfg.chainId n)
      (db.lastIndexedBlock cfg.chainId)

/-- A log names the block it is in. -/
theorem logsAt_blockHash {bs : List Block} {e : LogEntry} (h : e ∈ logsAt bs n) :
    e.blockHash = ⟨bs.take (n + 1)⟩ := by
  unfold logsAt at h
  split at h
  · cases h
  · obtain ⟨l, -, rfl⟩ := List.mem_map.mp h
    rfl

/-- The logs of a range are watched logs of the blocks they name. -/
theorem watchedLogs_logged {chain : Chain} {src dst : ℕ} {e : LogEntry}
    (h : e ∈ watchedLogs cfg chain src dst) :
    watches cfg e = true ∧ e ∈ logsAt e.blockHash.ancestry e.blockNumber := by
  obtain ⟨hwatched, n, -, -, he⟩ := mem_watchedLogs.mp h
  refine ⟨hwatched, ?_⟩
  rw [(logsAt_blockNumber he).1, logsAt_blockHash he, logsAt_take (Nat.lt_succ_self n)]
  exact he

/-- After the check, the headers stored from there on are of the blocks of the logs. -/
theorem AfterCheck.agrees {r : Option ℕ} (h : AfterCheck cfg sess k c d r db)
    (hclear : Reorganized (fun n => d.getBlockHash cfg.chainId n) (sess.node (k + 1)).chain c ∨
      Clear cfg sess k (fun n => d.getBlockHash cfg.chainId n) c) {m dst : ℕ} (hm : k ≤ m) :
    ∀ e ∈ watchedLogs cfg (sess.node m).chain (fromBlock r) dst, ∀ P,
      db.getBlockHash cfg.chainId e.blockNumber = some P → P = e.blockHash := by
  intro e he P hP
  obtain ⟨hwatched, n, hsrc, -, hmem⟩ := mem_watchedLogs.mp he
  rw [(logsAt_blockNumber hmem).1] at hP
  cases h with
  | quiet hno => exact (hclear.resolve_left hno) m hm n hsrc e hmem hwatched P hP
  | @rolled root hroot =>
    have habove : root < (n : ℤ) := by
      by_contra hle
      exact absurd hsrc (not_le.mpr (lt_fromBlock_resumeAt.mpr (not_lt.mp hle)))
    rw [getBlockHash_belowRoot, if_pos habove] at hP
    cases hP

theorem AfterCheck.origin {r : Option ℕ} (h : AfterCheck cfg sess k c d r db) (ho : Origin cfg S G d) :
    Origin cfg S G db := by
  cases h with
  | quiet => exact ho
  | rolled => exact ho.belowRoot _

section Tick

variable (hnew : ∀ m, startCalls cfg ≤ m → ∀ n P, (sess.node m).chain.hashAt n = some P → G' n P)
  (hold : ∀ d r db', Unmoved db d →
    AfterCheck cfg sess (startCalls cfg) (db.lastIndexedBlock cfg.chainId) d r db' →
    ∀ n P, db'.getBlockHash cfg.chainId n = some P → G' n P)

include hnew in
/-- `run_inner` once its logs are fetched. -/
theorem resume_origin {f : (Option ℕ × Bool) × Option (ℕ × List LogEntry)} {w : World}
    (hfirm : Firm cfg sess (startCalls cfg))
    (ho : Origin cfg S G' w.db)
    (hlogs : ∀ target logs, f.2 = some (target, logs) → ∃ m src, startCalls cfg ≤ m ∧ m < w.calls ∧
      logs = watchedLogs cfg (sess.node m).chain src target ∧
      ∀ e ∈ logs, ∀ P, w.db.getBlockHash cfg.chainId e.blockNumber = some P → P = e.blockHash) :
    Triple (· = w) (resume sess cfg f)
      (fun _ => On (Origin cfg (sourceAfter cfg ((f.2.map Prod.snd).getD []) w.db S) G'))
      (On (Origin cfg (sourceAfter cfg ((f.2.map Prod.snd).getD []) w.db S) G')) := by
  unfold resume
  cases hf : f.2 with
  | none =>
    refine triple_pure ?_
    rintro s rfl
    exact ho.start []
  | some tl =>
    obtain ⟨target, logs⟩ := tl
    obtain ⟨m, src, hm, hcalls, rfl, hagrees⟩ := hlogs target logs hf
    show Triple _ _ _ (On (Origin cfg (sourceAfter cfg (watchedLogs cfg (sess.node m).chain src target)
      w.db S) G'))
    refine triple_bind (triple_pre (ingestLogs_origin (k := w.calls) (d := w.db) ?_ ?_) ?_) ?_
    · intro m' hm' n P hP
      refine ⟨hnew m' (by omega) n P hP, ?_⟩
      intro e he hn
      obtain ⟨hwatched, n', -, -, he⟩ := mem_watchedLogs.mp he
      rw [(logsAt_blockNumber he).1] at hn
      subst hn
      exact hfirm m m' hm (by omega) n' e he hwatched P hP
    · intro e he
      exact watchedLogs_logged he
    · rintro s rfl
      refine ⟨le_refl _, ho.start _, fun _ hx => hx, hagrees, ?_⟩
      intro n hn
      cases hn
    · intro rows
      exact triple_pure fun _ hs => hs

include hnew hold in
/-- A tick from the run it opened. -/
theorem finishTick_origin (ho : Origin cfg S G db) (hcons : Consistent cfg db sess) {w : World}
    (hcalls : w.calls = startCalls cfg) (hun : Unmoved db w.db) {S' : Source} {runId src : ℕ}
    (hS' : S' = sourceAfter cfg (landed (fetch sess cfg (db.lastIndexedBlock cfg.chainId) w)).1
      (landed (fetch sess cfg (db.lastIndexedBlock cfg.chainId) w)).2 S) :
    Triple (· = w) (finishTick sess cfg runId src (db.lastIndexedBlock cfg.chainId))
      (fun o => On fun db => (Origin cfg S' G db ∨ Origin cfg S' G' db) ∧
        (o.error = none → Origin cfg S' G' db))
      (On fun db => Origin cfg S' G db ∨ Origin cfg S' G' db) := by
  have ho : Origin cfg S G w.db := ho.unmoved hun
  have hstored : (fun n => w.db.getBlockHash cfg.chainId n) = fun n => db.getBlockHash cfg.chainId n := by
    funext n
    exact hun.getBlockHash
  have hclear := hcons.clear
  rw [← hstored] at hclear
  suffices h : Triple (· = w) (runInner sess cfg (db.lastIndexedBlock cfg.chainId))
      (fun _ => On (Origin cfg S' G')) (On fun db => Origin cfg S' G db ∨ Origin cfg S' G' db) by
    refine triple_conseq (finishTick_keeps ?_ ?_ h) (fun _ hs => hs) ?_ ?_
    · intro db db' h hun
      exact h.unmoved hun
    · rintro db db' (h | h) hun
      · exact .inl (h.unmoved hun)
      · exact .inr (h.unmoved hun)
    · rintro o w ⟨h, herr⟩
      exact ⟨h.elim id .inr, herr⟩
    · intro w h
      exact h.elim id .inr
  have hfetch : Triple (At (startCalls cfg) (· = w.db))
    (fetch sess cfg (db.lastIndexedBlock cfg.chainId)) _ _ := fetch_at
  have hfetch := hfetch w ⟨hcalls, rfl⟩
  rw [runInner_eq]
  rcases hf : fetch sess cfg (db.lastIndexedBlock cfg.chainId) w with ⟨e | f, w'⟩
  · rw [hf] at hfetch hS'
    refine triple_bind_error hf ?_
    have horigin : Origin cfg S G w'.db := by
      rcases hfetch with hd | ⟨r, hcheck⟩
      · rw [hd]
        exact ho
      · exact hcheck.origin ho
    left
    rw [hS']
    exact horigin.start []
  · rw [hf] at hfetch hS'
    obtain ⟨hcheck, hlogs⟩ := hfetch
    refine triple_bind_ok hf ?_
    rw [hS']
    refine triple_error (resume_origin hnew hcons.firm
      ((hcheck.origin ho).regard (hold w.db f.1.1 w'.db hun hcheck)) ?_) fun _ hs => .inr hs
    intro target logs hsome
    obtain ⟨m, hm, hlt, rfl⟩ := hlogs target logs hsome
    exact ⟨m, _, hm, hlt, rfl, hcheck.agrees hclear hm⟩

include hnew hold in
/-- **One tick.**  Every row after it came from a log in the block of the header stored at its height;
and if it ends without an error, the stored headers are those that `G'` admits. -/
theorem tick_origin (ho : Origin cfg S G db) (hcons : Consistent cfg db sess) :
    (Origin cfg (nextSource sess cfg db S) G (tick sess cfg db).2 ∨
        Origin cfg (nextSource sess cfg db S) G' (tick sess cfg db).2) ∧
      ∀ o, (tick sess cfg db).1 = .ok o → o.error = none →
        Origin cfg (nextSource sess cfg db S) G' (tick sess cfg db).2 := by
  have hopen : Triple (At 0 (· = db)) (openRun sess cfg) _ _ := openRun_at
  have hopen := hopen ⟨db, 0⟩ ⟨rfl, rfl⟩
  unfold nextSource fetched tick
  rw [runOnce_eq]
  rcases hr : openRun sess cfg ⟨db, 0⟩ with ⟨e | ⟨c, runId⟩, w⟩
  · rw [hr] at hopen
    have hrun := bind_of_error (f := fun r => finishTick sess cfg r.2 (fromBlock r.1) r.1) hr
    have hfetch := bind_of_error (f := fun r => fetch sess cfg r.1) hr
    rw [hrun, hfetch]
    refine ⟨.inl ((ho.unmoved hopen).start []), ?_⟩
    intro o hok
    cases hok
  · rw [hr] at hopen
    obtain ⟨hcalls, hun, rfl⟩ := hopen
    have hrun := bind_of_ok (f := fun r => finishTick sess cfg r.2 (fromBlock r.1) r.1) hr
    have hfetch := bind_of_ok (f := fun r => fetch sess cfg r.1) hr
    rw [hrun, hfetch]
    have h : Triple (· = w) (finishTick sess cfg runId (fromBlock (db.lastIndexedBlock cfg.chainId))
      (db.lastIndexedBlock cfg.chainId)) _ _ := finishTick_origin hnew hold ho hcons hcalls hun rfl
    have h := h w rfl
    rcases hend : finishTick sess cfg runId (fromBlock (db.lastIndexedBlock cfg.chainId))
        (db.lastIndexedBlock cfg.chainId) w with ⟨e | o, w'⟩
    · rw [hend] at h
      refine ⟨h, ?_⟩
      intro o hok
      cases hok
    · rw [hend] at h
      refine ⟨h.1, ?_⟩
      rintro o' ⟨⟩
      exact h.2

end Tick

end RobotMoney.Indexer
