import RobotMoney.Indexer.Rows

/-!
# The databases that ticks lead to

`Keeps` lists what a tick is made of, and `Keeps.tick` is the rule for invariants: what each part keeps,
a tick keeps, however it ends.  `Reached` are the databases that ticks lead to, whatever the node shows,
whatever fails, and however the service is configured at each of them.  In all of them what rows refer to
is there (`Reached.intact`): the proposal of a vote, the contract of a vault.
-/

namespace RobotMoney.Indexer

open RobotMoney.Lib Fallible

variable {cfg : IndexerConfig} {sess : Session} {db db' : Db} {t : EventTables} {e : LogEntry} {n : ℕ}
  {c : Option ℕ}

/-! ### The rule for invariants -/

/-- A statement keeps `P` where it does not fail. -/
def KeptBy {α : Type} (P : Db → Prop) (f : Statement α) : Prop :=
  ∀ db a db', P db → f db = .ok (a, db') → P db'

/-- The rows of blocks and transactions keep `P`. -/
structure Fills (P : Db → Prop) : Prop where
  block : ∀ r, KeptBy P (Db.insertBlock r)
  transaction : ∀ r, KeptBy P (Db.insertTransaction r)

/-- The parts of an ingestion other than its snapshots keep `P`. -/
structure Ingests (sess : Session) (cfg : IndexerConfig) (P : Db → Prop) : Prop extends Fills P where
  rollback : ∀ root, KeptBy P (Db.deleteAboveBlock cfg.chainId root)
  record : ∀ x, KeptBy P (Db.insertRecord x)
  update : ∀ e ev, Triple (On P) (handleUpdate sess cfg e ev) (fun _ => On P) (On P)

/-- What a tick does around `run_inner` keeps `P`. -/
structure Brackets (P : Db → Prop) : Prop where
  chain : ∀ r, KeptBy P (Db.upsertChain r)
  contract : ∀ r, KeptBy P (Db.upsertContract r)
  start : ∀ chainId src, KeptBy P (Db.startRun chainId src)
  finish : ∀ runId toBlock last reorgs rows err,
    KeptBy P (Db.finishRun runId toBlock last reorgs rows err)

/-- The parts of a tick other than its snapshots keep `P`. -/
structure Spares (sess : Session) (cfg : IndexerConfig) (P : Db → Prop) : Prop extends
    Ingests sess cfg P, Brackets P

/-- The parts of a tick keep `P`. -/
structure Keeps (sess : Session) (cfg : IndexerConfig) (P : Db → Prop) : Prop extends
    Spares sess cfg P where
  snapshot : ∀ r, KeptBy P (Db.insertVaultSnapshot r)

/-- An event without a row of its own is one statement, or two. -/
theorem update_of_keptBy {P : Db → Prop} {ev : Event} (hcontract : ∀ r, KeptBy P (Db.upsertContract r))
    (hvault : ∀ r, KeptBy P (Db.upsertVault r))
    (hstatus : ∀ chainId vault status at', KeptBy P (Db.updateVaultStatus chainId vault status at'))
    (hexecuted : ∀ chainId id at', KeptBy P (Db.executeProposal chainId id at')) :
    Triple (On P) (handleUpdate sess cfg e ev) (fun _ => On P) (On P) := by
  cases ev with
  | vaultRegistered vault name asset =>
    unfold handleUpdate
    refine triple_bind (sql_keeps (hcontract _)) ?_
    intro _
    exact sql_keeps (hvault _)
  | vaultStatusChanged vault newStatus timestamp => exact sql_keeps (hstatus _ _ _ _)
  | proposalExecuted proposalId executor => exact sql_keeps (hexecuted _ _ _)
  | _ => exact triple_pure fun _ hs => hs

namespace Fills

variable {P : Db → Prop} (h : Fills P)

include h

theorem ingestBlock : Triple (On P) (ingestBlock sess cfg n) (fun _ => On P) (On P) := by
  unfold Indexer.ingestBlock
  refine triple_bind (triple_conseq (blockWithTxs_past (k := 0)) (fun _ hs => ⟨Nat.zero_le _, hs⟩)
    (fun _ _ hs => hs.2.2) fun _ hs => hs) ?_
  rintro ⟨header, txs⟩
  refine triple_bind (sql_keeps (h.block _)) ?_
  intro r
  refine triple_bind (triple_total_keeps fun tx _ => sql_keeps (h.transaction _)) ?_
  intro rs
  exact triple_pure fun _ hs => hs

theorem ingestCursor {logs : List LogEntry} :
    Triple (On P) (ingestCursor sess cfg logs n) (fun _ => On P) (On P) := by
  unfold Indexer.ingestCursor
  split
  · exact triple_pure fun _ hs => hs
  · refine triple_bind read_keeps ?_
    intro header
    cases header with
    | none => exact triple_pure fun _ hs => hs
    | some header => exact sql_keeps (h.block _)

/-- The ingestion of logs, each of which is handled. -/
theorem ingestLogs {logs : List LogEntry}
    (hlog : ∀ e ∈ logs, Triple (On P) (handleLog sess cfg e) (fun _ => On P) (On P))
    (hsnap : ∀ r, KeptBy P (Db.insertVaultSnapshot r)) :
    Triple (On P) (ingestLogs sess cfg logs n) (fun _ => On P) (On P) := by
  unfold Indexer.ingestLogs
  refine triple_bind (triple_total_keeps fun n _ => h.ingestBlock) ?_
  intro r₁
  refine triple_bind h.ingestCursor ?_
  intro r₂
  refine triple_bind (triple_total_keeps hlog) ?_
  intro r₃
  refine triple_bind (triple_total_keeps fun b _ => snapshotAt_keeps fun r n db db' => hsnap r db n db') ?_
  intro r₄
  refine triple_bind select_keeps ?_
  intro active
  refine triple_bind (triple_total_keeps fun a _ => heartbeat_keeps fun r n db db' => hsnap r db n db') ?_
  intro r₅
  exact triple_pure fun _ hs => hs

end Fills

namespace Ingests

variable {P : Db → Prop} (h : Ingests sess cfg P)

include h

theorem handleLog : Triple (On P) (handleLog sess cfg e) (fun _ => On P) (On P) := by
  unfold Indexer.handleLog
  cases e.log.data with
  | foreign => exact triple_pure fun _ hs => hs
  | raw t =>
    dsimp only
    split
    · exact triple_fail fun _ hs => hs
    · exact triple_pure fun _ hs => hs
  | event ev =>
    dsimp only
    cases ev.record cfg e with
    | some x => exact sql_keeps (h.record x)
    | none => exact h.update e ev

omit h in
theorem walkBackToMatch : Triple (On P) (walkBackToMatch sess cfg n) (fun _ => On P) (On P) := by
  have hmatches : ∀ n, Triple (On P) (matchesAt sess cfg n) (fun _ => On P) (On P) := by
    intro n
    unfold matchesAt
    refine triple_bind select_keeps ?_
    intro stored
    cases stored with
    | none => exact triple_pure fun _ hs => hs
    | some hash =>
      refine triple_bind read_keeps ?_
      intro header
      exact triple_pure fun _ hs => hs
  induction n with
  | zero =>
    unfold Indexer.walkBackToMatch
    refine triple_bind (hmatches 0) ?_
    intro found
    exact triple_pure fun _ hs => hs
  | succ n ih =>
    unfold Indexer.walkBackToMatch
    refine triple_bind (hmatches (n + 1)) ?_
    intro found
    split
    · exact triple_pure fun _ hs => hs
    · exact ih

theorem reorgCheck : Triple (On P) (reorgCheck sess cfg c) (fun _ => On P) (On P) := by
  cases c with
  | none => exact triple_pure fun _ hs => hs
  | some li =>
    unfold Indexer.reorgCheck
    refine triple_bind select_keeps ?_
    intro stored
    cases stored with
    | none => exact triple_pure fun _ hs => hs
    | some hash =>
      refine triple_bind read_keeps ?_
      intro header
      cases header with
      | none => exact triple_pure fun _ hs => hs
      | some header =>
        dsimp only
        split
        · refine triple_bind walkBackToMatch ?_
          intro root
          refine triple_bind (sql_keeps (h.rollback root)) ?_
          intro _
          exact triple_pure fun _ hs => hs
        · exact triple_pure fun _ hs => hs

theorem fetch : Triple (On P) (fetch sess cfg c) (fun _ => On P) (On P) := by
  unfold Indexer.fetch
  refine triple_bind h.reorgCheck ?_
  intro r
  refine triple_bind read_keeps ?_
  intro tip
  split
  · exact triple_pure fun _ hs => hs
  · refine triple_bind read_keeps ?_
    intro logs
    exact triple_pure fun _ hs => hs

variable (hsnap : ∀ r, KeptBy P (Db.insertVaultSnapshot r))

include hsnap

theorem ingest {src dst : ℕ} : Triple (On P) (ingest sess cfg src dst) (fun _ => On P) (On P) := by
  rw [ingest_eq]
  refine triple_bind read_keeps ?_
  intro logs
  exact h.ingestLogs (fun e _ => h.handleLog) hsnap

theorem runInner : Triple (On P) (runInner sess cfg c) (fun _ => On P) (On P) := by
  unfold Indexer.runInner
  refine triple_bind h.reorgCheck ?_
  rintro ⟨c', reorg⟩
  refine triple_bind read_keeps ?_
  intro tip
  split
  · exact triple_pure fun _ hs => hs
  · refine triple_bind (h.ingest hsnap) ?_
    intro rows
    exact triple_pure fun _ hs => hs

end Ingests

namespace Brackets

variable {P : Db → Prop} (h : Brackets P)

include h

theorem openRun : Triple (On P) (openRun sess cfg) (fun _ => On P) (On P) := by
  unfold Indexer.openRun upsertContracts
  simp only [bind_assoc, pure_bind]
  refine triple_bind (sql_keeps (h.chain _)) ?_
  intro _
  refine triple_bind (sql_keeps (h.contract _)) ?_
  intro _
  refine triple_bind (sql_keeps (h.contract _)) ?_
  intro _
  refine triple_bind (triple_total_keeps fun _ _ => sql_keeps (h.contract _)) ?_
  intro _
  refine triple_bind (triple_total_keeps fun _ _ => sql_keeps (h.contract _)) ?_
  intro _
  refine triple_bind select_keeps ?_
  intro lastIndexed
  refine triple_bind (sql_keeps (h.start _ _)) ?_
  intro runId
  exact triple_pure fun _ hs => hs

/-- What the run keeps, the record of it keeps. -/
theorem finishTick {A : World → Prop} {runId src : ℕ}
    (hinner : Triple A (runInner sess cfg c) (fun _ => On P) (On P)) :
    Triple A (finishTick sess cfg runId src c) (fun _ => On P) (On P) := by
  unfold Indexer.finishTick
  refine triple_bind (triple_attempt (R := fun _ => On P) hinner (fun _ _ hs => hs) fun _ _ hs => hs) ?_
  intro r
  cases r with
  | ok o =>
    refine triple_bind (sql_keeps (h.finish _ _ _ _ _ _)) ?_
    intro _
    exact triple_pure fun _ hs => hs
  | error err =>
    refine triple_bind (sql_keeps (h.finish _ _ _ _ _ _)) ?_
    intro _
    exact triple_pure fun _ hs => hs

/-- What the run of a tick keeps, wherever the tick starts it, the tick keeps. -/
theorem tick (hP : P db) (hinner : ∀ r w, Indexer.openRun sess cfg ⟨db, 0⟩ = (.ok r, w) → P w.db →
    Triple (· = w) (runInner sess cfg r.1) (fun _ => On P) (On P)) : P (tick sess cfg db).2 := by
  have hrun : Triple (· = ⟨db, 0⟩) (runOnce sess cfg) (fun _ => On P) (On P) := by
    rw [runOnce_eq]
    refine triple_bind (triple_self h.openRun hP) ?_
    intro r
    refine triple_of_each ?_
    rintro w ⟨hopen, hw⟩
    exact h.finishTick (hinner r w hopen hw)
  have hrun := hrun ⟨db, 0⟩ rfl
  unfold Indexer.tick
  rcases hr : runOnce sess cfg ⟨db, 0⟩ with ⟨err | o, w⟩
  · rw [hr] at hrun
    exact hrun
  · rw [hr] at hrun
    exact hrun

end Brackets

namespace Keeps

variable {P : Db → Prop} (h : Keeps sess cfg P)

include h

/-- **The rule.**  What the parts of a tick keep, the tick keeps. -/
theorem tick (hP : P db) : P (tick sess cfg db).2 := by
  refine h.toBrackets.tick hP ?_
  rintro r w - hw
  exact triple_pre (h.runInner h.snapshot) fun t ht => ht ▸ hw

end Keeps

/-! ### Runs of the service -/

/-- The databases that ticks lead to from a new one. -/
inductive Reached : Db → Prop where
  | new : Reached Db.empty
  | tick {db : Db} (h : Reached db) (sess : Session) (cfg : IndexerConfig) : Reached (tick sess cfg db).2

/-- The database after ticks of the service, from a new one.  A tick whose calls all fail from one on
leaves what there is in the middle of it, before that call. -/
def ticked (ticks : List (Session × IndexerConfig)) : Db :=
  ticks.foldl (fun db t => (tick t.1 t.2 db).2) Db.empty

theorem ticked_snoc {ticks : List (Session × IndexerConfig)} {t : Session × IndexerConfig} :
    ticked (ticks ++ [t]) = (tick t.1 t.2 (ticked ticks)).2 := by
  unfold ticked
  rw [List.foldl_append]
  rfl

/-- What the parts of all ticks keep holds of every database that ticks lead to. -/
theorem Reached.of_keeps {P : Db → Prop} (h : Reached db) (hnew : P Db.empty)
    (hkeeps : ∀ sess cfg, Keeps sess cfg P) : P db := by
  induction h with
  | new => exact hnew
  | tick _ sess cfg ih => exact (hkeeps sess cfg).tick ih

/-! ### What rows refer to -/

/-- The proposals of votes are there. -/
def Referenced (db : Db) : Prop :=
  ∀ v, db.Holds (.vote v) → ∃ q, db.Holds (.proposal q) ∧ q.proposalKey = (v.chainId, v.proposalId)

/-- Vaults are listed once, and their contracts are there. -/
structure Contracted (db : Db) : Prop where
  contracts : ∀ r ∈ db.vaults, Table.taken ContractRow.key db.contracts r.key = true
  unique : Table.Unique VaultRow.key db.vaults

/-- What rows refer to is there, and the identifiers of runs are new ones. -/
structure Intact (db : Db) : Prop where
  referenced : Referenced db
  contracted : Contracted db
  runs : FreshRuns db

theorem Referenced.unmoved (h : Referenced db) (hun : Unmoved db db') : Referenced db' := by
  intro v hv
  obtain ⟨q, hq, hkey⟩ := h v ((hun.holds _).mp hv)
  exact ⟨q, (hun.holds _).mpr hq, hkey⟩

/-- A rollback that leaves a vote leaves its proposal. -/
theorem Referenced.rollback {chainId root : ℤ} {a : Unit} (h : Referenced db)
    (hok : Db.deleteAboveBlock chainId root db = .ok (a, db')) : Referenced db' := by
  unfold Db.deleteAboveBlock at hok
  split at hok
  · cases hok
  · rename_i hstrands
    cases hok
    intro v hv
    obtain ⟨q, hq, hkey⟩ := h v (List.mem_filter.mp hv).1
    refine ⟨q, ?_, hkey⟩
    obtain ⟨p, hp, rfl⟩ := hq
    refine ⟨p, List.mem_filter.mpr ⟨hp, ?_⟩, rfl⟩
    rw [Bool.not_eq_true', Bool.eq_false_iff]
    intro habove
    refine hstrands ?_
    refine List.any_eq_true.mpr ⟨v, hv, List.any_eq_true.mpr ⟨p, hp, ?_⟩⟩
    rw [habove, decide_eq_true hkey]
    rfl

theorem Referenced.insertRecord {x : Record} (h : Referenced db)
    (hok : Db.insertRecord x db = .ok (n, db')) : Referenced db' := by
  have hholds := holds_insertRecord hok
  intro v hv
  rcases (hholds _).mp hv with hv | ⟨rfl, hfree⟩
  · obtain ⟨q, hq, hkey⟩ := h v hv
    exact ⟨q, (hholds _).mpr (.inl hq), hkey⟩
  · have hok : Db.insertVote v db = .ok (n, db') := hok
    unfold Db.insertVote at hok
    split at hok
    · rename_i htaken
      obtain ⟨v', hv', hkey⟩ := Table.exists_of_taken htaken
      exact absurd (congrArg RecordKey.vote hkey) (hfree (.vote v') hv')
    · split at hok
      · rename_i htaken
        obtain ⟨p, hp, hkey⟩ := Table.exists_of_taken htaken
        exact ⟨p.core, (hholds _).mpr (.inl ⟨p, hp, rfl⟩), hkey⟩
      · cases hok

/-- Statements on the other tables. -/
theorem Contracted.of_tables (h : Contracted db) (hv : db'.vaults = db.vaults)
    (hc : db'.contracts = db.contracts) : Contracted db' where
  contracts := by
    rw [hv, hc]
    exact h.contracts
  unique := by
    rw [hv]
    exact h.unique

theorem Contracted.upsertContract {r : ContractRow} (h : Contracted db)
    (hok : Db.upsertContract r db = .ok (n, db')) : Contracted db' := by
  cases hok
  exact ⟨fun v hv => Table.taken_insertNew (h.contracts v hv), h.unique⟩

theorem Contracted.upsertVault {r : VaultRow} (h : Contracted db)
    (hok : Db.upsertVault r db = .ok (n, db'))
    (hr : Table.taken ContractRow.key db.contracts r.key = true) : Contracted db' := by
  obtain ⟨-, rfl⟩ := upsertVault_eq_ok hok
  exact ⟨Table.forall_insertNew h.contracts hr, h.unique.insertNew⟩

theorem Contracted.updateVaultStatus {chainId : ℤ} {newStatus changedAt : ℕ} {vault : Address}
    (h : Contracted db) (hok : Db.updateVaultStatus chainId vault newStatus changedAt db = .ok (n, db')) :
    Contracted db' := by
  cases hok
  have hkey : ∀ u : VaultRow, (u.withStatus (chainId, vault) newStatus changedAt).key = u.key :=
    fun _ => withStatus_key
  refine ⟨?_, h.unique.map hkey⟩
  intro v hv
  obtain ⟨u, hu, rfl⟩ := List.mem_map.mp hv
  unfold VaultRow.withStatus at hkey
  rw [hkey]
  exact h.contracts u hu

theorem Intact.rollback {chainId root : ℤ} {a : Unit} (h : Intact db)
    (hok : Db.deleteAboveBlock chainId root db = .ok (a, db')) : Intact db' := by
  have hreferenced := h.referenced.rollback hok
  unfold Db.deleteAboveBlock at hok
  split at hok
  · cases hok
  · cases hok
    exact ⟨hreferenced, h.contracted.of_tables rfl rfl, h.runs⟩

theorem Intact.insertVaultSnapshot {r : SnapshotRow} (h : Intact db)
    (hok : Db.insertVaultSnapshot r db = .ok (n, db')) : Intact db' := by
  have hreferenced := h.referenced.unmoved (unmoved_insertVaultSnapshot hok)
  unfold Db.insertVaultSnapshot at hok
  split at hok
  · cases hok
    exact h
  · split at hok
    · cases hok
      exact ⟨hreferenced, h.contracted.of_tables rfl rfl, h.runs⟩
    · cases hok

/-- Rows of blocks and transactions keep what rows refer to. -/
theorem intact_fills : Fills Intact where
  block r := by
    rintro db a db' h hok
    cases hok
    exact ⟨h.referenced, h.contracted.of_tables rfl rfl, h.runs⟩
  transaction r := by
    rintro db a db' h hok
    cases hok
    exact ⟨h.referenced.unmoved (unmoved_of_tables rfl rfl rfl rfl rfl rfl rfl),
      h.contracted.of_tables rfl rfl, h.runs⟩

/-- So does what a tick does around `run_inner`. -/
theorem intact_brackets : Brackets Intact where
  chain r := by
    rintro db a db' h hok
    cases hok
    exact ⟨h.referenced.unmoved (unmoved_of_tables rfl rfl rfl rfl rfl rfl rfl),
      h.contracted.of_tables rfl rfl, h.runs⟩
  contract r := by
    rintro db a db' h hok
    have hcontracted := h.contracted.upsertContract hok
    cases hok
    exact ⟨h.referenced.unmoved (unmoved_of_tables rfl rfl rfl rfl rfl rfl rfl), hcontracted, h.runs⟩
  start chainId src := by
    rintro db a db' h hok
    cases hok
    exact ⟨h.referenced.unmoved (unmoved_of_tables rfl rfl rfl rfl rfl rfl rfl),
      h.contracted.of_tables rfl rfl, fresh_snoc h.runs⟩
  finish runId toBlock last reorgs rows err := by
    rintro db a db' h hok
    cases hok
    refine ⟨h.referenced.unmoved (unmoved_of_tables rfl rfl rfl rfl rfl rfl rfl),
      h.contracted.of_tables rfl rfl, ?_⟩
    intro r hr
    obtain ⟨r', hr', rfl⟩ := List.mem_map.mp hr
    have hlt := h.runs r' hr'
    split
    · exact hlt
    · exact hlt

/-- The parts of a tick keep what rows refer to. -/
theorem intact_keeps : Keeps sess cfg Intact where
  toFills := intact_fills
  toBrackets := intact_brackets
  rollback root := fun db a db' h hok => h.rollback hok
  record x := by
    rintro db a db' h hok
    obtain ⟨-, hcontracts, hvaults, hruns⟩ := insertRecord_frame hok
    obtain ⟨hruns, hnext⟩ := Prod.mk.injEq .. ▸ hruns
    refine ⟨h.referenced.insertRecord hok, h.contracted.of_tables hvaults hcontracts, ?_⟩
    unfold FreshRuns
    rw [hruns, hnext]
    exact h.runs
  update e ev := by
    cases ev with
    | vaultRegistered vault name asset =>
      unfold handleUpdate
      refine triple_bind (Q := fun _ => On fun db => Intact db ∧
        Table.taken ContractRow.key db.contracts (cfg.chainId, vault) = true)
        (triple_conseq (past_sql (k := 0) (P := Intact) (Q := fun _ db => Intact db ∧
          Table.taken ContractRow.key db.contracts (cfg.chainId, vault) = true) ?_)
          (fun _ hs => ⟨Nat.zero_le _, hs⟩) (fun _ _ hs => hs.2) fun _ hs => hs) ?_
      · rintro db a db' h hok
        have hcontracted := h.contracted.upsertContract hok
        cases hok
        refine ⟨⟨h.referenced.unmoved (unmoved_of_tables rfl rfl rfl rfl rfl rfl rfl), hcontracted,
          h.runs⟩, ?_⟩
        exact Table.taken_insertNew_self (r := (⟨cfg.chainId, vault, "vault", none⟩ : ContractRow))
      · intro _
        refine triple_conseq (past_sql (k := 0) (P := fun db => Intact db ∧
          Table.taken ContractRow.key db.contracts (cfg.chainId, vault) = true)
          (Q := fun _ => Intact) ?_) (fun _ hs => ⟨Nat.zero_le _, hs⟩) (fun _ _ hs => hs.2)
          fun _ hs => hs.1
        rintro db a db' ⟨h, ht⟩ hok
        have hcontracted := h.contracted.upsertVault hok ht
        obtain ⟨-, rfl⟩ := upsertVault_eq_ok hok
        exact ⟨h.referenced.unmoved (unmoved_of_tables rfl rfl rfl rfl rfl rfl rfl), hcontracted, h.runs⟩
    | vaultStatusChanged vault newStatus timestamp =>
      unfold handleUpdate
      refine sql_keeps ?_
      rintro db a db' h hok
      have hcontracted := h.contracted.updateVaultStatus hok
      cases hok
      exact ⟨h.referenced.unmoved (unmoved_of_tables rfl rfl rfl rfl rfl rfl rfl), hcontracted, h.runs⟩
    | proposalExecuted proposalId executor =>
      unfold handleUpdate
      refine sql_keeps ?_
      rintro db a db' h hok
      have hreferenced := h.referenced.unmoved (unmoved_executeProposal hok)
      cases hok
      exact ⟨hreferenced, h.contracted.of_tables rfl rfl, h.runs⟩
    | _ => exact triple_pure fun _ hs => hs
  snapshot r := fun db k db' h hok => h.insertVaultSnapshot hok

theorem intact_empty : Intact Db.empty where
  referenced v hv := by cases hv
  contracted := by
    refine ⟨?_, Table.unique_nil⟩
    intro r hr
    cases hr
  runs := freshRuns_empty

/-- **What rows refer to is there**, after any ticks. -/
theorem Reached.intact (h : Reached db) : Intact db := h.of_keeps intact_empty fun _ _ => intact_keeps

end RobotMoney.Indexer
