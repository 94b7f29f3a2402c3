import RobotMoney.Indexer.Reached

/-!
# What snapshots say

A row of `vault_snapshots` is made of five reads, one call each.  A failed read of the assets or of the
supply ends the tick; in place of the others there is zero, and a row once written stays.  `tick_snapshots`
says which rows a tick writes; what they say is true if no read was swallowed (`snapshots_true`), and
otherwise it need not be (`swallowed_read_is_stored`).
-/

namespace RobotMoney.Indexer

open RobotMoney.Lib Fallible

variable {cfg : IndexerConfig} {sess : Session} {db : Db} {w : World} {a : Address} {n k target : ℕ}
  {view : View} {logs : List LogEntry} {P : Db → Prop}

/-! ### The reads -/

/-- The word that the call `k` gives for a view at a block, if it gives one. -/
def Session.word (sess : Session) (k : ℕ) (a : Address) (view : View) (n : ℕ) : Option ℕ :=
  if sess.fails k then none
  else
    match (sess.node k).ethCall a view n with
    | .word x => some x
    | _ => none

/-- The row of a snapshot whose reads are the calls from `k` on. -/
def Session.snapshotRow (sess : Session) (cfg : IndexerConfig) (a : Address) (n k : ℕ) :
    Option SnapshotRow := do
  let totalAssets ← sess.word k a .totalAssets n
  let totalSupply ← sess.word (k + 1) a .totalSupply n
  let exitFeeBps := (sess.word (k + 2) a .exitFeeBps n).getD 0
  pure
    { chainId := cfg.chainId
      contract := a
      blockNumber := n
      totalAssets, totalSupply
      exitFeeBps := if exitFeeBps < 2 ^ 63 then exitFeeBps else 0
      tvlCap := (sess.word (k + 3) a .tvlCap n).getD 0
      paused := ((sess.word (k + 4) a .paused n).map fun x => decide (x ≠ 0)).getD false }

theorem callU256_eq (sess : Session) (a : Address) (view : View) (n : ℕ) (w : World) :
    ∃ r, callU256 sess a view n w = (r, w.next) ∧ r.toOption = sess.word w.calls a view n := by
  unfold callU256 rpc Session.word
  split
  · exact ⟨_, rfl, rfl⟩
  · refine ⟨_, rfl, ?_⟩
    dsimp only
    cases (sess.node w.calls).ethCall a view n with
    | reverted => rfl
    | short => rfl
    | word x => rfl

theorem callU256_reads : Triple (At k P) (callU256 sess a view n)
    (fun x t => sess.word k a view n = some x ∧ At (k + 1) P t) (On P) := by
  rintro w ⟨rfl, hP⟩
  obtain ⟨r, hr, hword⟩ := callU256_eq sess a view n w
  rw [hr]
  cases r with
  | ok x => exact ⟨hword.symm, rfl, hP⟩
  | error e => exact hP

theorem callU256_unwrapOr {d : ℕ} : Triple (At k P) ((callU256 sess a view n).unwrapOr d)
    (fun x t => x = (sess.word k a view n).getD d ∧ At (k + 1) P t) (On P) := by
  rintro w ⟨rfl, hP⟩
  obtain ⟨r, hr, hword⟩ := callU256_eq sess a view n w
  unfold unwrapOr
  rw [hr, ← hword]
  cases r with
  | ok x => exact ⟨rfl, rfl, hP⟩
  | error e => exact ⟨rfl, rfl, hP⟩

theorem callBool_unwrapOr {d : Bool} : Triple (At k P) ((callBool sess a view n).unwrapOr d)
    (fun x t => x = ((sess.word k a view n).map fun x => decide (x ≠ 0)).getD d ∧ At (k + 1) P t)
    (On P) := by
  rintro w ⟨rfl, hP⟩
  obtain ⟨r, hr, hword⟩ := callU256_eq sess a view n w
  unfold unwrapOr callBool
  rw [← hword]
  cases r with
  | ok x =>
    rw [bind_of_ok hr]
    exact ⟨rfl, rfl, hP⟩
  | error e =>
    rw [bind_of_error hr]
    exact ⟨rfl, rfl, hP⟩

/-- **One snapshot**: it writes the row of its reads, or nothing. -/
theorem snapshotVaultAddress_writes
    (h : ∀ r, sess.snapshotRow cfg a n k = some r → KeptBy P (Db.insertVaultSnapshot r)) :
    Triple (At k P) (snapshotVaultAddress sess cfg a n) (fun _ => On P) (On P) := by
  unfold snapshotVaultAddress
  refine triple_bind callU256_reads ?_
  intro totalAssets
  refine triple_of_fact (fun _ ht => ht.1) fun hassets => ?_
  refine triple_pre (P := At (k + 1) P) ?_ fun _ ht => ht.2
  refine triple_bind callU256_reads ?_
  intro totalSupply
  refine triple_of_fact (fun _ ht => ht.1) fun hsupply => ?_
  refine triple_pre (P := At (k + 2) P) ?_ fun _ ht => ht.2
  refine triple_bind callU256_unwrapOr ?_
  intro exitFeeBps
  refine triple_of_fact (fun _ ht => ht.1) ?_
  rintro rfl
  refine triple_pre (P := At (k + 3) P) ?_ fun _ ht => ht.2
  refine triple_bind callU256_unwrapOr ?_
  intro tvlCap
  refine triple_of_fact (fun _ ht => ht.1) ?_
  rintro rfl
  refine triple_pre (P := At (k + 4) P) ?_ fun _ ht => ht.2
  refine triple_bind callBool_unwrapOr ?_
  intro paused
  refine triple_of_fact (fun _ ht => ht.1) ?_
  rintro rfl
  refine triple_pre (P := On P) (sql_keeps ?_) fun _ ht => ht.2.2
  refine h _ ?_
  unfold Session.snapshotRow
  rw [hassets, hsupply]
  rfl

/-! ### The snapshots of a tick -/

/-- The ingestion of logs up to its snapshots. -/
def ingestEvents (sess : Session) (cfg : IndexerConfig) (logs : List LogEntry) (target : ℕ) : Tick ℕ := do
  let r₁ ← total (ingestBlock sess cfg) (blocksWithEvents logs)
  let r₂ ← ingestCursor sess cfg logs target
  let r₃ ← total (handleLog sess cfg) logs
  pure (r₁ + r₂ + r₃)

/-- The ingestion of logs up to its heartbeats. -/
def upToHeartbeats (sess : Session) (cfg : IndexerConfig) (logs : List LogEntry) (target : ℕ) :
    Tick (ℕ × List Address) := do
  let r ← ingestEvents sess cfg logs target
  let r' ← total (snapshotAt sess cfg) (eventBlocksPerContract logs)
  let active ← select sess (Db.activeVaults cfg.chainId)
  pure (r + r', active)

theorem ingestLogs_eq : ingestLogs sess cfg logs target =
    upToHeartbeats sess cfg logs target >>= fun r =>
      total (heartbeat sess cfg target) (heartbeatVaults cfg r.2) >>= fun r' => pure (r.1 + r') := by
  unfold ingestLogs upToHeartbeats ingestEvents
  simp only [bind_assoc, pure_bind]

/-- The ingestion that starts at `w` takes a snapshot of `a` at the block `n`; `k` is the number of its
first read. -/
inductive Takes (sess : Session) (cfg : IndexerConfig) (logs : List LogEntry) (target : ℕ) (w : World) :
    Address → ℕ → ℕ → Prop where
  | event {r n : ℕ} {w₁ w₂ : World} (hevents : ingestEvents sess cfg logs target w = (.ok r, w₁))
      (hvisit : Visits (snapshotAt sess cfg) (eventBlocksPerContract logs) w₁ (n, cfg.vault) w₂) :
      Takes sess cfg logs target w cfg.vault n w₂.calls
  | heartbeat {r : ℕ × List Address} {w₁ w₂ : World} {a : Address}
      (hup : upToHeartbeats sess cfg logs target w = (.ok r, w₁))
      (hvisit : Visits (heartbeat sess cfg target) (heartbeatVaults cfg r.2) w₁ a w₂)
      (hdue : ∀ prev, w₂.db.lastSnapshot cfg.chainId a = some prev →
        prev + snapshotHeartbeatBlocks ≤ target) :
      Takes sess cfg logs target w a target (w₂.calls + 1)

/-- The tick takes a snapshot of `a` at the block `n`; `k` is the number of its first read. -/
def TakesSnapshot (sess : Session) (cfg : IndexerConfig) (db : Db) (a : Address) (n k : ℕ) : Prop :=
  ∃ c target logs w, (openRun sess cfg >>= fun r => fetch sess cfg r.1) ⟨db, 0⟩ =
    (.ok (c, some (target, logs)), w) ∧ Takes sess cfg logs target w a n k

/-- The snapshots from `w` on write what keeps `P`. -/
def WritesKeep (sess : Session) (cfg : IndexerConfig) (P : Db → Prop) (T : Address → ℕ → ℕ → Prop) :
    Prop :=
  ∀ a n k r, T a n k → sess.snapshotRow cfg a n k = some r → KeptBy P (Db.insertVaultSnapshot r)

theorem upToHeartbeats_keeps (hspares : Spares sess cfg P) (hP : P w.db)
    (h : WritesKeep sess cfg P (Takes sess cfg logs target w)) :
    Triple (· = w) (upToHeartbeats sess cfg logs target) (fun _ => On P) (On P) := by
  have hevents : Triple (On P) (ingestEvents sess cfg logs target) (fun _ => On P) (On P) := by
    unfold ingestEvents
    refine triple_bind (triple_total_keeps fun n _ => hspares.ingestBlock) ?_
    intro r₁
    refine triple_bind hspares.ingestCursor ?_
    intro r₂
    refine triple_bind (triple_total_keeps fun e _ => hspares.handleLog) ?_
    intro r₃
    exact triple_pure fun _ ht => ht
  unfold upToHeartbeats
  refine triple_bind (triple_self hevents hP) ?_
  intro r
  refine triple_bind (triple_of_each fun w₁ hw₁ => triple_visits (P := On P) hw₁.2 ?_) ?_
  · rintro ⟨n, b⟩ w₂ hvisit hw₂
    unfold snapshotAt
    dsimp only
    split
    · rename_i hb
      subst hb
      refine triple_pre (P := At w₂.calls P) (snapshotVaultAddress_writes fun r' => h _ _ _ r' ?_) ?_
      · exact .event hw₁.1 hvisit
      · rintro t rfl
        exact ⟨rfl, hw₂⟩
    · exact triple_pure fun t ht => ht ▸ hw₂
  intro r'
  refine triple_bind select_keeps ?_
  intro active
  exact triple_pure fun _ ht => ht

/-- One heartbeat takes a snapshot if it is due. -/
theorem heartbeat_writes {w₂ : World} (hP : P w₂.db)
    (h : (∀ prev, w₂.db.lastSnapshot cfg.chainId a = some prev → prev + snapshotHeartbeatBlocks ≤ target) →
      ∀ r, sess.snapshotRow cfg a target (w₂.calls + 1) = some r → KeptBy P (Db.insertVaultSnapshot r)) :
    Triple (· = w₂) (heartbeat sess cfg target a) (fun _ => On P) (On P) := by
  unfold heartbeat
  refine triple_bind (triple_conseq (at_select (k := w₂.calls) (P := fun d => d = w₂.db ∧ P d))
    ?_ (fun _ _ ht => ht) fun _ ht => ht.2) ?_
  · rintro t rfl
    exact ⟨rfl, rfl, hP⟩
  intro last
  refine triple_of_fact (p := last = w₂.db.lastSnapshot cfg.chainId a) ?_ ?_
  · rintro t ⟨-, ⟨hdb, -⟩, rfl⟩
    rw [hdb]
  intro hlast
  refine triple_pre (P := At (w₂.calls + 1) P) ?_ fun t ht => ⟨ht.1, ht.2.1.2⟩
  cases last with
  | none =>
    refine snapshotVaultAddress_writes (h ?_)
    intro prev hprev
    cases hlast.trans hprev
  | some prev =>
    dsimp only
    split
    · rename_i hdue
      refine snapshotVaultAddress_writes (h ?_)
      intro prev' hprev
      cases hlast.trans hprev
      exact hdue
    · exact triple_pure fun _ ht => ht.2

theorem ingestLogs_keeps (hspares : Spares sess cfg P) (hP : P w.db)
    (h : WritesKeep sess cfg P (Takes sess cfg logs target w)) :
    Triple (· = w) (ingestLogs sess cfg logs target) (fun _ => On P) (On P) := by
  rw [ingestLogs_eq]
  refine triple_bind (triple_self (upToHeartbeats_keeps hspares hP h) rfl) ?_
  intro r
  refine triple_bind (triple_of_each fun w₁ hw₁ => triple_visits (P := On P) hw₁.2 ?_) ?_
  · intro a w₂ hvisit hw₂
    exact heartbeat_writes hw₂ fun hdue r' => h _ _ _ r' (.heartbeat hw₁.1 hvisit hdue)
  intro r'
  exact triple_pure fun _ ht => ht

/-- A tick keeps what its parts keep and what the rows of its snapshots keep. -/
theorem tick_writes (hspares : Spares sess cfg P) (hP : P db)
    (h : WritesKeep sess cfg P (TakesSnapshot sess cfg db)) : P (tick sess cfg db).2 := by
  refine hspares.tick hP ?_
  intro r w hopen hw
  rw [runInner_eq]
  refine triple_bind (triple_self hspares.fetch hw) ?_
  rintro ⟨c, f⟩
  refine triple_of_each ?_
  rintro w₁ ⟨hfetched, hw₁⟩
  unfold resume
  cases f with
  | none => exact triple_pure fun t ht => ht ▸ hw₁
  | some f =>
    obtain ⟨target, logs⟩ := f
    refine triple_bind (ingestLogs_keeps hspares hw₁ ?_) ?_
    · intro a n k r' htakes
      refine h a n k r' ⟨c, target, logs, w₁, ?_, htakes⟩
      rw [bind_of_ok hopen, hfetched]
    · intro rows
      exact triple_pure fun _ ht => ht

/-- Only snapshots add rows to `vault_snapshots`. -/
theorem snapshots_spares {G : SnapshotRow → Prop} :
    Spares sess cfg fun d => ∀ r ∈ d.vaultSnapshots, G r where
  chain r := by
    rintro d m d' h hok
    cases hok
    exact h
  contract r := by
    rintro d m d' h hok
    cases hok
    exact h
  start chainId src := by
    rintro d m d' h hok
    cases hok
    exact h
  rollback root := by
    rintro d m d' h hok r hr
    unfold Db.deleteAboveBlock at hok
    split at hok
    · cases hok
    · cases hok
      exact h r (List.mem_filter.mp hr).1
  block r := by
    rintro d m d' h hok
    cases hok
    exact h
  transaction r := by
    rintro d m d' h hok
    cases hok
    exact h
  record x := by
    rintro d m d' h hok
    rw [insertRecord_snapshots hok]
    exact h
  update e ev := by
    refine update_of_keptBy ?_ ?_ ?_ ?_
    · rintro r d m d' h hok
      cases hok
      exact h
    · rintro r d m d' h hok
      obtain ⟨-, rfl⟩ := upsertVault_eq_ok hok
      exact h
    · rintro chainId vault status changedAt d m d' h hok
      cases hok
      exact h
    · rintro chainId proposalId executedAt d m d' h hok
      cases hok
      exact h
  finish runId toBlock last reorgs rows err := by
    rintro d m d' h hok
    cases hok
    exact h

/-- The rows that a tick writes are those of its snapshots. -/
theorem tick_snapshots {r : SnapshotRow} (hr : r ∈ (tick sess cfg db).2.vaultSnapshots) :
    r ∈ db.vaultSnapshots ∨ ∃ k, TakesSnapshot sess cfg db r.contract r.blockNumber k ∧
      sess.snapshotRow cfg r.contract r.blockNumber k = some r := by
  refine tick_writes (P := fun d => ∀ r ∈ d.vaultSnapshots, r ∈ db.vaultSnapshots ∨
    ∃ k, TakesSnapshot sess cfg db r.contract r.blockNumber k ∧
      sess.snapshotRow cfg r.contract r.blockNumber k = some r) snapshots_spares (fun r hr => .inl hr)
    ?_ r hr
  · intro a n k r htakes hrow d m d' h hok
    have hkey : r.contract = a ∧ r.blockNumber = n := by
      unfold Session.snapshotRow at hrow
      obtain ⟨x, -, hrow⟩ := Option.bind_eq_some_iff.mp hrow
      obtain ⟨y, -, hrow⟩ := Option.bind_eq_some_iff.mp hrow
      cases hrow
      exact ⟨rfl, rfl⟩
    obtain ⟨rfl, rfl⟩ := hkey
    unfold Db.insertVaultSnapshot at hok
    split at hok
    · cases hok
      exact h
    · split at hok
      · cases hok
        intro r' hr'
        rcases List.mem_append.mp hr' with hr' | hr'
        · exact h r' hr'
        · cases List.mem_singleton.mp hr'
          exact .inr ⟨k, htakes, hrow⟩
      · cases hok

/-! ### What the rows say -/

/-- What the views of a vault return. -/
structure VaultViews where
  totalAssets : ℕ
  totalSupply : ℕ
  exitFeeBps : ℕ
  tvlCap : ℕ
  paused : Bool

/-- The word that a view returns. -/
def VaultViews.word (v : VaultViews) : View → ℕ
  | .totalAssets => v.totalAssets
  | .totalSupply => v.totalSupply
  | .exitFeeBps => v.exitFeeBps
  | .tvlCap => v.tvlCap
  | .paused => if v.paused then 1 else 0

/-- What a word that the node answers is: the view's at that block of the node's chain, where `contracts`
says which contracts implement the views, and what these return. -/
def Honest (contracts : Address → BlockHash → Option VaultViews) (sess : Session) : Prop :=
  ∀ k a view n x, (sess.node k).ethCall a view n = .word x →
    ∃ B, (sess.node k).chain.hashAt n = some B ∧ ∀ v, contracts a B = some v → x = v.word view

/-- The row has the values of the views. -/
def SnapshotRow.Shows (r : SnapshotRow) (v : VaultViews) : Prop :=
  r.totalAssets = v.totalAssets ∧ r.totalSupply = v.totalSupply ∧ r.exitFeeBps = v.exitFeeBps ∧
    r.tvlCap = v.tvlCap ∧ r.paused = v.paused

/-- The five reads from the call `k` on are of the same block. -/
def Steady (sess : Session) (n k : ℕ) : Prop :=
  ∀ j < 5, (sess.node (k + j)).chain.hashAt n = (sess.node k).chain.hashAt n

/-- A read that fails is of the value that stands in for it, and the fee fits its column. -/
structure Unswallowed (sess : Session) (a : Address) (n k : ℕ) (v : VaultViews) : Prop where
  exitFeeBps : sess.word (k + 2) a .exitFeeBps n = none → v.exitFeeBps = 0
  fits : v.exitFeeBps < 2 ^ 63
  tvlCap : sess.word (k + 3) a .tvlCap n = none → v.tvlCap = 0
  paused : sess.word (k + 4) a .paused n = none → v.paused = false

variable {contracts : Address → BlockHash → Option VaultViews} {v : VaultViews} {B : BlockHash}
  {r : SnapshotRow} {ticks : List (Session × IndexerConfig)}

theorem word_of_honest (hhonest : Honest contracts sess) (hB : (sess.node k).chain.hashAt n = some B)
    (hv : contracts a B = some v) {x : ℕ} (hx : sess.word k a view n = some x) : x = v.word view := by
  unfold Session.word at hx
  split at hx
  · cases hx
  · split at hx
    · rename_i x' hcall
      cases hx
      obtain ⟨B', hB', hx⟩ := hhonest k a view n x hcall
      cases hB.symm.trans hB'
      exact hx v hv
    · cases hx

/-- **What a snapshot says is true** exactly if no read of it is swallowed. -/
theorem snapshotRow_shows_iff (hhonest : Honest contracts sess) (hsteady : Steady sess n k)
    (hB : (sess.node k).chain.hashAt n = some B) (hv : contracts a B = some v)
    (hrow : sess.snapshotRow cfg a n k = some r) : r.Shows v ↔ Unswallowed sess a n k v := by
  have hword : ∀ {j view x}, j < 5 → sess.word (k + j) a view n = some x → x = v.word view :=
    fun hj hx => word_of_honest hhonest ((hsteady _ hj).trans hB) hv hx
  unfold Session.snapshotRow at hrow
  obtain ⟨x, hx, hrow⟩ := Option.bind_eq_some_iff.mp hrow
  obtain ⟨y, hy, hrow⟩ := Option.bind_eq_some_iff.mp hrow
  cases hrow
  have hassets : x = v.totalAssets := hword (j := 0) (by omega) hx
  have hsupply : y = v.totalSupply := hword (j := 1) (by omega) hy
  have hfee : (if (sess.word (k + 2) a .exitFeeBps n).getD 0 < 2 ^ 63 then
      (sess.word (k + 2) a .exitFeeBps n).getD 0 else 0) = v.exitFeeBps ↔
      (sess.word (k + 2) a .exitFeeBps n = none → v.exitFeeBps = 0) ∧ v.exitFeeBps < 2 ^ 63 := by
    cases hz : sess.word (k + 2) a .exitFeeBps n with
    | none =>
      rw [Option.getD_none, ite_self, eq_comm, forall_prop_of_true rfl]
      omega
    | some z =>
      have hz : z = v.exitFeeBps := hword (by omega) hz
      subst hz
      simp only [Option.getD_some, reduceCtorEq, false_implies, true_and]
      split <;> omega
  have hcap : (sess.word (k + 3) a .tvlCap n).getD 0 = v.tvlCap ↔
      (sess.word (k + 3) a .tvlCap n = none → v.tvlCap = 0) := by
    cases hz : sess.word (k + 3) a .tvlCap n with
    | none => rw [Option.getD_none, eq_comm, forall_prop_of_true rfl]
    | some z =>
      have hz : z = v.tvlCap := hword (by omega) hz
      simp [hz]
  have hpaused : ((sess.word (k + 4) a .paused n).map fun x => decide (x ≠ 0)).getD false = v.paused ↔
      (sess.word (k + 4) a .paused n = none → v.paused = false) := by
    cases hz : sess.word (k + 4) a .paused n with
    | none => rw [Option.map_none, Option.getD_none, eq_comm, forall_prop_of_true rfl]
    | some z =>
      have hz : z = if v.paused then 1 else 0 := hword (by omega) hz
      subst hz
      cases v.paused <;> decide
  unfold SnapshotRow.Shows
  dsimp only
  rw [hfee, hcap, hpaused]
  constructor
  · rintro ⟨-, -, hfee, hcap, hpaused⟩
    exact ⟨hfee.1, hfee.2, hcap, hpaused⟩
  · intro h
    exact ⟨hassets, hsupply, ⟨h.exitFeeBps, h.fits⟩, h.tvlCap, h.paused⟩

/-! ### Runs -/

/-- The row `r` that the tick on `db` writes is true: it has the values of the views at its block, on the
chain that the node showed when it was read. -/
def TrueRow (contracts : Address → BlockHash → Option VaultViews) (sess : Session) (cfg : IndexerConfig)
    (db : Db) (r : SnapshotRow) : Prop :=
  r.chainId = cfg.chainId ∧ ∃ k B, TakesSnapshot sess cfg db r.contract r.blockNumber k ∧
    (sess.node k).chain.hashAt r.blockNumber = some B ∧ ∀ v, contracts r.contract B = some v → r.Shows v

/-- Snapshots are true: every row there is after the ticks was true when one of them wrote it. -/
def SnapshotsTrue (contracts : Address → BlockHash → Option VaultViews)
    (ticks : List (Session × IndexerConfig)) : Prop :=
  ∀ r ∈ (ticked ticks).vaultSnapshots, ∃ pre t post, ticks = pre ++ t :: post ∧
    r ∉ (ticked pre).vaultSnapshots ∧ TrueRow contracts t.1 t.2 (ticked pre) r

/-- In no snapshot of a vault that implements the views and tells its assets and its supply is a read
swallowed, and the block is the same in all five reads. -/
def NoneSwallowed (contracts : Address → BlockHash → Option VaultViews) (sess : Session)
    (cfg : IndexerConfig) (db : Db) : Prop :=
  ∀ a n k B v, TakesSnapshot sess cfg db a n k → (sess.node k).chain.hashAt n = some B →
    contracts a B = some v → (sess.word k a .totalAssets n).isSome = true →
    (sess.word (k + 1) a .totalSupply n).isSome = true → Steady sess n k ∧ Unswallowed sess a n k v

/-- A row that a tick writes is true. -/
theorem trueRow_of_new (hhonest : Honest contracts sess) (h : NoneSwallowed contracts sess cfg db)
    (hr : r ∈ (tick sess cfg db).2.vaultSnapshots) (hnew : r ∉ db.vaultSnapshots) :
    TrueRow contracts sess cfg db r := by
  obtain ⟨k, htakes, hrow⟩ := (tick_snapshots hr).resolve_left hnew
  have hread := hrow
  unfold Session.snapshotRow at hread
  obtain ⟨x, hx, hread⟩ := Option.bind_eq_some_iff.mp hread
  obtain ⟨y, hy, hread⟩ := Option.bind_eq_some_iff.mp hread
  have hchain : r.chainId = cfg.chainId := (congrArg SnapshotRow.chainId (Option.some.inj hread)).symm
  have hblock : ∃ B, (sess.node k).chain.hashAt r.blockNumber = some B := by
    unfold Session.word at hx
    split at hx
    · cases hx
    · split at hx
      · rename_i x' hcall
        obtain ⟨B, hB, -⟩ := hhonest k r.contract .totalAssets r.blockNumber x' hcall
        exact ⟨B, hB⟩
      · cases hx
  obtain ⟨B, hB⟩ := hblock
  refine ⟨hchain, k, B, htakes, hB, ?_⟩
  intro v hv
  obtain ⟨hsteady, hwhole⟩ := h r.contract r.blockNumber k B v htakes hB hv (by rw [hx]; rfl)
    (by rw [hy]; rfl)
  exact (snapshotRow_shows_iff hhonest hsteady hB hv hrow).mpr hwhole

/-- **Snapshots are true** in every run in which no read of a snapshot is swallowed. -/
theorem snapshots_true (hhonest : ∀ t ∈ ticks, Honest contracts t.1)
    (h : ∀ pre t post, ticks = pre ++ t :: post → NoneSwallowed contracts t.1 t.2 (ticked pre)) :
    SnapshotsTrue contracts ticks := by
  induction ticks using List.reverseRecOn with
  | nil =>
    intro r hr
    cases hr
  | append_singleton ticks t ih =>
    intro r hr
    by_cases hold : r ∈ (ticked ticks).vaultSnapshots
    · obtain ⟨pre, t', post, hsplit, hnew, htrue⟩ := ih
        (fun t' ht' => hhonest t' (List.mem_append_left _ ht'))
        (fun pre t' post hsplit => h pre t' (post ++ [t]) (by rw [hsplit]; simp)) r hold
      exact ⟨pre, t', post ++ [t], by rw [hsplit]; simp, hnew, htrue⟩
    · rw [ticked_snoc] at hr
      exact ⟨ticks, t, [], rfl, hold, trueRow_of_new (hhonest t (by simp)) (h ticks t [] rfl) hr hold⟩

/-- A service with one vault. -/
def snapshotting : IndexerConfig :=
  ⟨1, "base", "primary", 20, 30, none, none, 1000, none, 0⟩

/-- A vault that charges a fee. -/
def charging : VaultViews := ⟨1000, 900, 25, 5000, true⟩

/-- The vault of the service, in all blocks. -/
def chargingVault (a : Address) (_ : BlockHash) : Option VaultViews :=
  if a = 30 then some charging else none

/-- The node with eight blocks answers for the vault; the calls in `fails` fail. -/
def chargingSession (fails : ℕ → Bool) : Session where
  node _ :=
    ⟨⟨List.replicate 8 ⟨0, [], []⟩, by decide⟩, fun a view n =>
      if a = 30 ∧ n < 8 then .word (charging.word view) else .reverted⟩
  fails := fails

theorem chargingSession_honest {fails : ℕ → Bool} : Honest chargingVault (chargingSession fails) := by
  intro k a view n x hx
  unfold chargingSession at hx
  dsimp only at hx
  split at hx
  · rename_i hcond
    refine ⟨_, if_pos hcond.2, ?_⟩
    intro v hv
    unfold chargingVault at hv
    rw [if_pos hcond.1] at hv
    cases hv
    cases hx
    rfl
  · cases hx

/-- If all reads answer, the row of the vault is true. -/
theorem snapshots_true_charging : SnapshotsTrue chargingVault
    [(chargingSession fun _ => false, snapshotting)] := by
  refine snapshots_true (fun t ht => ?_) fun pre t post hsplit => ?_
  · cases List.mem_singleton.mp ht
    exact chargingSession_honest
  · have ht : t ∈ pre ++ t :: post := by simp
    rw [← hsplit] at ht
    cases List.mem_singleton.mp ht
    intro a n k B v _ _ hv hx _
    unfold chargingVault at hv
    split at hv
    · rename_i ha
      cases ha
      cases hv
      have hword : ∀ m view, (chargingSession fun _ => false).word m 30 view n = some (charging.word view) := by
        intro m view
        have hn : n < 8 := by
          by_contra hn
          simp [Session.word, chargingSession, hn] at hx
        simp [Session.word, chargingSession, hn]
      refine ⟨fun _ _ => rfl, ?_, by decide, ?_, ?_⟩
      · intro hnone
        cases (hword _ _).symm.trans hnone
      · intro hnone
        cases (hword _ _).symm.trans hnone
      · intro hnone
        cases (hword _ _).symm.trans hnone
    · cases hv

/-- **A read that fails is stored as zero**: the row of a vault with a fee says that it has none. -/
theorem swallowed_read_is_stored :
    Honest chargingVault (chargingSession fun k => k = 13) ∧
      ¬ SnapshotsTrue chargingVault [(chargingSession fun k => k = 13, snapshotting)] := by
  refine ⟨chargingSession_honest, ?_⟩
  intro h
  have hrows : (ticked [(chargingSession fun k => k = 13, snapshotting)]).vaultSnapshots =
      [⟨1, 30, 2, 1000, 900, 0, 5000, true⟩] := by decide +kernel
  obtain ⟨pre, t, post, hsplit, -, -, k, B, -, -, htrue⟩ := h ⟨1, 30, 2, 1000, 900, 0, 5000, true⟩ (by
    rw [hrows]
    exact List.mem_singleton.mpr rfl)
  have hfee : 0 = charging.exitFeeBps := (htrue charging rfl).2.2.1
  cases hfee

end RobotMoney.Indexer
