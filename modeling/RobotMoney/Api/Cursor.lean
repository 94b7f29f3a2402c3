import RobotMoney.Api.Shown
import RobotMoney.Indexer.Range
import RobotMoney.Indexer.Reached
import RobotMoney.Indexer.SnapshotReads

/-!
# The cursor that the API shows

The indexer goes on after the greatest block of the runs without error, and the API shows the block of the
newest run, whatever became of it.  A run that is open has none yet, and one that rolled rows back may end
below the cursor; these are the two ways in which they differ (`freshness_is_cursor_iff`).
-/

namespace RobotMoney.Api

open RobotMoney.Lib Fallible
open RobotMoney.Indexer

variable {cfg : IndexerConfig} {sess : Session} {db d : Db} {c c₁ : Option ℕ} {w w' : World}
  {o : IndexerOutcome} {chain : ℤ} {tip : ℕ} {R : List RunRow × ℕ}

/-! ### The table of runs -/

/-- The runs of the API are those of the indexer. -/
def ReadsRuns (db : Db) (api : Database) : Prop :=
  (api.indexerRuns.map fun r => r.run).Perm db.indexerRuns

/-- The block of the newest run; zero if there is none. -/
def newestBlock (db : Db) : ℕ := (db.indexerRuns.getLast?.bind fun r => r.lastIndexedBlock).getD 0

/-- The cursor of a chain; zero if there is none. -/
def cursorBlock (chain : ℤ) (db : Db) : ℕ := (db.lastIndexedBlock chain).getD 0

/-- The runs of one chain, numbered in the order they were opened. -/
structure SingleChain (chain : ℤ) (db : Db) : Prop where
  chain : ∀ r ∈ db.indexerRuns, r.chainId = chain
  ascend : db.indexerRuns.Pairwise fun r r' => r.runId < r'.runId
  fresh : FreshRuns db

theorem SingleChain.congr (h : SingleChain chain db)
    (hruns : (d.indexerRuns, d.nextRun) = (db.indexerRuns, db.nextRun)) : SingleChain chain d := by
  obtain ⟨hruns, hnext⟩ := Prod.mk.injEq .. ▸ hruns
  refine ⟨hruns ▸ h.chain, hruns ▸ h.ascend, ?_⟩
  intro r hr
  rw [hnext]
  exact h.fresh r (hruns ▸ hr)

theorem SingleChain.snoc {row : RunRow} (h : SingleChain chain db) (hchain : row.chainId = chain)
    (hid : row.runId = db.nextRun) (hruns : d.indexerRuns = db.indexerRuns ++ [row])
    (hnext : d.nextRun = db.nextRun + 1) : SingleChain chain d := by
  refine ⟨?_, ?_, ?_⟩
  · intro r hr
    rw [hruns] at hr
    rcases List.mem_append.mp hr with hr | hr
    · exact h.chain r hr
    · rw [List.mem_singleton.mp hr, hchain]
  · rw [hruns, List.pairwise_append]
    refine ⟨h.ascend, List.pairwise_singleton _ _, ?_⟩
    intro r hr r' hr'
    rw [List.mem_singleton.mp hr', hid]
    exact h.fresh r hr
  · intro r hr
    rw [hruns] at hr
    rw [hnext]
    rcases List.mem_append.mp hr with hr | hr
    · exact Nat.lt_succ_of_lt (h.fresh r hr)
    · rw [List.mem_singleton.mp hr, hid]
      exact Nat.lt_succ_self _

/-- The API shows the block of the newest run. -/
theorem latestFreshness_eq {state : AppState} {api : Database} (h : SingleChain chain db)
    (hreads : ReadsRuns db api) : (latestFreshness state api).blockNumber = newestBlock db := by
  have hsorted : (descending (fun r => r.run.runId) api.indexerRuns).map (fun r => r.run) =
      db.indexerRuns.reverse := by
    have hmap : (api.indexerRuns.mergeSort fun a b => decide (b.run.runId ≤ a.run.runId)).map
        (fun r => r.run) = (api.indexerRuns.map fun r => r.run).mergeSort fun a b =>
          decide (b.runId ≤ a.runId) := List.map_mergeSort fun a _ b _ => rfl
    unfold descending
    rw [hmap]
    refine mergeSort_eq_of_perm ?_ ?_ (hreads.trans db.indexerRuns.reverse_perm.symm) ?_
    · intro a b c hab hbc
      simp only [decide_eq_true_eq] at *
      omega
    · intro a b
      simp only [Bool.or_eq_true, decide_eq_true_eq]
      omega
    · rw [List.pairwise_reverse]
      refine h.ascend.imp ?_
      intro a b hlt
      simp only [decide_eq_false_iff_not]
      omega
  have hhead : (newestRun api).map (fun r => r.run) = db.indexerRuns.getLast? := by
    unfold newestRun
    rw [← List.head?_map, hsorted, List.head?_reverse]
  unfold latestFreshness newestBlock
  rw [← hhead]
  cases newestRun api with
  | none => rfl
  | some r => rfl

/-! ### One more run -/

/-- The greatest block with one more. -/
theorem max?_snoc_getD (ns : List ℕ) (x : Option ℕ) :
    (ns ++ x.toList).max?.getD 0 = max (ns.max?.getD 0) (x.getD 0) := by
  cases x with
  | none => simp
  | some x =>
    cases hmax : ns.max? with
    | none =>
      rw [List.max?_eq_none_iff.mp hmax]
      simp
    | some m =>
      obtain ⟨hm, hbound⟩ := List.max?_eq_some_iff.mp hmax
      have hsnoc : (ns ++ (some x).toList).max? = some (max m x) := by
        refine List.max?_eq_some_iff.mpr ⟨?_, ?_⟩
        · rcases Nat.le_total m x with hle | hle
          · rw [Nat.max_eq_right hle]
            simp
          · rw [Nat.max_eq_left hle]
            exact List.mem_append_left _ hm
        · intro k hk
          rcases List.mem_append.mp hk with hk | hk
          · exact (hbound k hk).trans (Nat.le_max_left m x)
          · have hk : k = x := by simpa using hk
            rw [hk]
            exact Nat.le_max_right m x
      rw [hsnoc]
      rfl

theorem newestBlock_snoc {row : RunRow} (hruns : d.indexerRuns = db.indexerRuns ++ [row]) :
    newestBlock d = row.lastIndexedBlock.getD 0 := by
  unfold newestBlock
  rw [hruns, List.getLast?_concat]
  rfl

/-- A run counts for the cursor if it has no error. -/
theorem cursorBlock_snoc {row : RunRow} (hruns : d.indexerRuns = db.indexerRuns ++ [row])
    (hchain : row.chainId = chain) : cursorBlock chain d =
      max (cursorBlock chain db) (if row.error = none then row.lastIndexedBlock.getD 0 else 0) := by
  unfold cursorBlock
  rw [lastIndexedBlock_eq, lastIndexedBlock_eq, hruns, filterMap_reached_snoc, max?_snoc_getD]
  unfold RunRow.reached
  by_cases herr : row.error = none
  · rw [if_pos ⟨hchain, herr⟩, if_pos herr]
  · rw [if_neg fun h => herr h.2, if_neg herr]
    rfl

/-! ### What a tick records -/

/-- Statements on the other tables. -/
theorem runs_ingests : Ingests sess cfg fun d => (d.indexerRuns, d.nextRun) = R where
  rollback root := by
    rintro d m d' h hok
    unfold Db.deleteAboveBlock at hok
    split at hok
    · cases hok
    · cases hok
      exact h
  block r := by
    rintro d m d' h hok
    cases hok
    exact h
  transaction r := by
    rintro d m d' h hok
    cases hok
    exact h
  record x := by
    rintro d m d' h hok
    exact (insertRecord_frame hok).2.2.2.trans h
  update e ev := by
    refine update_of_keptBy ?_ ?_ ?_ ?_
    · rintro r d m d' h hok
      cases hok
      exact h
    · rintro r d m d' h hok
      obtain ⟨-, rfl⟩ := upsertVault_eq_ok hok
      exact h
    · rintro chainId vault status changedAt d m d' h hok
      cases hok
      exact h
    · rintro chainId proposalId executedAt d m d' h hok
      cases hok
      exact h

theorem runInner_keeps_runs (sess : Session) (cfg : IndexerConfig) (c : Option ℕ) (w : World) :
    ((runInner sess cfg c w).2.db.indexerRuns, (runInner sess cfg c w).2.db.nextRun) =
      (w.db.indexerRuns, w.db.nextRun) := by
  have h : Triple (On fun d => (d.indexerRuns, d.nextRun) = (w.db.indexerRuns, w.db.nextRun))
      (runInner sess cfg c) _ _ := runs_ingests.runInner fun r d m d' h hok => by
    unfold Db.insertVaultSnapshot at hok
    split at hok
    · cases hok
      exact h
    · split at hok
      · cases hok
        exact h
      · cases hok
  have h := h w rfl
  rcases hrun : runInner sess cfg c w with ⟨e | o, w'⟩
  · rw [hrun] at h
    exact h
  · rw [hrun] at h
    exact h

/-- The row of a run when its tick ends, from the world `w` in which it was opened. -/
def closedRow (sess : Session) (cfg : IndexerConfig) (db : Db) (w : World) : RunRow :=
  match runInner sess cfg (db.lastIndexedBlock cfg.chainId) w with
  | (.ok o, w') =>
    if sess.fails w'.calls then openRow cfg db
    else
      { openRow cfg db with
        toBlock := o.toBlock, lastIndexedBlock := o.lastIndexedBlock
        reorgCount := if o.reorgDetected then 1 else 0, rowsInserted := o.rowsInserted, error := none }
  | (.error e, w') =>
    if sess.fails w'.calls then openRow cfg db
    else
      { openRow cfg db with
        toBlock := none, lastIndexedBlock := db.lastIndexedBlock cfg.chainId
        reorgCount := 0, rowsInserted := 0, error := some e }

theorem closedRow_chainId : (closedRow sess cfg db w).chainId = cfg.chainId := by
  unfold closedRow
  split <;> split <;> rfl

theorem closedRow_runId : (closedRow sess cfg db w).runId = db.nextRun := by
  unfold closedRow
  split <;> split <;> rfl

/-- The record of the run that was opened last, by a call that may fail. -/
theorem sql_finishRun {toBlock last : Option ℕ} {reorgs rows : ℕ} {e : Option IndexerError}
    (hruns : w.db.indexerRuns = db.indexerRuns ++ [openRow cfg db]) (hfresh : FreshRuns db) :
    (sql sess (Db.finishRun db.nextRun toBlock last reorgs rows e) w).2.db.indexerRuns =
        db.indexerRuns ++ [if sess.fails w.calls then openRow cfg db else
          { openRow cfg db with
            toBlock, lastIndexedBlock := last, reorgCount := reorgs, rowsInserted := rows, error := e }] ∧
      (sql sess (Db.finishRun db.nextRun toBlock last reorgs rows e) w).2.db.nextRun = w.db.nextRun := by
  unfold sql
  split
  · exact ⟨hruns, rfl⟩
  · have hrow : Db.finishRun (openRow cfg db).runId toBlock last reorgs rows e w.db = .ok ((), _) :=
      finishRun_snoc hruns hfresh
    have hrow : Db.finishRun db.nextRun toBlock last reorgs rows e w.db = .ok ((), _) := hrow
    rw [hrow]
    exact ⟨rfl, rfl⟩

theorem bind_pure_state {α β : Type} {m : Tick α} {b : β} : ((m >>= fun _ => pure b) w).2 = (m w).2 := by
  rcases hm : m w with ⟨e | a, w'⟩
  · rw [bind_of_error hm]
  · rw [bind_of_ok hm]
    rfl

theorem finishTick_runs (h : OpenRun cfg db w.db) (hfresh : FreshRuns db) {src : ℕ} :
    (finishTick sess cfg db.nextRun src (db.lastIndexedBlock cfg.chainId) w).2.db.indexerRuns =
        db.indexerRuns ++ [closedRow sess cfg db w] ∧
      (finishTick sess cfg db.nextRun src (db.lastIndexedBlock cfg.chainId) w).2.db.nextRun =
        db.nextRun + 1 := by
  have hkeeps := runInner_keeps_runs sess cfg (db.lastIndexedBlock cfg.chainId) w
  unfold finishTick closedRow
  rcases hrun : runInner sess cfg (db.lastIndexedBlock cfg.chainId) w with ⟨r, w'⟩
  rw [hrun] at hkeeps
  obtain ⟨hruns, hnext⟩ := Prod.mk.injEq .. ▸ hkeeps
  have hattempt : attempt (runInner sess cfg (db.lastIndexedBlock cfg.chainId)) w = (.ok r, w') := by
    unfold attempt
    rw [hrun]
  rw [bind_of_ok hattempt]
  cases r with
  | ok o =>
    dsimp only
    rw [bind_pure_state, ← h.next, ← hnext]
    exact sql_finishRun (hruns.trans h.runs) hfresh
  | error e =>
    dsimp only
    rw [bind_pure_state, ← h.next, ← hnext]
    exact sql_finishRun (hruns.trans h.runs) hfresh

/-- A tick leaves the runs, or adds the row of its own. -/
inductive RunsAfter (sess : Session) (cfg : IndexerConfig) (db d : Db) : Prop where
  | unopened (hopen : ∀ r w, openRun sess cfg ⟨db, 0⟩ ≠ (.ok r, w))
      (hruns : (d.indexerRuns, d.nextRun) = (db.indexerRuns, db.nextRun))
  | opened {w : World} (hopen : openRun sess cfg ⟨db, 0⟩ = (.ok (db.lastIndexedBlock cfg.chainId, db.nextRun), w))
      (hruns : d.indexerRuns = db.indexerRuns ++ [closedRow sess cfg db w])
      (hnext : d.nextRun = db.nextRun + 1)

theorem tick_runs (sess : Session) (cfg : IndexerConfig) (hfresh : FreshRuns db) :
    RunsAfter sess cfg db (tick sess cfg db).2 := by
  have hopens : Triple (On (· = db)) (openRun sess cfg) _ _ := openRun_opens
  have hopens := hopens ⟨db, 0⟩ rfl
  unfold tick
  rw [runOnce_eq]
  rcases hopen : openRun sess cfg ⟨db, 0⟩ with ⟨e | r, w⟩
  · rw [hopen] at hopens
    rw [bind_of_error hopen]
    refine .unopened (fun r w h => ?_) hopens.2.2
    cases hopen.symm.trans h
  · rw [hopen] at hopens
    obtain ⟨hrow, rfl⟩ := hopens
    rw [bind_of_ok hopen]
    exact .opened hopen (finishTick_runs hrow hfresh).1 (finishTick_runs hrow hfresh).2

/-! ### Where a run ends -/

/-- Where a run goes on to from the cursor of its check, on the tip it reads. -/
def endOf (cfg : IndexerConfig) (c₁ : Option ℕ) (tip : ℕ) : Option ℕ :=
  (targetOf cfg (fromBlock c₁) tip).or c₁

theorem le_endOf : c₁.getD 0 ≤ (endOf cfg c₁ tip).getD 0 := by
  unfold endOf
  cases htarget : targetOf cfg (fromBlock c₁) tip with
  | none => exact le_refl _
  | some T =>
    have hle : fromBlock c₁ ≤ T := (targetOf_eq_some_iff.mp htarget).2.1
    cases c₁ with
    | none => exact Nat.zero_le _
    | some n =>
      have hle : n + 1 ≤ T := hle
      show n ≤ T
      omega

theorem runInner_ends (h : runInner sess cfg c w = (.ok o, w')) :
    ∃ c₁ reorg w₁ tip w₂, reorgCheck sess cfg c w = (.ok (c₁, reorg), w₁) ∧
      blockNumber sess w₁ = (.ok tip, w₂) ∧ o.lastIndexedBlock = endOf cfg c₁ tip := by
  obtain ⟨c₁, tip, hadvance⟩ := runInner_advance h
  obtain ⟨w₁, w₂, reorg, hcheck, htip, hquiet, hmoved⟩ := hadvance.checked
  refine ⟨c₁, reorg, w₁, tip, w₂, hcheck, htip, ?_⟩
  unfold endOf
  rw [← hadvance.target]
  cases hto : o.toBlock with
  | none => exact (hquiet hto).2
  | some T => exact (hmoved T hto).1

/-- A check that finds no reorganization leaves the cursor. -/
theorem reorgCheck_quiet {w₁ : World} (h : reorgCheck sess cfg c w = (.ok (c₁, false), w₁)) : c₁ = c := by
  have hquiet : Triple (fun _ => True) (reorgCheck sess cfg c) (fun r _ => r.2 = false → r.1 = c)
      (fun _ => True) := by
    cases c with
    | none => exact triple_pure fun _ _ _ => rfl
    | some n =>
      unfold reorgCheck
      refine triple_bind (Q := fun _ _ => True) (fun w _ => by split <;> trivial) ?_
      intro stored
      cases stored with
      | none => exact triple_pure fun _ _ _ => rfl
      | some hash =>
        refine triple_bind (Q := fun _ _ => True) (fun w _ => by split <;> trivial) ?_
        intro header
        cases header with
        | none => exact triple_pure fun _ _ _ => rfl
        | some header =>
          dsimp only
          split
          · refine triple_bind (Q := fun _ _ => True) (fun w _ => by split <;> trivial) ?_
            intro root
            refine triple_bind (Q := fun _ _ => True) (fun w _ => by split <;> trivial) ?_
            intro _
            refine triple_pure ?_
            rintro w - hfalse
            cases hfalse
          · exact triple_pure fun _ _ _ => rfl
  have hquiet := hquiet w trivial
  rw [h] at hquiet
  exact hquiet rfl

/-- The run that a tick opens, if it opens one, is recorded, and if it rolled rows back it came back to the
cursor. -/
structure Settles (sess : Session) (cfg : IndexerConfig) (db : Db) : Prop where
  recorded : ∀ r w, openRun sess cfg ⟨db, 0⟩ = (.ok r, w) →
    sess.fails (runInner sess cfg r.1 w).2.calls = true → cursorBlock cfg.chainId db = 0
  regained : ∀ r w c₁ w₁ tip w₂ o w₃, openRun sess cfg ⟨db, 0⟩ = (.ok r, w) →
    reorgCheck sess cfg r.1 w = (.ok (c₁, true), w₁) → blockNumber sess w₁ = (.ok tip, w₂) →
      runInner sess cfg r.1 w = (.ok o, w₃) → sess.fails w₃.calls = false →
        cursorBlock cfg.chainId db ≤ (endOf cfg c₁ tip).getD 0

/-- The row of a run ends at the cursor exactly if the run settles. -/
theorem closedRow_settles
    (hopen : openRun sess cfg ⟨db, 0⟩ = (.ok (db.lastIndexedBlock cfg.chainId, db.nextRun), w)) :
    (closedRow sess cfg db w).lastIndexedBlock.getD 0 = max (cursorBlock cfg.chainId db)
        (if (closedRow sess cfg db w).error = none then (closedRow sess cfg db w).lastIndexedBlock.getD 0
          else 0) ↔ Settles sess cfg db := by
  have hwhere : ∀ {r w'}, openRun sess cfg ⟨db, 0⟩ = (.ok r, w') →
      r = (db.lastIndexedBlock cfg.chainId, db.nextRun) ∧ w' = w := by
    intro r w' h
    cases hopen.symm.trans h
    exact ⟨rfl, rfl⟩
  unfold closedRow
  rcases hrun : runInner sess cfg (db.lastIndexedBlock cfg.chainId) w with ⟨e | o, w₃⟩
  · dsimp only
    split
    · rename_i hfails
      show 0 = max (cursorBlock cfg.chainId db) 0 ↔ _
      constructor
      · intro hzero
        refine ⟨fun _ _ _ _ => by omega, ?_⟩
        intro r w' c₁ w₁ tip w₂ o w₄ h _ _ hinner
        obtain ⟨rfl, rfl⟩ := hwhere h
        cases hrun.symm.trans hinner
      · intro h
        have hzero := h.recorded _ _ hopen (by rw [hrun]; exact hfails)
        omega
    · rename_i hfails
      refine iff_of_true (Nat.max_zero _).symm ⟨?_, ?_⟩
      · intro r w' h hfails'
        obtain ⟨rfl, rfl⟩ := hwhere h
        rw [hrun] at hfails'
        exact absurd hfails' hfails
      · intro r w' c₁ w₁ tip w₂ o w₄ h _ _ hinner
        obtain ⟨rfl, rfl⟩ := hwhere h
        cases hrun.symm.trans hinner
  · obtain ⟨c₁, reorg, w₁, tip, w₂, hcheck, htip, hend⟩ := runInner_ends hrun
    dsimp only
    split
    · rename_i hfails
      show 0 = max (cursorBlock cfg.chainId db) 0 ↔ _
      constructor
      · intro hzero
        exact ⟨fun _ _ _ _ => by omega, fun _ _ _ _ _ _ _ _ _ _ _ _ _ => by omega⟩
      · intro h
        have hzero := h.recorded _ _ hopen (by rw [hrun]; exact hfails)
        omega
    · rename_i hfails
      show o.lastIndexedBlock.getD 0 = max (cursorBlock cfg.chainId db) (o.lastIndexedBlock.getD 0) ↔ _
      rw [hend]
      constructor
      · intro hmax
        refine ⟨?_, ?_⟩
        · intro r w' h hfails'
          obtain ⟨rfl, rfl⟩ := hwhere h
          rw [hrun] at hfails'
          exact absurd hfails' hfails
        · intro r w' c₁' w₁' tip' w₂' o' w₄ h hcheck' htip' _ _
          obtain ⟨rfl, rfl⟩ := hwhere h
          cases hcheck.symm.trans hcheck'
          cases htip.symm.trans htip'
          omega
      · intro h
        have hle : cursorBlock cfg.chainId db ≤ (endOf cfg c₁ tip).getD 0 := by
          cases reorg with
          | false =>
            rw [reorgCheck_quiet hcheck]
            exact le_endOf
          | true =>
            exact h.regained _ _ _ _ _ _ _ _ hopen hcheck htip hrun (Bool.not_eq_true _ ▸ hfails)
        omega

/-! ### Runs of the service -/

/-- The API shows the cursor. -/
def FreshnessIsCursor (chain : ℤ) (db : Db) : Prop :=
  ∀ state api, ReadsRuns db api → (latestFreshness state api).blockNumber = cursorBlock chain db

theorem SingleChain.freshnessIsCursor_iff (h : SingleChain chain db) :
    FreshnessIsCursor chain db ↔ newestBlock db = cursorBlock chain db := by
  constructor
  · intro hfresh
    have hreads : ReadsRuns db { Database.empty with indexerRuns := db.indexerRuns.map fun r => ⟨r, none⟩ } := by
      unfold ReadsRuns
      rw [List.map_map]
      exact List.Perm.of_eq (List.map_id _)
    rw [← latestFreshness_eq h hreads]
    exact hfresh ⟨chain, 0, fun n m => n / m⟩ _ hreads
  · intro hnewest state api hreads
    rw [latestFreshness_eq h hreads, hnewest]

theorem singleChain_empty : SingleChain chain Db.empty where
  chain r hr := by cases hr
  ascend := List.Pairwise.nil
  fresh := freshRuns_empty

theorem SingleChain.tick (h : SingleChain cfg.chainId db) :
    SingleChain cfg.chainId (tick sess cfg db).2 := by
  cases tick_runs sess cfg h.fresh with
  | unopened hopen hruns => exact h.congr hruns
  | opened hopen hruns hnext => exact h.snoc closedRow_chainId closedRow_runId hruns hnext

/-- **One tick.**  If it opens its run, the API shows the cursor after it exactly if the run settles. -/
theorem SingleChain.tick_iff (h : SingleChain cfg.chainId db) :
    (newestBlock (Indexer.tick sess cfg db).2 = cursorBlock cfg.chainId (Indexer.tick sess cfg db).2 →
      Settles sess cfg db) ∧
    (Settles sess cfg db → newestBlock db = cursorBlock cfg.chainId db →
      newestBlock (Indexer.tick sess cfg db).2 = cursorBlock cfg.chainId (Indexer.tick sess cfg db).2) := by
  cases tick_runs sess cfg h.fresh with
  | unopened hopen hruns =>
    refine ⟨fun _ => ⟨fun r w hr => absurd hr (hopen r w), fun r w _ _ _ _ _ _ hr => absurd hr (hopen r w)⟩, ?_⟩
    intro _ hsame
    obtain ⟨hruns, -⟩ := Prod.mk.injEq .. ▸ hruns
    unfold newestBlock cursorBlock at *
    rw [lastIndexedBlock_eq, hruns, ← lastIndexedBlock_eq]
    exact hsame
  | opened hopen hruns hnext =>
    rw [newestBlock_snoc hruns, cursorBlock_snoc hruns closedRow_chainId, closedRow_settles hopen]
    exact ⟨fun hsettles => hsettles, fun hsettles _ => hsettles⟩

/-- The cursor does not go back. -/
theorem SingleChain.cursorBlock_le (h : SingleChain cfg.chainId db) :
    cursorBlock cfg.chainId db ≤ cursorBlock cfg.chainId (Indexer.tick sess cfg db).2 := by
  cases tick_runs sess cfg h.fresh with
  | unopened hopen hruns =>
    obtain ⟨hruns, -⟩ := Prod.mk.injEq .. ▸ hruns
    unfold cursorBlock
    rw [lastIndexedBlock_eq, lastIndexedBlock_eq, hruns]
  | opened hopen hruns hnext =>
    rw [cursorBlock_snoc hruns closedRow_chainId]
    exact Nat.le_max_left _ _

/-- While the run of a tick is open, the API shows zero. -/
theorem SingleChain.runInner_iff {r : Option ℕ × ℕ} (h : SingleChain cfg.chainId db)
    (hopen : openRun sess cfg ⟨db, 0⟩ = (.ok r, w)) :
    FreshnessIsCursor cfg.chainId (runInner sess cfg r.1 w).2.db ↔ cursorBlock cfg.chainId db = 0 := by
  have hrow : Triple (On (· = db)) (openRun sess cfg) _ _ := openRun_opens
  have hrow := hrow ⟨db, 0⟩ rfl
  rw [hopen] at hrow
  have hkeeps := runInner_keeps_runs sess cfg r.1 w
  obtain ⟨hruns, hnext⟩ := Prod.mk.injEq .. ▸ hkeeps
  have hruns := hruns.trans hrow.1.runs
  have hopened : SingleChain cfg.chainId (runInner sess cfg r.1 w).2.db :=
    h.snoc rfl rfl hruns (hnext.trans hrow.1.next)
  have hcursor : cursorBlock cfg.chainId (runInner sess cfg r.1 w).2.db =
      max (cursorBlock cfg.chainId db) 0 := cursorBlock_snoc hruns rfl
  have hnewest : newestBlock (runInner sess cfg r.1 w).2.db = 0 := newestBlock_snoc hruns
  rw [hopened.freshnessIsCursor_iff, hnewest, hcursor]
  omega

theorem ticked_singleChain {ticks : List (Session × IndexerConfig)}
    (h : ∀ t ∈ ticks, t.2.chainId = chain) : SingleChain chain (ticked ticks) := by
  induction ticks using List.reverseRecOn with
  | nil => exact singleChain_empty
  | append_singleton pre t ih =>
    have hpre := ih fun u hu => h u (List.mem_append_left _ hu)
    have ht : t.2.chainId = chain := h t (by simp)
    rw [ticked_snoc]
    subst ht
    exact hpre.tick

theorem ticked_cursorBlock_le {pre mid : List (Session × IndexerConfig)}
    (h : ∀ t ∈ pre ++ mid, t.2.chainId = chain) :
    cursorBlock chain (ticked pre) ≤ cursorBlock chain (ticked (pre ++ mid)) := by
  induction mid using List.reverseRecOn with
  | nil => rw [List.append_nil]
  | append_singleton mid t ih =>
    rw [← List.append_assoc] at h ⊢
    have hpre : ∀ u ∈ pre ++ mid, u.2.chainId = chain := fun u hu => h u (List.mem_append_left _ hu)
    have ht : t.2.chainId = chain := h t (by simp)
    refine (ih hpre).trans ?_
    have hsingle := ticked_singleChain hpre
    rw [ticked_snoc]
    subst ht
    exact hsingle.cursorBlock_le

/-- **The API shows the cursor** after each tick of a service on one chain, and so in the middle of one,
exactly if each tick settles: while the run of a tick is open, exactly if the cursor is zero.  Where all
settle, what the API shows does not go back. -/
theorem freshness_is_cursor_iff {ticks : List (Session × IndexerConfig)}
    (h : ∀ t ∈ ticks, t.2.chainId = chain) :
    ((∀ pre post, ticks = pre ++ post → FreshnessIsCursor chain (ticked pre)) ↔
      ∀ pre t post, ticks = pre ++ t :: post → Settles t.1 t.2 (ticked pre)) ∧
    (∀ pre t post r w, ticks = pre ++ t :: post → openRun t.1 t.2 ⟨ticked pre, 0⟩ = (.ok r, w) →
      (FreshnessIsCursor chain (runInner t.1 t.2 r.1 w).2.db ↔ cursorBlock chain (ticked pre) = 0)) ∧
    ((∀ pre t post, ticks = pre ++ t :: post → Settles t.1 t.2 (ticked pre)) →
      ∀ pre mid post, ticks = pre ++ mid ++ post → ∀ state state' api api', ReadsRuns (ticked pre) api →
        ReadsRuns (ticked (pre ++ mid)) api' →
          (latestFreshness state api).blockNumber ≤ (latestFreshness state' api').blockNumber) := by
  have hsingle : ∀ pre post, ticks = pre ++ post → SingleChain chain (ticked pre) := by
    intro pre post hsplit
    exact ticked_singleChain fun t ht => h t (hsplit ▸ List.mem_append_left _ ht)
  have hon : ∀ pre t post, ticks = pre ++ t :: post → t.2.chainId = chain := by
    intro pre t post hsplit
    exact h t (hsplit ▸ List.mem_append_right _ List.mem_cons_self)
  have hiff : (∀ pre post, ticks = pre ++ post → FreshnessIsCursor chain (ticked pre)) ↔
      ∀ pre t post, ticks = pre ++ t :: post → Settles t.1 t.2 (ticked pre) := by
    constructor
    · intro hfresh pre t post hsplit
      have hchain := hon pre t post hsplit
      have hpre := hsingle pre _ hsplit
      have hsplit : ticks = (pre ++ [t]) ++ post := by rw [hsplit, List.append_assoc]; rfl
      have hafter := (hsingle _ _ hsplit).freshnessIsCursor_iff.mp (hfresh _ _ hsplit)
      rw [ticked_snoc] at hafter
      subst hchain
      exact hpre.tick_iff.1 hafter
    · intro hsettles pre
      induction pre using List.reverseRecOn with
      | nil => exact fun post _ => singleChain_empty.freshnessIsCursor_iff.mpr rfl
      | append_singleton pre t ih =>
        intro post hsplit
        have hafter := hsingle _ _ hsplit
        rw [List.append_assoc] at hsplit
        have hchain := hon pre t post hsplit
        have hpre := hsingle pre _ hsplit
        have hbefore := hpre.freshnessIsCursor_iff.mp (ih _ hsplit)
        refine hafter.freshnessIsCursor_iff.mpr ?_
        rw [ticked_snoc]
        subst hchain
        exact hpre.tick_iff.2 (hsettles pre t post hsplit) hbefore
  refine ⟨hiff, ?_, ?_⟩
  · intro pre t post r w hsplit hopen
    have hchain := hon pre t post hsplit
    have hpre := hsingle pre _ hsplit
    subst hchain
    exact hpre.runInner_iff hopen
  · intro hsettles pre mid post hsplit state state' api api' hreads hreads'
    have hfresh := hiff.mpr hsettles
    rw [hfresh pre (mid ++ post) (by rw [hsplit, List.append_assoc]) state api hreads,
      hfresh (pre ++ mid) post hsplit state' api' hreads']
    exact ticked_cursorBlock_le fun t ht => h t (hsplit ▸ List.mem_append_left _ ht)

/-! ### A run that is cut short -/

/-- A tick of a service with one vault; the calls in `fails` fail. -/
def quietTick (fails : ℕ → Bool) : Session × IndexerConfig := (chargingSession fails, snapshotting)

/-- A tick on another chain, of two blocks at most. -/
def replacedTick : Session × IndexerConfig where
  fst :=
    { node := fun k =>
        { (chargingSession fun _ => false).node k with chain := ⟨List.replicate 8 ⟨1, [], []⟩, by decide⟩ }
      fails := fun _ => false }
  snd := { snapshotting with maxBlocksPerTick := 2 }

/-- Two ticks without failures, the second of them without blocks. -/
theorem freshness_is_cursor_quiet :
    FreshnessIsCursor 1 (ticked [quietTick fun _ => false, quietTick fun _ => false]) := by
  have hchain : ∀ t ∈ [quietTick fun _ => false, quietTick fun _ => false], t.2.chainId = 1 := by
    intro t ht
    rcases List.mem_cons.mp ht with rfl | ht
    · rfl
    · cases List.mem_singleton.mp ht
      rfl
  refine (freshness_is_cursor_iff hchain).1.mpr ?_ _ [] (List.append_nil _).symm
  intro pre t post hsplit
  have hcheck : ∀ pre ∈ [[], [quietTick fun _ => false]],
      (match openRun (quietTick fun _ => false).1 (quietTick fun _ => false).2 ⟨ticked pre, 0⟩ with
        | (.ok r, w) =>
          match reorgCheck (quietTick fun _ => false).1 (quietTick fun _ => false).2 r.1 w with
          | (.ok r, _) => r.2
          | _ => false
        | _ => false) = false := by
    decide +kernel
  have hpre : t = quietTick (fun _ => false) ∧ pre ∈ [[], [quietTick fun _ => false]] := by
    rcases pre with _ | ⟨u, _ | ⟨u', pre⟩⟩
    · cases hsplit
      exact ⟨rfl, by simp⟩
    · cases hsplit
      exact ⟨rfl, by simp⟩
    · have hlength := congrArg List.length hsplit
      simp at hlength
  obtain ⟨rfl, hpre⟩ := hpre
  have hcheck := hcheck pre hpre
  refine ⟨fun _ _ _ hfails => Bool.noConfusion hfails, ?_⟩
  intro r w c₁ w₁ tip w₂ o w₃ hopen hreorg
  rw [hopen] at hcheck
  dsimp only at hcheck
  rw [hreorg] at hcheck
  cases hcheck

/-- **The API shows what the cursor is not.**  After a tick that stopped with its run open it shows zero,
and so goes back on an unchanged chain; after a rollback it shows a block below the cursor. -/
theorem open_run_shows_zero :
    (¬ FreshnessIsCursor 1 (ticked [quietTick fun _ => false, quietTick fun k => 5 ≤ k]) ∧
      newestBlock (ticked [quietTick fun _ => false, quietTick fun k => 5 ≤ k]) = 0 ∧
      newestBlock (ticked [quietTick fun _ => false]) = 2) ∧
    ¬ FreshnessIsCursor 1 (ticked [quietTick fun _ => false, replacedTick]) ∧
      newestBlock (ticked [quietTick fun _ => false, replacedTick]) = 1 := by
  have hsingle : ∀ t, t.2.chainId = 1 → SingleChain 1 (ticked [quietTick fun _ => false, t]) := by
    intro t ht
    refine ticked_singleChain ?_
    intro u hu
    rcases List.mem_cons.mp hu with rfl | hu
    · rfl
    · rw [List.mem_singleton.mp hu, ht]
  refine ⟨⟨?_, by decide +kernel, by decide +kernel⟩, ?_, by decide +kernel⟩
  · rw [(hsingle _ rfl).freshnessIsCursor_iff]
    decide +kernel
  · rw [(hsingle _ rfl).freshnessIsCursor_iff]
    decide +kernel

end RobotMoney.Api
