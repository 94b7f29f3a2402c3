import RobotMoney.Api.Cursor
import RobotMoney.Indexer.Ingested
import RobotMoney.Indexer.Wedge

/-!
# The process around the ticks

The binary `indexer` ticks until it is stopped, after one tick with `--once`, or until a tick returns a cursor at
the block of `--end-block`.  It keeps nothing from tick to tick, so a process that is killed and started
again goes on as one that was not.

With an end block it never goes beyond it, whatever the node shows and whatever fails, and it ends only behind a
tick without an error (`daemon_ends`); then no event up to there is missing, if the ticks were regular
(`exits_complete`).
-/

namespace RobotMoney.Indexer

open RobotMoney.Lib Fallible

/-- How the process ends. -/
inductive Exit where
  | success
  | failure (e : IndexerError)
  deriving DecidableEq

/-- The arms of the loop: the process ends, or ticks again. -/
def IndexerConfig.exits (cfg : IndexerConfig) (once : Bool) : Except IndexerError IndexerOutcome → Option Exit
  | .ok o =>
    if once then some .success
    else match cfg.endBlock, o.lastIndexedBlock with
      | some e, some li => if e ≤ li then some .success else none
      | _, _ => none
  | .error e => if once then some (.failure e) else none

/-- The loop, over the sessions of its ticks: how it has ended, if it has, and the database. -/
def daemon (once : Bool) (cfg : IndexerConfig) : Db → List Session → Option Exit × Db
  | db, [] => (none, db)
  | db, sess :: rest =>
    match cfg.exits once (tick sess cfg db).1 with
    | some x => (some x, (tick sess cfg db).2)
    | none => daemon once cfg (tick sess cfg db).2 rest

variable {cfg : IndexerConfig} {sess : Session} {sessions : List Session} {db d db' : Db} {c : Option ℕ} {e n : ℕ}
  {o : IndexerOutcome} {x : Exit}

/-- Without `--once`, only a cursor at the end block ends the process. -/
theorem exits_iff (hend : cfg.endBlock = some e) {r : Except IndexerError IndexerOutcome} :
    cfg.exits false r = some x ↔
      x = .success ∧ ∃ o li, r = .ok o ∧ o.lastIndexedBlock = some li ∧ e ≤ li := by
  unfold IndexerConfig.exits
  rw [hend]
  rcases r with err | o
  · simp
  · cases ho : o.lastIndexedBlock with
    | none => simp [ho]
    | some li =>
      by_cases hle : e ≤ li
      · simp [ho, hle, eq_comm]
      · simp [ho, hle]

/-! ### One tick, whatever happens -/

theorem walkBackToMatch_le : Triple (fun _ => True) (walkBackToMatch sess cfg n) (fun root _ => root ≤ (n : ℤ))
    fun _ => True := by
  have hmatches : ∀ m, Triple (fun _ => True) (matchesAt sess cfg m) (fun _ _ => True) fun _ => True := by
    intro m w _
    rcases matchesAt sess cfg m w with ⟨err | found, w'⟩ <;> trivial
  induction n with
  | zero =>
    unfold walkBackToMatch
    refine triple_bind (hmatches 0) fun found => triple_pure fun _ _ => ?_
    split <;> simp
  | succ n ih =>
    unfold walkBackToMatch
    refine triple_bind (hmatches (n + 1)) fun found => ?_
    split
    · exact triple_pure fun _ _ => le_refl _
    · refine triple_post ih fun root _ hle => ?_
      omega

/-- A check never moves the cursor forward. -/
theorem reorgCheck_le {w w' : World} {r : Option ℕ × Bool} (h : reorgCheck sess cfg c w = (.ok r, w')) :
    ∀ m, r.1 = some m → ∃ n, c = some n ∧ m ≤ n := by
  have hall : ∀ {α : Type} (t : Tick α), Triple (fun _ => True) t (fun _ _ => True) fun _ => True := by
    intro α t w _
    rcases t w with ⟨err | a, w'⟩ <;> trivial
  have hle : Triple (fun _ => True) (reorgCheck sess cfg c)
      (fun r _ => ∀ m, r.1 = some m → ∃ n, c = some n ∧ m ≤ n) fun _ => True := by
    cases c with
    | none =>
      refine triple_pure ?_
      rintro w - m ⟨⟩
    | some n =>
      have hstays : ∀ m, some n = some m → ∃ k, some n = some k ∧ m ≤ k := by
        rintro m ⟨⟩
        exact ⟨n, rfl, le_refl n⟩
      unfold reorgCheck
      refine triple_bind (hall _) fun stored => ?_
      cases stored with
      | none => exact triple_pure fun _ _ => hstays
      | some hash =>
        refine triple_bind (hall _) fun header => ?_
        cases header with
        | none => exact triple_pure fun _ _ => hstays
        | some header =>
          dsimp only
          split
          · refine triple_bind walkBackToMatch_le fun root => ?_
            refine triple_of_fact (p := root ≤ (n : ℤ)) (fun _ hs => hs) fun hroot => ?_
            refine triple_bind (triple_pre (hall _) fun _ _ => trivial) fun _ => triple_pure fun _ _ => ?_
            intro m hm
            split at hm
            · cases hm
            · cases hm
              exact ⟨n, rfl, by omega⟩
          · exact triple_pure fun _ _ => hstays
  have hle := hle w trivial
  rw [h] at hle
  exact hle

/-- What a tick says of the cursor: nothing, the old one, or the one that its run came to. -/
inductive Tells (sess : Session) (cfg : IndexerConfig) (db : Db) : Except IndexerError IndexerOutcome → Db → Prop where
  | lost {err : IndexerError} {db' : Db} (hcursor : db'.lastIndexedBlock cfg.chainId = db.lastIndexedBlock cfg.chainId) :
      Tells sess cfg db (.error err) db'
  | failed {o : IndexerOutcome} {db' : Db} (herr : o.error ≠ none)
      (hlast : o.lastIndexedBlock = db.lastIndexedBlock cfg.chainId)
      (hcursor : db'.lastIndexedBlock cfg.chainId = db.lastIndexedBlock cfg.chainId) : Tells sess cfg db (.ok o) db'
  | reached {o o' : IndexerOutcome} {db' : Db} {w w' : World} (herr : o.error = none)
      (hopen : openRun sess cfg ⟨db, 0⟩ = (.ok (db.lastIndexedBlock cfg.chainId, db.nextRun), w))
      (hrun : runInner sess cfg (db.lastIndexedBlock cfg.chainId) w = (.ok o', w'))
      (hlast : o.lastIndexedBlock = o'.lastIndexedBlock)
      (hcursor : db'.lastIndexedBlock cfg.chainId =
        (db.indexerRuns.filterMap (RunRow.reached cfg.chainId) ++ o.lastIndexedBlock.toList).max?) :
      Tells sess cfg db (.ok o) db'

/-- A run that is not recorded leaves the cursor. -/
theorem cursor_of_unreached {row : RunRow} (hruns : db'.indexerRuns = db.indexerRuns ++ [row])
    (hrow : row.reached cfg.chainId = none) :
    db'.lastIndexedBlock cfg.chainId = db.lastIndexedBlock cfg.chainId := by
  rw [lastIndexedBlock_eq, lastIndexedBlock_eq, hruns, filterMap_reached_snoc, hrow]
  simp

theorem runInner_error {w w' : World} (h : runInner sess cfg c w = (.ok o, w')) : o.error = none := by
  unfold runInner at h
  obtain ⟨⟨c', reorg⟩, w₁, -, h⟩ := bind_ok_iff.mp h
  obtain ⟨tip, w₂, -, h⟩ := bind_ok_iff.mp h
  cases htarget : targetOf cfg (fromBlock c') tip with
  | none =>
    rw [htarget] at h
    cases h
    rfl
  | some target =>
    rw [htarget] at h
    obtain ⟨rows, w₃, -, h⟩ := bind_ok_iff.mp h
    cases h
    rfl

/-- The record of a run is an update that does not fail by itself. -/
theorem finishRun_answer {runId reorgs rows : ℕ} {toBlock last : Option ℕ} {err : Option IndexerError} (w : World) :
    (∃ e' w', sess.fails w.calls = true ∧ sql sess (Db.finishRun runId toBlock last reorgs rows err) w =
        (.error e', w')) ∨
      ∃ w', sess.fails w.calls = false ∧ sql sess (Db.finishRun runId toBlock last reorgs rows err) w =
        (.ok (), w') := by
  unfold sql
  cases hfails : sess.fails w.calls with
  | true => exact .inl ⟨_, _, rfl, rfl⟩
  | false => exact .inr ⟨_, rfl, rfl⟩

theorem tick_tells (sess : Session) (cfg : IndexerConfig) (hfresh : FreshRuns db) :
    Tells sess cfg db (tick sess cfg db).1 (tick sess cfg db).2 := by
  have hunreached : RunRow.reached cfg.chainId (openRow cfg db) = none := by
    unfold RunRow.reached openRow
    split <;> rfl
  cases Api.tick_runs sess cfg hfresh with
  | unopened hopen hruns =>
    obtain ⟨hruns, -⟩ := Prod.mk.injEq .. ▸ hruns
    have hcursor : (tick sess cfg db).2.lastIndexedBlock cfg.chainId = db.lastIndexedBlock cfg.chainId := by
      rw [lastIndexedBlock_eq, lastIndexedBlock_eq, hruns]
    rcases hx : openRun sess cfg ⟨db, 0⟩ with ⟨err | r, w⟩
    · have herr : (tick sess cfg db).1 = .error err := by
        unfold tick
        rw [runOnce_eq, bind_of_error hx]
      rw [herr]
      exact .lost hcursor
    · exact absurd hx (hopen r w)
  | @opened w hopen hruns hnext =>
    have htick : (tick sess cfg db).1 = (finishTick sess cfg db.nextRun (fromBlock (db.lastIndexedBlock cfg.chainId))
        (db.lastIndexedBlock cfg.chainId) w).1 := by
      unfold tick
      rw [runOnce_eq, bind_of_ok hopen]
    rw [htick]
    unfold Api.closedRow at hruns
    rcases hrun : runInner sess cfg (db.lastIndexedBlock cfg.chainId) w with ⟨r, w'⟩
    have hattempt : attempt (runInner sess cfg (db.lastIndexedBlock cfg.chainId)) w = (.ok r, w') := by
      unfold attempt
      rw [hrun]
    unfold finishTick
    rw [bind_of_ok hattempt]
    rw [hrun] at hruns
    cases r with
    | error err =>
      dsimp only at hruns ⊢
      rcases finishRun_answer w' with ⟨e', w₂, hfails, hsql⟩ | ⟨w₂, hfails, hsql⟩
      · rw [bind_of_error hsql]
        rw [hfails, if_pos rfl] at hruns
        exact .lost (cursor_of_unreached hruns hunreached)
      · rw [bind_of_ok hsql]
        rw [hfails, if_neg (by decide)] at hruns
        exact .failed nofun rfl (cursor_of_unreached hruns (if_neg fun h => by cases h.2))
    | ok o =>
      dsimp only at hruns ⊢
      rcases finishRun_answer w' with ⟨e', w₂, hfails, hsql⟩ | ⟨w₂, hfails, hsql⟩
      · rw [bind_of_error hsql]
        rw [hfails, if_pos rfl] at hruns
        exact .lost (cursor_of_unreached hruns hunreached)
      · rw [bind_of_ok hsql]
        rw [hfails, if_neg (by decide)] at hruns
        have herr : o.error = none := runInner_error hrun
        refine .reached herr hopen hrun rfl ?_
        rw [lastIndexedBlock_eq, hruns, filterMap_reached_snoc]
        unfold RunRow.reached
        rw [if_pos ⟨rfl, rfl⟩]

/-! ### The end block -/

/-- The cursor is in front of the end block. -/
structure Ahead (cfg : IndexerConfig) (e : ℕ) (db : Db) : Prop where
  fresh : FreshRuns db
  cursor : ∀ n, db.lastIndexedBlock cfg.chainId = some n → n < e

theorem ahead_empty : Ahead cfg e Db.empty := ⟨freshRuns_empty, fun n h => by cases h⟩

theorem fresh_tick (hfresh : FreshRuns db) : FreshRuns (tick sess cfg db).2 := by
  cases Api.tick_runs sess cfg hfresh with
  | unopened hopen hruns =>
    obtain ⟨hruns, hnext⟩ := Prod.mk.injEq .. ▸ hruns
    unfold FreshRuns
    rw [hruns, hnext]
    exact hfresh
  | opened hopen hruns hnext =>
    unfold FreshRuns
    rw [hruns, hnext, ← @Api.closedRow_runId cfg sess db _]
    exact fresh_snoc (Api.closedRow_runId ▸ hfresh)

/-- A run that goes on in front of the end block does not come beyond it. -/
theorem runInner_le_end {w w' : World} (hend : cfg.endBlock = some e) (hc : ∀ n, c = some n → n < e)
    (h : runInner sess cfg c w = (.ok o, w')) : ∀ li, o.lastIndexedBlock = some li → li ≤ e := by
  intro li hli
  obtain ⟨c₁, reorg, w₁, tip, w₂, hcheck, -, hends⟩ := Api.runInner_ends h
  rw [hends] at hli
  unfold Api.endOf at hli
  cases htarget : targetOf cfg (fromBlock c₁) tip with
  | none =>
    rw [htarget] at hli
    obtain ⟨n, hn, hle⟩ := reorgCheck_le hcheck li hli
    exact hle.trans (hc n hn).le
  | some target =>
    rw [htarget] at hli
    cases hli
    obtain ⟨-, -, rfl⟩ := targetOf_eq_some_iff.mp htarget
    exact bound_le_end hend

/-- **One tick of a process with an end block**: it goes on in front of it, or ends at it. -/
theorem Ahead.tick (h : Ahead cfg e db) (hend : cfg.endBlock = some e) (sess : Session) :
    (cfg.exits false (tick sess cfg db).1 = none ∧ Ahead cfg e (tick sess cfg db).2) ∨
      (cfg.exits false (tick sess cfg db).1 = some .success ∧
        (∃ o, (tick sess cfg db).1 = .ok o ∧ o.error = none ∧ o.lastIndexedBlock = some e) ∧
        (tick sess cfg db).2.lastIndexedBlock cfg.chainId = some e) := by
  have hfresh : FreshRuns (Indexer.tick sess cfg db).2 := fresh_tick h.fresh
  have htells := tick_tells sess cfg h.fresh
  have hstays : (Indexer.tick sess cfg db).2.lastIndexedBlock cfg.chainId = db.lastIndexedBlock cfg.chainId →
      Ahead cfg e (Indexer.tick sess cfg db).2 := fun hcursor => ⟨hfresh, hcursor ▸ h.cursor⟩
  have hreached : ∀ n ∈ db.indexerRuns.filterMap (RunRow.reached cfg.chainId), n < e := by
    intro n hn
    cases hmax : (db.indexerRuns.filterMap (RunRow.reached cfg.chainId)).max? with
    | none => simp [List.max?_eq_none_iff.mp hmax] at hn
    | some m => exact ((List.max?_eq_some_iff.mp hmax).2 n hn).trans_lt (h.cursor m hmax)
  generalize hr : (Indexer.tick sess cfg db).1 = r at htells
  cases htells with
  | lost hcursor => exact .inl ⟨rfl, hstays hcursor⟩
  | failed herr hlast hcursor =>
    rename_i o
    refine .inl ⟨?_, hstays hcursor⟩
    cases hx : cfg.exits false (.ok o) with
    | none => rfl
    | some x =>
      obtain ⟨-, o', li, ⟨⟩, hli, hle⟩ := (exits_iff hend).mp hx
      exact absurd (h.cursor li (hlast ▸ hli)) (Nat.not_lt.mpr hle)
  | reached herr hopen hrun hlast hcursor =>
    rename_i o o' w w'
    have hbound : ∀ li, o.lastIndexedBlock = some li → li ≤ e :=
      fun li hli => runInner_le_end hend h.cursor hrun li (hlast ▸ hli)
    cases hx : cfg.exits false (.ok o) with
    | none =>
      refine .inl ⟨rfl, hfresh, ?_⟩
      intro n hn
      rw [hcursor] at hn
      rcases List.mem_append.mp (List.max?_eq_some_iff.mp hn).1 with hmem | hmem
      · exact hreached n hmem
      · have hli : o.lastIndexedBlock = some n := by simpa using hmem
        refine lt_of_le_of_ne (hbound n hli) ?_
        rintro rfl
        have hsome : cfg.exits false (.ok o) = some .success := (exits_iff hend).mpr ⟨rfl, o, n, rfl, hli, le_refl n⟩
        cases hx.symm.trans hsome
    | some x =>
      obtain ⟨rfl, o', li, ⟨⟩, hli, hle⟩ := (exits_iff hend).mp hx
      obtain rfl : li = e := le_antisymm (hbound li hli) hle
      refine .inr ⟨rfl, ⟨o, rfl, herr, hli⟩, ?_⟩
      rw [hcursor, hli]
      refine List.max?_eq_some_iff.mpr ⟨by simp, ?_⟩
      intro n hn
      rcases List.mem_append.mp hn with hmem | hmem
      · exact (hreached n hmem).le
      · exact (List.mem_singleton.mp hmem).le

/-- **A process with an end block**, whatever the nodes show and whatever fails: it goes on as long as the cursor
is in front of the end block, and ends, with success, behind a tick without an error that brought the cursor to it. -/
theorem daemon_ends (hend : cfg.endBlock = some e) (h : Ahead cfg e db) :
    ((daemon false cfg db sessions).1 = none ∧ Ahead cfg e (daemon false cfg db sessions).2) ∨
      ((daemon false cfg db sessions).1 = some .success ∧
        (daemon false cfg db sessions).2.lastIndexedBlock cfg.chainId = some e) := by
  induction sessions generalizing db with
  | nil => exact .inl ⟨rfl, h⟩
  | cons sess rest ih =>
    unfold daemon
    rcases h.tick hend sess with ⟨hexit, hahead⟩ | ⟨hexit, -, hcursor⟩
    · rw [hexit]
      exact ih hahead
    · rw [hexit]
      exact .inr ⟨rfl, hcursor⟩

/-- The process that has ended has the rows of every event up to the end block. -/
theorem daemon_complete {polls : List Poll} (hend : cfg.endBlock = some e) (hinv : Inv cfg db) (h : Ahead cfg e db)
    (hreg : RegularRun cfg db polls) (hx : (daemon false cfg db (polls.map fun p => p.session)).1 ≠ none) :
    ∃ pre p post, polls = pre ++ p :: post ∧
      (daemon false cfg db (polls.map fun p => p.session)).2 = afterTicks cfg db (pre ++ [p]) ∧
      ∀ n ≤ e, ∀ r ∈ recordsAt cfg p.chain.blocks n, (afterTicks cfg db (pre ++ [p])).Holds r := by
  induction polls generalizing db with
  | nil => exact absurd rfl hx
  | cons p rest ih =>
    obtain ⟨hp, hrest⟩ := hreg
    obtain ⟨hinv', hcomplete⟩ := tick_regular hinv hp
    rw [List.map_cons] at hx ⊢
    unfold daemon at hx ⊢
    rcases h.tick hend p.session with ⟨hexit, hahead⟩ | ⟨hexit, ⟨o, ho, herr, hli⟩, -⟩
    · rw [hexit] at hx ⊢
      obtain ⟨pre, q, post, rfl, hdb, hholds⟩ := ih hinv' hahead hrest hx
      exact ⟨p :: pre, q, post, rfl, hdb, hholds⟩
    · rw [hexit]
      exact ⟨[], p, rest, rfl, rfl, (hcomplete o ho).rows herr e hli⟩

/-- **The end is complete.**  A process on a new database goes on as long as the cursor is in front of the end block,
and ends with success and the cursor there, and nowhere else; and if its ticks were regular, it has the row of
every event up to there, on the chain that its last tick met. -/
theorem exits_complete {polls : List Poll} {x : Option Exit} (hend : cfg.endBlock = some e)
    (h : daemon false cfg Db.empty (polls.map fun p => p.session) = (x, db)) :
    (x = none ∧ ∀ n, db.lastIndexedBlock cfg.chainId = some n → n < e) ∨
      (x = some .success ∧ db.lastIndexedBlock cfg.chainId = some e ∧
        (RegularRun cfg Db.empty polls → ∃ pre p post, polls = pre ++ p :: post ∧
          db = afterTicks cfg Db.empty (pre ++ [p]) ∧
          ∀ n ≤ e, ∀ r ∈ recordsAt cfg p.chain.blocks n, db.Holds r)) := by
  have hends := @daemon_ends cfg (polls.map fun p => p.session) _ _ hend ahead_empty
  have hcomplete := @daemon_complete cfg _ _ polls hend inv_empty ahead_empty
  rw [h] at hends hcomplete
  rcases hends with ⟨hx, hahead⟩ | ⟨hx, hcursor⟩
  · exact .inl ⟨hx, hahead.cursor⟩
  · refine .inr ⟨hx, hcursor, fun hreg => ?_⟩
    have hsome : x ≠ none := by
      rw [show x = some .success from hx]
      exact Option.some_ne_none _
    obtain ⟨pre, p, post, hpolls, rfl, hholds⟩ := hcomplete hreg hsome
    exact ⟨pre, p, post, hpolls, rfl, hholds⟩

/-- With an end block. -/
def boundedTo (e : ℕ) : IndexerConfig := { deployment 100 with endBlock := some e }

/-- One tick indexes a chain with a deposit at height two up to the height three, and ends the process. -/
theorem exits_complete_deposit :
    ∃ db, daemon false (boundedTo 3) Db.empty ([steady newChain].map fun p => p.session) = (some .success, db) ∧
      ∀ n ≤ 3, ∀ r ∈ recordsAt (boundedTo 3) newChain.blocks n, db.Holds r := by
  have hnew : Sound (boundedTo 3) newChain.blocks := by
    refine sound_of_records
      [.deposit { chainId := 8453, blockNumber := 2, logIndex := 0, txHash := 77, paymentId := 11,
                  orderId := 12, agent := 5, shareReceiver := 6, amount := 100, sharesMinted := 100,
                  windowId := 0, vault := some 2 }] (by decide +kernel) (le_refl 1) ?_
    intro v hv
    cases List.mem_singleton.mp hv
  have hreg : RegularRun (boundedTo 3) Db.empty [steady newChain] := by
    refine ⟨.level hnew ?_, trivial⟩
    intro n P _ hP
    cases hP
  have hexit : (daemon false (boundedTo 3) Db.empty ([steady newChain].map fun p => p.session)).1 ≠ none := by
    decide +kernel
  rcases hd : daemon false (boundedTo 3) Db.empty ([steady newChain].map fun p => p.session) with ⟨x, db⟩
  rw [hd] at hexit
  rcases exits_complete rfl hd with ⟨rfl, -⟩ | ⟨rfl, -, hholds⟩
  · exact absurd rfl hexit
  · obtain ⟨pre, p, post, hpolls, -, hholds⟩ := hholds hreg
    rcases pre with _ | ⟨q, pre⟩
    · cases hpolls
      exact ⟨db, hd, hholds⟩
    · obtain ⟨-, hnil⟩ := List.cons.inj hpolls
      simp at hnil

end RobotMoney.Indexer
