import RobotMoney.Api.Shown
import RobotMoney.Governance.InForce
import RobotMoney.Indexer.Tallies

/-!
# The weights that the explorer shows

`GET /v1/router/state` shows, as the current weights, the last of the first five hundred vectors that the
indexer has inserted, one for each `WeightsApplied` of the governance.  So it shows what `Governance.shown`
shows of the announced vectors (`Explores.currentWeights`), and the weights of the router are shown
after every turn of a run exactly when all its turns are steady: `routerState_mirrors_iff`.
-/

namespace RobotMoney.Api

open RobotMoney.Lib
open RobotMoney.Indexer
open RobotMoney.Governance (GovernanceEvent Weights Turn State Storage)
open RobotMoney.Portfolio (RouterState)

/-! ### The events of the governance on the chain -/

/-- The events that the table of weights is made of. -/
def weighed : LogData → Option Event
  | .event (.weightsApplied i vaults bps) => some (.weightsApplied i vaults bps)
  | _ => none

/-- The same events, as the contract emits them. -/
def weighing : GovernanceEvent → Option Event
  | .weightsApplied i vaults bps => some (.weightsApplied i vaults bps)
  | _ => none

/-- The events of a run of the two contracts, in their order. -/
def weighingIn {V : Type} (log : List (Turn V × List GovernanceEvent)) : List Event :=
  (log.flatMap fun x => x.2).filterMap weighing

theorem event_of_weighed {data : LogData} {ev : Event} (h : weighed data = some ev) : data = .event ev := by
  unfold weighed at h
  split at h
  · cases h
    rfl
  · cases h

/-- The vector of an event, as the indexer stores it. -/
def stored : Event → Option Weights
  | .weightsApplied _ vaults bps => some (vaults, bps.map clampI64)
  | _ => none

/-- The vector of a row. -/
def weightsOf (r : WeightRow) : Weights := (r.vaultAddresses, r.bpsValues)

section Rows

variable {cfg : IndexerConfig} {e : LogEntry} {logs : List LogEntry}

theorem rowOf_weights : (rowOf cfg Record.weightRow e).map weightsOf = (weighed e.log.data).bind stored := by
  unfold rowOf recordOf weighed
  cases e.log.data with
  | foreign => rfl
  | raw t => rfl
  | event ev => cases ev <;> rfl

/-- The vectors of the rows are those of the events. -/
theorem rowsOf_weights : (rowsOf cfg Record.weightRow logs).map weightsOf =
    (logs.filterMap fun e => weighed e.log.data).filterMap stored := by
  unfold rowsOf
  rw [List.map_filterMap, List.filterMap_filterMap]
  exact List.filterMap_congr fun e _ => rowOf_weights

end Rows

/-! ### The answer -/

/-- A vector as it is shown. -/
def shownWeights (w : Weights) : List VaultWeight := (w.1.zip w.2).map fun x => ⟨addrToHex x.1, x.2⟩

/-- The texts of a vector tell it. -/
theorem shownWeights_inj {w w' : Weights} (hw : w.1.length = w.2.length) (hw' : w'.1.length = w'.2.length)
    (h : shownWeights w = shownWeights w') : w = w' := by
  have hinj : Function.Injective fun x : Address × ℕ => (⟨addrToHex x.1, x.2⟩ : VaultWeight) := by
    intro x y hxy
    obtain ⟨hvault, hbps⟩ := VaultWeight.mk.injEq .. ▸ hxy
    exact Prod.ext (addrToHex_inj hvault) hbps
  have hzip : w.1.zip w.2 = w'.1.zip w'.2 := List.map_injective_iff.mpr hinj h
  have hfst := congrArg (List.map Prod.fst) hzip
  have hsnd := congrArg (List.map Prod.snd) hzip
  rw [List.map_fst_zip hw.le, List.map_fst_zip hw'.le] at hfst
  rw [List.map_snd_zip hw.ge, List.map_snd_zip hw'.ge] at hsnd
  exact Prod.ext hfst hsnd

/-- The current weights of an answer. -/
def Response.routerCurrentWeights : Response → Option (List VaultWeight)
  | .routerState currentWeights _ _ => some currentWeights
  | _ => none

theorem currentWeights_eq {state : AppState} {api : Database} {rows : List WeightRow}
    (hperm : ((api.routerWeightSnapshots.filter (onChain state.chainId)).map Stamped.row).Perm rows)
    (hrows : rows.Pairwise fun r r' => r.toLogPosition.Before r'.toLogPosition) :
    currentWeights (weightHistory state api) =
      shownWeights (Governance.shown 500 (rows.map weightsOf)) := by
  have hselect : selectOn state.chainId api.routerWeightSnapshots (fun _ => true) =
      api.routerWeightSnapshots.filter (onChain state.chainId) := by
    rw [selectOn_eq]
    exact List.filter_true _
  have hsorted := ascending₂_rows hperm hrows
  have htake : (weightRows state api).map Stamped.row = rows.take 500 := by
    unfold weightRows
    rw [hselect, List.map_take]
    exact congrArg (List.take 500) hsorted
  unfold currentWeights weightHistory Governance.shown
  rw [← List.map_take, ← htake]
  rw [List.getLast?_map, List.getLast?_map, List.getLast?_map]
  cases (weightRows state api).getLast? <;> rfl

/-! ### Runs -/

section Runs

variable {V : Type} {env : Governance.Env V} {s s' s₀ : State V} {a : Turn V} {events : List GovernanceEvent}

theorem stored_weighing {ev : GovernanceEvent} :
    (weighing ev).bind stored = (Governance.applied ev).map fun w => (w.1, w.2.map clampI64) := by
  cases ev <;> rfl

/-- What is stored of the events of a run, up to the range of the column. -/
theorem stored_weighingIn {log : List (Turn V × List GovernanceEvent)} :
    (weighingIn log).filterMap stored =
      (Governance.appliedIn log).map fun w => (w.1, w.2.map clampI64) := by
  unfold weighingIn Governance.appliedIn
  rw [List.filterMap_filterMap, List.map_filterMap]
  exact List.filterMap_congr fun ev _ => stored_weighing

/-- A vector that is executed is complete. -/
theorem complete_of_execution (h : s.turn env a = .ok (s', events)) {w : Weights}
    (hw : s.execution a = some w) : Portfolio.Complete w.1 w.2 := by
  have hrouter := Governance.turn_router h
  rw [Governance.routerCall_of_execution hw] at hrouter
  obtain ⟨sender, ev, hx⟩ := hrouter
  exact (RouterState.setWeights_ok hx).1

/-- The weights of an announced vector fit the column. -/
theorem applied_fits (acts : List (Turn V)) :
    ∀ w ∈ Governance.appliedIn (history (State.turn env) s₀ acts),
      w.1.length = w.2.length ∧ w.2.map clampI64 = w.2 := by
  refine run_invariant (P := fun (_ : State V) log => ∀ w ∈ Governance.appliedIn log,
    w.1.length = w.2.length ∧ w.2.map clampI64 = w.2) (fun w hw => absurd hw List.not_mem_nil) ?_
  rintro pre a post s' events - ih hx w hw
  rw [Governance.appliedIn_snoc, Governance.turn_applied hx] at hw
  rcases List.mem_append.mp hw with hw | hw
  · exact ih w hw
  · obtain ⟨hlen, hle⟩ :=
      Governance.Complete.paired (complete_of_execution hx (Option.mem_toList.mp hw))
    refine ⟨hlen, (List.map_congr_left ?_).trans (List.map_id _)⟩
    intro b hb
    exact clampI64_of_lt (lt_of_le_of_lt (hle b hb) (by decide))

/-- The explorer after a run of the two contracts: the indexer watches the governance, has indexed a chain
with its events up to its cursor, without an error, and the API reads its tables. -/
structure Explores (cfg : IndexerConfig) (state : AppState) (chain : Chain)
    (log : List (Turn V × List GovernanceEvent)) (db : Db) (api : Database) : Prop where
  numbered : Numbered chain
  indexed : Indexes cfg chain Db.empty db
  emits : ∃ governance, cfg.routerGovernance = some governance ∧
    Emits weighed governance cfg chain (fromBlock (db.lastIndexedBlock cfg.chainId)) (weighingIn log)
  reads : Reads state cfg db api

theorem Explores.currentWeights {cfg : IndexerConfig} {state : AppState} {chain : Chain} {db : Db}
    {api : Database} {acts : List (Turn V)}
    (h : Explores cfg state chain (history (State.turn env) s₀ acts) db api) :
    Api.currentWeights (weightHistory state api) =
      shownWeights (Governance.shown 500 (Governance.appliedIn (history (State.turn env) s₀ acts))) := by
  obtain ⟨governance, hgov, hemits⟩ := h.emits
  have hwatched : governance ∈ cfg.watchedAddresses := by
    unfold IndexerConfig.watchedAddresses
    simp [hgov]
  have hrows : db.routerWeightSnapshots = rowsOf cfg Record.weightRow
      (logsIn cfg chain 0 (fromBlock (db.lastIndexedBlock cfg.chainId))) := by
    rw [← weights_of_logs h.numbered, ← h.indexed.events]
    rfl
  have hvectors : db.routerWeightSnapshots.map weightsOf =
      Governance.appliedIn (history (State.turn env) s₀ acts) := by
    rw [hrows, rowsOf_weights, hemits.watched (fun _ _ => event_of_weighed) hwatched, stored_weighingIn]
    refine (List.map_congr_left ?_).trans (List.map_id _)
    intro w hw
    exact Prod.ext rfl (applied_fits acts w hw).2
  have hbefore : db.routerWeightSnapshots.Pairwise fun r r' => r.toLogPosition.Before r'.toLogPosition := by
    rw [hrows]
    exact rowsOf_before h.numbered fun _ _ => position_of_weightRow
  rw [currentWeights_eq h.reads.weights hbefore, hvectors]

/-- The API answers with the vector in force. -/
def ShowsInForce (state : AppState) (api : Database) (s : State V) : Prop :=
  ∃ history freshness, getRouterState state api = .ok
    (.routerState (shownWeights (RouterState.effectiveWeights s.portfolio.router)) history freshness)

theorem showsInForce_iff {state : AppState} {api : Database} :
    ShowsInForce state api s ↔ currentWeights (weightHistory state api) = shownWeights s.vectors.inForce := by
  have hanswer : getRouterState state api = .ok (.routerState (currentWeights (weightHistory state api))
      (weightHistory state api) (historyFreshness state api (weightHistory state api))) := rfl
  unfold ShowsInForce
  rw [hanswer]
  constructor
  · rintro ⟨history, freshness, h⟩
    obtain ⟨hweights, -, -⟩ := Response.routerState.injEq .. ▸ Except.ok.inj h
    exact hweights
  · intro h
    rw [h]
    exact ⟨_, _, rfl⟩

section Deployed

variable {registryAddress admin : Address} {registry : Portfolio.Registry} {world : Portfolio.World V}
  {p₀ : RouterState V}

theorem vectors_deploy
    (h₀ : RouterState.deploy env.router registryAddress admin registry world = .ok p₀) :
    Governance.vectors p₀.router = ⟨false, ([], []), ([], [])⟩ := by
  simp only [RouterState.deploy, bind_eq_ok, pure_eq_ok] at h₀
  obtain ⟨-, -, rfl⟩ := h₀
  rfl

/-- In every run the vectors have a weight for each vault. -/
theorem run_paired (h₀ : RouterState.deploy env.router registryAddress admin registry world = .ok p₀)
    (g₀ : Storage) (acts : List (Turn V)) : (run (State.turn env) ⟨g₀, p₀⟩ acts).vectors.Paired := by
  refine run_invariant (P := fun (s : State V) _ => s.vectors.Paired) ?_ ?_
  · unfold State.vectors
    rw [vectors_deploy h₀]
    exact ⟨rfl, rfl⟩
  · rintro pre a post s' events - hp hx
    exact Governance.turn_paired hx hp

/-- The explorer shows the vector in force exactly if the last announced one is. -/
theorem Explores.showsInForce_iff {cfg : IndexerConfig} {state : AppState} {chain : Chain} {db : Db}
    {api : Database} {acts : List (Turn V)} {g₀ : Storage}
    (h₀ : RouterState.deploy env.router registryAddress admin registry world = .ok p₀)
    (h : Explores cfg state chain (history (State.turn env) ⟨g₀, p₀⟩ acts) db api) :
    ShowsInForce state api (run (State.turn env) ⟨g₀, p₀⟩ acts) ↔
      Governance.Mirrored 500 env ⟨g₀, p₀⟩ acts := by
  have hpaired := (run_paired h₀ g₀ acts).inForce
  have hshown : ∀ announced : List Weights, (∀ w ∈ announced, w.1.length = w.2.length) →
      (Governance.shown 500 announced).1.length = (Governance.shown 500 announced).2.length := by
    intro announced hall
    unfold Governance.shown
    cases hlast : (announced.take 500).getLast? with
    | none => rfl
    | some w => exact hall w (List.mem_of_mem_take (List.mem_of_getLast? hlast))
  rw [Api.showsInForce_iff, h.currentWeights]
  unfold Governance.Mirrored
  constructor
  · exact shownWeights_inj (hshown _ fun w hw => (applied_fits acts w hw).1) hpaired
  · exact congrArg shownWeights

/-- **The weights that the explorer shows**, after every turn of a run: they are those in force exactly if
every turn that changes the vector in force is the execution of a proposal, one of the first five hundred. -/
theorem routerState_mirrors_iff
    (h₀ : RouterState.deploy env.router registryAddress admin registry world = .ok p₀) (g₀ : Storage)
    (acts : List (Turn V)) {cfg : IndexerConfig} {state : AppState} {chain : ℕ → Chain} {db : ℕ → Db}
    {api : ℕ → Database}
    (h : ∀ k ≤ acts.length,
      Explores cfg state (chain k) (history (State.turn env) ⟨g₀, p₀⟩ (acts.take k)) (db k) (api k)) :
    (∀ k ≤ acts.length, ShowsInForce state (api k) (run (State.turn env) ⟨g₀, p₀⟩ (acts.take k))) ↔
      Governance.SteadyRun 500 env ⟨g₀, p₀⟩ acts := by
  have hempty : (State.vectors (⟨g₀, p₀⟩ : State V)).inForce = ([], []) := by
    unfold State.vectors
    rw [vectors_deploy h₀]
    rfl
  rw [← Governance.mirrors_iff hempty]
  constructor
  · intro hshows pre hpre
    have htake := List.prefix_iff_eq_take.mp hpre
    have hk := hpre.length_le
    rw [htake]
    exact ((h _ hk).showsInForce_iff h₀).mp (hshows _ hk)
  · intro hmirrored k hk
    exact ((h k hk).showsInForce_iff h₀).mpr (hmirrored _ (List.take_prefix k acts))

end Deployed

end Runs

/-! ### A vector that is executed, and cleared -/

section Sample

open RobotMoney.Governance (ballot ballotEnv deployed)
open RobotMoney.Portfolio.RouterState (freshRouter)

/-- A database as the API reads it. -/
def databaseOf (db : Db) : Database :=
  { Database.empty with
    routerWeightSnapshots := db.routerWeightSnapshots.map fun r => ⟨r, 0⟩
    agentPolicies := db.agentPolicies.map fun r => ⟨r, 0⟩ }

theorem stamped_rows {ρ : Type} [HasChain ρ] {c : ℤ} {rows : List ρ}
    (h : ∀ r ∈ rows, (HasChain.chainId r : ℤ) = c) :
    ((rows.map fun r => (⟨r, 0⟩ : Stamped ρ)).filter (onChain c)).map Stamped.row = rows := by
  have hall : (rows.map fun r => (⟨r, 0⟩ : Stamped ρ)).filter (onChain c) =
      rows.map fun r => (⟨r, 0⟩ : Stamped ρ) := by
    refine List.filter_eq_self.mpr ?_
    intro x hx
    obtain ⟨r, hr, rfl⟩ := List.mem_map.mp hx
    exact decide_eq_true (h r hr)
  rw [hall, List.map_map]
  exact List.map_id _

theorem reads_databaseOf {state : AppState} {cfg : IndexerConfig} {db : Db} (hchain : state.chainId = cfg.chainId)
    (hweights : ∀ r ∈ db.routerWeightSnapshots, r.chainId = cfg.chainId)
    (hpolicies : ∀ r ∈ db.agentPolicies, r.chainId = cfg.chainId) :
    Reads state cfg db (databaseOf db) := by
  refine ⟨hchain, ?_, ?_⟩
  · rw [hchain]
    exact .of_eq (stamped_rows hweights)
  · rw [hchain]
    exact .of_eq (stamped_rows hpolicies)

/-- The API of the chain of the samples. -/
def baseApi : AppState := ⟨8453, 0, fun n m => n / m⟩

/-- The database after one tick on a chain. -/
def dbOf (chain : Chain) : Db := (tick (steady chain).session governed Db.empty).2

/-- A proposal is voted on, and executed. -/
def executed : List (Turn (Address → Address → ℕ)) :=
  ballot.map .governance ++ [.governance (.of 22 (.of 400 4660) (.execute 1))]

/-- The block with the event of the execution. -/
def executionBlock : Indexer.Block where
  timestamp := 4660
  txs := []
  logs := [⟨3, .event (.weightsApplied 1 [10, 11] [4000, 6000]), 80, 0, 0⟩]

def executionChain : Chain where
  blocks := [quietBlock 0, quietBlock 1, executionBlock] ++ (List.range 6).map quietBlock
  nonempty := List.cons_ne_nil _ _

theorem explores_of {acts : List (Turn (Address → Address → ℕ))} {chain : Chain} (cursor : ℕ)
    (hnum : Numbered chain)
    (hok : (tick (steady chain).session governed Db.empty).1.toOption.map (fun o => o.error) = some none)
    (hcursor : (dbOf chain).lastIndexedBlock governed.chainId = some cursor)
    (hemits : Emits weighed 3 governed chain (cursor + 1)
      (weighingIn (history (State.turn ballotEnv) ⟨deployed.gov, freshRouter⟩ acts)))
    (hweights : ∀ r ∈ (dbOf chain).routerWeightSnapshots, r.chainId = governed.chainId)
    (hpolicies : ∀ r ∈ (dbOf chain).agentPolicies, r.chainId = governed.chainId) :
    Explores governed baseApi chain
      (history (State.turn ballotEnv) ⟨deployed.gov, freshRouter⟩ acts) (dbOf chain)
      (databaseOf (dbOf chain)) := by
  refine ⟨hnum, Indexes.start.after (List.prefix_refl _) hok, ⟨3, rfl, ?_⟩, reads_databaseOf rfl hweights hpolicies⟩
  rw [hcursor]
  exact hemits

theorem explores_quiet {acts : List (Turn (Address → Address → ℕ))}
    (h : weighingIn (history (State.turn ballotEnv) ⟨deployed.gov, freshRouter⟩ acts) = []) :
    Explores governed baseApi oldChain
      (history (State.turn ballotEnv) ⟨deployed.gov, freshRouter⟩ acts) (dbOf oldChain)
      (databaseOf (dbOf oldChain)) := by
  refine explores_of 3 (by decide) (by decide +kernel) (by decide +kernel) ?_ (by decide +kernel)
    (by decide +kernel)
  rw [h]
  exact ⟨by decide +kernel, by decide +kernel⟩

theorem explores_executed {acts : List (Turn (Address → Address → ℕ))}
    (h : weighingIn (history (State.turn ballotEnv) ⟨deployed.gov, freshRouter⟩ acts) =
      [.weightsApplied 1 [10, 11] [4000, 6000]]) :
    Explores governed baseApi executionChain
      (history (State.turn ballotEnv) ⟨deployed.gov, freshRouter⟩ acts) (dbOf executionChain)
      (databaseOf (dbOf executionChain)) := by
  refine explores_of 3 (by decide) (by decide +kernel) (by decide +kernel) ?_ (by decide +kernel)
    (by decide +kernel)
  rw [h]
  exact ⟨by decide +kernel, by decide +kernel⟩

/-- The chain after so many turns of `executed`. -/
def chainAfter (k : ℕ) : Chain := if k < 4 then oldChain else executionChain

/-- Before the execution nothing is shown, and nothing is in force; after it, what was executed. -/
theorem routerState_mirrors_iff_executed :
    Governance.SteadyRun 500 ballotEnv ⟨deployed.gov, freshRouter⟩ executed ∧
      ∀ k ≤ executed.length, ShowsInForce baseApi (databaseOf (dbOf (chainAfter k)))
        (run (State.turn ballotEnv) ⟨deployed.gov, freshRouter⟩ (executed.take k)) := by
  have hdeploy : RouterState.deploy ballotEnv.router 5 3 RouterState.twoVaults RouterState.fundedWorld =
      .ok freshRouter := rfl
  have hsteady : Governance.SteadyRun 500 ballotEnv ⟨deployed.gov, freshRouter⟩ executed := by
    refine forall_step_cons ?_ (forall_step_cons ?_ (forall_step_cons ?_ (forall_step_cons ?_ forall_step_nil)))
    · rintro _ call ⟨⟩
    · rintro _ call ⟨⟩
    · rintro _ call ⟨⟩
    · exact fun _ call _ => .inr ⟨rfl, by decide⟩
  have hexplores : ∀ k ≤ executed.length, Explores governed baseApi (chainAfter k)
      (history (State.turn ballotEnv) ⟨deployed.gov, freshRouter⟩ (executed.take k)) (dbOf (chainAfter k))
      (databaseOf (dbOf (chainAfter k))) := by
    intro k hk
    have hk : k ≤ 4 := hk
    interval_cases k
    · exact explores_quiet (by decide)
    · exact explores_quiet (by decide)
    · exact explores_quiet (by decide)
    · exact explores_quiet (by decide)
    · exact explores_executed (by decide)
  exact ⟨hsteady, (routerState_mirrors_iff hdeploy deployed.gov executed hexplores).mpr hsteady⟩

/-- The default vector is set before the ballot, and the voted one cleared after it. -/
def cleared : List (Turn (Address → Address → ℕ)) :=
  .governance (.of 20 (.of 7 1000) (.setDefaultWeights [10, 11] [3333, 6667])) :: executed ++
    [.governance (.of 20 (.of 401 5000) .clearVotedWeights)]

/-- **The weights that were cleared are still shown.** -/
theorem cleared_still_shown :
    Explores governed baseApi executionChain
        (history (State.turn ballotEnv) ⟨deployed.gov, freshRouter⟩ cleared) (dbOf executionChain)
        (databaseOf (dbOf executionChain)) ∧
      RouterState.effectiveWeights
          (run (State.turn ballotEnv) ⟨deployed.gov, freshRouter⟩ cleared).portfolio.router =
        ([10, 11], [3333, 6667]) ∧
      currentWeights (weightHistory baseApi (databaseOf (dbOf executionChain))) =
        shownWeights ([10, 11], [4000, 6000]) ∧
      ¬ ShowsInForce baseApi (databaseOf (dbOf executionChain))
        (run (State.turn ballotEnv) ⟨deployed.gov, freshRouter⟩ cleared) := by
  have hexplores : Explores governed baseApi executionChain
      (history (State.turn ballotEnv) ⟨deployed.gov, freshRouter⟩ cleared) (dbOf executionChain)
      (databaseOf (dbOf executionChain)) := explores_executed (by decide)
  have hforce : RouterState.effectiveWeights
      (run (State.turn ballotEnv) ⟨deployed.gov, freshRouter⟩ cleared).portfolio.router =
        ([10, 11], [3333, 6667]) := by decide
  have happlied : Governance.appliedIn
      (history (State.turn ballotEnv) ⟨deployed.gov, freshRouter⟩ cleared) = [([10, 11], [4000, 6000])] := by
    decide
  have hshown : currentWeights (weightHistory baseApi (databaseOf (dbOf executionChain))) =
      shownWeights ([10, 11], [4000, 6000]) := by
    rw [hexplores.currentWeights, happlied]
    rfl
  refine ⟨hexplores, hforce, hshown, ?_⟩
  intro h
  rw [showsInForce_iff, hshown] at h
  have hsame := shownWeights_inj rfl rfl (h.trans (congrArg shownWeights hforce))
  cases hsame

end Sample

end RobotMoney.Api
