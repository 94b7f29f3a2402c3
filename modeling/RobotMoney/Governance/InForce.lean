import RobotMoney.Governance.Effect
import RobotMoney.Portfolio.Link

/-!
# The weights in force

`Vectors` is what `PortfolioRouter` knows of weights: a voted vector, a default one, and which of them is in
force.  They are changed by calls of the router, which accounts with its admin role make directly and
`RouterGovernance` makes for its own callers (`turn_vectors`); the governance announces one kind of them, the
executions of proposals, by `WeightsApplied` (`turn_applied`).

A reader of these announcements who shows the last one of the first so many shows the vector in force
throughout a run exactly when no other turn changes it: `mirrors_iff`.
-/

namespace RobotMoney.Governance

open RobotMoney.Lib RobotMoney.Portfolio RouterState

/-- A vector of weights: the vaults, and their weights. -/
abbrev Weights : Type := List Address × List ℕ

structure Vectors where
  votedActive : Bool
  voted : Weights
  fallback : Weights
  deriving DecidableEq

namespace Vectors

variable {x : Vectors} {call : RouterCall}

/-- The vector in force. -/
def inForce (x : Vectors) : Weights := if x.votedActive then x.voted else x.fallback

/-- The vectors after a call of the router. -/
def after (x : Vectors) : RouterCall → Vectors
  | .setWeights vaults bps => { x with votedActive := true, voted := (vaults, bps) }
  | .setDefaultWeights vaults bps => { x with fallback := (vaults, bps) }
  | .clearVotedWeights => { x with votedActive := false, voted := ([], []) }
  | _ => x

/-- The call leaves the vector in force: it sets that vector again, or one that is not in force, or it clears
a vector that is not in force or is the default one. -/
def Keeps (x : Vectors) : RouterCall → Prop
  | .setWeights vaults bps => (vaults, bps) = x.inForce
  | .setDefaultWeights vaults bps => x.votedActive = true ∨ (vaults, bps) = x.fallback
  | .clearVotedWeights => x.votedActive = false ∨ x.fallback = x.voted
  | _ => True

instance : Decidable (x.Keeps call) := by
  cases call <;> unfold Keeps <;> infer_instance

theorem keeps_iff : x.Keeps call ↔ (x.after call).inForce = x.inForce := by
  cases call with
  | setWeights vaults bps => exact Iff.rfl
  | setDefaultWeights vaults bps =>
    unfold Keeps after inForce
    cases x.votedActive <;> simp
  | clearVotedWeights =>
    unfold Keeps after inForce
    cases x.votedActive <;> simp
  | _ => exact iff_of_true trivial rfl

/-- Every vault has a weight. -/
def Paired (x : Vectors) : Prop :=
  x.voted.1.length = x.voted.2.length ∧ x.fallback.1.length = x.fallback.2.length

theorem Paired.inForce (h : x.Paired) : x.inForce.1.length = x.inForce.2.length := by
  unfold Vectors.inForce
  split
  · exact h.1
  · exact h.2

end Vectors

/-- The vectors of the router. -/
def vectors (r : Router) : Vectors where
  votedActive := r.votedWeightsActive
  voted := (r.weightVaultList, r.weightBps)
  fallback := (r.defaultWeightVaultList, r.defaultWeightBps)

theorem inForce_vectors (r : Router) : (vectors r).inForce = effectiveWeights r := rfl

section Router

variable {V : Type} {env : RouterEnv V} {p p' : RouterState V} {sender : Address} {call : RouterCall}
  {events : List RouterEvent}

/-- **What a call of the router does to its weights**: whichever it is, and no deposit does anything. -/
theorem exec_vectors (h : p.exec env sender call = .ok (p', events)) :
    vectors p'.router = (vectors p.router).after call := by
  cases call with
  | setWeights vaults bps =>
    obtain ⟨-, rfl⟩ := setWeights_ok h
    rfl
  | setDefaultWeights vaults bps =>
    obtain ⟨-, rfl⟩ := setDefaultWeights_ok h
    rfl
  | clearVotedWeights =>
    simp only [exec, clearVotedWeights, bind_eq_ok, pure_eq_ok, Prod.mk.injEq] at h
    obtain ⟨-, -, rfl, -⟩ := h
    rfl
  | setRouterCap cap =>
    simp only [exec, setRouterCap, bind_eq_ok, pure_eq_ok, Prod.mk.injEq] at h
    obtain ⟨-, -, rfl, -⟩ := h
    rfl
  | setVaultCap vault cap =>
    simp only [exec, setVaultCap, bind_eq_ok, pure_eq_ok, Prod.mk.injEq] at h
    obtain ⟨-, -, -, -, rfl, -⟩ := h
    rfl
  | rescueUsdc dst =>
    simp only [exec, rescueUsdc, bind_eq_ok] at h
    obtain ⟨-, -, -, -, h⟩ := h
    split at h
    · cases h
      rfl
    · obtain ⟨usdc, -, h⟩ := bind_eq_ok.mp h
      cases h
      rfl
  | deposit amount minShares =>
    obtain ⟨usdc, amounts, -, hlegs⟩ := depositTo_legs h
    exact congrArg vectors (executeLegs_kept hlegs).1
  | depositFor receiver amount minShares =>
    obtain ⟨-, -, h⟩ := bind_eq_ok.mp h
    obtain ⟨usdc, amounts, -, hlegs⟩ := depositTo_legs h
    exact congrArg vectors (executeLegs_kept hlegs).1
  | grantRole role account | revokeRole role account | renounceRole role account =>
    obtain ⟨roles, -, h⟩ := bind_eq_ok.mp h
    cases h
    rfl

/-- A vector that the router takes has a weight for every vault, and none above the whole. -/
theorem Complete.paired {vaults : List Address} {bps : List ℕ} (h : Complete vaults bps) :
    vaults.length = bps.length ∧ ∀ b ∈ bps, b ≤ bpsDenominator := by
  refine ⟨h.1, ?_⟩
  intro b hb
  rw [← h.2]
  exact List.single_le_sum (fun _ _ => Nat.zero_le _) b hb

theorem exec_paired (h : p.exec env sender call = .ok (p', events)) (hp : (vectors p.router).Paired) :
    (vectors p'.router).Paired := by
  rw [exec_vectors h]
  cases call with
  | setWeights vaults bps => exact ⟨(setWeights_ok h).1.1, hp.2⟩
  | setDefaultWeights vaults bps => exact ⟨hp.1, (setDefaultWeights_ok h).1.1⟩
  | clearVotedWeights => exact ⟨rfl, hp.2⟩
  | _ => exact hp

end Router

/-! ### Turns -/

/-- What happens to the two contracts: a call of the governance, a call of the router, and whatever becomes of
the registry and the vaults. -/
inductive Turn (V : Type) where
  | governance (tx : Tx State.GovernanceCall)
  | router (sender : Address) (call : RouterCall)
  | elsewhere (registry : Registry) (world : World V)

section Turns

variable {V : Type} {env : Env V} {s s' s₀ : State V} {a : Turn V} {events : List GovernanceEvent}
  {limit : ℕ}

/-- One turn. -/
def State.turn (env : Env V) (s : State V) :
    Turn V → Call GovernanceError (State V × List GovernanceEvent)
  | .governance tx => s.exec env tx
  | .router sender call => do
    let (portfolio, events) ← inner (s.portfolio.exec env.router sender call)
    pure ({ s with portfolio }, events.map .router)
  | .elsewhere registry world => .ok ({ s with portfolio := { s.portfolio with registry, world } }, [])

/-- The weights of the router. -/
def State.vectors (s : State V) : Vectors := Governance.vectors s.portfolio.router

/-- The vector that a call of the governance executes. -/
def State.executes (s : State V) : State.GovernanceCall → Option Weights
  | .execute i => some ((s.gov.proposals i).vaults, (s.gov.proposals i).bps)
  | _ => none

/-- The call of the router that a turn comes down to. -/
def State.routerCall (s : State V) : Turn V → Option RouterCall
  | .governance tx =>
    match tx.call with
    | .setDefaultWeights vaults bps => some (.setDefaultWeights vaults bps)
    | .clearVotedWeights => some .clearVotedWeights
    | .execute i => some (.setWeights (s.gov.proposals i).vaults (s.gov.proposals i).bps)
    | _ => none
  | .router _ call => some call
  | .elsewhere _ _ => none

/-- The vector that a turn executes. -/
def State.execution (s : State V) : Turn V → Option Weights
  | .governance tx => s.executes tx.call
  | _ => none

/-- The vector that an event announces. -/
def applied : GovernanceEvent → Option Weights
  | .weightsApplied _ vaults bps => some (vaults, bps)
  | _ => none

/-- The call of the router was made, by the governance or by the account itself. -/
theorem turn_router (h : s.turn env a = .ok (s', events)) :
    match s.routerCall a with
    | some call => ∃ sender ev, s.portfolio.exec env.router sender call = .ok (s'.portfolio, ev)
    | none => s'.portfolio.router = s.portfolio.router := by
  cases a with
  | elsewhere registry world =>
    cases h
    rfl
  | router sender call =>
    simp only [State.turn, bind_eq_ok, pure_eq_ok, Prod.exists, inner_eq_ok, Prod.mk.injEq] at h
    obtain ⟨portfolio, ev, hx, rfl, -⟩ := h
    exact ⟨sender, ev, hx⟩
  | governance tx =>
    have hexec : s.exec env tx = .ok (s', events) := h
    cases exec_effect hexec with
    | executed hc hid hs ht hr =>
      simp only [State.routerCall, hc]
      exact ⟨env.self, _, hr⟩
    | forwarded hc he =>
      obtain ⟨b, sender, call, hsender⟩ := tx
      cases call with
      | setDefaultWeights vaults bps =>
        obtain ⟨portfolio, ev, hx, hs', -⟩ := forward_eq_ok hexec
        cases hs'
        exact ⟨env.self, ev, hx⟩
      | clearVotedWeights =>
        obtain ⟨portfolio, ev, hx, hs', -⟩ := forward_eq_ok hexec
        cases hs'
        exact ⟨env.self, ev, hx⟩
      | _ => cases hc
    | configured hc =>
      have hnone : s.routerCall (.governance tx) = none := by
        obtain ⟨b, sender, call, hsender⟩ := tx
        cases call <;> first | rfl | cases hc
      rw [hnone]
    | empowered hc | proposed hc | cancelled hc | voted hc => simp only [State.routerCall, hc]

/-- **What a turn does to the weights.** -/
theorem turn_vectors (h : s.turn env a = .ok (s', events)) :
    s'.vectors = (s.routerCall a).elim s.vectors s.vectors.after := by
  have hrouter := turn_router h
  unfold State.vectors
  cases hcall : s.routerCall a with
  | none =>
    rw [hcall] at hrouter
    exact congrArg Governance.vectors hrouter
  | some call =>
    rw [hcall] at hrouter
    obtain ⟨sender, ev, hx⟩ := hrouter
    exact exec_vectors hx

theorem turn_paired (h : s.turn env a = .ok (s', events)) (hp : s.vectors.Paired) : s'.vectors.Paired := by
  have hrouter := turn_router h
  cases hcall : s.routerCall a with
  | none =>
    rw [hcall] at hrouter
    unfold State.vectors at *
    rwa [show s'.portfolio.router = s.portfolio.router from hrouter]
  | some call =>
    rw [hcall] at hrouter
    obtain ⟨sender, ev, hx⟩ := hrouter
    exact exec_paired hx hp

/-- The vectors that a run announces. -/
def appliedIn (log : List (Turn V × List GovernanceEvent)) : List Weights :=
  (log.flatMap fun x => x.2).filterMap applied

theorem appliedIn_snoc {log : List (Turn V × List GovernanceEvent)} :
    appliedIn (log ++ [(a, events)]) = appliedIn log ++ events.filterMap applied := by
  simp [appliedIn]

theorem applied_router (ev : List RouterEvent) : (ev.map GovernanceEvent.router).filterMap applied = [] := by
  rw [List.filterMap_map]
  exact List.filterMap_eq_nil_iff.mpr fun _ _ => rfl

/-- **What a turn announces**: the vector that it executes. -/
theorem turn_applied (h : s.turn env a = .ok (s', events)) :
    events.filterMap applied = (s.execution a).toList := by
  cases a with
  | elsewhere registry world =>
    cases h
    rfl
  | router sender call =>
    simp only [State.turn, bind_eq_ok, pure_eq_ok, Prod.exists, Prod.mk.injEq] at h
    obtain ⟨portfolio, ev, -, -, rfl⟩ := h
    exact applied_router ev
  | governance tx =>
    have hexec : s.exec env tx = .ok (s', events) := h
    cases exec_effect hexec with
    | executed hc hid hs ht hr =>
      rw [List.filterMap_append, applied_router]
      simp only [State.execution, State.executes, hc]
      rfl
    | forwarded hc he =>
      rw [applied_router]
      obtain ⟨b, sender, call, hsender⟩ := tx
      cases call <;> first | rfl | cases hc
    | configured hc =>
      have hnone : events.filterMap applied = [] := by
        refine List.filterMap_eq_nil_iff.mpr ?_
        intro ev hev
        have hset := isSetting_of_configures hexec hc ev hev
        cases ev <;> first | rfl | cases hset
      rw [hnone]
      obtain ⟨b, sender, call, hsender⟩ := tx
      cases call <;> first | rfl | cases hc
    | empowered hc | proposed hc | cancelled hc | voted hc =>
      simp only [State.execution, State.executes, hc]
      rfl

/-! ### The last vector announced -/

/-- What a reader shows who keeps the first `limit` of the announced vectors: the last of them. -/
def shown (limit : ℕ) (announced : List Weights) : Weights := ((announced.take limit).getLast?).getD ([], [])

theorem shown_snoc {announced : List Weights} {w : Weights} :
    shown limit (announced ++ [w]) = if announced.length < limit then w else shown limit announced := by
  unfold shown
  split
  · rename_i hlt
    rw [List.take_of_length_le (by simpa using hlt), List.getLast?_concat]
    rfl
  · rename_i hge
    rw [List.take_append_of_le_length (by omega)]

/-- A turn that leaves the vector in force, or announces the new one to a reader who still takes it; `n` is
the number of vectors announced so far. -/
def State.Steady (limit n : ℕ) (s : State V) (a : Turn V) : Prop :=
  ∀ call ∈ s.routerCall a, s.vectors.Keeps call ∨ ((s.execution a).isSome ∧ n < limit)

/-- A vector that is executed is a call of the router. -/
theorem routerCall_of_execution {w : Weights} (h : s.execution a = some w) :
    s.routerCall a = some (.setWeights w.1 w.2) := by
  cases a with
  | elsewhere registry world => cases h
  | router sender call => cases h
  | governance tx =>
    obtain ⟨b, sender, call, hsender⟩ := tx
    cases call <;> cases h
    rfl

/-- **One turn**, of a reader who shows the vector in force: it is steady exactly if he still does. -/
theorem turn_mirrors_iff {announced : List Weights} (h : s.turn env a = .ok (s', events))
    (hshown : shown limit announced = s.vectors.inForce) :
    shown limit (announced ++ events.filterMap applied) = s'.vectors.inForce ↔
      s.Steady limit announced.length a := by
  rw [turn_applied h, turn_vectors h]
  cases hexec : s.execution a with
  | some w =>
    have hcall := routerCall_of_execution hexec
    unfold State.Steady
    rw [Option.toList_some, shown_snoc, hcall, hexec]
    have hafter : ((some (RouterCall.setWeights w.1 w.2)).elim s.vectors s.vectors.after).inForce = w := rfl
    have hkeeps : s.vectors.Keeps (.setWeights w.1 w.2) ↔ w = s.vectors.inForce := Iff.rfl
    rw [hafter]
    simp only [Option.mem_def, Option.some.injEq, forall_eq', hkeeps]
    split
    · rename_i hlt
      simp [hlt]
    · rename_i hge
      rw [hshown]
      simp [hge, eq_comm]
  | none =>
    rw [Option.toList_none, List.append_nil, hshown]
    unfold State.Steady
    rw [hexec]
    cases hcall : s.routerCall a with
    | none => simp
    | some call =>
      rw [Option.elim_some, eq_comm, ← Vectors.keeps_iff]
      simp

/-- Every turn of a run that does not revert is steady. -/
def SteadyRun (limit : ℕ) (env : Env V) (s₀ : State V) (acts : List (Turn V)) : Prop :=
  ∀ pre a post, acts = pre ++ a :: post → succeeds ((run (State.turn env) s₀ pre).turn env a) = true →
    (run (State.turn env) s₀ pre).Steady limit (appliedIn (history (State.turn env) s₀ pre)).length a

/-- The reader shows the vector in force. -/
def Mirrored (limit : ℕ) (env : Env V) (s₀ : State V) (acts : List (Turn V)) : Prop :=
  shown limit (appliedIn (history (State.turn env) s₀ acts)) =
    (run (State.turn env) s₀ acts).vectors.inForce

/-- The reader shows the vector in force after every turn of a run exactly if all are steady. -/
theorem mirrors_iff {acts : List (Turn V)} (h₀ : s₀.vectors.inForce = ([], [])) :
    (∀ pre, pre <+: acts → Mirrored limit env s₀ pre) ↔ SteadyRun limit env s₀ acts := by
  constructor
  · rintro h pre a post rfl hok
    have hpre : Mirrored limit env s₀ pre := h pre (List.prefix_append _ _)
    have hnext : Mirrored limit env s₀ (pre ++ [a]) := h (pre ++ [a]) ⟨post, by simp⟩
    rcases hx : (run (State.turn env) s₀ pre).turn env a with e | ⟨s', events⟩
    · rw [hx] at hok
      cases hok
    · unfold Mirrored at hnext
      rw [history_snoc_of_ok hx, run_snoc_of_ok hx, appliedIn_snoc] at hnext
      exact (turn_mirrors_iff hx hpre).mp hnext
  · rintro h pre ⟨rest, rfl⟩
    have hsteady : SteadyRun limit env s₀ pre := by
      rintro pre' a post rfl hok
      exact h pre' a (post ++ rest) (by simp) hok
    refine run_invariant (P := fun (s : State V) log => shown limit (appliedIn log) = s.vectors.inForce) ?_ ?_
    · rw [h₀]
      cases limit <;> rfl
    · intro pre' a post s' events hsplit hshown hx
      rw [appliedIn_snoc]
      refine (turn_mirrors_iff hx hshown).mpr (hsteady pre' a post hsplit ?_)
      rw [hx]
      rfl

end Turns

end RobotMoney.Governance
