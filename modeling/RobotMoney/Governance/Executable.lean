import RobotMoney.Governance.Lifecycle
import RobotMoney.Portfolio.DefaultVector

/-!
# Proposals can be executed

`propose` checks a vector so that it can be executed later, and `setWeights` checks it again when it is.  The two
look at it in different ways: `propose` adds the weights up first and asks the router's `isRouterEligible` of
every vault, `setWeights` asks the registry for the vault and runs `_requireRouterEligible`.  They accept the same
vectors (`proposals_executable`), because a vault that the registry has marked eligible is registered.
-/

namespace RobotMoney.Governance

open RobotMoney.Lib RobotMoney.Portfolio RouterState

variable {V : Type} {env : Env V} {s s' s₀ : State V} {vaults : List Address} {bps : List ℕ}

/-! ### The checks of a vector -/

namespace Storage

/-- The checks that `propose` makes of its arrays. -/
def vectorChecks (isRouterEligible : Address → Bool) (vaults : List Address) (bps : List ℕ) :
    Call GovernanceError Unit := do
  revertIf (vaults.length ≠ bps.length) GovernanceError.lengthMismatch
  let total ← sumU 0 bps
  revertIf (total ≠ bpsDenominator) GovernanceError.invalidWeightSum
  checkEligible isRouterEligible vaults

/-- What `propose` does once the vector is checked. -/
def record (g : Storage) (b : Block) (sender : Address) (vaults : List Address) (bps : List ℕ) :
    Call GovernanceError (Storage × List GovernanceEvent) := do
  revertIf
    (g.currentProposalId ≠ 0 ∧
      (g.state b g.currentProposalId = .active ∨ g.state b g.currentProposalId = .queued))
    GovernanceError.activeProposalExists
  let proposalId ← addU g.currentProposalId 1
  let deadline ← addU64 b.timestamp g.votingPeriod
  let execAfter ← addU64 deadline g.executionDelay
  let p := g.proposals proposalId
  pure
    ({ g.withProposal proposalId
          { p with
            id := proposalId
            proposer := sender
            votingDeadline := deadline
            executableAfter := execAfter
            snapshotQuorum := g.quorumThreshold
            vaults := p.vaults ++ vaults
            bps := p.bps ++ bps } with
        currentProposalId := proposalId },
      [.proposalCreated proposalId sender vaults bps deadline])

theorem propose_eq (eligible : Address → Bool) (g : Storage) (b : Block) (sender : Address)
    (vaults : List Address) (bps : List ℕ) : g.propose eligible b sender vaults bps = (do
      g.roles.check .adminRole sender
      vectorChecks eligible vaults bps
      g.record b sender vaults bps) := by
  unfold propose vectorChecks
  simp only [bind_assoc]
  rfl

theorem checkEligible_eq_ok {eligible : Address → Bool} {u : Unit} :
    checkEligible eligible vaults = .ok u ↔ ∀ v ∈ vaults, eligible v = true := by
  induction vaults with
  | nil => exact iff_of_true rfl (List.forall_mem_nil _)
  | cons v vs ih =>
    unfold checkEligible
    rw [List.forall_mem_cons, bind_eq_ok]
    simp only [revertIf_eq_ok, exists_const, Bool.not_eq_false, ih]

theorem vectorChecks_eq_ok {eligible : Address → Bool} {u : Unit} :
    vectorChecks eligible vaults bps = .ok u ↔ Complete vaults bps ∧ ∀ v ∈ vaults, eligible v = true := by
  have hpos : 0 < wordSize := by decide
  have hdenom : bpsDenominator < wordSize := by decide
  unfold vectorChecks Complete
  simp only [bind_eq_ok, revertIf_eq_ok, exists_const, not_not, sumU_eq_ok hpos, checkEligible_eq_ok]
  constructor
  · rintro ⟨hlen, total, ⟨-, rfl⟩, hsum, hvs⟩
    exact ⟨⟨hlen, by omega⟩, hvs⟩
  · rintro ⟨⟨hlen, hsum⟩, hvs⟩
    exact ⟨hlen, bpsDenominator, ⟨by omega, by omega⟩, rfl, hvs⟩

end Storage

section Router

variable {renv : RouterEnv V} {p p' : RouterState V} {sender v : Address} {events : List RouterEvent}

theorem setWeights_iff : p.setWeights renv sender vaults bps = .ok (p', events) ↔
    p.router.roles .adminRole sender = true ∧ Complete vaults bps ∧ (∀ v ∈ vaults, Admissible renv p v) ∧
      p' = { p with router := { p.router with
        weightVaultList := vaults, weightBps := bps, votedWeightsActive := true } } ∧
      events = [.weightsSet vaults bps] := by
  have hpos : 0 < wordSize := by decide
  have hdenom : bpsDenominator < wordSize := by decide
  unfold setWeights Complete
  simp only [bind_eq_ok, Roles.check_eq_ok, revertIf_eq_ok, exists_const, pure_eq_ok, Prod.mk.injEq,
    not_not]
  constructor
  · rintro ⟨hadmin, hlen, total, hsum, htotal, rfl, rfl⟩
    obtain ⟨hvs, -, rfl⟩ := (sumWeights_iff hlen hpos).mp hsum
    exact ⟨hadmin, ⟨hlen, by omega⟩, hvs, rfl, rfl⟩
  · rintro ⟨hadmin, ⟨hlen, hsum⟩, hvs, rfl, rfl⟩
    refine ⟨hadmin, hlen, bpsDenominator, ?_, rfl, rfl, rfl⟩
    exact (sumWeights_iff hlen hpos).mpr ⟨hvs, by omega, by omega⟩

theorem isRouterEligible_eq_true : p.isRouterEligible renv v = true ↔
    v ≠ 0 ∧ Compatible renv p v ∧ p.registry.routerEligible v = true := by
  unfold RouterState.isRouterEligible Compatible Registry.isRouterEligible
  by_cases hv : v = 0
  · simp [hv]
  · cases hasset : renv.asset p.world.ext v with
    | none => simp [hv]
    | some a => simp [hv, and_assoc]

/-- The view and the guard agree, where the registry marks registered vaults only. -/
theorem admissible_iff (hlisted : p.registry.Listed) :
    Admissible renv p v ↔ p.isRouterEligible renv v = true := by
  rw [isRouterEligible_eq_true]
  constructor
  · intro h
    exact ⟨h.ne_zero, h.compatible, h.eligible⟩
  · rintro ⟨hv, hcompatible, heligible⟩
    exact ⟨hv, hlisted.eligible v heligible, hcompatible, heligible⟩

end Router

/-! ### The three contracts together -/

/-- A call of the registry or of the router, something that happens to the vaults and to USDC, or a call of the
governance. -/
inductive SystemCall (V : Type) where
  | portfolio (tx : Tx (JointCall V))
  | governance (tx : Tx State.GovernanceCall)

def State.systemExec (env : Env V) (s : State V) : SystemCall V → Call Unit (State V × Unit)
  | .portfolio tx => do
    let (portfolio, _) ← jointExec env.router s.portfolio tx
    pure ({ s with portfolio }, ())
  | .governance tx => do
    let (s, _) ← inner (s.exec env tx)
    pure (s, ())

/-- The governance leaves the registry alone. -/
theorem exec_registry {tx : Tx State.GovernanceCall} {events : List GovernanceEvent}
    (h : s.exec env tx = .ok (s', events)) : s'.portfolio.registry = s.portfolio.registry := by
  cases exec_effect h with
  | configured _ _ _ | empowered _ _ | proposed _ _ | cancelled _ _ _ _ | voted _ _ _ _ _ => rfl
  | executed _ _ _ _ hr =>
    obtain ⟨-, rfl⟩ := setWeights_ok hr
    rfl
  | forwarded hc _ =>
    obtain ⟨b, sender, call, hsender⟩ := tx
    cases call with
    | setDefaultWeights vaults bps =>
      obtain ⟨portfolio, ev, hx, hs', -⟩ := forward_eq_ok h
      obtain ⟨-, rfl⟩ := setDefaultWeights_ok hx
      cases hs'
      rfl
    | clearVotedWeights =>
      obtain ⟨portfolio, ev, hx, hs', -⟩ := forward_eq_ok h
      have hexec : s.portfolio.exec env.router env.self .clearVotedWeights = .ok (portfolio, ev) := hx
      cases hs'
      exact (exec_default hexec).1
    | _ => cases hc

theorem system_listed (h : s₀.portfolio.registry.Listed) (txs : List (SystemCall V)) :
    (run (State.systemExec env) s₀ txs).portfolio.registry.Listed := by
  refine run_invariant (P := fun (s : State V) _ => s.portfolio.registry.Listed) h ?_
  intro pre tx post s' r _ hlisted hok
  cases tx with
  | portfolio tx =>
    obtain ⟨⟨portfolio, u⟩, hx, hret⟩ := bind_eq_ok.mp hok
    cases hret
    cases jointExec_effect hx with
    | registry _ he => exact hlisted.step he
    | weights hregistry _ _ => exact hregistry ▸ hlisted
    | other hregistry _ => exact hregistry ▸ hlisted
  | governance tx =>
    obtain ⟨⟨s₁, events⟩, hx, hret⟩ := bind_eq_ok.mp hok
    cases hret
    exact exec_registry (inner_eq_ok.mp hx) ▸ hlisted

/-- **Proposals can be executed.**  In every state that the three contracts reach, whatever vector the
governance, as an admin of the router, could set passes the checks of `propose`, and a vector that passes them
could be set and would be in force. -/
theorem proposals_executable {registryAdmin : Address} {g₀ : Registry}
    (hg : Registry.deploy registryAdmin = .ok g₀)
    (calls : List (Tx Registry.RegistryCall × (Address → Option ℕ)))
    (hs₀ : s₀.portfolio.registry = run Registry.exec g₀ calls) (txs : List (SystemCall V))
    (hs : s = run (State.systemExec env) s₀ txs)
    (hadmin : s.portfolio.router.roles .adminRole env.self = true) (vaults : List Address) (bps : List ℕ) :
    (∀ b sender, s.gov.propose (s.portfolio.isRouterEligible env.router) b sender vaults bps = (do
      s.gov.roles.check .adminRole sender
      Storage.vectorChecks (s.portfolio.isRouterEligible env.router) vaults bps
      s.gov.record b sender vaults bps)) ∧
    (Storage.vectorChecks (s.portfolio.isRouterEligible env.router) vaults bps = .ok () ↔
      ∃ p' events, s.portfolio.setWeights env.router env.self vaults bps = .ok (p', events) ∧
        effectiveWeights p'.router = (vaults, bps)) := by
  have hlisted : s.portfolio.registry.Listed := by
    rw [hs]
    refine system_listed ?_ txs
    rw [hs₀]
    exact Registry.run_listed (Registry.deploy_listed hg) calls
  refine ⟨fun b sender => Storage.propose_eq _ s.gov b sender vaults bps, ?_⟩
  rw [Storage.vectorChecks_eq_ok]
  constructor
  · rintro ⟨hcomplete, heligible⟩
    have hvs : ∀ v ∈ vaults, Admissible env.router s.portfolio v := fun v hv =>
      (admissible_iff hlisted).mpr (heligible v hv)
    exact ⟨_, _, setWeights_iff.mpr ⟨hadmin, hcomplete, hvs, rfl, rfl⟩, rfl⟩
  · rintro ⟨p', events, hset, -⟩
    obtain ⟨-, hcomplete, hvs, -⟩ := setWeights_iff.mp hset
    exact ⟨hcomplete, fun v hv => (admissible_iff hlisted).mp (hvs v hv)⟩

/-- A vector of the two eligible vaults, proposed and set. -/
theorem proposals_executable_both : ∃ p' events,
    RouterState.beforeVector.setWeights ballotEnv.router ballotEnv.self [11, 10] [2500, 7500] =
        .ok (p', events) ∧ effectiveWeights p'.router = ([11, 10], [2500, 7500]) :=
  (proposals_executable (s := ⟨deployed.gov, RouterState.beforeVector⟩) Registry.deploy_newRegistry
    RouterState.listingTwo rfl [] rfl (by decide) [11, 10] [2500, 7500]).2.mp (by decide)

end RobotMoney.Governance
