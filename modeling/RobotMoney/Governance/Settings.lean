import RobotMoney.Governance.Power
import RobotMoney.Lib.TwoRuns

/-!
# What the parameters do to a proposal

The total voting power is the sum of all powers, so taking an old power from it cannot underflow.

The state of a proposal is computed when it is asked for, and the parameters `votingPeriod`,
`executionDelay`, `quorumThreshold` may change at any time.  That they do not matter to a proposal once
it is made is a statement about two runs: `Agree i` relates two states in which everything that
proposal `i` depends on is the same.  A call that does not concern `i` keeps this even when it is made
on one side only, and any other call does the same on both.  The two runs may well part in everything
else: the change of a parameter may let the one make a later proposal that the other refuses, and with
it other weights of the router.  So of the router only what `setWeights` looks at has to be the same.
-/

namespace RobotMoney.Portfolio.RouterState

open RobotMoney.Lib

variable {V : Type} {env : RouterEnv V} {p q r p' : RouterState V} {sender : Address}
  {vaults : List Address} {bps : List ℕ} {events : List RouterEvent}

/-- Two routers that judge a weight vector alike: all but their own weights is the same, as far as the
check of a vector reads it. -/
structure SameChecks (env : RouterEnv V) (p q : RouterState V) : Prop where
  roles : p.router.roles = q.router.roles
  registry : p.registry = q.registry
  hasCode : env.hasCode p.world.ext = env.hasCode q.world.ext
  asset : env.asset p.world.ext = env.asset q.world.ext

namespace SameChecks

theorem refl (env : RouterEnv V) (p : RouterState V) : SameChecks env p p := ⟨rfl, rfl, rfl, rfl⟩

theorem symm (h : SameChecks env p q) : SameChecks env q p :=
  ⟨h.roles.symm, h.registry.symm, h.hasCode.symm, h.asset.symm⟩

theorem trans (h : SameChecks env p q) (h' : SameChecks env q r) : SameChecks env p r :=
  ⟨h.roles.trans h'.roles, h.registry.trans h'.registry, h.hasCode.trans h'.hasCode,
    h.asset.trans h'.asset⟩

/-- Writing the voted weights leaves the checks. -/
theorem of_setWeights (h : p.setWeights env sender vaults bps = .ok (p', events)) :
    SameChecks env p' p := by
  obtain ⟨-, rfl⟩ := setWeights_ok h
  exact ⟨rfl, rfl, rfl, rfl⟩

/-- Writing the default weights leaves the checks. -/
theorem of_setDefaultWeights (h : p.setDefaultWeights env sender vaults bps = .ok (p', events)) :
    SameChecks env p' p := by
  obtain ⟨-, rfl⟩ := setDefaultWeights_ok h
  exact ⟨rfl, rfl, rfl, rfl⟩

theorem of_clearVotedWeights (h : p.clearVotedWeights sender = .ok (p', events)) :
    SameChecks env p' p := by
  unfold clearVotedWeights at h
  obtain ⟨-, -, h⟩ := bind_eq_ok.mp h
  obtain ⟨rfl, -⟩ := Prod.mk.injEq .. ▸ pure_eq_ok.mp h
  exact ⟨rfl, rfl, rfl, rfl⟩

theorem sumWeights_eq (h : SameChecks env p q) {total : ℕ} :
    p.sumWeights env vaults bps total = q.sumWeights env vaults bps total := by
  induction vaults generalizing bps total with
  | nil => cases bps <;> rfl
  | cons v vs ih =>
    cases bps with
    | nil => rfl
    | cons w ws =>
      unfold sumWeights requireRouterEligible
      rw [h.registry, h.hasCode, h.asset]
      simp only [ih]

/-- A weight vector is accepted by both, or refused by both for the same reason. -/
theorem setWeights (h : SameChecks env p q) :
    Alike (fun a b => SameChecks env a.1 b.1 ∧ a.2 = b.2) (p.setWeights env sender vaults bps)
      (q.setWeights env sender vaults bps) := by
  unfold RouterState.setWeights
  rw [h.roles, h.sumWeights_eq]
  refine .same fun _ => .same fun _ => .same fun total => .same fun _ => .ok ⟨?_, rfl⟩
  exact ⟨h.roles, h.registry, h.hasCode, h.asset⟩

end SameChecks

end RobotMoney.Portfolio.RouterState

namespace RobotMoney.Governance

open RobotMoney.Lib RobotMoney.Portfolio State

variable {V : Type} {env : Env V}

/-! ### The total -/

/-- The total is the sum of all powers, and no proposal has a number beyond the current one. -/
structure Booked (g : Storage) : Prop where
  total : ∑ a, g.votingPower a = g.totalVotingPower
  numbered : ∀ i, (g.proposals i).id ≠ 0 → i ≤ g.currentProposalId

section Booked

variable {s s' : State V} {g : Storage} {tx : Tx GovernanceCall} {events : List GovernanceEvent}

/-- A record replaced by one with the same number. -/
theorem Booked.withProposal (h : Booked g) {j : ℕ} {p : Proposal} (hp : p.id = (g.proposals j).id) :
    Booked (g.withProposal j p) := by
  refine ⟨h.total, ?_⟩
  intro i hid
  rw [withProposal_field Proposal.id g hp] at hid
  exact h.numbered i hid

theorem Booked.step (h : Booked s.gov) (he : Effect env s tx s' events) : Booked s'.gov := by
  cases he with
  | configured | forwarded => exact ⟨h.total, h.numbered⟩
  | @empowered voter power hc hle => exact ⟨sum_withPower h.total hle power, h.numbered⟩
  | @proposed vaults bps hc hdead =>
    refine ⟨h.total, ?_⟩
    intro i hid
    show i ≤ s.gov.currentProposalId + 1
    by_cases hi : i = s.gov.currentProposalId + 1
    · exact hi.le
    · have hold : (s.gov.withNewProposal tx.block tx.sender vaults bps).proposals i =
          s.gov.proposals i := Function.update_of_ne hi ..
      have hid' : (s.gov.proposals i).id ≠ 0 := hold ▸ hid
      exact (h.numbered i hid').trans (Nat.le_succ _)
  | cancelled | executed => exact h.withProposal rfl
  | @voted i =>
    have hvote : Booked (s.gov.withProposal i { s.gov.proposals i with
        votesFor := (s.gov.proposals i).votesFor + s.gov.votingPower tx.sender }) :=
      h.withProposal rfl
    exact ⟨hvote.total, hvote.numbered⟩

/-- In every run of the deployed contract. -/
theorem run_booked {router admin : Address} {votingPeriod executionDelay quorum : ℕ} {g₀ : Storage}
    (h₀ : Storage.deploy router admin votingPeriod executionDelay quorum = .ok g₀) (p₀ : RouterState V)
    (acts : List (Action V)) : Booked (run (State.act env) ⟨g₀, p₀⟩ acts).gov := by
  refine run_invariant (P := fun (s : State V) _ => Booked s.gov) ?_ ?_
  · unfold Storage.deploy at h₀
    simp only [bind_eq_ok, revertIf_eq_ok, exists_const, pure_eq_ok] at h₀
    obtain ⟨-, -, -, rfl⟩ := h₀
    refine ⟨by simp, ?_⟩
    intro i hid
    exact absurd rfl hid
  · rintro pre a post s' ⟨g, events⟩ - hbooked hx
    cases a with
    | elsewhere portfolio =>
      cases hx
      exact hbooked
    | call tx => exact hbooked.step (act_call hx).2

/-- The power of one account taken from the total leaves the power of the others. -/
theorem Booked.subU_power (h : Booked g) (voter : Address) :
    (subU g.totalVotingPower (g.votingPower voter) : Call GovernanceError ℕ) =
      .ok (∑ a ∈ Finset.univ.erase voter, g.votingPower a) := by
  have hsplit := Finset.sum_erase_add Finset.univ g.votingPower (Finset.mem_univ voter)
  rw [h.total] at hsplit
  rw [subU_eq_ok]
  omega

end Booked

/-! ### Two states that agree on a proposal -/

/-- The calls that set one of the parameters. -/
def State.GovernanceCall.SetsCadence : GovernanceCall → Prop
  | .setQuorumThreshold _ | .setVotingPeriod _ | .setExecutionDelay _ => True
  | _ => False

/-- The calls that name proposal `i`. -/
def State.GovernanceCall.Concerns (i : ℕ) : GovernanceCall → Prop
  | .cancel j | .vote j | .execute j => j = i
  | _ => False

/-- The calls that leave alone what proposal `i` depends on. -/
def State.GovernanceCall.Spares (i : ℕ) : GovernanceCall → Prop
  | .setQuorumThreshold _ | .setVotingPeriod _ | .setExecutionDelay _ => True
  | .setDefaultWeights _ _ | .clearVotedWeights | .propose _ _ => True
  | .cancel j | .vote j | .execute j => j ≠ i
  | .setVotingPower _ _ | .grantRole _ _ | .revokeRole _ _ | .renounceRole _ _ => False

/-- Everything that proposal `i` depends on is the same, and in both states its number has been
given out. -/
structure Agree (env : Env V) (i : ℕ) (s t : State V) : Prop where
  proposal : s.gov.proposals i = t.gov.proposals i
  hasVoted : s.gov.hasVoted i = t.gov.hasVoted i
  votingPower : s.gov.votingPower = t.gov.votingPower
  totalVotingPower : s.gov.totalVotingPower = t.gov.totalVotingPower
  roles : s.gov.roles = t.gov.roles
  checks : RouterState.SameChecks env.router s.portfolio t.portfolio
  left : i ≤ s.gov.currentProposalId
  right : i ≤ t.gov.currentProposalId

section Agree

variable {s s' t u : State V} {i : ℕ} {tx : Tx GovernanceCall} {events : List GovernanceEvent}

namespace Agree

theorem refl (hi : i ≤ s.gov.currentProposalId) : Agree env i s s :=
  ⟨rfl, rfl, rfl, rfl, rfl, .refl _ _, hi, hi⟩

theorem symm (h : Agree env i s t) : Agree env i t s :=
  ⟨h.proposal.symm, h.hasVoted.symm, h.votingPower.symm, h.totalVotingPower.symm, h.roles.symm,
    h.checks.symm, h.right, h.left⟩

theorem trans (h : Agree env i s t) (h' : Agree env i t u) : Agree env i s u :=
  ⟨h.proposal.trans h'.proposal, h.hasVoted.trans h'.hasVoted, h.votingPower.trans h'.votingPower,
    h.totalVotingPower.trans h'.totalVotingPower, h.roles.trans h'.roles, h.checks.trans h'.checks,
    h.left, h'.right⟩

end Agree

/-- A call that spares the proposal leads to a state that agrees with the one before. -/
theorem agree_of_spares (hc : tx.call.Spares i) (hi : i ≤ s.gov.currentProposalId)
    (h : s.exec env tx = .ok (s', events)) : Agree env i s' s := by
  obtain ⟨b, sender, call, hsender⟩ := tx
  unfold State.exec at h
  cases call with
  | setQuorumThreshold threshold | setVotingPeriod period =>
    obtain ⟨gov, hx, rfl⟩ := onGov_eq_ok h
    obtain ⟨-, rfl, -⟩ := setter_eq_ok hx
    exact ⟨rfl, rfl, rfl, rfl, rfl, .refl _ _, hi, hi⟩
  | setExecutionDelay delay =>
    obtain ⟨gov, hx, rfl⟩ := onGov_eq_ok h
    obtain ⟨-, -, hx⟩ := bind_eq_ok.mp hx
    obtain ⟨rfl, -⟩ := Prod.mk.injEq .. ▸ pure_eq_ok.mp hx
    exact ⟨rfl, rfl, rfl, rfl, rfl, .refl _ _, hi, hi⟩
  | setDefaultWeights vaults bps =>
    obtain ⟨portfolio, ev, hx, rfl, -⟩ := forward_eq_ok h
    exact ⟨rfl, rfl, rfl, rfl, rfl, .of_setDefaultWeights hx, hi, hi⟩
  | clearVotedWeights =>
    obtain ⟨portfolio, ev, hx, rfl, -⟩ := forward_eq_ok h
    exact ⟨rfl, rfl, rfl, rfl, rfl, .of_clearVotedWeights hx, hi, hi⟩
  | propose vaults bps =>
    -- the new proposal has a number beyond the current one
    obtain ⟨gov, hx, rfl⟩ := onGov_eq_ok h
    obtain ⟨-, rfl, -⟩ := propose_eq_ok hx
    have hne : i ≠ s.gov.currentProposalId + 1 := by omega
    exact ⟨Function.update_of_ne hne .., rfl, rfl, rfl, rfl, .refl _ _, hi.trans (Nat.le_succ _), hi⟩
  | cancel j =>
    obtain ⟨gov, hx, rfl⟩ := onGov_eq_ok h
    obtain ⟨-, -, -, rfl, -⟩ := cancel_eq_ok hx
    exact ⟨Function.update_of_ne (Ne.symm hc) .., rfl, rfl, rfl, rfl, .refl _ _, hi, hi⟩
  | vote j =>
    obtain ⟨gov, hx, rfl⟩ := onGov_eq_ok h
    obtain ⟨-, -, -, -, rfl, -⟩ := vote_eq_ok hx
    have hne : i ≠ j := Ne.symm hc
    exact ⟨Function.update_of_ne hne .., Function.update_of_ne hne .., rfl, rfl, rfl, .refl _ _, hi, hi⟩
  | execute j =>
    simp only [State.execute, bind_eq_ok, revertIf_eq_ok, exists_const, Prod.exists, inner_eq_ok] at h
    obtain ⟨-, -, _, -, portfolio, ev, hr, h⟩ := h
    obtain ⟨rfl, -⟩ := Prod.mk.injEq .. ▸ pure_eq_ok.mp h
    exact ⟨Function.update_of_ne (Ne.symm hc) .., rfl, rfl, rfl, rfl, .of_setWeights hr, hi, hi⟩
  | setVotingPower voter power => exact hc.elim
  | grantRole role account | revokeRole role account | renounceRole role confirmation => exact hc.elim

/-- Both calls fail for the same reason, or both succeed, with the same events, and lead to states that
agree. -/
abbrev Together (env : Env V) (i : ℕ) :
    Call GovernanceError (State V × List GovernanceEvent) →
      Call GovernanceError (State V × List GovernanceEvent) → Prop :=
  Alike fun a b => Agree env i a.1 b.1 ∧ a.2 = b.2

namespace Agree

/-- The contract's own storage is changed on both sides alike. -/
theorem onGov {x y : Call GovernanceError (Storage × List GovernanceEvent)}
    (h : Alike (fun a b => Agree env i { s with gov := a.1 } { t with gov := b.1 } ∧ a.2 = b.2) x y) :
    Together env i (s.onGov x) (t.onGov y) :=
  h.bind fun _ _ hab => .ok hab

/-- The two role tables are the same, and stay so. -/
theorem onRoles (h : Agree env i s t) {x y : Call GovernanceError (Roles AdminRole Address)}
    (hxy : x = y) : Together env i (s.onRoles x) (t.onRoles y) := by
  subst hxy
  refine .same fun roles => .ok ⟨?_, rfl⟩
  exact ⟨h.proposal, h.hasVoted, h.votingPower, h.totalVotingPower, rfl, h.checks, h.left, h.right⟩

/-- The record of the proposal is replaced on both sides. -/
theorem withProposal (h : Agree env i s t) (p : Proposal) :
    Agree env i { s with gov := s.gov.withProposal i p } { t with gov := t.gov.withProposal i p } := by
  refine ⟨?_, h.hasVoted, h.votingPower, h.totalVotingPower, h.roles, h.checks, h.left, h.right⟩
  show Function.update s.gov.proposals i p i = Function.update t.gov.proposals i p i
  rw [Function.update_self, Function.update_self]

theorem setVotingPower (h : Agree env i s t) (sender voter : Address) (power : ℕ) :
    Together env i (s.onGov (s.gov.setVotingPower sender voter power))
      (t.onGov (t.gov.setVotingPower sender voter power)) := by
  apply onGov
  unfold Storage.setVotingPower
  rw [h.roles, h.votingPower, h.totalVotingPower]
  refine .same fun _ => .same fun _ => .same fun rest => .same fun total => .ok ⟨?_, rfl⟩
  exact ⟨h.proposal, h.hasVoted, rfl, rfl, rfl, h.checks, h.left, h.right⟩

theorem cancel (h : Agree env i s t) (sender : Address) :
    Together env i (s.onGov (s.gov.cancel sender i)) (t.onGov (t.gov.cancel sender i)) := by
  apply onGov
  unfold Storage.cancel
  rw [h.roles, h.proposal]
  exact .same fun _ => .same fun _ => .same fun _ => .same fun _ => .ok ⟨h.withProposal _, rfl⟩

theorem state_eq (h : Agree env i s t) (b : Block) : s.gov.state b i = t.gov.state b i := by
  unfold Storage.state
  rw [h.proposal]

theorem vote (h : Agree env i s t) (b : Block) (sender : Address) :
    Together env i (s.onGov (s.gov.vote b sender i)) (t.onGov (t.gov.vote b sender i)) := by
  apply onGov
  unfold Storage.vote
  rw [h.state_eq b, h.proposal, h.hasVoted, h.votingPower]
  refine .same fun _ => .same fun _ => .same fun _ => .same fun _ => .same fun votesFor => .ok ⟨?_, rfl⟩
  have hrecord := h.withProposal { t.gov.proposals i with votesFor }
  refine ⟨hrecord.proposal, ?_, h.votingPower, h.totalVotingPower, h.roles, h.checks, h.left, h.right⟩
  have hupdate : ∀ f : ℕ → Address → Bool, Function.update f i
      (Function.update (t.gov.hasVoted i) sender true) i = Function.update (t.gov.hasVoted i) sender true :=
    fun f => Function.update_self ..
  exact (hupdate s.gov.hasVoted).trans (hupdate t.gov.hasVoted).symm

theorem execute (h : Agree env i s t) (b : Block) (sender : Address) :
    Together env i (s.execute env b sender i) (t.execute env b sender i) := by
  unfold State.execute Storage.checkExecutable
  rw [h.state_eq b, h.proposal]
  refine .same fun _ => .same fun _ => .same fun _ => h.checks.setWeights.inner.bind ?_
  rintro ⟨p, ev⟩ ⟨q, ev'⟩ ⟨hchecks, rfl⟩
  have hrecord := h.withProposal { t.gov.proposals i with executed := true }
  exact .ok ⟨⟨hrecord.proposal, h.hasVoted, h.votingPower, h.totalVotingPower, h.roles, hchecks, h.left,
    h.right⟩, rfl⟩

/-- **A call that does not spare the proposal does the same on both sides.** -/
theorem exec (h : Agree env i s t) (hc : ¬ tx.call.Spares i) :
    Together env i (s.exec env tx) (t.exec env tx) := by
  obtain ⟨b, sender, call, hsender⟩ := tx
  unfold State.exec
  cases call with
  | setQuorumThreshold _ | setVotingPeriod _ | setExecutionDelay _ => exact absurd trivial hc
  | setDefaultWeights _ _ | clearVotedWeights | propose _ _ => exact absurd trivial hc
  | setVotingPower voter power => exact h.setVotingPower sender voter power
  | cancel j =>
    obtain rfl : j = i := not_not.mp hc
    exact h.cancel sender
  | vote j =>
    obtain rfl : j = i := not_not.mp hc
    exact h.vote b sender
  | execute j =>
    obtain rfl : j = i := not_not.mp hc
    exact h.execute b sender
  | grantRole role account | revokeRole role account | renounceRole role confirmation =>
    refine h.onRoles ?_
    dsimp only
    rw [h.roles]

end Agree

end Agree

/-! ### Two runs -/

/-- A call, by anybody, that sets one of the parameters. -/
def Action.SetsCadence : Action V → Prop
  | .call tx => tx.call.SetsCadence
  | .elsewhere _ => False

/-- The same happens in both runs.  What is changed elsewhere need be the same only as far as the router
looks at it to judge a weight vector: the rest may follow from weights that differ. -/
inductive SameAction (env : Env V) : Action V → Action V → Prop
  | call (tx : Tx GovernanceCall) : SameAction env (.call tx) (.call tx)
  | elsewhere {p q : RouterState V} (h : RouterState.SameChecks env.router p q) :
      SameAction env (.elsewhere p) (.elsewhere q)

section TwoRuns

variable {s t : State V} {i : ℕ} {a a' : Action V}

theorem State.GovernanceCall.SetsCadence.spares {c : GovernanceCall} (h : c.SetsCadence) :
    c.Spares i := by
  cases c <;> first | exact trivial | exact h.elim

namespace Agree

/-- A call that spares the proposal may be made in one of the two states only. -/
theorem next_left (h : Agree env i s t) {tx : Tx GovernanceCall} (hc : tx.call.Spares i) :
    Agree env i (next (State.act env) s (.call tx)) t := by
  refine next_kept (P := fun s => Agree env i s t) h ?_
  intro s' r hx
  exact (agree_of_spares hc h.left (act_exec hx).2).trans h

theorem next_cadence (h : Agree env i s t) (ha : a.SetsCadence) :
    Agree env i (next (State.act env) s a) t := by
  cases a with
  | call tx => exact h.next_left ha.spares
  | elsewhere portfolio => exact ha.elim

theorem next_both (h : Agree env i s t) (ha : SameAction env a a') :
    Agree env i (next (State.act env) s a) (next (State.act env) t a') := by
  cases ha with
  | call tx =>
    by_cases hc : tx.call.Spares i
    · exact (h.next_left hc).symm.next_left hc |>.symm
    · have hact : Alike (fun x y => Agree env i x.1 y.1) (s.act env (.call tx)) (t.act env (.call tx)) :=
        (h.exec hc).bind fun _ _ hab => .ok hab.1
      exact hact.next h
  | elsewhere hchecks =>
    exact ⟨h.proposal, h.hasVoted, h.votingPower, h.totalVotingPower, h.roles, hchecks, h.left, h.right⟩

/-- Two runs that differ in calls that set a parameter only. -/
theorem run {acts₁ acts₂ : List (Action V)} (h : Agree env i s t)
    (hacts : Twins Action.SetsCadence (SameAction env) acts₁ acts₂) :
    Agree env i (run (State.act env) s acts₁) (Lib.run (State.act env) t acts₂) :=
  hacts.run (fun _ _ _ ha h => h.next_cadence ha) (fun _ _ _ ha h => (h.symm.next_cadence ha).symm)
    (fun _ _ _ _ ha h => h.next_both ha) h

end Agree

/-- **The total is exact, and the parameters do not reach back.**  In every state of every run of the
deployed contract: the total voting power is the sum of all powers, so `setVotingPower` subtracts
without underflow; and for every proposal made so far, two continuations that differ only in calls that
set a parameter end with the same record of it (its deadlines, its quorum, its votes), the same voters,
the same state at every time, and the same outcome of every call that votes for, cancels or executes
it. -/
theorem total_exact_and_cadence_inert {router admin : Address}
    {votingPeriod executionDelay quorum : ℕ} {g₀ : Storage}
    (h₀ : Storage.deploy router admin votingPeriod executionDelay quorum = .ok g₀) (p₀ : RouterState V)
    {acts : List (Action V)} {s : State V} (hs : run (State.act env) ⟨g₀, p₀⟩ acts = s) :
    (∑ a, s.gov.votingPower a = s.gov.totalVotingPower ∧
      ∀ voter, (subU s.gov.totalVotingPower (s.gov.votingPower voter) : Call GovernanceError ℕ) =
        .ok (∑ a ∈ Finset.univ.erase voter, s.gov.votingPower a)) ∧
    ∀ i, (s.gov.proposals i).id ≠ 0 →
      ∀ acts₁ acts₂, Twins Action.SetsCadence (SameAction env) acts₁ acts₂ →
        ∀ s₁ s₂, run (State.act env) s acts₁ = s₁ → run (State.act env) s acts₂ = s₂ →
          s₁.gov.proposals i = s₂.gov.proposals i ∧ s₁.gov.hasVoted i = s₂.gov.hasVoted i ∧
          (∀ b, s₁.gov.proposalState b i = s₂.gov.proposalState b i) ∧
          ∀ tx, tx.call.Concerns i →
            (s₁.exec env tx).map Prod.snd = (s₂.exec env tx).map Prod.snd := by
  subst hs
  have hbooked : Booked (run (State.act env) ⟨g₀, p₀⟩ acts).gov := run_booked h₀ p₀ acts
  refine ⟨⟨hbooked.total, hbooked.subU_power⟩, ?_⟩
  rintro i hid acts₁ acts₂ hacts s₁ s₂ rfl rfl
  have hself : Agree env i (run (State.act env) ⟨g₀, p₀⟩ acts) (run (State.act env) ⟨g₀, p₀⟩ acts) :=
    .refl (hbooked.numbered i hid)
  have hagree := hself.run hacts
  refine ⟨hagree.proposal, hagree.hasVoted, ?_, ?_⟩
  · intro b
    unfold Storage.proposalState
    rw [hagree.proposal, hagree.state_eq b]
  · intro tx hc
    have hnot : ¬ tx.call.Spares i := by
      revert hc
      cases tx.call <;> simp [State.GovernanceCall.Concerns, State.GovernanceCall.Spares]
    exact (hagree.exec hnot).map_eq fun _ _ hab => hab.2

end TwoRuns

/-! ### A proposal whose parameters are changed -/

/-- The proposal of the ballot is executed, after a higher quorum and a longer delay are set. -/
def executedLate : List (Action (Address → Address → ℕ)) :=
  [.call (.of 20 (.of 9 2000) (.setQuorumThreshold 100)),
   .call (.of 20 (.of 9 2000) (.setExecutionDelay 5000)),
   .call (.of 30 (.of 301 4660) (.execute 1))]

/-- It is executed all the same, as it is without the two changes. -/
theorem total_exact_and_cadence_inert_ballot :
    let s := run (State.act ballotEnv) deployed (ballot.map .call)
    (run (State.act ballotEnv) s executedLate).gov.quorumThreshold = 100 ∧
      (run (State.act ballotEnv) s executedLate).gov.proposals 1 =
        (run (State.act ballotEnv) s (executedLate.drop 2)).gov.proposals 1 ∧
      ((run (State.act ballotEnv) s (executedLate.drop 2)).gov.proposals 1).executed = true := by
  intro s
  have hdeploy : Storage.deploy 1 20 3600 60 5 = .ok deployed.gov := rfl
  have hid : (s.gov.proposals 1).id ≠ 0 := by decide
  have htwins : Twins Action.SetsCadence (SameAction ballotEnv) executedLate (executedLate.drop 2) :=
    .left trivial (.left trivial (.both (.call _) .nil))
  obtain ⟨-, hinert⟩ := total_exact_and_cadence_inert hdeploy RouterState.weightedRouter
    (rfl : run (State.act ballotEnv) deployed (ballot.map .call) = s)
  obtain ⟨hrecord, -⟩ := hinert 1 hid _ _ htwins _ _ rfl rfl
  exact ⟨by decide, hrecord, by decide⟩

end RobotMoney.Governance
