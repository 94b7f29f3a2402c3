import RobotMoney.Governance.Basic

/-!
# What a call of the governance does

Everything a successful call can do is said once here, as the relation `Effect` between the contract
before, the call, and the contract after, and `exec_effect` shows that the code does nothing else.  The
calls that set a parameter or a role share one clause, and so do the two that are forwarded to the
router.
-/

namespace RobotMoney.Governance

open RobotMoney.Lib RobotMoney.Portfolio State

variable {V : Type} {env : Env V} {s s' : State V} {g g' : Storage} {b : Block} {sender : Address}
  {events : List GovernanceEvent}

/-- The calls that set a parameter or a role. -/
def State.GovernanceCall.Configures : GovernanceCall → Prop
  | .setQuorumThreshold _ | .setVotingPeriod _ | .setExecutionDelay _ => True
  | .grantRole _ _ | .revokeRole _ _ | .renounceRole _ _ => True
  | _ => False

/-- The calls that are forwarded to the router. -/
def State.GovernanceCall.Forwards : GovernanceCall → Prop
  | .setDefaultWeights _ _ | .clearVotedWeights => True
  | _ => False

/-! ### The storage after a call -/

namespace Storage

/-- The storage with the power of one voter replaced. -/
def withPower (g : Storage) (voter : Address) (power : ℕ) : Storage :=
  { g with
    totalVotingPower := g.totalVotingPower - g.votingPower voter + power
    votingPower := Function.update g.votingPower voter power }

/-- The record of a new proposal, written over the blank one. -/
def newProposal (g : Storage) (b : Block) (sender : Address) (vaults : List Address) (bps : List ℕ) :
    Proposal :=
  { g.proposals (g.currentProposalId + 1) with
    id := g.currentProposalId + 1
    proposer := sender
    votingDeadline := b.timestamp + g.votingPeriod
    executableAfter := b.timestamp + g.votingPeriod + g.executionDelay
    snapshotQuorum := g.quorumThreshold
    vaults := (g.proposals (g.currentProposalId + 1)).vaults ++ vaults
    bps := (g.proposals (g.currentProposalId + 1)).bps ++ bps }

/-- The storage with a new proposal. -/
def withNewProposal (g : Storage) (b : Block) (sender : Address) (vaults : List Address)
    (bps : List ℕ) : Storage :=
  { g.withProposal (g.currentProposalId + 1) (g.newProposal b sender vaults bps) with
    currentProposalId := g.currentProposalId + 1 }

/-- The storage with one more vote. -/
def withVote (g : Storage) (voter : Address) (i : ℕ) : Storage :=
  { g.withProposal i
      { g.proposals i with votesFor := (g.proposals i).votesFor + g.votingPower voter } with
    hasVoted := Function.update g.hasVoted i (Function.update (g.hasVoted i) voter true) }

end Storage

/-! ### Every call -/

/-- What a successful call does. -/
inductive Effect (env : Env V) (s : State V) (tx : Tx GovernanceCall) :
    State V → List GovernanceEvent → Prop
  | configured {votingPeriod executionDelay quorumThreshold : ℕ} {roles : Roles AdminRole Address}
      {events : List GovernanceEvent} (hc : tx.call.Configures)
      (hq : minQuorumThreshold ≤ s.gov.quorumThreshold → minQuorumThreshold ≤ quorumThreshold)
      (he : ∀ e, GovernanceEvent.router e ∉ events) :
      Effect env s tx
        { s with gov := { s.gov with votingPeriod, executionDelay, quorumThreshold, roles } } events
  | empowered {voter : Address} {power : ℕ} (hc : tx.call = .setVotingPower voter power)
      (hle : s.gov.votingPower voter ≤ s.gov.totalVotingPower) :
      Effect env s tx { s with gov := s.gov.withPower voter power }
        [.votingPowerSet voter (s.gov.votingPower voter) power]
  | forwarded {portfolio : RouterState V} {ev : List RouterEvent} (hc : tx.call.Forwards)
      (he : ∀ vaults bps, RouterEvent.weightsSet vaults bps ∉ ev) :
      Effect env s tx { s with portfolio } (ev.map .router)
  | proposed {vaults : List Address} {bps : List ℕ} (hc : tx.call = .propose vaults bps)
      (hdead : ¬ (s.gov.currentProposalId ≠ 0 ∧
        (s.gov.state tx.block s.gov.currentProposalId = .active ∨
          s.gov.state tx.block s.gov.currentProposalId = .queued))) :
      Effect env s tx { s with gov := s.gov.withNewProposal tx.block tx.sender vaults bps }
        [.proposalCreated (s.gov.currentProposalId + 1) tx.sender vaults bps
          (tx.block.timestamp + s.gov.votingPeriod)]
  | cancelled {i : ℕ} (hc : tx.call = .cancel i) (hid : (s.gov.proposals i).id ≠ 0)
      (hx : (s.gov.proposals i).executed = false) (hn : (s.gov.proposals i).cancelled = false) :
      Effect env s tx
        { s with gov := s.gov.withProposal i { s.gov.proposals i with cancelled := true } }
        [.proposalCancelled i tx.sender]
  | voted {i : ℕ} (hc : tx.call = .vote i) (hid : (s.gov.proposals i).id ≠ 0)
      (hs : s.gov.state tx.block i = .active) (hfresh : s.gov.hasVoted i tx.sender = false)
      (hpower : s.gov.votingPower tx.sender ≠ 0) :
      Effect env s tx { s with gov := s.gov.withVote tx.sender i }
        [.voteCast i tx.sender (s.gov.votingPower tx.sender)
          ((s.gov.proposals i).votesFor + s.gov.votingPower tx.sender)]
  | executed {i : ℕ} {portfolio : RouterState V} {ev : List RouterEvent} (hc : tx.call = .execute i)
      (hid : (s.gov.proposals i).id ≠ 0) (hs : s.gov.state tx.block i = .queued)
      (ht : (s.gov.proposals i).executableAfter ≤ tx.block.timestamp)
      (hr : s.portfolio.setWeights env.router env.self (s.gov.proposals i).vaults
        (s.gov.proposals i).bps = .ok (portfolio, ev)) :
      Effect env s tx
        ⟨s.gov.withProposal i { s.gov.proposals i with executed := true }, portfolio⟩
        (ev.map .router ++ [.proposalExecuted i tx.sender,
          .weightsApplied i (s.gov.proposals i).vaults (s.gov.proposals i).bps])

theorem onGov_eq_ok {x : Call GovernanceError (Storage × List GovernanceEvent)}
    (h : s.onGov x = .ok (s', events)) : ∃ gov, x = .ok (gov, events) ∧ s' = { s with gov } := by
  unfold State.onGov at h
  obtain ⟨⟨gov, ev⟩, hx, h⟩ := bind_eq_ok.mp h
  obtain ⟨rfl, rfl⟩ := Prod.mk.injEq .. ▸ pure_eq_ok.mp h
  exact ⟨gov, hx, rfl⟩

theorem onRoles_eq_ok {x : Call GovernanceError (Roles AdminRole Address)}
    (h : s.onRoles x = .ok (s', events)) :
    ∃ roles, s' = { s with gov := { s.gov with roles } } ∧ events = [] := by
  unfold State.onRoles at h
  obtain ⟨roles, -, h⟩ := bind_eq_ok.mp h
  obtain ⟨rfl, rfl⟩ := Prod.mk.injEq .. ▸ pure_eq_ok.mp h
  exact ⟨roles, rfl, rfl⟩

theorem setVotingPower_eq_ok {voter : Address} {power : ℕ}
    (h : g.setVotingPower sender voter power = .ok (g', events)) :
    g.votingPower voter ≤ g.totalVotingPower ∧ g' = g.withPower voter power ∧
      events = [.votingPowerSet voter (g.votingPower voter) power] := by
  unfold Storage.setVotingPower at h
  simp only [bind_eq_ok, revertIf_eq_ok, Roles.check_eq_ok, exists_const, subU_eq_ok, addU_eq_ok] at h
  obtain ⟨-, -, _, ⟨hle, rfl⟩, _, ⟨-, rfl⟩, h⟩ := h
  obtain ⟨rfl, rfl⟩ := Prod.mk.injEq .. ▸ pure_eq_ok.mp h
  exact ⟨hle, rfl, rfl⟩

theorem propose_eq_ok {eligible : Address → Bool} {vaults : List Address} {bps : List ℕ}
    (h : g.propose eligible b sender vaults bps = .ok (g', events)) :
    ¬ (g.currentProposalId ≠ 0 ∧ (g.state b g.currentProposalId = .active ∨
      g.state b g.currentProposalId = .queued)) ∧
    g' = g.withNewProposal b sender vaults bps ∧
    events = [.proposalCreated (g.currentProposalId + 1) sender vaults bps
      (b.timestamp + g.votingPeriod)] := by
  unfold Storage.propose at h
  simp only [bind_eq_ok, revertIf_eq_ok, Roles.check_eq_ok, exists_const, addU_eq_ok, addU64_eq_ok]
    at h
  obtain ⟨-, -, _, -, -, _, -, hdead, _, ⟨-, rfl⟩, _, ⟨-, rfl⟩, _, ⟨-, rfl⟩, h⟩ := h
  obtain ⟨rfl, rfl⟩ := Prod.mk.injEq .. ▸ pure_eq_ok.mp h
  exact ⟨hdead, rfl, rfl⟩

theorem cancel_eq_ok {i : ℕ} (h : g.cancel sender i = .ok (g', events)) :
    (g.proposals i).id ≠ 0 ∧ (g.proposals i).executed = false ∧ (g.proposals i).cancelled = false ∧
      g' = g.withProposal i { g.proposals i with cancelled := true } ∧
      events = [.proposalCancelled i sender] := by
  unfold Storage.cancel at h
  simp only [bind_eq_ok, revertIf_eq_ok, Roles.check_eq_ok, exists_const, Bool.not_eq_true] at h
  obtain ⟨-, hid, hx, hn, h⟩ := h
  obtain ⟨rfl, rfl⟩ := Prod.mk.injEq .. ▸ pure_eq_ok.mp h
  exact ⟨hid, hx, hn, rfl, rfl⟩

theorem vote_eq_ok {i : ℕ} (h : g.vote b sender i = .ok (g', events)) :
    (g.proposals i).id ≠ 0 ∧ g.state b i = .active ∧ g.hasVoted i sender = false ∧
      g.votingPower sender ≠ 0 ∧ g' = g.withVote sender i ∧
      events = [.voteCast i sender (g.votingPower sender)
        ((g.proposals i).votesFor + g.votingPower sender)] := by
  unfold Storage.vote at h
  simp only [bind_eq_ok, revertIf_eq_ok, exists_const, not_not, addU_eq_ok, Bool.not_eq_true] at h
  obtain ⟨hid, hs, hfresh, hpower, _, ⟨-, rfl⟩, h⟩ := h
  obtain ⟨rfl, rfl⟩ := Prod.mk.injEq .. ▸ pure_eq_ok.mp h
  exact ⟨hid, hs, hfresh, hpower, rfl, rfl⟩

theorem checkExecutable_queued {i : ℕ} {u : Unit} (h : g.checkExecutable b i = .ok u) :
    g.state b i = .queued ∧ (g.proposals i).executableAfter ≤ b.timestamp := by
  unfold Storage.checkExecutable at h
  revert h
  -- only the branch of a queued proposal does not revert outright
  cases g.state b i with
  | queued =>
    intro h
    exact ⟨rfl, Nat.not_lt.mp (revertIf_eq_ok.mp h)⟩
  | active =>
    intro h
    dsimp only at h
    split at h <;> cases h
  | defeated | executed | cancelled =>
    intro h
    cases h

/-- A setter of a parameter behind one check. -/
theorem setter_eq_ok {c : Prop} [Decidable c] {e : GovernanceError} {g₁ : Storage}
    {ev : List GovernanceEvent}
    (h : (do
      g.roles.check .adminRole sender
      revertIf c e
      pure (g₁, ev) : Call GovernanceError (Storage × List GovernanceEvent)) = .ok (g', events)) :
    ¬ c ∧ g' = g₁ ∧ events = ev := by
  simp only [bind_eq_ok, revertIf_eq_ok, Roles.check_eq_ok, exists_const] at h
  obtain ⟨-, hc, h⟩ := h
  obtain ⟨rfl, rfl⟩ := Prod.mk.injEq .. ▸ pure_eq_ok.mp h
  exact ⟨hc, rfl, rfl⟩

/-- A call forwarded to the router. -/
theorem forward_eq_ok {x : Call RouterError (RouterState V × List RouterEvent)}
    (h : (do
      s.gov.roles.check .adminRole sender
      let (portfolio, ev) ← inner x
      pure ({ s with portfolio }, ev.map .router) :
        Call GovernanceError (State V × List GovernanceEvent)) = .ok (s', events)) :
    ∃ portfolio ev, x = .ok (portfolio, ev) ∧ s' = { s with portfolio } ∧ events = ev.map .router := by
  obtain ⟨-, -, h⟩ := bind_eq_ok.mp h
  obtain ⟨⟨portfolio, ev⟩, hx, h⟩ := bind_eq_ok.mp h
  obtain ⟨rfl, rfl⟩ := Prod.mk.injEq .. ▸ pure_eq_ok.mp h
  exact ⟨portfolio, ev, inner_eq_ok.mp hx, rfl, rfl⟩

theorem setDefaultWeights_events {p p' : RouterState V} {renv : RouterEnv V} {vaults : List Address}
    {bps : List ℕ} {ev : List RouterEvent}
    (h : p.setDefaultWeights renv sender vaults bps = .ok (p', ev)) :
    ev = [.defaultWeightsSet vaults bps] := by
  unfold RouterState.setDefaultWeights at h
  simp only [bind_eq_ok, pure_eq_ok, Prod.mk.injEq] at h
  obtain ⟨-, -, -, -, -, -, _, -, -, -, -, rfl⟩ := h
  rfl

theorem clearVotedWeights_events {p p' : RouterState V} {ev : List RouterEvent}
    (h : p.clearVotedWeights sender = .ok (p', ev)) : ev = [.votedWeightsCleared] := by
  unfold RouterState.clearVotedWeights at h
  simp only [bind_eq_ok, pure_eq_ok, Prod.mk.injEq] at h
  obtain ⟨-, -, -, rfl⟩ := h
  rfl

/-- `router.setWeights` puts its arguments into its event. -/
theorem setWeights_events {p p' : RouterState V} {renv : RouterEnv V} {vaults : List Address}
    {bps : List ℕ} {ev : List RouterEvent} (h : p.setWeights renv sender vaults bps = .ok (p', ev)) :
    ev = [.weightsSet vaults bps] := by
  unfold RouterState.setWeights at h
  simp only [bind_eq_ok, pure_eq_ok, Prod.mk.injEq] at h
  obtain ⟨-, -, -, -, _, -, -, -, -, rfl⟩ := h
  rfl

/-- A successful call has one of the effects. -/
theorem exec_effect {tx : Tx GovernanceCall} (h : s.exec env tx = .ok (s', events)) :
    Effect env s tx s' events := by
  obtain ⟨b, sender, call, hsender⟩ := tx
  unfold State.exec at h
  cases call with
  | setQuorumThreshold threshold =>
    obtain ⟨gov, hx, rfl⟩ := onGov_eq_ok h
    obtain ⟨hq, rfl, rfl⟩ := setter_eq_ok hx
    exact .configured trivial (fun _ => Nat.not_lt.mp hq) (by simp)
  | setVotingPeriod period =>
    obtain ⟨gov, hx, rfl⟩ := onGov_eq_ok h
    obtain ⟨-, rfl, rfl⟩ := setter_eq_ok hx
    exact .configured trivial id (by simp)
  | setExecutionDelay delay =>
    obtain ⟨gov, hx, rfl⟩ := onGov_eq_ok h
    obtain ⟨-, -, hx⟩ := bind_eq_ok.mp hx
    obtain ⟨rfl, rfl⟩ := Prod.mk.injEq .. ▸ pure_eq_ok.mp hx
    exact .configured trivial id (by simp)
  | setVotingPower voter power =>
    obtain ⟨gov, hx, rfl⟩ := onGov_eq_ok h
    obtain ⟨hle, rfl, rfl⟩ := setVotingPower_eq_ok hx
    exact .empowered rfl hle
  | setDefaultWeights vaults bps =>
    obtain ⟨portfolio, ev, hx, rfl, rfl⟩ := forward_eq_ok h
    refine .forwarded trivial ?_
    rw [setDefaultWeights_events hx]
    simp
  | clearVotedWeights =>
    obtain ⟨portfolio, ev, hx, rfl, rfl⟩ := forward_eq_ok h
    refine .forwarded trivial ?_
    rw [clearVotedWeights_events hx]
    simp
  | propose vaults bps =>
    obtain ⟨gov, hx, rfl⟩ := onGov_eq_ok h
    obtain ⟨hdead, rfl, rfl⟩ := propose_eq_ok hx
    exact .proposed rfl hdead
  | cancel i =>
    obtain ⟨gov, hx, rfl⟩ := onGov_eq_ok h
    obtain ⟨hid, hnx, hnc, rfl, rfl⟩ := cancel_eq_ok hx
    exact .cancelled rfl hid hnx hnc
  | vote i =>
    obtain ⟨gov, hx, rfl⟩ := onGov_eq_ok h
    obtain ⟨hid, hs, hfresh, hpower, rfl, rfl⟩ := vote_eq_ok hx
    exact .voted rfl hid hs hfresh hpower
  | execute i =>
    simp only [State.execute, bind_eq_ok, revertIf_eq_ok, exists_const, Prod.exists, inner_eq_ok] at h
    obtain ⟨hid, -, _, hs, portfolio, ev, hr, h⟩ := h
    obtain ⟨rfl, rfl⟩ := Prod.mk.injEq .. ▸ pure_eq_ok.mp h
    obtain ⟨hqueued, ht⟩ := checkExecutable_queued hs
    exact .executed rfl hid hqueued ht hr
  | grantRole role account =>
    obtain ⟨roles, rfl, rfl⟩ := onRoles_eq_ok h
    exact .configured trivial id (by simp)
  | revokeRole role account =>
    obtain ⟨roles, rfl, rfl⟩ := onRoles_eq_ok h
    exact .configured trivial id (by simp)
  | renounceRole role confirmation =>
    obtain ⟨roles, rfl, rfl⟩ := onRoles_eq_ok h
    exact .configured trivial id (by simp)

/-- The events of the setters. -/
def GovernanceEvent.IsSetting : GovernanceEvent → Prop
  | .quorumThresholdSet _ _ | .votingPeriodSet _ _ | .executionDelaySet _ _ => True
  | _ => False

theorem isSetting_of_configures {tx : Tx GovernanceCall} (h : s.exec env tx = .ok (s', events))
    (hc : tx.call.Configures) : ∀ ev ∈ events, ev.IsSetting := by
  have hone : ∀ {ev : GovernanceEvent}, ev.IsSetting → ∀ e ∈ [ev], e.IsSetting :=
    fun hev e he => List.mem_singleton.mp he ▸ hev
  obtain ⟨b, sender, call, hsender⟩ := tx
  unfold State.exec at h
  cases call with
  | setQuorumThreshold threshold =>
    obtain ⟨gov, hset, rfl⟩ := onGov_eq_ok h
    obtain ⟨-, -, rfl⟩ := setter_eq_ok hset
    exact hone trivial
  | setVotingPeriod period =>
    obtain ⟨gov, hset, rfl⟩ := onGov_eq_ok h
    obtain ⟨-, -, rfl⟩ := setter_eq_ok hset
    exact hone trivial
  | setExecutionDelay delay =>
    obtain ⟨gov, hset, rfl⟩ := onGov_eq_ok h
    obtain ⟨-, -, hset⟩ := bind_eq_ok.mp hset
    obtain ⟨rfl, rfl⟩ := Prod.mk.injEq .. ▸ pure_eq_ok.mp hset
    exact hone trivial
  | grantRole role account | revokeRole role account | renounceRole role account =>
    obtain ⟨roles, -, rfl⟩ := onRoles_eq_ok h
    exact fun e he => absurd he List.not_mem_nil
  | _ => exact hc.elim

end RobotMoney.Governance
