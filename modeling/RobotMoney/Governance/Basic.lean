import RobotMoney.Portfolio.Router

/-!
# Router governance

`RouterGovernance`: admins propose a weight vector for the portfolio router, holders of voting power
vote for it until a deadline, and once a delay has passed anybody executes it, which sets the router's
weights.  The state of a proposal is not stored.  It is computed from two flags, the votes cast, the
quorum noted at the time of the proposal, and the time.

The contract acts on a router, so its state comes with that router's (`Governance.State`).
-/

namespace RobotMoney.Governance

open RobotMoney.Lib RobotMoney.Portfolio

/-- `MIN_QUORUM_THRESHOLD` -/
def minQuorumThreshold : ℕ := 1

/-- `MIN_VOTING_PERIOD`, one hour. -/
def minVotingPeriod : ℕ := 3600

inductive ProposalState where
  | active
  | defeated
  | queued
  | executed
  | cancelled
  deriving DecidableEq, Repr

structure Proposal where
  id : ℕ
  proposer : Address
  vaults : List Address
  bps : List ℕ
  votingDeadline : ℕ
  executableAfter : ℕ
  votesFor : ℕ
  snapshotQuorum : ℕ
  executed : Bool
  cancelled : Bool
  deriving DecidableEq

/-- A record nobody has written. -/
def Proposal.default : Proposal := ⟨0, 0, [], [], 0, 0, 0, 0, false, false⟩

/-- The state of a proposal, as computed from its record and the time. -/
def Proposal.state (p : Proposal) (b : Block) : ProposalState :=
  if p.cancelled then .cancelled
  else if p.executed then .executed
  else if b.timestamp ≤ p.votingDeadline then .active
  else if p.votesFor < p.snapshotQuorum then .defeated
  else .queued

inductive GovernanceError where
  | zeroAddress
  | invalidWeightSum
  | lengthMismatch
  | noActiveProposal
  | proposalNotActive
  | alreadyVoted
  | noVotingPower
  | votingStillOpen
  | quorumNotReached
  | executionDelayNotElapsed
  | alreadyExecuted
  | activeProposalExists
  | proposalAlreadyExecuted
  | proposalAlreadyCancelled
  | proposalIsCancelled
  | quorumBelowMinimum
  | votingPeriodBelowMinimum
  | vaultNotEligible (vault : Address)
  deriving DecidableEq

/-- The events of the contract, and those of the router it calls. -/
inductive GovernanceEvent where
  | proposalCreated (proposalId : ℕ) (proposer : Address) (vaults : List Address) (bps : List ℕ)
      (votingDeadline : ℕ)
  | voteCast (proposalId : ℕ) (voter : Address) (power totalFor : ℕ)
  | proposalExecuted (proposalId : ℕ) (executor : Address)
  | weightsApplied (proposalId : ℕ) (vaults : List Address) (bps : List ℕ)
  | proposalCancelled (proposalId : ℕ) (cancelledBy : Address)
  | quorumThresholdSet (oldThreshold newThreshold : ℕ)
  | votingPeriodSet (oldPeriod newPeriod : ℕ)
  | executionDelaySet (oldDelay newDelay : ℕ)
  | votingPowerSet (voter : Address) (oldPower newPower : ℕ)
  | router (event : RouterEvent)
  deriving DecidableEq

/-- The storage of the contract. -/
structure Storage where
  votingPeriod : ℕ
  executionDelay : ℕ
  quorumThreshold : ℕ
  votingPower : Address → ℕ
  totalVotingPower : ℕ
  proposals : ℕ → Proposal
  currentProposalId : ℕ
  hasVoted : ℕ → Address → Bool
  roles : Roles AdminRole Address

/-- The contract's own address, and the environment of its router. -/
structure Env (V : Type) where
  self : Address
  router : RouterEnv V

/-- The contract with the router it controls. -/
structure State (V : Type) where
  gov : Storage
  portfolio : RouterState V

variable {V : Type}

namespace Storage

/-- `_state(proposalId)` -/
def state (g : Storage) (b : Block) (proposalId : ℕ) : ProposalState :=
  (g.proposals proposalId).state b

/-- `proposalState(proposalId)` -/
def proposalState (g : Storage) (b : Block) (proposalId : ℕ) : Call GovernanceError ProposalState := do
  revertIf ((g.proposals proposalId).id = 0) GovernanceError.noActiveProposal
  pure (g.state b proposalId)

/-- `activeProposal()` -/
def activeProposal (g : Storage) : Call GovernanceError Proposal := do
  revertIf (g.currentProposalId = 0) GovernanceError.noActiveProposal
  pure (g.proposals g.currentProposalId)

/-- `cadenceParams()` -/
def cadenceParams (g : Storage) : ℕ × ℕ × ℕ × ℕ :=
  (g.votingPeriod, g.executionDelay, g.quorumThreshold, g.totalVotingPower)

/-- One proposal record replaced. -/
def withProposal (g : Storage) (proposalId : ℕ) (p : Proposal) : Storage :=
  { g with proposals := Function.update g.proposals proposalId p }

/-- The constructor. -/
def deploy (router admin : Address) (votingPeriod executionDelay quorumThreshold : ℕ) :
    Call GovernanceError Storage := do
  revertIf (router = 0 ∨ admin = 0) GovernanceError.zeroAddress
  revertIf (quorumThreshold < minQuorumThreshold) GovernanceError.quorumBelowMinimum
  revertIf (votingPeriod < minVotingPeriod) GovernanceError.votingPeriodBelowMinimum
  pure
    { votingPeriod, executionDelay, quorumThreshold
      votingPower := fun _ => 0
      totalVotingPower := 0
      proposals := fun _ => Proposal.default
      currentProposalId := 0
      hasVoted := fun _ _ => false
      roles := soleAdmin admin }

/-! ### Parameters -/

/-- `setQuorumThreshold(threshold)` -/
def setQuorumThreshold (g : Storage) (sender : Address) (threshold : ℕ) :
    Call GovernanceError (Storage × List GovernanceEvent) := do
  g.roles.check .adminRole sender
  revertIf (threshold < minQuorumThreshold) GovernanceError.quorumBelowMinimum
  pure ({ g with quorumThreshold := threshold }, [.quorumThresholdSet g.quorumThreshold threshold])

/-- `setVotingPeriod(period)` -/
def setVotingPeriod (g : Storage) (sender : Address) (period : ℕ) :
    Call GovernanceError (Storage × List GovernanceEvent) := do
  g.roles.check .adminRole sender
  revertIf (period < minVotingPeriod) GovernanceError.votingPeriodBelowMinimum
  pure ({ g with votingPeriod := period }, [.votingPeriodSet g.votingPeriod period])

/-- `setExecutionDelay(delay)` -/
def setExecutionDelay (g : Storage) (sender : Address) (delay : ℕ) :
    Call GovernanceError (Storage × List GovernanceEvent) := do
  g.roles.check .adminRole sender
  pure ({ g with executionDelay := delay }, [.executionDelaySet g.executionDelay delay])

/-- `setVotingPower(voter, power)` -/
def setVotingPower (g : Storage) (sender voter : Address) (power : ℕ) :
    Call GovernanceError (Storage × List GovernanceEvent) := do
  g.roles.check .adminRole sender
  revertIf (voter = 0) GovernanceError.zeroAddress
  let old := g.votingPower voter
  let rest ← subU g.totalVotingPower old
  let totalVotingPower ← addU rest power
  pure
    ({ g with totalVotingPower, votingPower := Function.update g.votingPower voter power },
      [.votingPowerSet voter old power])

/-! ### Proposals -/

/-- The second loop of `propose`: every vault is eligible in the router. -/
def checkEligible (isRouterEligible : Address → Bool) : List Address → Call GovernanceError Unit
  | [] => .ok ()
  | v :: vs => do
    revertIf (isRouterEligible v = false) (GovernanceError.vaultNotEligible v)
    checkEligible isRouterEligible vs

/-- `propose(vaults, bps)`.  The arrays are pushed onto those the record holds. -/
def propose (isRouterEligible : Address → Bool) (g : Storage) (b : Block) (sender : Address)
    (vaults : List Address) (bps : List ℕ) : Call GovernanceError (Storage × List GovernanceEvent) := do
  g.roles.check .adminRole sender
  revertIf (vaults.length ≠ bps.length) GovernanceError.lengthMismatch
  let total ← sumU 0 bps
  revertIf (total ≠ bpsDenominator) GovernanceError.invalidWeightSum
  checkEligible isRouterEligible vaults
  revertIf
    (g.currentProposalId ≠ 0 ∧
      (g.state b g.currentProposalId = .active ∨ g.state b g.currentProposalId = .queued))
    GovernanceError.activeProposalExists
  let proposalId ← addU g.currentProposalId 1
  let deadline ← addU64 b.timestamp g.votingPeriod
  let execAfter ← addU64 deadline g.executionDelay
  let p := g.proposals proposalId
  pure
    ({ g.withProposal proposalId
          { p with
            id := proposalId
            proposer := sender
            votingDeadline := deadline
            executableAfter := execAfter
            snapshotQuorum := g.quorumThreshold
            vaults := p.vaults ++ vaults
            bps := p.bps ++ bps } with
        currentProposalId := proposalId },
      [.proposalCreated proposalId sender vaults bps deadline])

/-- `cancel(proposalId)` -/
def cancel (g : Storage) (sender : Address) (proposalId : ℕ) :
    Call GovernanceError (Storage × List GovernanceEvent) := do
  g.roles.check .adminRole sender
  let p := g.proposals proposalId
  revertIf (p.id = 0) GovernanceError.noActiveProposal
  revertIf (p.executed = true) GovernanceError.proposalAlreadyExecuted
  revertIf (p.cancelled = true) GovernanceError.proposalAlreadyCancelled
  pure (g.withProposal proposalId { p with cancelled := true }, [.proposalCancelled proposalId sender])

/-- `vote(proposalId)` -/
def vote (g : Storage) (b : Block) (sender : Address) (proposalId : ℕ) :
    Call GovernanceError (Storage × List GovernanceEvent) := do
  let p := g.proposals proposalId
  revertIf (p.id = 0) GovernanceError.noActiveProposal
  revertIf (g.state b proposalId ≠ .active) GovernanceError.proposalNotActive
  revertIf (g.hasVoted proposalId sender = true) GovernanceError.alreadyVoted
  let power := g.votingPower sender
  revertIf (power = 0) GovernanceError.noVotingPower
  let votesFor ← addU p.votesFor power
  pure
    ({ g.withProposal proposalId { p with votesFor } with
        hasVoted := Function.update g.hasVoted proposalId
          (Function.update (g.hasVoted proposalId) sender true) },
      [.voteCast proposalId sender power votesFor])

/-- The checks of `execute` that depend on the state of the proposal. -/
def checkExecutable (g : Storage) (b : Block) (proposalId : ℕ) : Call GovernanceError Unit :=
  let p := g.proposals proposalId
  match g.state b proposalId with
  | .cancelled => .error (.custom .proposalIsCancelled)
  | .active =>
    if b.timestamp ≤ p.votingDeadline then .error (.custom .votingStillOpen)
    else .error (.custom .quorumNotReached)
  | .defeated => .error (.custom .quorumNotReached)
  | .queued => revertIf (b.timestamp < p.executableAfter) GovernanceError.executionDelayNotElapsed
  | .executed => .error (.custom .alreadyExecuted)

end Storage

namespace State

/-- `currentWeights()` -/
def currentWeights (s : State V) : List Address × List ℕ :=
  RouterState.getWeights s.portfolio.router

/-- `execute(proposalId)` -/
def execute (env : Env V) (s : State V) (b : Block) (sender : Address) (proposalId : ℕ) :
    Call GovernanceError (State V × List GovernanceEvent) := do
  let p := s.gov.proposals proposalId
  revertIf (p.id = 0) GovernanceError.noActiveProposal
  revertIf (p.executed = true) GovernanceError.alreadyExecuted
  s.gov.checkExecutable b proposalId
  let gov := s.gov.withProposal proposalId { p with executed := true }
  let (portfolio, events) ← inner (s.portfolio.setWeights env.router env.self p.vaults p.bps)
  pure
    (⟨gov, portfolio⟩,
      events.map .router ++ [.proposalExecuted proposalId sender, .weightsApplied proposalId p.vaults p.bps])

/-- `setDefaultWeights(vaults, bps)` -/
def setDefaultWeights (env : Env V) (s : State V) (sender : Address) (vaults : List Address)
    (bps : List ℕ) : Call GovernanceError (State V × List GovernanceEvent) := do
  s.gov.roles.check .adminRole sender
  let (portfolio, events) ← inner (s.portfolio.setDefaultWeights env.router env.self vaults bps)
  pure ({ s with portfolio }, events.map .router)

/-- `clearVotedWeights()` -/
def clearVotedWeights (env : Env V) (s : State V) (sender : Address) :
    Call GovernanceError (State V × List GovernanceEvent) := do
  s.gov.roles.check .adminRole sender
  let (portfolio, events) ← inner (s.portfolio.clearVotedWeights env.self)
  pure ({ s with portfolio }, events.map .router)

/-! ### The contract as a state machine -/

/-- The calls that change the contract. -/
inductive GovernanceCall where
  | setQuorumThreshold (threshold : ℕ)
  | setVotingPeriod (period : ℕ)
  | setExecutionDelay (delay : ℕ)
  | setVotingPower (voter : Address) (power : ℕ)
  | setDefaultWeights (vaults : List Address) (bps : List ℕ)
  | clearVotedWeights
  | propose (vaults : List Address) (bps : List ℕ)
  | cancel (proposalId : ℕ)
  | vote (proposalId : ℕ)
  | execute (proposalId : ℕ)
  | grantRole (role : AdminRole) (account : Address)
  | revokeRole (role : AdminRole) (account : Address)
  | renounceRole (role : AdminRole) (confirmation : Address)

/-- A call that touches the contract's own storage only. -/
def onGov (s : State V) (x : Call GovernanceError (Storage × List GovernanceEvent)) :
    Call GovernanceError (State V × List GovernanceEvent) := do
  let (gov, events) ← x
  pure ({ s with gov }, events)

/-- A call that changes the role table only. -/
def onRoles (s : State V) (x : Call GovernanceError (Roles AdminRole Address)) :
    Call GovernanceError (State V × List GovernanceEvent) := do
  let roles ← x
  pure ({ s with gov := { s.gov with roles } }, [])

/-- One call of the contract. -/
def exec (env : Env V) (s : State V) (tx : Tx GovernanceCall) :
    Call GovernanceError (State V × List GovernanceEvent) :=
  match tx.call with
  | .setQuorumThreshold threshold => s.onGov (s.gov.setQuorumThreshold tx.sender threshold)
  | .setVotingPeriod period => s.onGov (s.gov.setVotingPeriod tx.sender period)
  | .setExecutionDelay delay => s.onGov (s.gov.setExecutionDelay tx.sender delay)
  | .setVotingPower voter power => s.onGov (s.gov.setVotingPower tx.sender voter power)
  | .setDefaultWeights vaults bps => s.setDefaultWeights env tx.sender vaults bps
  | .clearVotedWeights => s.clearVotedWeights env tx.sender
  | .propose vaults bps =>
    s.onGov (s.gov.propose (s.portfolio.isRouterEligible env.router) tx.block tx.sender vaults bps)
  | .cancel proposalId => s.onGov (s.gov.cancel tx.sender proposalId)
  | .vote proposalId => s.onGov (s.gov.vote tx.block tx.sender proposalId)
  | .execute proposalId => s.execute env tx.block tx.sender proposalId
  | .grantRole role account =>
    s.onRoles (Roles.grantRole (fun t r a => .ok (t.set r a true)) AdminRole.admin s.gov.roles tx.sender
      role account)
  | .revokeRole role account =>
    s.onRoles (Roles.revokeRole AdminRole.admin s.gov.roles tx.sender role account)
  | .renounceRole role confirmation =>
    s.onRoles (Roles.renounceRole s.gov.roles tx.sender role confirmation)

end State

end RobotMoney.Governance
