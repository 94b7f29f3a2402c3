import RobotMoney.Client.GetVaults

/-!
# The governance, as the client prints it

`rmpc get-governance` reads the current proposal, the periods and the weights, and, if there is a proposal,
its record, which it does not read (`activeProposal_unread`).  So no proposal is ever printed, and what is
printed without an error is a governance that has none: `readGovernance_complete`.
-/

namespace RobotMoney.Client

open RobotMoney.Lib RobotMoney.Portfolio

/-- The largest `u64`, where an amount is cut off. -/
def saturatingToU64 (n : ℕ) : ℕ := min n (2 ^ 64 - 1)

structure WeightEntry where
  vault : String := ""
  bps : ℕ := 0

structure ProposalSummary where
  id : String
  proposer : String
  proposedVaults : List String
  proposedBps : List ℕ
  votingDeadline : ℕ
  executableAfter : ℕ
  votesFor : ℕ
  executed : Bool

/-- The payload, with its defaults. -/
structure GovernanceData where
  address : String := ""
  currentProposalId : ℕ := 0
  votingPeriodSecs : ℕ := 0
  executionDelaySecs : ℕ := 0
  quorumThreshold : ℕ := 0
  totalVotingPower : ℕ := 0
  currentWeights : List WeightEntry := []
  activeProposal : Option ProposalSummary := none

namespace GovernanceData

def setCurrentProposalId (id : ℕ) (d : GovernanceData) : GovernanceData := { d with currentProposalId := id }

def setCadenceParams (r : ℕ × ℕ × ℕ × ℕ × Unit) (d : GovernanceData) : GovernanceData :=
  { d with
    votingPeriodSecs := r.1
    executionDelaySecs := r.2.1
    quorumThreshold := r.2.2.1
    totalVotingPower := r.2.2.2.1 }

/-- The entries of two lists of weights. -/
def weightEntries (vaults : List Address) (bps : List ℕ) : List WeightEntry :=
  (vaults.zip bps).map fun (v, b) => ⟨lowerHex v, saturatingToU64 b⟩

def setCurrentWeights (r : List Address × List ℕ × Unit) (d : GovernanceData) : GovernanceData :=
  { d with currentWeights := weightEntries r.1 r.2.1 }

def setActiveProposal (p : ProposalSummary) (d : GovernanceData) : GovernanceData :=
  { d with activeProposal := some p }

end GovernanceData

/-- `call_current_proposal_id` -/
def callCurrentProposalId (rpc : RecordRpc) (governance : Address) (tag : String) : Result ℕ := do
  let r ← rpc.read governance tag .currentProposalId "currentProposalId" currentProposalIdCall
  pure r.1

/-- `call_cadence_params` -/
def callCadenceParams (rpc : RecordRpc) (governance : Address) (tag : String) :
    Result (ℕ × ℕ × ℕ × ℕ × Unit) :=
  rpc.read governance tag .cadenceParams "cadenceParams" cadenceParamsCall

/-- `call_current_weights` -/
def callCurrentWeights (rpc : RecordRpc) (governance : Address) (tag : String) :
    Result (List Address × List ℕ × Unit) :=
  rpc.read governance tag .currentWeights "currentWeights" currentWeightsCall

/-- `call_active_proposal`, whose errors are texts -/
def callActiveProposal (rpc : RecordRpc) (governance : Address) (tag : String) :
    Except String ProposalSummary :=
  match rpc.ethCall governance tag .activeProposal with
  | .error e => .error ("eth_call failed: " ++ e.display)
  | .ok out =>
    match activeProposalCall.strict out with
    | none => .error ("abi decode: " ++ rpc.abiError out)
    | some p => .ok {
        id := toString p.id
        proposer := lowerHex p.proposer
        proposedVaults := p.vaults.map lowerHex
        proposedBps := p.bps.map saturatingToU64
        votingDeadline := p.votingDeadline
        executableAfter := p.executableAfter
        votesFor := p.votesFor
        executed := p.executed }

/-- The proposal id that was read, or zero. -/
def readId (id : Result ℕ) : ℕ :=
  match id with
  | .ok id => id
  | .error _ => 0

/-- `read_governance` -/
def readGovernance (rpc : RecordRpc) (governance : Address) : Result (Envelope GovernanceData) := do
  let chainId ← rpc.chainId
  let blockNumber ← rpc.blockNumber
  let tag := blockTag blockNumber
  let b := PartialBuilder.new chainId blockNumber { address := lowerHex governance }
  let id := callCurrentProposalId rpc governance tag
  let b := b.read "current_proposal_id" (id.mapError RmpcError.display) GovernanceData.setCurrentProposalId
  let b := b.read "cadence_params" ((callCadenceParams rpc governance tag).mapError RmpcError.display)
    GovernanceData.setCadenceParams
  let b := b.read "current_weights" ((callCurrentWeights rpc governance tag).mapError RmpcError.display)
    GovernanceData.setCurrentWeights
  let b :=
    if 0 < readId id then
      b.read "active_proposal" (callActiveProposal rpc governance tag) GovernanceData.setActiveProposal
    else
      b
  pure b.finish

/-- `get_governance::run`, with the configuration loaded: the envelope that is printed, or the exit code. -/
def getGovernance (c : Crates) (rpc : RecordRpc) (cfg : Config) : Except ℕ (Envelope GovernanceData) := do
  let governanceAddr ← configured c cfg.governanceAddress
  (readGovernance rpc governanceAddr).mapError fun _ => GetAgent.exitStartupFail

section Reads

variable {V : Type} {rpc : RecordRpc} {target : Address} {registry : Registry} {s : Governance.State V}
  {n : ℕ}

/-- Whatever the proposal, the client does not read it. -/
theorem Answers.callActiveProposal_fails (h : Answers rpc target registry s)
    (hn : rpc.blockNumber = .ok n) :
    ∃ e, callActiveProposal rpc target (blockTag n) = .error e := by
  unfold callActiveProposal
  cases hcall : rpc.ethCall target (blockTag n) .activeProposal with
  | error e => exact ⟨_, rfl⟩
  | ok out =>
    have hdata := h.returns n _ out hn hcall
    cases hp : s.gov.activeProposal with
    | error e => simp [returnData, hp] at hdata
    | ok p =>
      simp only [returnData, hp, Option.some.injEq] at hdata
      simp only [← hdata, activeProposal_unread]
      exact ⟨_, rfl⟩

theorem Answers.callCurrentProposalId_eq_ok (h : Answers rpc target registry s)
    (hn : rpc.blockNumber = .ok n) {id : ℕ}
    (hcall : callCurrentProposalId rpc target (blockTag n) = .ok id) : id = s.gov.currentProposalId := by
  simp only [callCurrentProposalId, bind_eq_ok, pure_eq_ok, RecordRpc.read_eq_ok] at hcall
  obtain ⟨r, ⟨out, hout, hread⟩, rfl⟩ := hcall
  obtain rfl := Option.some.inj (h.returns n _ out hn hout)
  rw [currentProposalId_read] at hread
  obtain rfl := Option.some.inj hread
  rfl

theorem Answers.callCadenceParams_eq_ok (h : Answers rpc target registry s) (hn : rpc.blockNumber = .ok n)
    (hperiods : Periods s.gov) {r : ℕ × ℕ × ℕ × ℕ × Unit}
    (hcall : callCadenceParams rpc target (blockTag n) = .ok r) :
    r = (s.gov.votingPeriod, s.gov.executionDelay, s.gov.quorumThreshold, s.gov.totalVotingPower, ()) := by
  obtain ⟨out, hout, hread⟩ := RecordRpc.read_eq_ok.mp hcall
  obtain rfl := Option.some.inj (h.returns n _ out hn hout)
  rw [cadenceParams_read _ _ hperiods.1 hperiods.2] at hread
  exact (Option.some.inj hread).symm

theorem Answers.callCurrentWeights_eq_ok (h : Answers rpc target registry s) (hn : rpc.blockNumber = .ok n)
    {r : List Address × List ℕ × Unit} (hcall : callCurrentWeights rpc target (blockTag n) = .ok r) :
    r = (s.currentWeights.1, s.currentWeights.2, ()) := by
  obtain ⟨out, hout, hread⟩ := RecordRpc.read_eq_ok.mp hcall
  obtain rfl := Option.some.inj (h.returns n _ out hn hout)
  rw [currentWeights_read] at hread
  exact (Option.some.inj hread).symm

/-- **What is printed of the governance.**  No proposal; and when no error is printed, there was no proposal
in the block, and the periods, the powers and the weights are those of the contract. -/
theorem readGovernance_complete {env : Governance.Env V} (hs : Reached env s)
    (h : Answers rpc target registry s) {out : Envelope GovernanceData}
    (hread : readGovernance rpc target = .ok out) :
    out.data.activeProposal = none ∧
      (out.isPartial = false → s.gov.currentProposalId = 0 ∧
        out.data = {
          address := lowerHex target
          votingPeriodSecs := s.gov.votingPeriod
          executionDelaySecs := s.gov.executionDelay
          quorumThreshold := s.gov.quorumThreshold
          totalVotingPower := s.gov.totalVotingPower
          currentWeights := GovernanceData.weightEntries s.currentWeights.1 s.currentWeights.2 }) := by
  simp only [readGovernance, bind_eq_ok, pure_eq_ok] at hread
  obtain ⟨chainId, -, n, hn, rfl⟩ := hread
  obtain ⟨e, hproposal⟩ := h.callActiveProposal_fails hn
  rw [hproposal]
  have hdata : ∀ (c : Prop) [Decidable c] (b : PartialBuilder GovernanceData),
      (if c then b.read "active_proposal" (.error e) GovernanceData.setActiveProposal else b).data =
        b.data := by
    intro c _ b
    split <;> rfl
  simp only [PartialBuilder.finish_data, hdata]
  constructor
  · refine (PartialBuilder.read_data_of_keeps GovernanceData.activeProposal ?_).trans ?_
    · exact fun _ _ => rfl
    refine (PartialBuilder.read_data_of_keeps GovernanceData.activeProposal ?_).trans ?_
    · exact fun _ _ => rfl
    exact PartialBuilder.read_data_of_keeps GovernanceData.activeProposal fun _ _ => rfl
  · intro hp
    rw [PartialBuilder.finish_isPartial] at hp
    by_cases hid : 0 < readId (callCurrentProposalId rpc target (blockTag n))
    · -- a proposal that is asked for is an error
      rw [if_pos hid] at hp
      obtain ⟨-, _, hok⟩ := PartialBuilder.read_errors_eq_nil.mp hp
      cases hok
    · rw [if_neg hid] at hp
      simp only [PartialBuilder.read_errors_eq_nil, GetAgent.mapError_eq_ok] at hp
      obtain ⟨⟨⟨-, id, hcall⟩, periods, hperiods⟩, weights, hweights⟩ := hp
      have hzero : id = 0 := by
        rw [hcall] at hid
        exact Nat.eq_zero_of_not_pos hid
      have hcurrent := h.callCurrentProposalId_eq_ok hn hcall
      subst hzero
      obtain rfl := h.callCadenceParams_eq_ok hn hs.periods hperiods
      obtain rfl := h.callCurrentWeights_eq_ok hn hweights
      refine ⟨hcurrent.symm, ?_⟩
      simp only [hcall, hperiods, hweights]
      rfl

end Reads

end RobotMoney.Client
