import RobotMoney.Client.ReadOutput
import RobotMoney.Governance.Lifecycle
import RobotMoney.Lib.Abi

/-!
# Return data

What `VaultRegistry` and `RouterGovernance` return, in words, and what the client reads of it with the types
of its committed interface files.  The files are another description of the same functions: `getVault`
returns a record of three fields and a status, and the client expects one record of nine fields; the
proposal of `activeProposal` has ten fields, and the client expects eight.

Of these functions the client reads the lists and the numbers, in every state, and the two records in
none: `readsTrue_iff`.
-/

namespace RobotMoney.Client

open RobotMoney.Lib RobotMoney.Lib.Abi RobotMoney.Portfolio
open RobotMoney.Governance (Proposal)
open Fields (nil cons)

/-! ### What the contracts return -/

def address : Codec Address := fin (2 ^ 160)

/-- The number of a status. -/
def statusIndex : VaultStatus → ℕ
  | .active => 0
  | .paused => 1
  | .retired => 2

/-- The status of a number. -/
def readStatus (n : ℕ) : Option VaultStatus :=
  if n = 0 then some .active else if n = 1 then some .paused else if n = 2 then some .retired else none

/-- `VaultStatus`, a `uint8`. -/
def vaultStatus : Codec VaultStatus := single (fun _ => True) statusIndex readStatus

/-- `VaultMetadata` -/
def vaultMetadata : Codec VaultMetadata :=
  tuple ((cons string (cons address (cons uint256 nil))).via (fun x => ⟨x.1, x.2.1, x.2.2.1⟩)
    fun m => some (m.name, m.asset, m.registeredAt, ()))

/-- `getVault(vault) returns (VaultMetadata memory metadata, VaultStatus status)` -/
def getVaultReturns : Fields (VaultMetadata × VaultStatus × Unit) :=
  cons vaultMetadata (cons vaultStatus nil)

/-- `listVaults() returns (address[] memory addresses)` -/
def listVaultsReturns : Fields (List Address × Unit) := cons (array address) nil

/-- `currentProposalId() returns (uint256)` -/
def currentProposalIdReturns : Fields (ℕ × Unit) := cons uint256 nil

/-- `cadenceParams() returns (uint64, uint64, uint256, uint256)` -/
def cadenceParamsReturns : Fields (ℕ × ℕ × ℕ × ℕ × Unit) :=
  cons (uint 64) (cons (uint 64) (cons uint256 (cons uint256 nil)))

/-- `currentWeights() returns (address[] memory vaults, uint256[] memory bps)` -/
def currentWeightsReturns : Fields (List Address × List ℕ × Unit) :=
  cons (array address) (cons (array uint256) nil)

/-- `activeProposal()`, which returns the record of a proposal, field by field. -/
def activeProposalReturns : Fields Proposal :=
  (cons uint256 (cons address (cons (array address) (cons (array uint256) (cons (uint 64) (cons (uint 64)
    (cons uint256 (cons uint256 (cons bool (cons bool nil)))))))))).via
    (fun ⟨id, proposer, vaults, bps, votingDeadline, executableAfter, votesFor, snapshotQuorum, executed,
      cancelled, ()⟩ => ⟨id, proposer, vaults, bps, votingDeadline, executableAfter, votesFor,
        snapshotQuorum, executed, cancelled⟩)
    fun p => some (p.id, p.proposer, p.vaults, p.bps, p.votingDeadline, p.executableAfter, p.votesFor,
      p.snapshotQuorum, p.executed, p.cancelled, ())

/-! ### What the client reads -/

/-- `VaultRegistry::VaultRecord` -/
structure VaultRecord where
  vault : Address
  name : String
  riskLabel : String
  mandate : String
  status : ℕ
  receiptToken : Address
  depositCap : ℕ
  exitFeeBps : ℕ
  registeredAt : ℕ

def vaultRecord : Codec VaultRecord :=
  tuple ((cons address (cons string (cons string (cons string (cons (uint 8) (cons address
    (cons uint256 (cons (uint 16) (cons (uint 64) nil))))))))).via
    (fun ⟨vault, name, riskLabel, mandate, status, receiptToken, depositCap, exitFeeBps, registeredAt, ()⟩ =>
      ⟨vault, name, riskLabel, mandate, status, receiptToken, depositCap, exitFeeBps, registeredAt⟩)
    fun r => some (r.vault, r.name, r.riskLabel, r.mandate, r.status, r.receiptToken, r.depositCap,
      r.exitFeeBps, r.registeredAt, ()))

/-- `VaultRegistry::getVaultCall` -/
def getVaultCall : Fields (VaultRecord × Unit) := cons vaultRecord nil

/-- `VaultRegistry::listVaultsCall` -/
def listVaultsCall : Fields (List Address × Unit) := cons (array address) nil

/-- `RouterGovernance::currentProposalIdCall` -/
def currentProposalIdCall : Fields (ℕ × Unit) := cons uint256 nil

/-- `RouterGovernance::cadenceParamsCall` -/
def cadenceParamsCall : Fields (ℕ × ℕ × ℕ × ℕ × Unit) :=
  cons (uint 64) (cons (uint 64) (cons uint256 (cons uint256 nil)))

/-- `RouterGovernance::currentWeightsCall` -/
def currentWeightsCall : Fields (List Address × List ℕ × Unit) :=
  cons (array address) (cons (array uint256) nil)

/-- `RouterGovernance::activeProposalReturn` -/
structure ActiveProposal where
  id : ℕ
  proposer : Address
  vaults : List Address
  bps : List ℕ
  votingDeadline : ℕ
  executableAfter : ℕ
  votesFor : ℕ
  executed : Bool

/-- `RouterGovernance::activeProposalCall` -/
def activeProposalCall : Fields ActiveProposal :=
  (cons uint256 (cons address (cons (array address) (cons (array uint256) (cons (uint 64) (cons (uint 64)
    (cons uint256 (cons bool nil)))))))).via
    (fun ⟨id, proposer, vaults, bps, votingDeadline, executableAfter, votesFor, executed, ()⟩ =>
      ⟨id, proposer, vaults, bps, votingDeadline, executableAfter, votesFor, executed⟩)
    fun p => some (p.id, p.proposer, p.vaults, p.bps, p.votingDeadline, p.executableAfter, p.votesFor,
      p.executed, ())

/-! ### Layouts are lawful -/

theorem address_lawful : address.Lawful := fin_lawful _

theorem addresses_lawful : (array address).Lawful := array_lawful address_lawful

theorem words_lawful : (array uint256).Lawful := array_lawful uint256_lawful

theorem listVaultsCall_lawful : listVaultsCall.Lawful :=
  Fields.cons_lawful addresses_lawful Fields.nil_lawful

theorem currentProposalIdCall_lawful : currentProposalIdCall.Lawful :=
  Fields.cons_lawful uint256_lawful Fields.nil_lawful

theorem cadenceParamsCall_lawful : cadenceParamsCall.Lawful :=
  Fields.cons_lawful (uint_lawful 64) (Fields.cons_lawful (uint_lawful 64)
    (Fields.cons_lawful uint256_lawful (Fields.cons_lawful uint256_lawful Fields.nil_lawful)))

theorem currentWeightsCall_lawful : currentWeightsCall.Lawful :=
  Fields.cons_lawful addresses_lawful (Fields.cons_lawful words_lawful Fields.nil_lawful)

theorem vaultRecord_lawful : vaultRecord.Lawful := by
  refine tuple_lawful (Fields.via_lawful ?_ ?_)
  · exact Fields.cons_lawful address_lawful (Fields.cons_lawful string_lawful
      (Fields.cons_lawful string_lawful (Fields.cons_lawful string_lawful
      (Fields.cons_lawful (uint_lawful 8) (Fields.cons_lawful address_lawful
      (Fields.cons_lawful uint256_lawful (Fields.cons_lawful (uint_lawful 16)
      (Fields.cons_lawful (uint_lawful 64) Fields.nil_lawful))))))))
  · rintro ⟨vault, name, riskLabel, mandate, status, receiptToken, depositCap, exitFeeBps, registeredAt, _⟩ r
    constructor
    · intro h
      cases h
      rfl
    · intro h
      cases h
      rfl

theorem getVaultCall_lawful : getVaultCall.Lawful :=
  Fields.cons_lawful vaultRecord_lawful Fields.nil_lawful

theorem activeProposalCall_lawful : activeProposalCall.Lawful := by
  refine Fields.via_lawful ?_ ?_
  · exact Fields.cons_lawful uint256_lawful (Fields.cons_lawful address_lawful
      (Fields.cons_lawful addresses_lawful (Fields.cons_lawful words_lawful
      (Fields.cons_lawful (uint_lawful 64) (Fields.cons_lawful (uint_lawful 64)
      (Fields.cons_lawful uint256_lawful (Fields.cons_lawful bool_lawful Fields.nil_lawful)))))))
  · rintro ⟨id, proposer, vaults, bps, votingDeadline, executableAfter, votesFor, executed, _⟩ p
    constructor
    · intro h
      cases h
      rfl
    · intro h
      cases h
      rfl

/-! ### Records are not read -/

/-- The first word of what `getVault` returns is the offset behind two heads; the client expects the one
behind one head. -/
theorem getVault_unread (metadata : VaultMetadata) (status : VaultStatus) :
    getVaultCall.strict (getVaultReturns.returns (metadata, status, ())) = none := by
  refine Fields.strict_eq_none getVaultCall_lawful 0 32 ?_ ?_
  · rintro ⟨record, _⟩ _
    rfl
  · intro h
    cases h

/-- The third word of what `activeProposal` returns is the offset behind ten heads; the client expects the
one behind eight. -/
theorem activeProposal_unread (p : Proposal) :
    activeProposalCall.strict (activeProposalReturns.returns p) = none := by
  refine Fields.strict_eq_none activeProposalCall_lawful 2 256 ?_ ?_
  · intro q _
    rfl
  · intro h
    cases h

/-! ### Lists, parameters and weights are read -/

theorem listVaults_read (vaults : List Address) :
    listVaultsCall.strict (listVaultsReturns.returns (vaults, ())) = some (vaults, ()) :=
  Fields.strict_returns listVaultsCall_lawful ⟨fun _ _ => trivial, trivial⟩

theorem currentProposalId_read (id : ℕ) :
    currentProposalIdCall.strict (currentProposalIdReturns.returns (id, ())) = some (id, ()) :=
  Fields.strict_returns currentProposalIdCall_lawful ⟨trivial, trivial⟩

theorem currentWeights_read (vaults : List Address) (bps : List ℕ) :
    currentWeightsCall.strict (currentWeightsReturns.returns (vaults, bps, ())) = some (vaults, bps, ()) :=
  Fields.strict_returns currentWeightsCall_lawful ⟨fun _ _ => trivial, fun _ _ => trivial, trivial⟩

theorem cadenceParams_read {votingPeriod executionDelay : ℕ} (quorumThreshold totalVotingPower : ℕ)
    (hperiod : votingPeriod < 2 ^ 64) (hdelay : executionDelay < 2 ^ 64) :
    cadenceParamsCall.strict
        (cadenceParamsReturns.returns (votingPeriod, executionDelay, quorumThreshold, totalVotingPower, ())) =
      some (votingPeriod, executionDelay, quorumThreshold, totalVotingPower, ()) :=
  Fields.strict_returns cadenceParamsCall_lawful ⟨hperiod, hdelay, trivial, trivial, trivial⟩

/-! ### Reachable states -/

section Reached

open RobotMoney.Governance (State Env Storage GovernanceEvent)

variable {V : Type} {env : Env V} {s s' : State V}

/-- The periods of a call fit their type, `uint64`. -/
def Typed : State.GovernanceCall → Prop
  | .setVotingPeriod period => period < 2 ^ 64
  | .setExecutionDelay delay => delay < 2 ^ 64
  | _ => True

/-- The states of a deployed governance, whatever its callers, and those of the router, the registry and
the vaults, do. -/
inductive Reached (env : Env V) : State V → Prop
  | deploy {router admin : Address} {votingPeriod executionDelay quorumThreshold : ℕ} {gov : Storage}
      {portfolio : RouterState V} (hperiod : votingPeriod < 2 ^ 64) (hdelay : executionDelay < 2 ^ 64)
      (h : Storage.deploy router admin votingPeriod executionDelay quorumThreshold = .ok gov) :
      Reached env ⟨gov, portfolio⟩
  | call {s s' : State V} {tx : Tx State.GovernanceCall} {events : List GovernanceEvent}
      (hs : Reached env s) (htyped : Typed tx.call) (h : s.exec env tx = .ok (s', events)) : Reached env s'
  | elsewhere {s : State V} (hs : Reached env s) (portfolio : RouterState V) :
      Reached env { s with portfolio }

/-- The periods fit their type. -/
def Periods (g : Storage) : Prop := g.votingPeriod < 2 ^ 64 ∧ g.executionDelay < 2 ^ 64

theorem exec_periods {tx : Tx State.GovernanceCall} {events : List GovernanceEvent} (hs : Periods s.gov)
    (htyped : Typed tx.call) (h : s.exec env tx = .ok (s', events)) : Periods s'.gov := by
  obtain ⟨b, sender, call, hsender⟩ := tx
  unfold State.exec at h
  cases call with
  | setQuorumThreshold threshold =>
    obtain ⟨gov, hgov, rfl⟩ := Governance.onGov_eq_ok h
    obtain ⟨-, rfl, -⟩ := Governance.setter_eq_ok hgov
    exact hs
  | setVotingPeriod period =>
    obtain ⟨gov, hgov, rfl⟩ := Governance.onGov_eq_ok h
    obtain ⟨-, rfl, -⟩ := Governance.setter_eq_ok hgov
    exact ⟨htyped, hs.2⟩
  | setExecutionDelay delay =>
    obtain ⟨gov, hgov, rfl⟩ := Governance.onGov_eq_ok h
    simp only [Storage.setExecutionDelay, bind_eq_ok, pure_eq_ok, Prod.mk.injEq] at hgov
    obtain ⟨-, -, rfl, -⟩ := hgov
    exact ⟨hs.1, htyped⟩
  | setVotingPower voter power =>
    obtain ⟨gov, hgov, rfl⟩ := Governance.onGov_eq_ok h
    obtain ⟨-, rfl, -⟩ := Governance.setVotingPower_eq_ok hgov
    exact hs
  | setDefaultWeights vaults bps =>
    simp only [State.setDefaultWeights, bind_eq_ok, pure_eq_ok, Prod.mk.injEq] at h
    obtain ⟨-, -, _, -, rfl, -⟩ := h
    exact hs
  | clearVotedWeights =>
    simp only [State.clearVotedWeights, bind_eq_ok, pure_eq_ok, Prod.mk.injEq] at h
    obtain ⟨-, -, _, -, rfl, -⟩ := h
    exact hs
  | propose vaults bps =>
    obtain ⟨gov, hgov, rfl⟩ := Governance.onGov_eq_ok h
    obtain ⟨-, rfl, -⟩ := Governance.propose_eq_ok hgov
    exact hs
  | cancel i =>
    obtain ⟨gov, hgov, rfl⟩ := Governance.onGov_eq_ok h
    obtain ⟨-, -, -, rfl, -⟩ := Governance.cancel_eq_ok hgov
    exact hs
  | vote i =>
    obtain ⟨gov, hgov, rfl⟩ := Governance.onGov_eq_ok h
    obtain ⟨-, -, -, -, rfl, -⟩ := Governance.vote_eq_ok hgov
    exact hs
  | execute i =>
    simp only [State.execute, bind_eq_ok, pure_eq_ok, Prod.mk.injEq] at h
    obtain ⟨-, -, -, -, -, -, _, -, rfl, -⟩ := h
    exact hs
  | grantRole role account | revokeRole role account | renounceRole role account =>
    obtain ⟨roles, rfl, -⟩ := Governance.onRoles_eq_ok h
    exact hs

theorem Reached.periods (h : Reached env s) : Periods s.gov := by
  induction h with
  | deploy hperiod hdelay h =>
    simp only [Storage.deploy, bind_eq_ok, pure_eq_ok] at h
    obtain ⟨-, -, -, -, -, -, rfl⟩ := h
    exact ⟨hperiod, hdelay⟩
  | call hs htyped h ih => exact exec_periods ih htyped h
  | elsewhere hs portfolio ih => exact ih

/-! ### What is read -/

/-- The calls of the client to the two contracts, `getVault` with the vault it asks for. -/
inductive View where
  | getVault (vault : Address)
  | listVaults
  | currentProposalId
  | cadenceParams
  | activeProposal
  | currentWeights

/-- What a call returns, if it does not revert. -/
def returnData (registry : Registry) (s : State V) : View → Option (List ℕ)
  | .getVault vault =>
    match registry.getVault vault with
    | .ok (metadata, status) => some (getVaultReturns.returns (metadata, status, ()))
    | .error _ => none
  | .listVaults => some (listVaultsReturns.returns (registry.vaults, ()))
  | .currentProposalId => some (currentProposalIdReturns.returns (s.gov.currentProposalId, ()))
  | .cadenceParams =>
    match s.gov.cadenceParams with
    | (votingPeriod, executionDelay, quorumThreshold, totalVotingPower) =>
      some (cadenceParamsReturns.returns
        (votingPeriod, executionDelay, quorumThreshold, totalVotingPower, ()))
  | .activeProposal =>
    match s.gov.activeProposal with
    | .ok p => some (activeProposalReturns.returns p)
    | .error _ => none
  | .currentWeights =>
    match s.currentWeights with
    | (vaults, bps) => some (currentWeightsReturns.returns (vaults, bps, ()))

/-- What the client reads of return data are the contract's own values, for every field that both sides
name. -/
def ReadsTrue (registry : Registry) (s : State V) (data : List ℕ) : View → Prop
  | .getVault vault =>
    ∃ record, getVaultCall.strict data = some (record, ()) ∧
      record.name = (registry.metadata vault).name ∧ record.status = statusIndex (registry.status vault) ∧
      record.registeredAt = (registry.metadata vault).registeredAt
  | .listVaults => listVaultsCall.strict data = some (registry.vaults, ())
  | .currentProposalId => currentProposalIdCall.strict data = some (s.gov.currentProposalId, ())
  | .cadenceParams =>
    cadenceParamsCall.strict data = some (s.gov.votingPeriod, s.gov.executionDelay, s.gov.quorumThreshold,
      s.gov.totalVotingPower, ())
  | .activeProposal =>
    ∃ p, activeProposalCall.strict data = some p ∧
      p.id = (s.gov.proposals s.gov.currentProposalId).id ∧
      p.proposer = (s.gov.proposals s.gov.currentProposalId).proposer ∧
      p.vaults = (s.gov.proposals s.gov.currentProposalId).vaults ∧
      p.bps = (s.gov.proposals s.gov.currentProposalId).bps ∧
      p.votingDeadline = (s.gov.proposals s.gov.currentProposalId).votingDeadline ∧
      p.executableAfter = (s.gov.proposals s.gov.currentProposalId).executableAfter ∧
      p.votesFor = (s.gov.proposals s.gov.currentProposalId).votesFor ∧
      p.executed = (s.gov.proposals s.gov.currentProposalId).executed
  | .currentWeights =>
    currentWeightsCall.strict data = some (s.currentWeights.1, s.currentWeights.2, ())

/-- The call returns no record. -/
def View.Plain : View → Prop
  | .getVault _ | .activeProposal => False
  | .listVaults | .currentProposalId | .cadenceParams | .currentWeights => True

/-- A record is not read. -/
theorem not_readsTrue {registry : Registry} {v : View} {data : List ℕ}
    (h : returnData registry s v = some data) (hv : ¬ v.Plain) : ¬ ReadsTrue registry s data v := by
  cases v with
  | getVault vault =>
    rintro ⟨record, hread, -⟩
    cases hg : registry.getVault vault with
    | error e => simp [returnData, hg] at h
    | ok x =>
      obtain ⟨metadata, status⟩ := x
      simp only [returnData, hg, Option.some.injEq] at h
      rw [← h, getVault_unread] at hread
      cases hread
  | activeProposal =>
    rintro ⟨p, hread, -⟩
    cases hp : s.gov.activeProposal with
    | error e => simp [returnData, hp] at h
    | ok q =>
      simp only [returnData, hp, Option.some.injEq] at h
      rw [← h, activeProposal_unread] at hread
      cases hread
  | listVaults | currentProposalId | cadenceParams | currentWeights => exact absurd trivial hv

/-- **What the client reads.**  In every reachable state, and for every call that the contract answers, the
client decodes the return data to the contract's own values exactly when the call returns no record: always
for `listVaults`, `currentProposalId`, `cadenceParams` and `currentWeights`, and never for a registered vault
and for a proposal. -/
theorem readsTrue_iff {registry : Registry} {v : View} {data : List ℕ} (hs : Reached env s)
    (h : returnData registry s v = some data) : ReadsTrue registry s data v ↔ v.Plain := by
  constructor
  · intro hread
    by_contra hv
    exact not_readsTrue h hv hread
  · intro hv
    cases v with
    | getVault vault | activeProposal => exact absurd hv id
    | listVaults =>
      obtain rfl := Option.some.inj h
      exact listVaults_read _
    | currentProposalId =>
      obtain rfl := Option.some.inj h
      exact currentProposalId_read _
    | cadenceParams =>
      obtain rfl := Option.some.inj h
      exact cadenceParams_read _ _ hs.periods.1 hs.periods.2
    | currentWeights =>
      obtain rfl := Option.some.inj h
      exact currentWeights_read _ _

end Reached

/-! ### A vault and a proposal -/

section Sample

open RobotMoney.Governance (State Storage deployed ballot ballotEnv)
open RouterState (twoVaults)

/-- The governance as deployed, over a router with a voted vector. -/
def votedWeights : State (Address → Address → ℕ) where
  gov := deployed.gov
  portfolio :=
    { deployed.portfolio with
      router :=
        { deployed.portfolio.router with
          weightVaultList := [10, 11]
          weightBps := [4000, 6000]
          votedWeightsActive := true } }

/-- The voted vector is read. -/
theorem readsTrue_iff_voted : ∃ data, returnData twoVaults votedWeights .currentWeights = some data ∧
    currentWeightsCall.strict data = some ([10, 11], [4000, 6000], ()) := by
  have hdeploy : Storage.deploy 1 20 3600 60 5 = .ok votedWeights.gov := rfl
  have hreached : Reached ballotEnv votedWeights := .deploy (by decide) (by decide) hdeploy
  have hdata : returnData twoVaults votedWeights .currentWeights =
      some (currentWeightsReturns.returns ([10, 11], [4000, 6000], ())) := rfl
  exact ⟨_, hdata, (readsTrue_iff hreached hdata).mpr trivial⟩

/-- The vault `10` is registered, and a proposal is voted on: neither record is read. -/
theorem records_unread :
    let s := Lib.run (Governance.State.exec ballotEnv) deployed ballot
    (∃ data, returnData twoVaults s (.getVault 10) = some data ∧ getVaultCall.strict data = none) ∧
      s.gov.currentProposalId = 1 ∧
      ∃ data, returnData twoVaults s .activeProposal = some data ∧ activeProposalCall.strict data = none := by
  intro s
  have hp : s.gov.activeProposal = .ok (s.gov.proposals 1) := rfl
  refine ⟨⟨_, rfl, getVault_unread _ _⟩, by decide, _, ?_, activeProposal_unread (s.gov.proposals 1)⟩
  simp only [returnData, hp]

end Sample

end RobotMoney.Client
