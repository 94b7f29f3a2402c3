import RobotMoney.Client.AuditTrail
import RobotMoney.Client.ReadOutput

/-!
# What is reported of the checks

`commands/self_check.rs`, and the `checks` of a deposit or a withdrawal that is refused.  Of a preflight that
refuses only the error is left, and the report is made up from the error: a chain id that does not match is the
first thing that can be wrong, code that does not match the second, and *every other error* is taken to come
after the two.  It need not: the node may not answer, and the configuration may not parse.

The report is true exactly where the preflight gets as far as to decide whether chain and code match
(`Decided`), whatever the preflight does from there.
-/

namespace RobotMoney.Client

open RobotMoney.Lib

/-! ### The report -/

structure ChecksOutput where
  chainIdMatch : Bool
  gatewayCodeHashMatch : Bool
  gatewayPaused : Bool
  agentActive : Bool
  agentValidUntil : ℕ
  maxPerPayment : String
  maxPerWindow : String
  windowGross : String
  allowance : String
  balance : String
  deriving DecidableEq

def ChecksOutput.fromReport (r : PreflightReport) : ChecksOutput where
  chainIdMatch := true
  gatewayCodeHashMatch := r.gatewayRuntimeHashOk
  gatewayPaused := r.paused
  agentActive := r.agentActive
  agentValidUntil := r.agentValidUntil
  maxPerPayment := toString r.maxPerPayment
  maxPerWindow := toString r.maxPerWindow
  windowGross := toString r.windowGross
  allowance := toString r.allowance
  balance := toString r.balance

def ChecksOutput.unknown : ChecksOutput where
  chainIdMatch := false
  gatewayCodeHashMatch := false
  gatewayPaused := false
  agentActive := false
  agentValidUntil := 0
  maxPerPayment := "0"
  maxPerWindow := "0"
  windowGross := "0"
  allowance := "0"
  balance := "0"

def ChecksOutput.fromErrPartial : RmpcError → ChecksOutput
  | .errChainIdMismatch => .unknown
  | .errCodeHashMismatch => { ChecksOutput.unknown with chainIdMatch := true }
  | .errGatewayPaused =>
    { ChecksOutput.unknown with chainIdMatch := true, gatewayCodeHashMatch := true, gatewayPaused := true }
  | _ => { ChecksOutput.unknown with chainIdMatch := true, gatewayCodeHashMatch := true }

/-- What is reported of a preflight. -/
def ChecksOutput.ofPreflight : Result PreflightReport → ChecksOutput
  | .ok report => .fromReport report
  | .error err => .fromErrPartial err

/-- `error_name` -/
def RmpcError.errorName : RmpcError → String
  | .errAgentNotAuthorized => "ErrAgentNotAuthorized"
  | .errFeeCapExceeded => "ErrFeeCapExceeded"
  | .errConcurrentInvocation => "ErrConcurrentInvocation"
  | .errCodeHashMismatch => "ErrCodeHashMismatch"
  | .errChainIdMismatch => "ErrChainIdMismatch"
  | .errGatewayPaused => "ErrGatewayPaused"
  | .errAllowanceInsufficient => "ErrAllowanceInsufficient"
  | .errBalanceInsufficient => "ErrBalanceInsufficient"
  | .errSoftwareSignerDisallowed => "ErrSoftwareSignerDisallowed"
  | .errProductionSignerRequired => "ErrProductionSignerRequired"
  | .errVaultPaused => "ErrVaultPaused"
  | .errShareBalanceInsufficient => "ErrShareBalanceInsufficient"
  | .errShareAllowanceInsufficient => "ErrShareAllowanceInsufficient"
  | .errConfig _ => "ErrConfig"
  | .errRpcTransport _ => "ErrRpcTransport"
  | .errRpcServer _ _ => "ErrRpcServer"
  | .errRpcDecode _ => "ErrRpcDecode"

/-! ### `rmpc self-check` -/

structure WithdrawalExposure where
  withdrawalsEnabled : Bool
  assetRecipient : String
  maxWithdrawPerPayment : String
  maxWithdrawPerWindow : String
  shareAllowance : String
  staleShareAllowance : Bool
  deriving DecidableEq

def WithdrawalExposure.unknown : WithdrawalExposure where
  withdrawalsEnabled := false
  assetRecipient := "0x0000000000000000000000000000000000000000"
  maxWithdrawPerPayment := "0"
  maxWithdrawPerWindow := "0"
  shareAllowance := "0"
  staleShareAllowance := false

/-- `read_withdrawal_exposure` -/
def readWithdrawalExposure (c : Crates) (rpc : Rpc) (cfg : Config) (agent : Address) : WithdrawalExposure :=
  match c.addressFromStr cfg.gatewayAddress, c.addressFromStr cfg.vaultAddress with
  | .ok gateway, .ok vault =>
    match rpc.callViewAgents gateway agent with
    | .error _ => .unknown
    | .ok agentsRet =>
      -- an allowance that cannot be read counts as none
      let shareAllowance := (rpc.callErc20Allowance vault agent gateway).toOption.getD 0
      let withdrawalsEnabled := decide (agentsRet.maxWithdrawPerPayment ≠ 0)
      { withdrawalsEnabled
        assetRecipient := "0x" ++ String.ofList (hexWord 40 agentsRet.assetRecipient.val)
        maxWithdrawPerPayment := toString agentsRet.maxWithdrawPerPayment
        maxWithdrawPerWindow := toString agentsRet.maxWithdrawPerWindow
        shareAllowance := toString shareAllowance
        staleShareAllowance := !withdrawalsEnabled && decide (shareAllowance ≠ 0) }
  | _, _ => .unknown

structure SelfCheckOutput where
  agentAddress : Address
  chainId : ℕ
  networkEnv : NetworkEnv
  gateway : String
  softwareFallbackAllowed : Bool
  timestamp : ℕ
  checks : ChecksOutput
  withdrawalExposure : WithdrawalExposure
  ok : Bool
  error : Option String

/-- What `run` prints once the signer `agent` is loaded and the client is made: `rpc` answers the preflight, at
the time `now`, and `rpc'` what is asked after it. -/
def selfCheck (c : Crates) (rpc rpc' : Rpc) (cfg : Config) (agent : Address) (now timestamp : ℕ) :
    SelfCheckOutput :=
  let preflightResult := run c rpc cfg now ⟨agent, 0⟩
  let chainId :=
    match preflightResult with
    | .ok report => report.chainId
    | .error _ => cfg.chainId
  { agentAddress := agent
    chainId
    networkEnv := .fromChainId chainId
    gateway := cfg.gatewayAddress
    softwareFallbackAllowed := cfg.signer.allowSoftwareFallback
    timestamp
    -- `run` has the table of `from_err_partial` once more, line by line
    checks := .ofPreflight preflightResult
    withdrawalExposure := readWithdrawalExposure c rpc' cfg agent
    ok := preflightResult.toOption.isSome
    error :=
      match preflightResult with
      | .ok _ => none
      | .error err => some err.errorName }

/-! ### Refused commands -/

namespace Commands

/-- The chain as a preflight reads it, and the time. -/
def chainRead : Exchange → Option (Rpc × ℕ)
  | ⟨.readChain, a⟩ => some a
  | _ => none

/-- The hash that a transaction is answered with. -/
def sentHash : Exchange → Option ℕ
  | ⟨.sendRawTransaction _, a⟩ => a.toOption
  | _ => none

/-- The `checks` of a refusal at the end of the trace: none before the gateway is checked, what that check
gave from there on, and none again when the node has answered the transaction with its hash. -/
def failureChecks (check : Rpc → ℕ → Result PreflightReport) (t : List Exchange) : Option ChecksOutput :=
  match t.filterMap chainRead with
  | [] => none
  | (rpc, now) :: _ => if t.filterMap sentHash = [] then some (.ofPreflight (check rpc now)) else none

/-- `DepositFailure`, its `checks` -/
def depositFailureChecks (c : Crates) (inv : Invocation) : List Exchange → Option ChecksOutput :=
  failureChecks fun rpc now => run c rpc inv.cfg now ⟨inv.agent, inv.args.amount⟩

/-- `WithdrawFailure`, its `checks` -/
def withdrawFailureChecks (c : Crates) (inv : Invocation) : List Exchange → Option ChecksOutput :=
  failureChecks fun rpc now => runWithdrawGateway c rpc inv.cfg now ⟨inv.agent, inv.args.amount⟩

end Commands

/-- The reports that are printed: of which configuration, and what the node answered the preflight. -/
inductive Reports (c : Crates) : Config → Rpc → ChecksOutput → Prop
  | selfCheck (rpc rpc' : Rpc) (cfg : Config) (agent : Address) (now timestamp : ℕ) :
    Reports c cfg rpc (selfCheck c rpc rpc' cfg agent now timestamp).checks
  | deposit {inv : Commands.Invocation} {t : List Commands.Exchange} {e : Commands.Refusal} {rpc : Rpc} {now : ℕ}
      {o : ChecksOutput} (hrun : (Commands.deposit c inv).Runs t (.refused e))
      (hread : (t.filterMap Commands.chainRead).head? = some (rpc, now))
      (hchecks : Commands.depositFailureChecks c inv t = some o) : Reports c inv.cfg rpc o
  | withdraw {inv : Commands.Invocation} {sourceVault : Address} {t : List Commands.Exchange}
      {e : Commands.Refusal} {rpc : Rpc} {now : ℕ} {o : ChecksOutput}
      (hrun : (Commands.withdraw c inv sourceVault).Runs t (.refused e))
      (hread : (t.filterMap Commands.chainRead).head? = some (rpc, now))
      (hchecks : Commands.withdrawFailureChecks c inv t = some o) : Reports c inv.cfg rpc o

/-! ### What is true of a report -/

section Made

variable (c : Crates) (rpc : Rpc) (cfg : Config)

/-- The chain id, with which every preflight begins, was read and is the configured one. -/
def ChainIdRead : Prop := rpc.chainId = .ok cfg.chainId

/-- The code of the gateway was read, which is done on the right chain only; there is some, and it has the
pinned hash. -/
def CodeRead : Prop :=
  ChainIdRead rpc cfg ∧ ∃ gateway code, c.addressFromStr cfg.gatewayAddress = .ok gateway ∧
    rpc.getCode gateway = .ok code ∧ code ≠ [] ∧ c.parseB256Hex cfg.gatewayRuntimeHash = .ok (c.keccak256 code)

/-- The two checks that a report names were made. -/
structure ChecksOutput.Made (o : ChecksOutput) : Prop where
  chainId : o.chainIdMatch = true → ChainIdRead rpc cfg
  code : o.gatewayCodeHashMatch = true → CodeRead c rpc cfg

/-- It comes to a decision whether the chain and the code are the right ones: the chain id is answered; on the
right chain, the address of the gateway parses and its code is answered; and where there is code, the pinned
hash parses. -/
def Decided : Prop :=
  ∃ chainId, rpc.chainId = .ok chainId ∧ (chainId = cfg.chainId → ∃ gateway code,
    c.addressFromStr cfg.gatewayAddress = .ok gateway ∧ rpc.getCode gateway = .ok code ∧
      (code ≠ [] → ∃ hash, c.parseB256Hex cfg.gatewayRuntimeHash = .ok hash))

/-- What `RpcClient::call` fails with. -/
def RmpcError.IsRpc : RmpcError → Prop
  | .errRpcTransport _ | .errRpcServer _ _ | .errRpcDecode _ => True
  | _ => False

/-- The two calls give an answer or fail with an error of the transport, of the server or of the decoding. -/
structure Rpc.Calls : Prop where
  chainId : ∀ e, rpc.chainId = .error e → e.IsRpc
  getCode : ∀ gateway e, rpc.getCode gateway = .error e → e.IsRpc

/-- The checks 1 and 2, of the chain and the code. -/
def checkCode : Result (ℕ × Address) := do
  let chainId ← rpc.chainId
  refuseIf (chainId ≠ cfg.chainId) .errChainIdMismatch
  let gateway ← c.parseAddr cfg.gatewayAddress "gateway_address"
  let code ← rpc.getCode gateway
  refuseIf (code = []) .errCodeHashMismatch
  let expectedHash ← c.parseB256Hex cfg.gatewayRuntimeHash
  refuseIf (c.keccak256 code ≠ expectedHash) .errCodeHashMismatch
  pure (chainId, gateway)

end Made

section Decided

variable {c : Crates} {rpc : Rpc} {cfg : Config} {now : ℕ} {signer : Address}

/-- The other checks come after these. -/
theorem checkGateway_eq_bind : ∃ k, checkGateway c rpc cfg now signer = checkCode c rpc cfg >>= k := by
  refine ⟨fun (chainId, gateway) => do
    let paused ← rpc.callViewPaused gateway
    refuseIf (paused = true) .errGatewayPaused
    let usdcOnChain ← rpc.callViewUsdc gateway
    let usdc ← checkPinned c usdcOnChain cfg.usdcAddress "usdc" "usdc_address"
    let vaultOnChain ← rpc.callViewVault gateway
    let _ ← checkPinned c vaultOnChain cfg.vaultAddress "vault" "vault_address"
    let agent ← rpc.callViewAgents gateway signer
    refuseIf (agent.active = false) .errAgentNotAuthorized
    refuseIf (agent.validUntil < now) .errAgentNotAuthorized
    pure (chainId, gateway, usdc, agent), ?_⟩
  unfold checkGateway checkCode
  simp only [bind_assoc, pure_bind]

theorem runInner_eq_bind {inputs : PreflightInputs} {checkUsdc : Bool} :
    ∃ k, runInner c rpc cfg now inputs checkUsdc = checkCode c rpc cfg >>= k := by
  obtain ⟨k, hk⟩ : ∃ k, checkGateway c rpc cfg now inputs.signerAddress = checkCode c rpc cfg >>= k :=
    checkGateway_eq_bind
  unfold runInner
  rw [hk, bind_assoc]
  exact ⟨_, rfl⟩

theorem runWithdrawGateway_eq_bind {inputs : PreflightInputs} :
    ∃ k, runWithdrawGateway c rpc cfg now inputs = checkCode c rpc cfg >>= k := by
  obtain ⟨k, hk⟩ : ∃ k, checkGateway c rpc cfg now inputs.signerAddress = checkCode c rpc cfg >>= k :=
    checkGateway_eq_bind
  unfold runWithdrawGateway
  rw [hk, bind_assoc]
  exact ⟨_, rfl⟩

@[simp] theorem fromErrPartial_chainIdMatch {e : RmpcError} :
    (ChecksOutput.fromErrPartial e).chainIdMatch = true ↔ e ≠ .errChainIdMismatch := by
  cases e <;> simp [ChecksOutput.fromErrPartial, ChecksOutput.unknown]

@[simp] theorem fromErrPartial_gatewayCodeHashMatch {e : RmpcError} :
    (ChecksOutput.fromErrPartial e).gatewayCodeHashMatch = true ↔
      e ≠ .errChainIdMismatch ∧ e ≠ .errCodeHashMismatch := by
  cases e <;> simp [ChecksOutput.fromErrPartial, ChecksOutput.unknown]

theorem RmpcError.IsRpc.ne_mismatch {e : RmpcError} (h : e.IsRpc) :
    e ≠ .errChainIdMismatch ∧ e ≠ .errCodeHashMismatch := by
  constructor <;> rintro rfl <;> exact h

/-- Once the pin is passed, the two checks were made, whatever is reported. -/
theorem made_of_codeRead (h : CodeRead c rpc cfg) {o : ChecksOutput} : o.Made c rpc cfg :=
  ⟨fun _ => h.1, fun _ => h⟩

theorem decided_of_codeRead (h : CodeRead c rpc cfg) : Decided c rpc cfg := by
  obtain ⟨hchain, gateway, code, hgateway, hcode, -, hhash⟩ := h
  exact ⟨_, hchain, fun _ => ⟨gateway, code, hgateway, hcode, fun _ => ⟨_, hhash⟩⟩⟩

theorem checkCode_eq_ok {r : ℕ × Address} (h : checkCode c rpc cfg = .ok r) : CodeRead c rpc cfg := by
  unfold checkCode at h
  simp only [bind_eq_ok, parseAddr_eq_ok, refuseIf_eq_ok, exists_const, not_not, ne_eq] at h
  obtain ⟨chainId, hchain, rfl, gateway, hgateway, code, hcode, hne, hash, hhash, rfl, -⟩ := h
  exact ⟨hchain, gateway, code, hgateway, hcode, hne, hhash⟩

/-- An error other than the two mismatches claims both checks, which without a decision is false. -/
theorem made_iff_of_undecided {e : RmpcError} (he : e ≠ .errChainIdMismatch ∧ e ≠ .errCodeHashMismatch)
    (h : ¬ Decided c rpc cfg) : (ChecksOutput.fromErrPartial e).Made c rpc cfg ↔ Decided c rpc cfg :=
  iff_of_false (fun hmade => h (decided_of_codeRead (hmade.code (fromErrPartial_gatewayCodeHashMatch.mpr he)))) h

theorem parseAddr_eq_error {text field : String} {e : RmpcError} (h : c.parseAddr text field = .error e) :
    ∃ message, e = .errConfig message := by
  unfold Crates.parseAddr at h
  cases htext : c.addressFromStr text with
  | error message =>
    rw [htext] at h
    cases h
    exact ⟨_, rfl⟩
  | ok a =>
    rw [htext] at h
    cases h

theorem refuseIf_eq_error {p : Prop} [Decidable p] {e e' : RmpcError} :
    refuseIf p e' = .error e ↔ p ∧ e = e' := by
  unfold refuseIf
  split <;> simp_all [eq_comm]

theorem parseB256Hex_eq_error {text : String} {e : RmpcError} (h : c.parseB256Hex text = .error e) :
    ∃ message, e = .errConfig message := by
  unfold Crates.parseB256Hex at h
  simp only [bind_eq_error, refuseIf_eq_error] at h
  rcases h with h | ⟨bytes, -, ⟨-, rfl⟩ | ⟨_, _, h⟩⟩
  · cases hbytes : c.hexDecode (stripHexPrefix text) with
    | error message =>
      rw [hbytes] at h
      cases h
      exact ⟨_, rfl⟩
    | ok bytes =>
      rw [hbytes] at h
      cases h
  · exact ⟨_, rfl⟩
  · cases h

/-- **Where the pin is not passed**, the report that is made up from the error is true just where there was a
decision. -/
theorem made_fromErrPartial_iff (hcalls : rpc.Calls) {e : RmpcError} (h : checkCode c rpc cfg = .error e) :
    (ChecksOutput.fromErrPartial e).Made c rpc cfg ↔ Decided c rpc cfg := by
  unfold checkCode at h
  simp only [bind_eq_error, refuseIf_eq_error, refuseIf_eq_ok, not_not, ne_eq] at h
  -- the steps of the pin in turn, each of which fails or goes on
  rcases h with hchain | ⟨chainId, hchain, ⟨hid, rfl⟩ | ⟨_, rfl, hgateway | ⟨gateway, hgateway, hcode |
    ⟨code, hcode, ⟨rfl, rfl⟩ | ⟨_, hne, hhash | ⟨hash, hhash, ⟨-, rfl⟩ | ⟨_, _, hdone⟩⟩⟩⟩⟩⟩⟩
  · refine made_iff_of_undecided (hcalls.chainId e hchain).ne_mismatch ?_
    rintro ⟨chainId, hok, -⟩
    cases hchain.symm.trans hok
  · exact iff_of_true ⟨by simp, by simp⟩ ⟨chainId, hchain, fun heq => absurd heq hid⟩
  · obtain ⟨message, rfl⟩ := parseAddr_eq_error hgateway
    refine made_iff_of_undecided (by simp) ?_
    rintro ⟨_, hok, hdec⟩
    cases hchain.symm.trans hok
    obtain ⟨gateway, _, hparsed, -⟩ := hdec rfl
    cases hgateway.symm.trans (parseAddr_eq_ok.mpr hparsed)
  · refine made_iff_of_undecided (hcalls.getCode gateway e hcode).ne_mismatch ?_
    rintro ⟨_, hok, hdec⟩
    cases hchain.symm.trans hok
    obtain ⟨gateway', _, hparsed, hok', -⟩ := hdec rfl
    cases hgateway.symm.trans (parseAddr_eq_ok.mpr hparsed)
    cases hcode.symm.trans hok'
  · exact iff_of_true ⟨fun _ => hchain, by simp⟩
      ⟨_, hchain, fun _ => ⟨gateway, [], parseAddr_eq_ok.mp hgateway, hcode, fun hne => absurd rfl hne⟩⟩
  · obtain ⟨message, rfl⟩ := parseB256Hex_eq_error hhash
    refine made_iff_of_undecided (by simp) ?_
    rintro ⟨_, hok, hdec⟩
    cases hchain.symm.trans hok
    obtain ⟨gateway', code', hparsed, hok', hhash'⟩ := hdec rfl
    cases hgateway.symm.trans (parseAddr_eq_ok.mpr hparsed)
    cases hcode.symm.trans hok'
    obtain ⟨hash, hok''⟩ := hhash' hne
    cases hhash.symm.trans hok''
  · exact iff_of_true ⟨fun _ => hchain, by simp⟩
      ⟨_, hchain, fun _ => ⟨gateway, code, parseAddr_eq_ok.mp hgateway, hcode, fun _ => ⟨hash, hhash⟩⟩⟩
  · cases hdone

/-- **What is reported of a preflight**: what follows the pin does not matter. -/
theorem made_ofPreflight_iff (hcalls : rpc.Calls) {r : Result PreflightReport}
    (hr : ∃ k, r = checkCode c rpc cfg >>= k) :
    (ChecksOutput.ofPreflight r).Made c rpc cfg ↔ Decided c rpc cfg := by
  obtain ⟨k, rfl⟩ := hr
  cases hcode : checkCode c rpc cfg with
  | ok _ =>
    have hread := checkCode_eq_ok hcode
    exact ⟨fun _ => decided_of_codeRead hread, fun _ => made_of_codeRead hread⟩
  | error e => exact made_fromErrPartial_iff hcalls hcode

/-- A refusal that comes with checks has those of the first preflight. -/
theorem Commands.failureChecks_eq_some {check : Rpc → ℕ → Result PreflightReport} {t : List Exchange}
    {o : ChecksOutput} (hread : (t.filterMap chainRead).head? = some (rpc, now))
    (h : failureChecks check t = some o) : o = .ofPreflight (check rpc now) := by
  unfold failureChecks at h
  obtain ⟨rest, hrest⟩ := List.head?_eq_some_iff.mp hread
  rw [hrest] at h
  simp only [Option.ite_none_right_eq_some, Option.some.injEq] at h
  exact h.2.symm

end Decided

/-- **The checks that are reported were made, just where there was a decision.** -/
theorem reported_checks_made_iff {c : Crates} {cfg : Config} {rpc : Rpc} {o : ChecksOutput}
    (h : Reports c cfg rpc o) (hcalls : rpc.Calls) : o.Made c rpc cfg ↔ Decided c rpc cfg := by
  cases h with
  | selfCheck => exact made_ofPreflight_iff hcalls runInner_eq_bind
  | deposit _ hread hchecks =>
    rw [Commands.failureChecks_eq_some hread hchecks]
    exact made_ofPreflight_iff hcalls runInner_eq_bind
  | withdraw _ hread hchecks =>
    rw [Commands.failureChecks_eq_some hread hchecks]
    exact made_ofPreflight_iff hcalls runWithdrawGateway_eq_bind

/-! ### Two nodes -/

/-- A node that does not answer. -/
def silentNode : Rpc where
  chainId := .error (.errRpcTransport "connection refused")
  getCode _ := .error (.errRpcTransport "connection refused")
  callViewPaused _ := .error (.errRpcTransport "connection refused")
  callViewUsdc _ := .error (.errRpcTransport "connection refused")
  callViewVault _ := .error (.errRpcTransport "connection refused")
  callViewAgents _ _ := .error (.errRpcTransport "connection refused")
  callViewAgentDepositWindowGross _ _ := .error (.errRpcTransport "connection refused")
  callViewAgentWithdrawWindowGross _ _ := .error (.errRpcTransport "connection refused")
  callViewAllowance _ _ _ := .error (.errRpcTransport "connection refused")
  callViewBalanceOf _ _ := .error (.errRpcTransport "connection refused")
  callVaultPaused _ := .error (.errRpcTransport "connection refused")
  callErc20Allowance _ _ _ := .error (.errRpcTransport "connection refused")
  callErc20BalanceOf _ _ := .error (.errRpcTransport "connection refused")

/-- One that answers up to the code of the gateway. -/
def pinnedNode : Rpc := { silentNode with chainId := .ok 8453, getCode := fun _ => .ok mockCode }

theorem silentNode_calls : silentNode.Calls where
  chainId e h := by
    cases h
    trivial
  getCode gateway e h := by
    cases h
    trivial

theorem pinnedNode_calls : pinnedNode.Calls where
  chainId e h := by cases h
  getCode gateway e h := by cases h

theorem reported_checks_made_pinned :
    (selfCheck mockCrates pinnedNode silentNode mockConfig 7 0 0).checks.chainIdMatch = true ∧
      (selfCheck mockCrates pinnedNode silentNode mockConfig 7 0 0).checks.Made mockCrates pinnedNode mockConfig := by
  refine ⟨by decide, (reported_checks_made_iff (.selfCheck ..) pinnedNode_calls).mpr ⟨8453, rfl, fun _ => ?_⟩⟩
  exact ⟨1, mockCode, rfl, rfl, fun _ => ⟨mockHash, by decide⟩⟩

/-- Nothing is read, and the report has both checks. -/
theorem silent_node_reported :
    silentNode.Calls ∧ ¬ ChainIdRead silentNode mockConfig ∧ ¬ CodeRead mockCrates silentNode mockConfig ∧
      (selfCheck mockCrates silentNode silentNode mockConfig 7 0 0).checks.chainIdMatch = true ∧
      (selfCheck mockCrates silentNode silentNode mockConfig 7 0 0).checks.gatewayCodeHashMatch = true := by
  have hchain : ¬ ChainIdRead silentNode mockConfig := by
    intro h
    cases h
  exact ⟨silentNode_calls, hchain, fun h => hchain h.1, by decide, by decide⟩

end RobotMoney.Client
