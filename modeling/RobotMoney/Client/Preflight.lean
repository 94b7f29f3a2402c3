import RobotMoney.Client.Config
import RobotMoney.Gateway.Effect
import RobotMoney.Vault.Pause

/-!
# The preflight of the payment client

`policy/mod.rs`: before anything is signed, the client reads the chain and refuses what the gateway would
refuse.  `run` is the preflight of a deposit, `runWithdrawGateway` the first half of that of a withdrawal;
the second half, `withdrawVaultPreflight`, is with the vault's flags.

The preflight is a list of reads and refusals, in the order of the source, over whatever the node answers
(`Rpc`).  `Shows` says that the node shows one state of the gateway, in one block; then what the preflight
accepts is a conjunction of plain conditions: `run_ok_iff`, `runWithdrawGateway_ok_iff`.
-/

namespace RobotMoney.Client

open RobotMoney.Lib
open RobotMoney.Gateway (AgentPolicy Env State maxDeadlineSkew)

/-! ### Parsing -/

/-- What the client uses of the crates `alloy_primitives` and `hex`. -/
structure Crates where
  /-- `Address::from_str`, with the text of its error -/
  addressFromStr : String → Except String Address
  /-- `{:?}` of an address -/
  addressDebug : Address → String
  /-- `hex::decode`, with the text of its error -/
  hexDecode : String → Except String (List UInt8)
  keccak256 : List UInt8 → List UInt8

/-- `parse_addr` -/
def Crates.parseAddr (c : Crates) (s field : String) : Result Address :=
  (c.addressFromStr s).mapError fun e => .errConfig (field ++ ": " ++ e)

/-- `s.strip_prefix("0x").unwrap_or(s)` -/
def stripHexPrefix (s : String) : String :=
  match s.toList with
  | '0' :: 'x' :: rest => String.ofList rest
  | _ => s

/-- `parse_b256_hex` -/
def Crates.parseB256Hex (c : Crates) (s : String) : Result (List UInt8) := do
  let bytes ← (c.hexDecode (stripHexPrefix s)).mapError fun e => .errConfig ("gateway_runtime_hash: " ++ e)
  refuseIf (bytes.length ≠ 32)
    (.errConfig ("gateway_runtime_hash: expected 32 bytes, got " ++ toString bytes.length))
  pure bytes

/-! ### The node -/

/-- What `agents(agent)` returns: the policy without its two lists. -/
structure AgentsReturn where
  active : Bool
  validUntil : ℕ
  maxPerPayment : ℕ
  maxPerWindow : ℕ
  shareReceiver : Address
  assetRecipient : Address
  maxWithdrawPerPayment : ℕ
  maxWithdrawPerWindow : ℕ

/-- The getter of `agents`. -/
def agentsView (p : AgentPolicy) : AgentsReturn where
  active := p.active
  validUntil := p.validUntil
  maxPerPayment := p.maxPerPayment
  maxPerWindow := p.maxPerWindow
  shareReceiver := p.shareReceiver
  assetRecipient := p.assetRecipient
  maxWithdrawPerPayment := p.maxWithdrawPerPayment
  maxWithdrawPerWindow := p.maxWithdrawPerWindow

/-- What the node answers, call by call: `eth_chainId`, `eth_getCode`, and the views by `eth_call`. -/
structure Rpc where
  chainId : Result ℕ
  getCode : Address → Result (List UInt8)
  callViewPaused : (gateway : Address) → Result Bool
  callViewUsdc : (gateway : Address) → Result Address
  callViewVault : (gateway : Address) → Result Address
  callViewAgents : (gateway agent : Address) → Result AgentsReturn
  callViewAgentDepositWindowGross : (gateway agent : Address) → Result ℕ
  callViewAgentWithdrawWindowGross : (gateway agent : Address) → Result ℕ
  callViewAllowance : (token owner spender : Address) → Result ℕ
  callViewBalanceOf : (token who : Address) → Result ℕ
  callVaultPaused : (vault : Address) → Result Bool
  callErc20Allowance : (token owner spender : Address) → Result ℕ
  callErc20BalanceOf : (token who : Address) → Result ℕ

/-! ### The checks -/

structure PreflightInputs where
  signerAddress : Address
  amount : ℕ

structure PreflightReport where
  chainId : ℕ
  gatewayRuntimeHashOk : Bool
  paused : Bool
  agentActive : Bool
  agentValidUntil : ℕ
  maxPerPayment : ℕ
  maxPerWindow : ℕ
  windowGross : ℕ
  allowance : ℕ
  balance : ℕ

/-- `saturating_add` of `U256` -/
def saturatingAdd (a b : ℕ) : ℕ := min (a + b) maxWord

section

variable (c : Crates) (rpc : Rpc) (cfg : Config)

/-- The pinned address `onChain`, as `view` gives it, is the configured one. -/
def checkPinned (onChain : Address) (configured view field : String) : Result Address := do
  let parsed ← c.parseAddr configured field
  refuseIf (onChain ≠ parsed)
    (.errConfig ("gateway." ++ view ++ "() = " ++ c.addressDebug onChain ++ " does not match configured " ++
      field ++ " = " ++ c.addressDebug parsed))
  pure parsed

/-- What `run_inner` and `run_withdraw_inner` have in common, the checks 1 to 6: the chain id, the
addresses of the gateway and of USDC, and the policy of the agent. -/
def checkGateway (now : ℕ) (signer : Address) : Result (ℕ × Address × Address × AgentsReturn) := do
  let chainId ← rpc.chainId
  refuseIf (chainId ≠ cfg.chainId) .errChainIdMismatch
  let gateway ← c.parseAddr cfg.gatewayAddress "gateway_address"
  let code ← rpc.getCode gateway
  refuseIf (code = []) .errCodeHashMismatch
  let expectedHash ← c.parseB256Hex cfg.gatewayRuntimeHash
  refuseIf (c.keccak256 code ≠ expectedHash) .errCodeHashMismatch
  let paused ← rpc.callViewPaused gateway
  refuseIf (paused = true) .errGatewayPaused
  let usdcOnChain ← rpc.callViewUsdc gateway
  let usdc ← checkPinned c usdcOnChain cfg.usdcAddress "usdc" "usdc_address"
  let vaultOnChain ← rpc.callViewVault gateway
  let _ ← checkPinned c vaultOnChain cfg.vaultAddress "vault" "vault_address"
  let agent ← rpc.callViewAgents gateway signer
  refuseIf (agent.active = false) .errAgentNotAuthorized
  refuseIf (agent.validUntil < now) .errAgentNotAuthorized
  pure (chainId, gateway, usdc, agent)

/-- The allowance and the balance of a deposit, the checks 9 and 10. -/
def checkFunds (usdc gateway signer : Address) (amount : ℕ) : Result (ℕ × ℕ) := do
  let allowance ← rpc.callViewAllowance usdc signer gateway
  refuseIf (allowance < amount) .errAllowanceInsufficient
  let balance ← rpc.callViewBalanceOf usdc signer
  refuseIf (balance < amount) .errBalanceInsufficient
  pure (allowance, balance)

/-- `run_inner`, at the client's time `now`. -/
def runInner (now : ℕ) (inputs : PreflightInputs) (checkUsdc : Bool) : Result PreflightReport := do
  let (chainId, gateway, usdc, agent) ← checkGateway c rpc cfg now inputs.signerAddress
  refuseIf (agent.maxPerPayment < inputs.amount)
    (.errConfig ("amount " ++ toString inputs.amount ++ " exceeds agent maxPerPayment " ++
      toString agent.maxPerPayment))
  let windowGross ← rpc.callViewAgentDepositWindowGross gateway inputs.signerAddress
  refuseIf (agent.maxPerWindow < saturatingAdd windowGross inputs.amount)
    (.errConfig ("rollingDepositGross " ++ toString windowGross ++ " + amount " ++ toString inputs.amount ++
      " exceeds maxPerWindow " ++ toString agent.maxPerWindow))
  let (allowance, balance) ←
    if checkUsdc then checkFunds rpc usdc gateway inputs.signerAddress inputs.amount else pure (0, 0)
  pure
    { chainId
      gatewayRuntimeHashOk := true
      paused := false
      agentActive := agent.active
      agentValidUntil := agent.validUntil
      maxPerPayment := agent.maxPerPayment
      maxPerWindow := agent.maxPerWindow
      windowGross, allowance, balance }

/-- `Preflight::run` -/
def run (now : ℕ) (inputs : PreflightInputs) : Result PreflightReport :=
  runInner c rpc cfg now inputs true

/-- `Preflight::run_gateway_only` -/
def runGatewayOnly (now : ℕ) (inputs : PreflightInputs) : Result PreflightReport :=
  runInner c rpc cfg now inputs false

/-- `Preflight::run_withdraw_gateway` -/
def runWithdrawGateway (now : ℕ) (inputs : PreflightInputs) : Result PreflightReport := do
  let (chainId, gateway, _, agent) ← checkGateway c rpc cfg now inputs.signerAddress
  refuseIf (agent.maxWithdrawPerPayment < inputs.amount)
    (.errConfig ("shares " ++ toString inputs.amount ++ " exceeds agent maxWithdrawPerPayment " ++
      toString agent.maxWithdrawPerPayment))
  let windowGross ← rpc.callViewAgentWithdrawWindowGross gateway inputs.signerAddress
  refuseIf (agent.maxWithdrawPerWindow < saturatingAdd windowGross inputs.amount)
    (.errConfig ("rollingWithdrawGross " ++ toString windowGross ++ " + shares " ++
      toString inputs.amount ++ " exceeds maxWithdrawPerWindow " ++ toString agent.maxWithdrawPerWindow))
  pure
    { chainId
      gatewayRuntimeHashOk := true
      paused := false
      agentActive := agent.active
      agentValidUntil := agent.validUntil
      maxPerPayment := agent.maxWithdrawPerPayment
      maxPerWindow := agent.maxWithdrawPerWindow
      windowGross
      allowance := 0
      balance := 0 }

/-- `withdraw_vault_preflight`, on a source vault. -/
def vaultPreflight (sourceVault gateway agent : Address) (shares : ℕ) : Result Unit :=
  Vault.withdrawVaultPreflight (rpc.callVaultPaused sourceVault)
    (rpc.callErc20Allowance sourceVault agent gateway) (rpc.callErc20BalanceOf sourceVault agent) shares

end

/-! ### What the preflight accepts -/

section Accepts

variable {V : Type}

/-- The node shows the state `s` of the gateway that the client is configured with, in the block `b`. -/
structure Shows (c : Crates) (rpc : Rpc) (cfg : Config) (env : Env V) (s : State V) (b : Block) :
    Prop where
  gateway : c.addressFromStr cfg.gatewayAddress = .ok env.self
  self_ne : env.self ≠ 0
  chainId : rpc.chainId = .ok env.chainid
  paused : rpc.callViewPaused env.self = .ok s.paused
  usdc : rpc.callViewUsdc env.self = .ok env.usdcToken
  vault : rpc.callViewVault env.self = .ok env.vaultContract
  agents : ∀ a, rpc.callViewAgents env.self a = .ok (agentsView (s.agents a))
  depositGross : ∀ a, rpc.callViewAgentDepositWindowGross env.self a =
    .ok (s.effectiveDepositWindowGross b a)
  withdrawGross : ∀ a, rpc.callViewAgentWithdrawWindowGross env.self a =
    .ok (s.effectiveWithdrawWindowGross b a)
  allowance : ∀ o x, rpc.callViewAllowance env.usdcToken o x = .ok (s.world.usdc.allowance o x)
  balanceOf : ∀ a, rpc.callViewBalanceOf env.usdcToken a = .ok (s.world.usdc.balanceOf a)
  shareAllowance : ∀ o x, rpc.callErc20Allowance env.vaultContract o x = .ok (s.world.shares.allowance o x)
  shareBalanceOf : ∀ a, rpc.callErc20BalanceOf env.vaultContract a = .ok (s.world.shares.balanceOf a)

/-- The gateway is the configured one: its chain, its code, and what it is pinned to. -/
structure Configured (c : Crates) (rpc : Rpc) (cfg : Config) (env : Env V) : Prop where
  chainId : env.chainid = cfg.chainId
  code : ∃ code, rpc.getCode env.self = .ok code ∧ code ≠ [] ∧
    c.parseB256Hex cfg.gatewayRuntimeHash = .ok (c.keccak256 code)
  usdc : c.addressFromStr cfg.usdcAddress = .ok env.usdcToken
  vault : c.addressFromStr cfg.vaultAddress = .ok env.vaultContract

/-- The gateway is not paused, and the policy is active and not expired. -/
structure Authorized (s : State V) (now : ℕ) (signer : Address) : Prop where
  unpaused : s.paused = false
  active : (s.agents signer).active = true
  unexpired : now ≤ (s.agents signer).validUntil

variable {c : Crates} {rpc : Rpc} {cfg : Config} {env : Env V} {s : State V} {b : Block} {now amount : ℕ}
  {signer : Address}

theorem parseAddr_eq_ok {text field : String} {a : Address} :
    c.parseAddr text field = .ok a ↔ c.addressFromStr text = .ok a := by
  unfold Crates.parseAddr
  cases c.addressFromStr text <;> simp [Except.mapError]

theorem checkPinned_eq_ok {onChain a : Address} {text view field : String} :
    checkPinned c onChain text view field = .ok a ↔ c.addressFromStr text = .ok onChain ∧ a = onChain := by
  unfold checkPinned
  simp only [bind_eq_ok, parseAddr_eq_ok, refuseIf_eq_ok, exists_const, not_not, pure,
    Except.pure, Except.ok.injEq]
  constructor
  · rintro ⟨parsed, htext, rfl, rfl⟩
    exact ⟨htext, rfl⟩
  · rintro ⟨htext, rfl⟩
    exact ⟨a, htext, rfl, rfl⟩

theorem checkGateway_eq_ok (h : Shows c rpc cfg env s b) {r : ℕ × Address × Address × AgentsReturn} :
    checkGateway c rpc cfg now signer = .ok r ↔ Configured c rpc cfg env ∧ Authorized s now signer ∧
      r = (env.chainid, env.self, env.usdcToken, agentsView (s.agents signer)) := by
  unfold checkGateway
  simp only [bind_eq_ok, parseAddr_eq_ok, refuseIf_eq_ok, exists_const, not_not,
    checkPinned_eq_ok, Nat.not_lt, pure, Except.pure, Except.ok.injEq, h.chainId, h.gateway,
    exists_eq_left', ne_eq]
  constructor
  · rintro ⟨hchain, code, hcode, hne, hash, hhash, rfl, paused, hpaused, hunpaused, usdcOnChain, husdc,
      usdc, ⟨hparse, rfl⟩, vaultOnChain, hvault, vault, ⟨hparse', rfl⟩, agent, hagent, hactive, huntil, rfl⟩
    cases h.paused.symm.trans hpaused
    cases h.usdc.symm.trans husdc
    cases h.vault.symm.trans hvault
    cases (h.agents signer).symm.trans hagent
    exact ⟨⟨hchain, ⟨code, hcode, hne, hhash⟩, hparse, hparse'⟩,
      ⟨Bool.eq_false_of_not_eq_true hunpaused, Bool.eq_true_of_not_eq_false hactive, huntil⟩, rfl⟩
  · rintro ⟨⟨hchain, ⟨code, hcode, hne, hhash⟩, hparse, hparse'⟩, ⟨hunpaused, hactive, huntil⟩, rfl⟩
    exact ⟨hchain, code, hcode, hne, _, hhash, rfl, _, h.paused, by simp [hunpaused], _, h.usdc, _,
      ⟨hparse, rfl⟩, _, h.vault, _, ⟨hparse', rfl⟩, _, h.agents signer, by simp [agentsView, hactive],
      huntil, rfl⟩

/-- **What the preflight of a deposit accepts.** -/
theorem run_ok_iff (h : Shows c rpc cfg env s b) :
    (∃ r, run c rpc cfg now ⟨signer, amount⟩ = .ok r) ↔
      Configured c rpc cfg env ∧ Authorized s now signer ∧
        amount ≤ (s.agents signer).maxPerPayment ∧
        saturatingAdd (s.effectiveDepositWindowGross b signer) amount ≤ (s.agents signer).maxPerWindow ∧
        amount ≤ s.world.usdc.allowance signer env.self ∧ amount ≤ s.world.usdc.balanceOf signer := by
  unfold run runInner checkFunds
  simp only [bind_eq_ok, checkGateway_eq_ok h, refuseIf_eq_ok, exists_const, Nat.not_lt, if_true,
    pure, Except.pure, Except.ok.injEq]
  constructor
  · rintro ⟨r, _, ⟨hconf, hauth, rfl⟩, hpay, gross, hgross, hwindow, _, ⟨allowance, hallow, hle, balance,
      hbal, hle', rfl⟩, rfl⟩
    cases (h.depositGross signer).symm.trans hgross
    cases (h.allowance signer env.self).symm.trans hallow
    cases (h.balanceOf signer).symm.trans hbal
    exact ⟨hconf, hauth, hpay, hwindow, hle, hle'⟩
  · rintro ⟨hconf, hauth, hpay, hwindow, hle, hle'⟩
    exact ⟨_, _, ⟨hconf, hauth, rfl⟩, hpay, _, h.depositGross signer, hwindow, _, ⟨_, h.allowance _ _, hle,
      _, h.balanceOf _, hle', rfl⟩, rfl⟩

/-- **What the preflight of a withdrawal accepts**, of the gateway. -/
theorem runWithdrawGateway_ok_iff (h : Shows c rpc cfg env s b) :
    (∃ r, runWithdrawGateway c rpc cfg now ⟨signer, amount⟩ = .ok r) ↔
      Configured c rpc cfg env ∧ Authorized s now signer ∧
        amount ≤ (s.agents signer).maxWithdrawPerPayment ∧
        saturatingAdd (s.effectiveWithdrawWindowGross b signer) amount ≤
          (s.agents signer).maxWithdrawPerWindow := by
  unfold runWithdrawGateway
  simp only [bind_eq_ok, checkGateway_eq_ok h, refuseIf_eq_ok, exists_const, Nat.not_lt, pure,
    Except.pure, Except.ok.injEq]
  constructor
  · rintro ⟨r, _, ⟨hconf, hauth, rfl⟩, hpay, gross, hgross, hwindow, rfl⟩
    cases (h.withdrawGross signer).symm.trans hgross
    exact ⟨hconf, hauth, hpay, hwindow⟩
  · rintro ⟨hconf, hauth, hpay, hwindow⟩
    exact ⟨_, _, ⟨hconf, hauth, rfl⟩, hpay, _, h.withdrawGross signer, hwindow, rfl⟩

/-- What it accepts of a vault. -/
theorem vaultPreflight_ok_iff {sourceVault gateway : Address} {shares : ℕ} :
    vaultPreflight rpc sourceVault gateway signer shares = .ok () ↔
      rpc.callVaultPaused sourceVault = .ok false ∧
        (∃ a, rpc.callErc20Allowance sourceVault signer gateway = .ok a ∧ shares ≤ a) ∧
        ∃ a, rpc.callErc20BalanceOf sourceVault signer = .ok a ∧ shares ≤ a := by
  unfold vaultPreflight Vault.withdrawVaultPreflight
  cases hpaused : rpc.callVaultPaused sourceVault with
  | error e => simp [bind, Except.bind]
  | ok paused =>
    cases paused with
    | true => simp [bind, Except.bind]
    | false =>
      cases hallow : rpc.callErc20Allowance sourceVault signer gateway with
      | error e => simp [bind, Except.bind]
      | ok a =>
        by_cases hle : a < shares
        · simp [bind, Except.bind, hle]
        · cases hbal : rpc.callErc20BalanceOf sourceVault signer with
          | error e => simp [bind, Except.bind, hle]
          | ok a' =>
            by_cases hle' : a' < shares
            · simp [bind, Except.bind, hle, hle']
            · simp [bind, Except.bind, hle, hle', Nat.not_lt.mp hle, Nat.not_lt.mp hle']

/-! ### A node

A node that shows a state, and a configuration for the gateway at `1`, USDC at `2` and the vault at `3`. -/

/-- The code of the gateway. -/
def mockCode : List UInt8 := [0x61, 0x62, 0x63]

/-- Its hash, as bytes. -/
def mockHash : List UInt8 :=
  [0x4e, 0x03, 0x65, 0x7a, 0xea, 0x45, 0xa9, 0x4f, 0xc7, 0xd4, 0x7b, 0xa8, 0x26, 0xc8, 0xd6, 0x67,
    0xc0, 0xd1, 0xe6, 0xe3, 0x3a, 0x64, 0xa0, 0x36, 0xec, 0x44, 0xf5, 0x8f, 0xa1, 0x2d, 0x6c, 0x45]

/-- The crates, on the texts of `mockConfig`. -/
def mockCrates : Crates where
  addressFromStr text :=
    if text = "0x0000000000000000000000000000000000000001" then .ok 1
    else if text = "0x0000000000000000000000000000000000000002" then .ok 2
    else if text = "0x0000000000000000000000000000000000000003" then .ok 3
    else .error "invalid string length"
  addressDebug _ := "0x"
  hexDecode text :=
    if text = "4e03657aea45a94fc7d47ba826c8d667c0d1e6e33a64a036ec44f58fa12d6c45" then .ok mockHash
    else .error "Odd number of digits"
  keccak256 code := if code = mockCode then mockHash else []

def mockConfig : Config where
  chainId := 8453
  rpcUrl := "http://127.0.0.1:8545"
  gatewayAddress := "0x0000000000000000000000000000000000000001"
  usdcAddress := "0x0000000000000000000000000000000000000002"
  vaultAddress := "0x0000000000000000000000000000000000000003"
  registryAddress := none
  routerAddress := none
  governanceAddress := none
  timelockAddress := none
  gatewayRuntimeHash := "0x4e03657aea45a94fc7d47ba826c8d667c0d1e6e33a64a036ec44f58fa12d6c45"
  maxFeePerGasCap := none
  maxPriorityFeePerGasCap := none
  stateDir := none
  signer := ⟨true, "keystore.enc"⟩
  log := ⟨"info", "log", 10, 14⟩

/-- A node that answers from a state, in a block. -/
def nodeAt (env : Env V) (s : State V) (b : Block) (vaultPaused : Bool) : Rpc where
  chainId := .ok env.chainid
  getCode _ := .ok mockCode
  callViewPaused _ := .ok s.paused
  callViewUsdc _ := .ok env.usdcToken
  callViewVault _ := .ok env.vaultContract
  callViewAgents _ agent := .ok (agentsView (s.agents agent))
  callViewAgentDepositWindowGross _ agent := .ok (s.effectiveDepositWindowGross b agent)
  callViewAgentWithdrawWindowGross _ agent := .ok (s.effectiveWithdrawWindowGross b agent)
  callViewAllowance _ owner spender := .ok (s.world.usdc.allowance owner spender)
  callViewBalanceOf _ who := .ok (s.world.usdc.balanceOf who)
  callVaultPaused _ := .ok vaultPaused
  callErc20Allowance _ owner spender := .ok (s.world.shares.allowance owner spender)
  callErc20BalanceOf _ who := .ok (s.world.shares.balanceOf who)

theorem shows_nodeAt {vaultPaused : Bool} (hself : env.self = 1) :
    Shows mockCrates (nodeAt env s b vaultPaused) mockConfig env s b where
  gateway := by
    rw [hself]
    rfl
  self_ne := by
    rw [hself]
    decide
  chainId := rfl
  paused := rfl
  usdc := rfl
  vault := rfl
  agents _ := rfl
  depositGross _ := rfl
  withdrawGross _ := rfl
  allowance _ _ := rfl
  balanceOf _ := rfl
  shareAllowance _ _ := rfl
  shareBalanceOf _ := rfl

theorem configured_nodeAt {vaultPaused : Bool} (hchain : env.chainid = 8453) (husdc : env.usdcToken = 2)
    (hvault : env.vaultContract = 3) :
    Configured mockCrates (nodeAt env s b vaultPaused) mockConfig env where
  chainId := hchain
  code := ⟨mockCode, rfl, by decide, by decide⟩
  usdc := by
    rw [husdc]
    rfl
  vault := by
    rw [hvault]
    rfl

end Accepts

end RobotMoney.Client
