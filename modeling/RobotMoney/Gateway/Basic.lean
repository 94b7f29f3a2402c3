import RobotMoney.Lib.AccessControl
import RobotMoney.Lib.Address
import RobotMoney.Lib.Token

/-!
# The gateway

`RobotMoneyGateway`: a depositor authorizes an *agent* under a policy, and the agent then deposits USDC
into the pinned vault, or through the portfolio router, and redeems vault shares, within that policy.
Authorization is direct or in two phases, a commitment and a reveal.

What lies outside the gateway is a `World`: the ledgers of USDC and of the vault's shares, and whatever
the vault and the router keep.  The two contracts are parameters (`Env`); the calls into them change the
world and do not come back into the gateway.

Hashes are symbolic: a `Bytes32` is a plain word or the hash of one of the two encodings the contract
hashes, so hashing is injective.
-/

namespace RobotMoney.Gateway

open RobotMoney.Lib

/-- A 32-byte value.  `paymentHash` and `commitHash` are `keccak256(abi.encode(…))` of what they
carry. -/
inductive Bytes32 where
  | word (n : ℕ)
  | paymentHash (chainid : ℕ) (gateway agent : Address) (orderId : Bytes32) (amount : ℕ)
      (idempotencyKey : Bytes32)
  | commitHash (agent depositor : Address) (salt : Bytes32)
  deriving DecidableEq

/-- `WINDOW_SECONDS` -/
def windowSeconds : ℕ := 86400

/-- `MAX_DEADLINE_SKEW` -/
def maxDeadlineSkew : ℕ := 600

/-- `COMMIT_EXPIRY_BLOCKS` -/
def commitExpiryBlocks : ℕ := 256

/-- The roles of `AccessRoles`.  Each is administered by `DEFAULT_ADMIN_ROLE`. -/
inductive Role where
  | defaultAdminRole
  | adminRole
  | pauserRole
  | agentRole
  | other (id : ℕ)
  deriving DecidableEq, Repr

structure AgentPolicy where
  active : Bool
  validUntil : ℕ
  maxPerPayment : ℕ
  maxPerWindow : ℕ
  shareReceiver : Address
  allowedDestinations : List Address
  assetRecipient : Address
  maxWithdrawPerPayment : ℕ
  maxWithdrawPerWindow : ℕ
  allowedSourceVaults : List Address
  deriving DecidableEq

/-- The policy of an address nobody has authorized. -/
def AgentPolicy.none : AgentPolicy := ⟨false, 0, 0, 0, 0, [], 0, 0, 0, []⟩

structure Commitment where
  committer : Address
  blockNumber : ℕ
  deriving DecidableEq

/-- `DepositWindow` and `WithdrawWindow`: the anchor of the current window, and the total since. -/
structure RollingWindow where
  windowStart : ℕ
  gross : ℕ
  deriving DecidableEq

inductive GatewayError where
  | zeroAddress
  | assetMismatch
  | pausedError
  | notPaused
  | invalidAmount
  | amountExceedsPerPaymentCap
  | deadlineExpired
  | deadlineTooFar
  | agentNotAuthorized
  | agentPolicyExpired
  | windowCapExceeded
  | paymentIdAlreadyUsed
  | feeOnTransferDetected
  | shareCustodyInvariantViolated
  | invalidShareReceiver
  | invalidValidUntil
  | notAgentOwner
  | agentAlreadyOwned
  | commitmentNotFound
  | commitmentExpired
  | commitmentOwnerMismatch
  | commitmentTooRecent
  | invalidDestination
  | withdrawalNotEnabled
  | sharesExceedWithdrawPerPaymentCap
  | withdrawWindowCapExceeded
  | invalidSourceVault
  | invalidAssetRecipient
  | unexpectedAssetsReceived
  | roleSeparationViolated
  deriving DecidableEq, Repr

inductive GatewayEvent where
  | commitSubmitted (committer : Address) (commitHash : Bytes32) (blockNumber : ℕ)
  | commitRevealed (committer : Address) (commitHash : Bytes32) (agent : Address)
  | agentAuthorized (agent owner : Address) (validUntil maxPerPayment maxPerWindow : ℕ)
      (shareReceiver : Address)
  | agentRevoked (agent owner : Address)
  | paused (account : Address)
  | unpaused (account : Address)
  | agentDeposit (paymentId orderId : Bytes32) (agent shareReceiver : Address)
      (amount sharesMinted windowId : ℕ)
  | agentDepositRouted (paymentId orderId : Bytes32) (agent shareReceiver router : Address)
      (amount : ℕ) (sharesPerLeg : List ℕ) (windowId : ℕ)
  | agentWithdrawal (paymentId orderId : Bytes32) (agent sourceVault : Address)
      (shares assetsOut : ℕ) (assetRecipient : Address) (windowId : ℕ)
  deriving DecidableEq

/-- What a successful call hands back: the payment id of a payment, the shares minted or the assets
paid out by it, and the events. -/
structure Receipt where
  paymentId : Option Bytes32 := none
  out : List ℕ := []
  events : List GatewayEvent

/-- The ledger of USDC, the ledger of the pinned vault's shares, and the rest of the chain. -/
structure World (V : Type) where
  usdc : Token Address
  shares : Token Address
  ext : V

/-- The gateway's own address, what its constructor pinned, the chain id, and the contracts it calls. -/
structure Env (V : Type) where
  self : Address
  usdcToken : Address
  vaultContract : Address
  /-- the zero address when there is no router -/
  routerContract : Address
  chainid : ℕ
  /-- `vault.deposit(assets, receiver)` called by the gateway -/
  vaultDeposit : World V → (assets : ℕ) → (receiver : Address) → Call Unit (World V × ℕ)
  /-- `vault.redeem(shares, receiver, owner)` called by the gateway -/
  vaultRedeem : World V → (shares : ℕ) → (receiver owner : Address) → Call Unit (World V × ℕ)
  /-- `router.depositFor(receiver, amount, minSharesPerLeg)` called by the gateway -/
  routerDepositFor : World V → (receiver : Address) → (amount : ℕ) → (minSharesPerLeg : List ℕ) →
    Call Unit (World V × List ℕ)

/-- The storage of the gateway, and the world it acts on. -/
structure State (V : Type) where
  commitments : Bytes32 → Commitment
  agents : Address → AgentPolicy
  agentOwner : Address → Address
  agentDepositWindow : Address → RollingWindow
  agentWithdrawWindow : Address → RollingWindow
  usedPaymentIds : Bytes32 → Bool
  paused : Bool
  roles : Roles Role Address
  world : World V

variable {V : Type}

/-! ### Roles -/

/-- `_grantRole(role, account)` as `AccessRoles` overrides it. -/
def grantRole (t : Roles Role Address) (role : Role) (account : Address) :
    Call GatewayError (Roles Role Address) := do
  match role with
  | .agentRole =>
    revertIf (t .adminRole account = true ∨ t .pauserRole account = true)
      GatewayError.roleSeparationViolated
  | .adminRole =>
    revertIf (t .agentRole account = true ∨ t .pauserRole account = true)
      GatewayError.roleSeparationViolated
  | .pauserRole =>
    revertIf (t .agentRole account = true ∨ t .adminRole account = true)
      GatewayError.roleSeparationViolated
  | _ => pure ()
  pure (t.set role account true)

/-- `_assertRoleSeparation(account)` -/
def assertRoleSeparation (t : Roles Role Address) (account : Address) : Call GatewayError Unit :=
  revertIf
    (1 < (t .adminRole account).toNat + (t .pauserRole account).toNat + (t .agentRole account).toNat)
    GatewayError.roleSeparationViolated

/-- The constructor; `vaultAsset` is the answer of `vault.asset()`. -/
def deploy (env : Env V) (vaultAsset admin pauser : Address) (world : World V) :
    Call GatewayError (State V) := do
  revertIf (env.usdcToken = 0) GatewayError.zeroAddress
  revertIf (env.vaultContract = 0) GatewayError.zeroAddress
  revertIf (admin = 0) GatewayError.zeroAddress
  revertIf (pauser = 0) GatewayError.zeroAddress
  revertIf (vaultAsset ≠ env.usdcToken) GatewayError.assetMismatch
  let roles ← grantRole (fun _ _ => false) .defaultAdminRole admin
  let roles ← grantRole roles .adminRole admin
  let roles ← grantRole roles .pauserRole pauser
  pure
    { commitments := fun _ => ⟨0, 0⟩
      agents := fun _ => AgentPolicy.none
      agentOwner := fun _ => 0
      agentDepositWindow := fun _ => ⟨0, 0⟩
      agentWithdrawWindow := fun _ => ⟨0, 0⟩
      usedPaymentIds := fun _ => false
      paused := false
      roles, world }

/-! ### Windows -/

namespace RollingWindow

/-- The window has no anchor yet, or `WINDOW_SECONDS` have passed since its anchor. -/
def Expired (w : RollingWindow) (b : Block) : Prop :=
  w.windowStart = 0 ∨ w.windowStart + windowSeconds ≤ b.timestamp

instance (w : RollingWindow) (b : Block) : Decidable (w.Expired b) :=
  inferInstanceAs (Decidable (_ ∨ _))

/-- The body `_accrueRollingWithdraw` and `_accrueRollingDeposit` share. -/
def accrue (exceeded : GatewayError) (w : RollingWindow) (b : Block) (amount cap : ℕ) :
    Call GatewayError RollingWindow := do
  let anchor := if w.Expired b then b.timestamp else w.windowStart
  let priorGross := if w.Expired b then 0 else w.gross
  let projected ← addU priorGross amount
  revertIf (cap < projected) exceeded
  pure ⟨anchor, projected⟩

/-- The body of `effectiveWithdrawWindowGross` and `effectiveDepositWindowGross`. -/
def effectiveGross (w : RollingWindow) (b : Block) : ℕ := if w.Expired b then 0 else w.gross

end RollingWindow

namespace State

/-- `_accrueRollingDeposit(agent, amount, cap)` -/
def accrueRollingDeposit (s : State V) (b : Block) (agent : Address) (amount cap : ℕ) :
    Call GatewayError (State V) := do
  let w ← (s.agentDepositWindow agent).accrue .windowCapExceeded b amount cap
  pure { s with agentDepositWindow := Function.update s.agentDepositWindow agent w }

/-- `_accrueRollingWithdraw(agent, shares, cap)` -/
def accrueRollingWithdraw (s : State V) (b : Block) (agent : Address) (shares cap : ℕ) :
    Call GatewayError (State V) := do
  let w ← (s.agentWithdrawWindow agent).accrue .withdrawWindowCapExceeded b shares cap
  pure { s with agentWithdrawWindow := Function.update s.agentWithdrawWindow agent w }

/-- `effectiveDepositWindowGross(agent)` -/
def effectiveDepositWindowGross (s : State V) (b : Block) (agent : Address) : ℕ :=
  (s.agentDepositWindow agent).effectiveGross b

/-- `effectiveWithdrawWindowGross(agent)` -/
def effectiveWithdrawWindowGross (s : State V) (b : Block) (agent : Address) : ℕ :=
  (s.agentWithdrawWindow agent).effectiveGross b

/-! ### Agents -/

/-- `_validatePolicy(p)` -/
def validatePolicy (b : Block) (p : AgentPolicy) : Call GatewayError Unit := do
  revertIf (p.shareReceiver = 0) GatewayError.invalidShareReceiver
  revertIf (p.active = false) GatewayError.invalidValidUntil
  revertIf (p.validUntil < b.timestamp) GatewayError.invalidValidUntil
  revertIf (p.maxPerPayment = 0 ∨ p.maxPerWindow = 0) GatewayError.invalidAmount
  revertIf (p.maxPerWindow < p.maxPerPayment) GatewayError.invalidAmount
  if 0 < p.maxWithdrawPerPayment then do
    revertIf (p.assetRecipient = 0) GatewayError.invalidAssetRecipient
    revertIf (p.maxWithdrawPerWindow = 0) GatewayError.invalidAmount
    revertIf (p.maxWithdrawPerWindow < p.maxWithdrawPerPayment) GatewayError.invalidAmount
  else pure ()

/-- The event of an authorization. -/
def authorizedEvent (agent owner : Address) (p : AgentPolicy) : GatewayEvent :=
  .agentAuthorized agent owner p.validUntil p.maxPerPayment p.maxPerWindow p.shareReceiver

/-- `_authorizeAgentInternal(agent, p)` -/
def authorizeAgentInternal (s : State V) (b : Block) (sender agent : Address) (p : AgentPolicy) :
    Call GatewayError (State V × List GatewayEvent) := do
  revertIf (agent = 0) GatewayError.zeroAddress
  revertIf (s.agentOwner agent ≠ 0) GatewayError.agentAlreadyOwned
  validatePolicy b p
  let roles ← grantRole s.roles .agentRole agent
  assertRoleSeparation roles agent
  pure
    ({ s with
        agentOwner := Function.update s.agentOwner agent sender
        agents := Function.update s.agents agent p
        roles },
      [authorizedEvent agent sender p])

/-- `authorizeAgent(agent, p)` -/
def authorizeAgent (s : State V) (b : Block) (sender agent : Address) (p : AgentPolicy) :
    Call GatewayError (State V × Receipt) := do
  let (s, events) ← s.authorizeAgentInternal b sender agent p
  pure (s, { events })

/-- `commitAuthorization(commitHash)` -/
def commitAuthorization (s : State V) (b : Block) (sender : Address) (commitHash : Bytes32) :
    Call GatewayError (State V × Receipt) :=
  pure
    ({ s with commitments := Function.update s.commitments commitHash ⟨sender, b.number⟩ },
      { events := [.commitSubmitted sender commitHash b.number] })

/-- `revealAuthorization(agent, salt, p)` -/
def revealAuthorization (s : State V) (b : Block) (sender agent : Address) (salt : Bytes32)
    (p : AgentPolicy) : Call GatewayError (State V × Receipt) := do
  let commitHash := Bytes32.commitHash agent sender salt
  let c := s.commitments commitHash
  revertIf (c.committer = 0) GatewayError.commitmentNotFound
  revertIf (c.committer ≠ sender) GatewayError.commitmentOwnerMismatch
  revertIf (b.number ≤ c.blockNumber) GatewayError.commitmentTooRecent
  revertIf (c.blockNumber + commitExpiryBlocks < b.number) GatewayError.commitmentExpired
  let (s, events) ←
    authorizeAgentInternal { s with commitments := Function.update s.commitments commitHash ⟨0, 0⟩ }
      b sender agent p
  pure (s, { events := .commitRevealed sender commitHash agent :: events })

/-- `setPolicy(agent, p)` -/
def setPolicy (s : State V) (b : Block) (sender agent : Address) (p : AgentPolicy) :
    Call GatewayError (State V × Receipt) := do
  revertIf (agent = 0) GatewayError.zeroAddress
  revertIf (s.agentOwner agent ≠ sender) GatewayError.notAgentOwner
  validatePolicy b p
  pure
    ({ s with agents := Function.update s.agents agent p },
      { events := [authorizedEvent agent sender p] })

/-- `revokeAgent(agent)` -/
def revokeAgent (s : State V) (sender agent : Address) : Call GatewayError (State V × Receipt) := do
  revertIf (agent = 0) GatewayError.zeroAddress
  let owner := s.agentOwner agent
  revertIf (owner ≠ sender) GatewayError.notAgentOwner
  pure
    ({ s with
        agents := Function.update s.agents agent AgentPolicy.none
        agentOwner := Function.update s.agentOwner agent 0
        roles := if s.roles .agentRole agent then s.roles.set .agentRole agent false else s.roles },
      { events := [.agentRevoked agent owner] })

/-- `pause()` -/
def pause (s : State V) (sender : Address) : Call GatewayError (State V × Receipt) := do
  s.roles.check .pauserRole sender
  revertIf (s.paused = true) GatewayError.pausedError
  pure ({ s with paused := true }, { events := [.paused sender] })

/-- `unpause()` -/
def unpause (s : State V) (sender : Address) : Call GatewayError (State V × Receipt) := do
  s.roles.check .adminRole sender
  revertIf (s.paused = false) GatewayError.notPaused
  pure ({ s with paused := false }, { events := [.unpaused sender] })

/-! ### Payments -/

/-- The two checks of a deadline. -/
def checkDeadline (b : Block) (deadline : ℕ) : Call GatewayError Unit := do
  revertIf (deadline < b.timestamp) GatewayError.deadlineExpired
  revertIf (b.timestamp + maxDeadlineSkew < deadline) GatewayError.deadlineTooFar

/-- The policy is active and not expired. -/
def checkPolicy (b : Block) (p : AgentPolicy) : Call GatewayError Unit := do
  revertIf (p.active = false) GatewayError.agentNotAuthorized
  revertIf (p.validUntil < b.timestamp) GatewayError.agentPolicyExpired

/-- `keccak256(abi.encode(block.chainid, address(this), msg.sender, orderId, amount, key))` -/
def paymentId (env : Env V) (agent : Address) (orderId : Bytes32) (amount : ℕ) (key : Bytes32) :
    Bytes32 :=
  .paymentHash env.chainid env.self agent orderId amount key

/-- `usedPaymentIds[id] = true` -/
def markUsed (s : State V) (id : Bytes32) : State V :=
  { s with usedPaymentIds := Function.update s.usedPaymentIds id true }

/-- The gateway holds no share of the pinned vault. -/
def checkNoShares (env : Env V) (w : World V) : Call GatewayError Unit :=
  revertIf (w.shares.balanceOf env.self ≠ 0) GatewayError.shareCustodyInvariantViolated

/-- The gateway holds as much USDC as before. -/
def checkUsdc (env : Env V) (w : World V) (balBefore : ℕ) : Call GatewayError Unit :=
  revertIf (w.usdc.balanceOf env.self ≠ balBefore) GatewayError.shareCustodyInvariantViolated

/-- `safeTransferFrom` with the balance-delta verification. -/
def pullUsdc (env : Env V) (w : World V) (agent : Address) (amount : ℕ) :
    Call GatewayError (World V) := do
  let usdc ← w.usdc.transferFrom env.self agent env.self amount
  let delta ← subU (usdc.balanceOf env.self) (w.usdc.balanceOf env.self)
  revertIf (delta ≠ amount) GatewayError.feeOnTransferDetected
  pure { w with usdc }

/-- `usdcToken.forceApprove(spender, amount)` -/
def forceApprove (env : Env V) (w : World V) (spender : Address) (amount : ℕ) :
    Call GatewayError (World V) := do
  let usdc ← w.usdc.approve env.self spender amount
  pure { w with usdc }

/-- Approval, the vault's deposit, and the approval taken back. -/
def vaultLeg (env : Env V) (w : World V) (amount : ℕ) (shareReceiver : Address) :
    Call GatewayError (World V × ℕ) := do
  let w ← forceApprove env w env.vaultContract amount
  let (w, sharesMinted) ← inner (env.vaultDeposit w amount shareReceiver)
  let w ← forceApprove env w env.vaultContract 0
  pure (w, sharesMinted)

/-- `deposit(orderId, amount, deadline, idempotencyKey)` -/
def deposit (env : Env V) (s : State V) (b : Block) (sender : Address) (orderId : Bytes32)
    (amount deadline : ℕ) (key : Bytes32) : Call GatewayError (State V × Receipt) := do
  s.roles.check .agentRole sender
  revertIf (s.paused = true) GatewayError.pausedError
  let p := s.agents sender
  revertIf (amount = 0) GatewayError.invalidAmount
  revertIf (p.maxPerPayment < amount) GatewayError.amountExceedsPerPaymentCap
  checkDeadline b deadline
  checkPolicy b p
  let id := paymentId env sender orderId amount key
  revertIf (s.usedPaymentIds id = true) GatewayError.paymentIdAlreadyUsed
  checkNoShares env s.world
  let s ← s.accrueRollingDeposit b sender amount p.maxPerWindow
  let s := s.markUsed id
  let balBefore := s.world.usdc.balanceOf env.self
  let world ← pullUsdc env s.world sender amount
  let (world, sharesMinted) ← vaultLeg env world amount p.shareReceiver
  checkNoShares env world
  checkUsdc env world balBefore
  pure
    ({ s with world },
      { paymentId := some id
        out := [sharesMinted]
        events := [.agentDeposit id orderId sender p.shareReceiver amount sharesMinted
          (b.timestamp / windowSeconds)] })

/-- `_validateDestination(destination, allowedDestinations)`: whether it is the router. -/
def validateDestination (env : Env V) (destination : Address) (allowedDestinations : List Address) :
    Call GatewayError Bool := do
  let isVault := decide (destination = env.vaultContract)
  let isRouter := decide (env.routerContract ≠ 0 ∧ destination = env.routerContract)
  revertIf (isVault = false ∧ isRouter = false) GatewayError.invalidDestination
  revertIf (allowedDestinations ≠ [] ∧ destination ∉ allowedDestinations)
    GatewayError.invalidDestination
  pure isRouter

/-- `_executeRouterDeposit(args, minSharesPerLeg)` -/
def executeRouterDeposit (env : Env V) (w : World V) (b : Block) (sender : Address)
    (id orderId : Bytes32) (shareReceiver : Address) (amount balBefore : ℕ)
    (minSharesPerLeg : List ℕ) : Call GatewayError (World V × Receipt) := do
  let w ← forceApprove env w env.routerContract amount
  let (w, sharesPerLeg) ← inner (env.routerDepositFor w shareReceiver amount minSharesPerLeg)
  let w ← forceApprove env w env.routerContract 0
  checkUsdc env w balBefore
  pure
    (w,
      { paymentId := some id
        out := sharesPerLeg
        events := [.agentDepositRouted id orderId sender shareReceiver env.routerContract amount
          sharesPerLeg (b.timestamp / windowSeconds)] })

/-- `_executeVaultDeposit(args)` -/
def executeVaultDeposit (env : Env V) (w : World V) (b : Block) (sender : Address)
    (id orderId : Bytes32) (shareReceiver : Address) (amount balBefore : ℕ) :
    Call GatewayError (World V × Receipt) := do
  checkNoShares env w
  let (w, sharesMinted) ← vaultLeg env w amount shareReceiver
  checkNoShares env w
  checkUsdc env w balBefore
  pure
    (w,
      { paymentId := some id
        out := [sharesMinted]
        events := [.agentDeposit id orderId sender shareReceiver amount sharesMinted
          (b.timestamp / windowSeconds)] })

/-- `_executeDeposit(args, minSharesPerLeg)` -/
def executeDeposit (env : Env V) (isRouter : Bool) (w : World V) (b : Block) (sender : Address)
    (id orderId : Bytes32) (shareReceiver : Address) (amount balBefore : ℕ)
    (minSharesPerLeg : List ℕ) : Call GatewayError (World V × Receipt) :=
  if isRouter then
    executeRouterDeposit env w b sender id orderId shareReceiver amount balBefore minSharesPerLeg
  else executeVaultDeposit env w b sender id orderId shareReceiver amount balBefore

/-- `depositTo(orderId, amount, deadline, idempotencyKey, destination, minSharesPerLeg)` -/
def depositTo (env : Env V) (s : State V) (b : Block) (sender : Address) (orderId : Bytes32)
    (amount deadline : ℕ) (key : Bytes32) (destination : Address) (minSharesPerLeg : List ℕ) :
    Call GatewayError (State V × Receipt) := do
  s.roles.check .agentRole sender
  revertIf (s.paused = true) GatewayError.pausedError
  let p := s.agents sender
  revertIf (amount = 0) GatewayError.invalidAmount
  revertIf (p.maxPerPayment < amount) GatewayError.amountExceedsPerPaymentCap
  checkDeadline b deadline
  checkPolicy b p
  let isRouter ← validateDestination env destination p.allowedDestinations
  let id := paymentId env sender orderId amount key
  revertIf (s.usedPaymentIds id = true) GatewayError.paymentIdAlreadyUsed
  let s ← s.accrueRollingDeposit b sender amount p.maxPerWindow
  let s := s.markUsed id
  let balBefore := s.world.usdc.balanceOf env.self
  let world ← pullUsdc env s.world sender amount
  let (world, receipt) ←
    executeDeposit env isRouter world b sender id orderId p.shareReceiver amount balBefore
      minSharesPerLeg
  pure ({ s with world }, receipt)

/-- `withdraw(orderId, shares, sourceVault, deadline, idempotencyKey)` -/
def withdraw (env : Env V) (s : State V) (b : Block) (sender : Address) (orderId : Bytes32)
    (shares : ℕ) (sourceVault : Address) (deadline : ℕ) (key : Bytes32) :
    Call GatewayError (State V × Receipt) := do
  s.roles.check .agentRole sender
  revertIf (s.paused = true) GatewayError.pausedError
  let p := s.agents sender
  revertIf (p.maxWithdrawPerPayment = 0) GatewayError.withdrawalNotEnabled
  revertIf (shares = 0) GatewayError.invalidAmount
  revertIf (p.maxWithdrawPerPayment < shares) GatewayError.sharesExceedWithdrawPerPaymentCap
  checkDeadline b deadline
  checkPolicy b p
  revertIf (sourceVault ≠ env.vaultContract) GatewayError.invalidSourceVault
  revertIf (p.allowedSourceVaults ≠ [] ∧ sourceVault ∉ p.allowedSourceVaults)
    GatewayError.invalidSourceVault
  let s ← s.accrueRollingWithdraw b sender shares p.maxWithdrawPerWindow
  let id := paymentId env sender orderId shares key
  revertIf (s.usedPaymentIds id = true) GatewayError.paymentIdAlreadyUsed
  let s := s.markUsed id
  let sharesToken ← s.world.shares.transferFrom env.self sender env.self shares
  let usdcBefore := s.world.usdc.balanceOf env.self
  let (world, assetsOut) ←
    inner (env.vaultRedeem { s.world with shares := sharesToken } shares p.assetRecipient env.self)
  revertIf (world.usdc.balanceOf env.self ≠ usdcBefore) GatewayError.unexpectedAssetsReceived
  checkNoShares env world
  pure
    ({ s with world },
      { paymentId := some id
        out := [assetsOut]
        events := [.agentWithdrawal id orderId sender sourceVault shares assetsOut p.assetRecipient
          (b.timestamp / windowSeconds)] })

/-! ### The contract as a state machine -/

/-- The calls of the gateway.  `elsewhere` is a call of some other contract, which may change the
world but not the gateway's storage. -/
inductive GatewayCall (V : Type) where
  | commitAuthorization (commitHash : Bytes32)
  | revealAuthorization (agent : Address) (salt : Bytes32) (p : AgentPolicy)
  | authorizeAgent (agent : Address) (p : AgentPolicy)
  | setPolicy (agent : Address) (p : AgentPolicy)
  | revokeAgent (agent : Address)
  | pause
  | unpause
  | deposit (orderId : Bytes32) (amount deadline : ℕ) (key : Bytes32)
  | depositTo (orderId : Bytes32) (amount deadline : ℕ) (key : Bytes32) (destination : Address)
      (minSharesPerLeg : List ℕ)
  | withdraw (orderId : Bytes32) (shares : ℕ) (sourceVault : Address) (deadline : ℕ) (key : Bytes32)
  | grantRole (role : Role) (account : Address)
  | revokeRole (role : Role) (account : Address)
  | renounceRole (role : Role) (confirmation : Address)
  | elsewhere (world : World V)

/-- A call that changes the role table only. -/
def onRoles (s : State V) (x : Call GatewayError (Roles Role Address)) :
    Call GatewayError (State V × Receipt) := do
  let roles ← x
  pure ({ s with roles }, { events := [] })

/-- One call. -/
def exec (env : Env V) (s : State V) (tx : Tx (GatewayCall V)) :
    Call GatewayError (State V × Receipt) :=
  match tx.call with
  | .commitAuthorization h => s.commitAuthorization tx.block tx.sender h
  | .revealAuthorization agent salt p => s.revealAuthorization tx.block tx.sender agent salt p
  | .authorizeAgent agent p => s.authorizeAgent tx.block tx.sender agent p
  | .setPolicy agent p => s.setPolicy tx.block tx.sender agent p
  | .revokeAgent agent => s.revokeAgent tx.sender agent
  | .pause => s.pause tx.sender
  | .unpause => s.unpause tx.sender
  | .deposit orderId amount deadline key => s.deposit env tx.block tx.sender orderId amount deadline key
  | .depositTo orderId amount deadline key destination minSharesPerLeg =>
    s.depositTo env tx.block tx.sender orderId amount deadline key destination minSharesPerLeg
  | .withdraw orderId shares sourceVault deadline key =>
    s.withdraw env tx.block tx.sender orderId shares sourceVault deadline key
  | .grantRole role account =>
    s.onRoles (Roles.grantRole Gateway.grantRole (fun _ => .defaultAdminRole) s.roles tx.sender role
      account)
  | .revokeRole role account =>
    s.onRoles (Roles.revokeRole (fun _ => .defaultAdminRole) s.roles tx.sender role account)
  | .renounceRole role confirmation =>
    s.onRoles (Roles.renounceRole s.roles tx.sender role confirmation)
  | .elsewhere world => .ok ({ s with world }, { events := [] })

end State

end RobotMoney.Gateway
