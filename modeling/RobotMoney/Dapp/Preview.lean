import RobotMoney.Dapp.Format

/-!
# The preview of an admin transaction

`preview.ts`: what the depositor reads before she signs.  `buildPreview` encodes the call, renders its
arguments and its effect, and reads the calldata back.  The encoder of the package `viem` is a parameter
(`Viem`).
-/

namespace RobotMoney.Dapp

/-! ### Actions -/

/-- `AgentPolicy`; an address is its text, or what the text spells. -/
structure AgentPolicy (A : Type) where
  active : Bool
  validUntil : ℤ
  maxPerPayment : ℤ
  maxPerWindow : ℤ
  shareReceiver : A
  allowedDestinations : List A
  assetRecipient : A
  maxWithdrawPerPayment : ℤ
  maxWithdrawPerWindow : ℤ
  allowedSourceVaults : List A
  deriving DecidableEq

/-- `RoleName` -/
inductive RoleName where
  | adminRole
  | pauserRole
  deriving DecidableEq

def RoleName.name : RoleName → String
  | .adminRole => "ADMIN_ROLE"
  | .pauserRole => "PAUSER_ROLE"

/-- `ROLE_HASH` -/
def RoleName.hash : RoleName → String
  | .adminRole => "0xa49807205ce4d355092ef5a8a18f56e8913cf4a201fbe287825b095693c21775"
  | .pauserRole => "0x65d7a28e3265b37a6474929f336521b332c1681b933f6cb9f3376673440d862a"

/-- `AdminActionName` -/
inductive AdminActionName where
  | authorizeAgent
  | setPolicy
  | revokeAgent
  | pause
  | unpause
  | grantRole
  | revokeRole
  deriving DecidableEq

/-- `AdminAction` -/
inductive AdminAction where
  | authorizeAgent (agent : String) (policy : AgentPolicy String)
  | revokeAgent (agent : String)
  | pause
  | unpause
  | grantRole (role : RoleName) (account : String)
  | revokeRole (role : RoleName) (account : String)

/-! ### The encoder -/

/-- A function of `gatewayAbi` with its arguments, as they are handed to `encodeFunctionData`. -/
inductive GatewayCall where
  | authorizeAgent (agent : String) (p : AgentPolicy String)
  | revokeAgent (agent : String)
  | pause
  | unpause
  | grantRole (role account : String)
  | revokeRole (role account : String)

def GatewayCall.functionName : GatewayCall → AdminActionName
  | .authorizeAgent _ _ => .authorizeAgent
  | .revokeAgent _ => .revokeAgent
  | .pause => .pause
  | .unpause => .unpause
  | .grantRole _ _ => .grantRole
  | .revokeRole _ _ => .revokeRole

/-- What the preview uses of `viem`, with the texts of its errors.  Calldata is its hex text. -/
structure Viem where
  /-- `isAddress`: forty hex digits behind `0x`, in lower case or with the right checksum -/
  isAddress : String → Bool
  /-- `getAddress`: the address with its checksum -/
  getAddress : String → Except String String
  encodeFunctionData : GatewayCall → Except String String
  /-- `decodeFunctionData`, of which the name is read -/
  decodeFunctionData : String → Except String AdminActionName
  toFunctionSelector : AdminActionName → Except String String

/-! ### The preview -/

inductive RiskClass where
  | low
  | medium
  | high
  | unsafeRisk
  deriving DecidableEq

inductive EnvClass where
  | fork
  | devnet
  | testnet
  | mainnet
  deriving DecidableEq

structure PreviewContext where
  gateway : String
  gatewayCodeHashVerified : Bool
  envClass : EnvClass

structure PreviewArg where
  name : String
  raw : String
  gloss : String

structure PreviewSuccess where
  target : String
  targetCodeHashKnown : Bool
  functionName : AdminActionName
  selector : String
  args : List PreviewArg
  effect : String
  risk : RiskClass
  calldata : String

inductive Preview where
  | success (s : PreviewSuccess)
  | failure (reason : String) (calldata : Option String)

def highCapThreshold : ℤ := 1000000000

/-- `isWithdrawalEnabled` -/
def AgentPolicy.isWithdrawalEnabled {A : Type} (policy : AgentPolicy A) : Bool :=
  decide (0 < policy.maxWithdrawPerPayment)

/-- `classifyRisk` -/
def classifyRisk (action : AdminAction) (ctx : PreviewContext) : RiskClass :=
  if ctx.gatewayCodeHashVerified = false then .unsafeRisk
  else match action with
    | .pause => if ctx.envClass = .fork then .low else .unsafeRisk
    | .unpause => if ctx.envClass = .fork then .low else .unsafeRisk
    | .revokeAgent _ => .low
    | .authorizeAgent _ policy =>
      if policy.isWithdrawalEnabled then .high
      else if highCapThreshold < policy.maxPerWindow then .high else .medium
    | .grantRole _ _ => .high
    | .revokeRole _ _ => .low

/-- The arguments shown of an `authorizeAgent`, in the order of the source. -/
def authorizeArgs (agent : String) (policy : AgentPolicy String) (expiryIso : String) : List PreviewArg :=
  [⟨"agent", agent, "Agent EOA " ++ shorten agent⟩,
    ⟨"policy.active", boolToString policy.active, if policy.active then "policy ACTIVE" else "policy INACTIVE"⟩,
    ⟨"policy.validUntil", bigintToString policy.validUntil, "expires " ++ expiryIso⟩,
    ⟨"policy.maxPerPayment", bigintToString policy.maxPerPayment,
      formatUsdc policy.maxPerPayment ++ " per deposit"⟩,
    ⟨"policy.maxPerWindow", bigintToString policy.maxPerWindow, formatUsdc policy.maxPerWindow ++ " per window"⟩,
    ⟨"policy.shareReceiver", policy.shareReceiver, "shares -> " ++ shorten policy.shareReceiver⟩,
    ⟨"policy.assetRecipient", policy.assetRecipient,
      if policy.isWithdrawalEnabled then
        "withdrawn USDC -> " ++ shorten policy.assetRecipient ++
          " (WARNING: agent can move funds here on key compromise)"
      else "withdrawals DISABLED (assetRecipient unused)"⟩,
    ⟨"policy.maxWithdrawPerPayment", bigintToString policy.maxWithdrawPerPayment,
      if policy.isWithdrawalEnabled then formatShares policy.maxWithdrawPerPayment ++ " per withdrawal"
      else "withdrawals DISABLED (no per-call cap)"⟩,
    ⟨"policy.maxWithdrawPerWindow", bigintToString policy.maxWithdrawPerWindow,
      if policy.isWithdrawalEnabled then
        formatShares policy.maxWithdrawPerWindow ++ " per window (max stolen on agent-key compromise)"
      else "withdrawals DISABLED (no per-window cap)"⟩]

/-- The effect text of an `authorizeAgent`. -/
def authorizeEffect (agent : String) (policy : AgentPolicy String) (expiryIso : String) : String :=
  if policy.isWithdrawalEnabled then
    "Address " ++ shorten agent ++ " will hold AGENT_ROLE and can call deposit() AND withdraw() within policy " ++
      "caps until " ++ expiryIso ++ ". " ++
      "WARNING: withdrawals enabled — up to " ++ formatShares policy.maxWithdrawPerWindow ++
      " per window can be redeemed by this agent to " ++ shorten policy.assetRecipient ++ " (assetRecipient). " ++
      "If the agent key is compromised, an attacker can drain shares up to the per-window cap. " ++
      "Keep assetRecipient under your sole control and revoke gateway share allowance when unused."
  else
    "Address " ++ shorten agent ++ " will hold AGENT_ROLE; this lets it call deposit() within policy caps until " ++
      expiryIso ++ ". Withdrawals DISABLED (maxWithdrawPerPayment = 0)."

/-- `roleEffectGrant` -/
def roleEffectGrant (role : RoleName) (account : String) : String :=
  match role with
  | .adminRole => "Address " ++ shorten account ++ " will hold ADMIN_ROLE; this lets it authorize/revoke agents, " ++
      "edit policy, and call unpause(). Mutually exclusive with AGENT_ROLE and PAUSER_ROLE on the same account " ++
      "(enforced by AccessRoles._grantRole)."
  | .pauserRole => "Address " ++ shorten account ++ " will hold PAUSER_ROLE; this lets it call pause() " ++
      "(asymmetric — unpause requires ADMIN_ROLE). Mutually exclusive with AGENT_ROLE and ADMIN_ROLE on the " ++
      "same account."

/-- `roleEffectRevoke` -/
def roleEffectRevoke (role : RoleName) (account : String) : String :=
  match role with
  | .adminRole => "Address " ++ shorten account ++ " loses ADMIN_ROLE; subsequent " ++
      "authorizeAgent/revokeAgent/unpause calls from this account revert. The contract still requires at " ++
      "least one DEFAULT_ADMIN_ROLE holder for recovery."
  | .pauserRole => "Address " ++ shorten account ++ " loses PAUSER_ROLE; subsequent pause() calls from this " ++
      "account revert. Other PAUSER_ROLE holders (if any) are unaffected."

/-- What the first `try` block of `buildPreview` fills in. -/
structure Encoded where
  functionName : AdminActionName
  calldata : String
  args : List PreviewArg
  effect : String

/-- The arguments shown of a role call. -/
def roleArgs (role : RoleName) (account : String) : List PreviewArg :=
  [⟨"role", role.hash, role.name ++ " (keccak256 of role string)"⟩,
    ⟨"account", account, role.name ++ " holder " ++ shorten account⟩]

/-- The first `try` block of `buildPreview`. -/
def encodeAction (v : Viem) : AdminAction → Except String Encoded
  | .authorizeAgent agent policy => do
    let agentAddress ← v.getAddress agent
    let shareReceiver ← v.getAddress policy.shareReceiver
    -- the other addresses are encoded as they were given
    let calldata ← v.encodeFunctionData
      (.authorizeAgent agentAddress { policy with shareReceiver := shareReceiver })
    let expiryIso ← toISOString policy.validUntil
    pure ⟨.authorizeAgent, calldata, authorizeArgs agent policy expiryIso,
      authorizeEffect agent policy expiryIso⟩
  | .revokeAgent agent => do
    let agentAddress ← v.getAddress agent
    let calldata ← v.encodeFunctionData (.revokeAgent agentAddress)
    pure ⟨.revokeAgent, calldata, [⟨"agent", agent, "Agent EOA " ++ shorten agent⟩],
      "Address " ++ shorten agent ++
        " loses AGENT_ROLE and its policy is deleted; subsequent deposit() calls revert."⟩
  | .pause => do
    let calldata ← v.encodeFunctionData .pause
    pure ⟨.pause, calldata, [], "Gateway enters paused state; deposit() reverts until unpause() is called."⟩
  | .unpause => do
    let calldata ← v.encodeFunctionData .unpause
    pure ⟨.unpause, calldata, [],
      "Gateway exits paused state; deposit() resumes for AGENT_ROLE holders within policy."⟩
  | .grantRole role account => do
    let accountAddress ← v.getAddress account
    let calldata ← v.encodeFunctionData (.grantRole role.hash accountAddress)
    pure ⟨.grantRole, calldata, roleArgs role account, roleEffectGrant role account⟩
  | .revokeRole role account => do
    let accountAddress ← v.getAddress account
    let calldata ← v.encodeFunctionData (.revokeRole role.hash accountAddress)
    pure ⟨.revokeRole, calldata, roleArgs role account, roleEffectRevoke role account⟩

/-- The second `try` block of `buildPreview`: the name the calldata decodes to, then the selector. -/
def readBack (v : Viem) (e : Encoded) : Except String (Option String) := do
  let decoded ← v.decodeFunctionData e.calldata
  if decoded ≠ e.functionName then pure none
  else do
    let selector ← v.toFunctionSelector e.functionName
    pure (some selector)

/-- `buildPreview` -/
def buildPreview (v : Viem) (action : AdminAction) (ctx : PreviewContext) : Preview :=
  if ctx.gatewayCodeHashVerified = false then
    .failure ("Gateway bytecode hash does not match the pinned fixture. Refusing to surface a signing prompt.") none
  else match encodeAction v action with
    | .error message => .failure ("Encoding failed: " ++ message) none
    | .ok e =>
      match readBack v e with
      | .error message => .failure ("Decode round-trip failed: " ++ message) (some e.calldata)
      | .ok none => .failure "Decoder mismatch" (some e.calldata)
      | .ok (some selector) =>
        .success ⟨ctx.gateway, ctx.gatewayCodeHashVerified, e.functionName, selector, e.args, e.effect,
          classifyRisk action ctx, e.calldata⟩

end RobotMoney.Dapp
