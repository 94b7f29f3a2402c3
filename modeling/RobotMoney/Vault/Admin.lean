import RobotMoney.Vault.Basic

/-!
# The vault as a state machine

The entry points of `RobotMoneyVault` beside the ERC-4626 ones: the registry of adapters, the two
rebalances, the emergency exits and the parameters; and, with the ledger of shares, all calls of the
vault as one step function.
-/

namespace RobotMoney.Vault

open RobotMoney.Lib

variable {V : Type}

namespace State

/-! ### The registry of adapters -/

/-- `addAdapter(adapter, capBps)` -/
def addAdapter (env : Env V) (s : State V) (sender adapter : Address) (capBps : ℕ) :
    Call VaultError (State V) := do
  s.roles.check .adminRole sender
  if ha : adapter ≠ 0 then
    if hc : 0 < capBps ∧ capBps ≤ maxBps then do
      revertIf (maxAdapters ≤ s.activeAdapterCount) VaultError.maxAdaptersReached
      s.requireAdapterEligible env adapter
      pure { s with adapters := s.adapters ++ [⟨adapter, capBps, true, ha, hc.1, hc.2⟩] }
    else .error (.custom .invalidCap)
  else .error (.custom .zeroAddress)

/-- `setAdapterAllowed(adapter, allowed)` -/
def setAdapterAllowed (s : State V) (sender adapter : Address) (allowed : Bool) :
    Call VaultError (State V) := do
  s.roles.check .adminRole sender
  revertIf (adapter = 0) VaultError.zeroAddress
  pure { s with adapterAllowed := Function.update s.adapterAllowed adapter allowed }

/-- `setAdapterCodeHashAllowed(codeHash, allowed)` -/
def setAdapterCodeHashAllowed (s : State V) (sender : Address) (codeHash : ℕ) (allowed : Bool) :
    Call VaultError (State V) := do
  s.roles.check .adminRole sender
  revertIf (codeHash = 0) VaultError.invalidParam
  pure { s with adapterCodeHashAllowed := Function.update s.adapterCodeHashAllowed codeHash allowed }

/-- The entry at an index, if it is an active one. -/
def activeEntry (s : State V) (index : ℕ) : Call VaultError AdapterInfo :=
  match s.adapters[index]? with
  | none => .error (.custom .adapterNotFound)
  | some i => if i.active then .ok i else .error (.custom .adapterNotFound)

/-- The entry at an index replaced. -/
def setEntry (s : State V) (index : ℕ) (i : AdapterInfo) : State V :=
  { s with adapters := s.adapters.set index i }

/-- `removeAdapter(index)` -/
def removeAdapter (env : Env V) (s : State V) (sender : Address) (index : ℕ) :
    Call VaultError (State V) := do
  s.roles.check .adminRole sender
  let i ← s.activeEntry index
  revertIf (0 < env.adapterAssets s.world i.adapter) VaultError.adapterNotEmpty
  pure (s.setEntry index { i with active := false })

/-- `setAdapterCap(index, newCapBps)` -/
def setAdapterCap (s : State V) (sender : Address) (index newCapBps : ℕ) :
    Call VaultError (State V) := do
  s.roles.check .adminRole sender
  let i ← s.activeEntry index
  if hc : 0 < newCapBps ∧ newCapBps ≤ maxBps then
    pure (s.setEntry index { i with capBps := newCapBps, capBps_pos := hc.1, capBps_le := hc.2 })
  else .error (.custom .invalidCap)

/-- `forceRemoveAdapter(index)` -/
def forceRemoveAdapter (s : State V) (sender : Address) (index : ℕ) : Call VaultError (State V) := do
  s.roles.check .emergencyRole sender
  let i ← s.activeEntry index
  pure (s.setEntry index { i with active := false })

/-! ### Rebalancing -/

/-- What `rebalance` pulls from one adapter: its excess, within what may still be moved. -/
def rebalancePull (currentBalance targetBalance maxMovePerCall totalMoved : ℕ) : Call VaultError ℕ := do
  let moved ← addU totalMoved (currentBalance - targetBalance)
  pure (if maxMovePerCall < moved then maxMovePerCall - totalMoved else currentBalance - targetBalance)

/-- The loop of `rebalance`: the excess over the target is pulled from each active adapter, up to
`maxMovePerCall` in all. -/
def rebalanceLoop (env : Env V) (totalAssetsCached targetBps maxMovePerCall : ℕ) :
    World V → List AdapterInfo → ℕ → Call VaultError (World V × ℕ)
  | w, [], totalMoved => .ok (w, totalMoved)
  | w, i :: is, totalMoved =>
    if i.active = false then
      rebalanceLoop env totalAssetsCached targetBps maxMovePerCall w is totalMoved
    else if maxMovePerCall ≤ totalMoved then .ok (w, totalMoved)
    else do
      let currentBalance := env.adapterAssets w i.adapter
      let product ← mulU totalAssetsCached targetBps
      let targetBalance := product / maxBps
      if currentBalance ≤ targetBalance then
        rebalanceLoop env totalAssetsCached targetBps maxMovePerCall w is totalMoved
      else do
        let pull ← rebalancePull currentBalance targetBalance maxMovePerCall totalMoved
        if pull = 0 then
          rebalanceLoop env totalAssetsCached targetBps maxMovePerCall w is totalMoved
        else do
          let (w, actual) ← inner (env.adapterWithdraw w i.adapter pull)
          let totalMoved ← addU totalMoved actual
          rebalanceLoop env totalAssetsCached targetBps maxMovePerCall w is totalMoved

/-- `if (idle > 0) _routeDeposit(idle)` -/
def routeIdle (env : Env V) (s : State V) : Call VaultError (State V) :=
  if 0 < s.idle env then s.routeDeposit env (s.idle env) else .ok s

/-- `rebalance()` -/
def rebalance (env : Env V) (s : State V) (b : Block) (sender : Address) :
    Call VaultError (State V) := do
  revertIf (s.roles .adminRole sender = false ∧ s.roles .keeperRole sender = false)
    VaultError.unauthorizedRebalancer
  let nextAt ← addU s.lastRebalanceAt s.minRebalanceInterval.1
  revertIf (b.timestamp < nextAt) VaultError.rebalanceTooSoon
  revertIf (s.activeAdapterCount = 0) VaultError.noActiveAdapters
  let totalAssetsCached ← s.totalAssets env
  let product ← mulU totalAssetsCached s.maxRebalanceBpsPerCall.1
  let (w, _) ← rebalanceLoop env totalAssetsCached s.targetBpsFor (product / maxBps) s.world
    s.adapters 0
  let s ← routeIdle env { s with world := w }
  pure { s with lastRebalanceAt := b.timestamp }

/-- The first loop of `adminRebalance`: each active adapter above its target gives up the excess. -/
def adminPull (env : Env V) : World V → List AdapterInfo → List ℕ → ℕ →
    Call VaultError (World V × ℕ)
  | w, i :: is, target :: targets, totalMoved =>
    if i.active = false then adminPull env w is targets totalMoved
    else if target < env.adapterAssets w i.adapter then do
      let (w, actual) ←
        inner (env.adapterWithdraw w i.adapter (env.adapterAssets w i.adapter - target))
      let totalMoved ← addU totalMoved actual
      adminPull env w is targets totalMoved
    else adminPull env w is targets totalMoved
  | w, _, _, totalMoved => .ok (w, totalMoved)

/-- The second loop: each active adapter below its target is filled up, while USDC is idle. -/
def adminFill (env : Env V) (s : State V) : World V → List AdapterInfo → List ℕ → ℕ →
    Call VaultError (World V)
  | w, i :: is, target :: targets, idle =>
    if idle = 0 then .ok w
    else if i.active = false then adminFill env s w is targets idle
    else if env.adapterAssets w i.adapter < target then do
      let allocation := min (target - env.adapterAssets w i.adapter) idle
      let w ← s.allocateTo env w i.adapter allocation
      adminFill env s w is targets (idle - allocation)
    else adminFill env s w is targets idle
  | w, _, _, _ => .ok w

/-- `adminRebalance(targetBalances)` -/
def adminRebalance (env : Env V) (s : State V) (b : Block) (sender : Address)
    (targetBalances : List ℕ) : Call VaultError (State V) := do
  s.roles.check .adminRole sender
  revertIf (targetBalances.length ≠ s.adapters.length) VaultError.invalidParam
  let (w, _) ← adminPull env s.world s.adapters targetBalances 0
  let w ← s.adminFill env w s.adapters targetBalances (w.usdc.balanceOf env.self)
  pure { s with world := w, lastRebalanceAt := b.timestamp }

/-! ### Emergencies -/

/-- `_setDepositsPaused(paused)` -/
def setDepositsPaused (s : State V) (paused : Bool) : State V := { s with depositsPaused := paused }

/-- `_setWithdrawalsPaused(paused)` -/
def setWithdrawalsPaused (s : State V) (paused : Bool) : State V :=
  { s with withdrawalsPaused := paused }

/-- `pause()` -/
def pause (s : State V) (sender : Address) : Call VaultError (State V) := do
  s.roles.check .emergencyRole sender
  pure ((s.setDepositsPaused true).setWithdrawalsPaused true)

/-- `unpause()` -/
def unpause (s : State V) (sender : Address) : Call VaultError (State V) := do
  s.roles.check .adminRole sender
  pure ((s.setDepositsPaused false).setWithdrawalsPaused false)

/-- `paused()` -/
def paused (s : State V) : Bool := s.depositsPaused && s.withdrawalsPaused

/-- `try adapter.withdraw(balance)`: a revert of the adapter is caught. -/
def tryWithdrawAll (env : Env V) (w : World V) (adapter : Address) : World V :=
  if env.adapterAssets w adapter = 0 then w
  else
    match env.adapterWithdraw w adapter (env.adapterAssets w adapter) with
    | .ok (w', _) => w'
    | .error _ => w

/-- `emergencyWithdraw()` -/
def emergencyWithdraw (env : Env V) (s : State V) (sender : Address) : Call VaultError (State V) := do
  s.roles.check .emergencyRole sender
  let s := s.setDepositsPaused true
  pure { s with world := s.activeAdapters.foldl (tryWithdrawAll env) s.world }

/-- `emergencyWithdrawAdapter(index)` -/
def emergencyWithdrawAdapter (env : Env V) (s : State V) (sender : Address) (index : ℕ) :
    Call VaultError (State V) := do
  s.roles.check .emergencyRole sender
  match s.adapters[index]? with
  | none => .error (.custom .adapterNotFound)
  | some i =>
    let s := s.setDepositsPaused true
    pure { s with world := tryWithdrawAll env s.world i.adapter }

/-- `shutdownVault()` -/
def shutdownVault (s : State V) (sender : Address) : Call VaultError (State V) := do
  s.roles.check .emergencyRole sender
  pure { s with shutdown := true, tvlCap := 0 }

/-! ### Parameters -/

/-- `setTvlCap(newCap)` -/
def setTvlCap (s : State V) (sender : Address) (newCap : ℕ) : Call VaultError (State V) := do
  s.roles.check .adminRole sender
  pure { s with tvlCap := newCap }

/-- `setPerDepositCap(newCap)` -/
def setPerDepositCap (s : State V) (sender : Address) (newCap : ℕ) : Call VaultError (State V) := do
  s.roles.check .adminRole sender
  pure { s with perDepositCap := newCap }

/-- `setExitFeeBps(newBps)` -/
def setExitFeeBps (s : State V) (sender : Address) (newBps : ℕ) : Call VaultError (State V) := do
  s.roles.check .adminRole sender
  if h : newBps ≤ maxExitFeeBps then pure { s with exitFeeBps := ⟨newBps, h⟩ }
  else .error (.custom .invalidFee)

/-- `setFeeRecipient(newRecipient)` -/
def setFeeRecipient (s : State V) (sender newRecipient : Address) : Call VaultError (State V) := do
  s.roles.check .adminRole sender
  if h : newRecipient ≠ 0 then pure { s with feeRecipient := ⟨newRecipient, h⟩ }
  else .error (.custom .zeroAddress)

/-- `setMaxRebalanceBpsPerCall(newBps)` -/
def setMaxRebalanceBpsPerCall (s : State V) (sender : Address) (newBps : ℕ) :
    Call VaultError (State V) := do
  s.roles.check .adminRole sender
  if h : 0 < newBps ∧ newBps ≤ maxRebalanceBpsCeiling then
    pure { s with maxRebalanceBpsPerCall := ⟨newBps, h⟩ }
  else .error (.custom .invalidParam)

/-- `setMinRebalanceInterval(newInterval)` -/
def setMinRebalanceInterval (s : State V) (sender : Address) (newInterval : ℕ) :
    Call VaultError (State V) := do
  s.roles.check .adminRole sender
  if h : minRebalanceIntervalFloor ≤ newInterval then
    pure { s with minRebalanceInterval := ⟨newInterval, h⟩ }
  else .error (.custom .invalidParam)

/-- `rescueTokens(token, to)` -/
def rescueTokens (env : Env V) (s : State V) (sender token dst : Address) :
    Call VaultError (State V) := do
  s.roles.check .adminRole sender
  revertIf (token = env.asset) VaultError.cannotRescueAsset
  revertIf (token = env.self) VaultError.cannotRescueAsset
  revertIf (dst = 0) VaultError.zeroAddress
  let ext ← inner (env.rescueToken s.world.ext token dst)
  pure { s with world := { s.world with ext } }

/-! ### All calls -/

/-- The calls that users make: the four entry points of ERC-4626. -/
inductive UserCall where
  | deposit (assets : ℕ) (receiver : Address)
  | mint (shares : ℕ) (receiver : Address)
  | withdraw (assets : ℕ) (receiver owner : Address)
  | redeem (shares : ℕ) (receiver owner : Address)

/-- One such call, with the assets and the shares that changed hands. -/
def userExec (env : Env V) (s : State V) (sender : Address) :
    UserCall → Call VaultError (State V × ℕ × ℕ)
  | .deposit assets receiver => s.deposit env sender assets receiver
  | .mint shares receiver => s.mint env sender shares receiver
  | .withdraw assets receiver owner => s.withdraw env sender assets receiver owner
  | .redeem shares receiver owner => s.redeem env sender shares receiver owner

/-- The calls of the vault.  `elsewhere` is a call of another contract, which may change the world but
not the vault's storage. -/
inductive VaultCall (V : Type) where
  | user (call : UserCall)
  | transfer (dst : Address) (amount : ℕ)
  | approve (spender : Address) (amount : ℕ)
  | transferFrom (src dst : Address) (amount : ℕ)
  | addAdapter (adapter : Address) (capBps : ℕ)
  | setAdapterAllowed (adapter : Address) (allowed : Bool)
  | setAdapterCodeHashAllowed (codeHash : ℕ) (allowed : Bool)
  | removeAdapter (index : ℕ)
  | setAdapterCap (index newCapBps : ℕ)
  | forceRemoveAdapter (index : ℕ)
  | rebalance
  | adminRebalance (targetBalances : List ℕ)
  | pause
  | unpause
  | emergencyWithdraw
  | emergencyWithdrawAdapter (index : ℕ)
  | shutdownVault
  | setTvlCap (newCap : ℕ)
  | setPerDepositCap (newCap : ℕ)
  | setExitFeeBps (newBps : ℕ)
  | setFeeRecipient (newRecipient : Address)
  | setMaxRebalanceBpsPerCall (newBps : ℕ)
  | setMinRebalanceInterval (newInterval : ℕ)
  | rescueTokens (token dst : Address)
  | grantRole (role : VaultRole) (account : Address)
  | revokeRole (role : VaultRole) (account : Address)
  | renounceRole (role : VaultRole) (confirmation : Address)
  | elsewhere (world : World V)

/-- A call without a result. -/
def silent (x : Call VaultError (State V)) : Call VaultError (State V × ℕ × ℕ) := do
  let s ← x
  pure (s, 0, 0)

/-- A call on the ledger of shares. -/
def onShares (s : State V) (x : Call VaultError (Token Address)) :
    Call VaultError (State V × ℕ × ℕ) := do
  let shares ← x
  pure ({ s with shares }, 0, 0)

/-- A call on the role table. -/
def onRoles (s : State V) (x : Call VaultError (Roles VaultRole Address)) :
    Call VaultError (State V × ℕ × ℕ) := do
  let roles ← x
  pure ({ s with roles }, 0, 0)

/-- One call. -/
def exec (env : Env V) (s : State V) (tx : Tx (VaultCall V)) : Call VaultError (State V × ℕ × ℕ) :=
  match tx.call with
  | .user call => s.userExec env tx.sender call
  | .transfer dst amount => s.onShares (s.shares.transfer tx.sender dst amount)
  | .approve spender amount => s.onShares (s.shares.approve tx.sender spender amount)
  | .transferFrom src dst amount => s.onShares (s.shares.transferFrom tx.sender src dst amount)
  | .addAdapter adapter capBps => silent (s.addAdapter env tx.sender adapter capBps)
  | .setAdapterAllowed adapter allowed => silent (s.setAdapterAllowed tx.sender adapter allowed)
  | .setAdapterCodeHashAllowed codeHash allowed =>
    silent (s.setAdapterCodeHashAllowed tx.sender codeHash allowed)
  | .removeAdapter index => silent (s.removeAdapter env tx.sender index)
  | .setAdapterCap index newCapBps => silent (s.setAdapterCap tx.sender index newCapBps)
  | .forceRemoveAdapter index => silent (s.forceRemoveAdapter tx.sender index)
  | .rebalance => silent (s.rebalance env tx.block tx.sender)
  | .adminRebalance targetBalances => silent (s.adminRebalance env tx.block tx.sender targetBalances)
  | .pause => silent (s.pause tx.sender)
  | .unpause => silent (s.unpause tx.sender)
  | .emergencyWithdraw => silent (s.emergencyWithdraw env tx.sender)
  | .emergencyWithdrawAdapter index => silent (s.emergencyWithdrawAdapter env tx.sender index)
  | .shutdownVault => silent (s.shutdownVault tx.sender)
  | .setTvlCap newCap => silent (s.setTvlCap tx.sender newCap)
  | .setPerDepositCap newCap => silent (s.setPerDepositCap tx.sender newCap)
  | .setExitFeeBps newBps => silent (s.setExitFeeBps tx.sender newBps)
  | .setFeeRecipient newRecipient => silent (s.setFeeRecipient tx.sender newRecipient)
  | .setMaxRebalanceBpsPerCall newBps => silent (s.setMaxRebalanceBpsPerCall tx.sender newBps)
  | .setMinRebalanceInterval newInterval => silent (s.setMinRebalanceInterval tx.sender newInterval)
  | .rescueTokens token dst => silent (s.rescueTokens env tx.sender token dst)
  | .grantRole role account =>
    s.onRoles (Roles.grantRole (fun t r a => .ok (t.set r a true)) VaultRole.admin s.roles tx.sender
      role account)
  | .revokeRole role account =>
    s.onRoles (Roles.revokeRole VaultRole.admin s.roles tx.sender role account)
  | .renounceRole role confirmation =>
    s.onRoles (Roles.renounceRole s.roles tx.sender role confirmation)
  | .elsewhere world => .ok ({ s with world }, 0, 0)

/-- The storage that the constructor writes. -/
def initial (tvlCap perDepositCap : ℕ) (exitFeeBps : ExitFee) (feeRecipient : Recipient)
    (admin : Address) (world : World V) : State V where
  shares := Token.empty
  adapters := []
  adapterAllowed _ := false
  adapterCodeHashAllowed _ := false
  tvlCap := tvlCap
  perDepositCap := perDepositCap
  exitFeeBps := exitFeeBps
  feeRecipient := feeRecipient
  shutdown := false
  depositsPaused := false
  withdrawalsPaused := false
  maxRebalanceBpsPerCall := ⟨2500, by decide⟩
  minRebalanceInterval := ⟨43200, by decide⟩
  lastRebalanceAt := 0
  roles := Roles.set (Roles.set (fun _ _ => false) .adminRole admin true) .emergencyRole admin true
  world := world

/-- The vault after its constructor. -/
def deploy (tvlCap perDepositCap exitFeeBps : ℕ) (feeRecipient admin : Address) (world : World V) :
    Call VaultError (State V) :=
  if h : feeRecipient ≠ 0 ∧ admin ≠ 0 then
    if hf : exitFeeBps ≤ maxExitFeeBps then
      .ok (initial tvlCap perDepositCap ⟨exitFeeBps, hf⟩ ⟨feeRecipient, h.1⟩ admin world)
    else .error (.custom .invalidFee)
  else .error (.custom .zeroAddress)

end State

end RobotMoney.Vault
