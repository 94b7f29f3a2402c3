import RobotMoney.Basket.Basic

/-!
# The basket vault as a state machine

The entry points of `BasketVault` beside the ERC-4626 ones: the list of assets, the emergency exits and
the parameters; and, with the ledger of shares, all calls of the vault as one step function.
-/

namespace RobotMoney.Basket

open RobotMoney.Lib

variable {V : Type} {env : Env V}

namespace State

/-! ### The list of assets -/

/-- The answer of a view of another contract. -/
def answer {α : Type} (x : Option α) : Call BasketError α :=
  match x with
  | some a => .ok a
  | none => .error .innerCall

theorem token_ne_zero {token pool : Address} (h : token ≠ 0 ∧ pool ≠ 0) : token ≠ 0 := h.1

/-- `addAsset(token, pool, swapFee)` -/
def addAsset (s : State env) (sender token pool : Address) (swapFee : ℕ) :
    Call BasketError (State env) := do
  s.roles.check .adminRole sender
  if hne : token ≠ 0 ∧ pool ≠ 0 then do
    revertIf (env.maxAssets ≤ s.assets.length) BasketError.maxAssetsReached
    let _ ← answer (env.token0 pool)
    let _ ← answer (env.token1 pool)
    if hpaired : env.Paired pool token then do
      let actual ← answer (env.observationCardinality s.world.ext pool)
      revertIf (actual < minPoolCardinality)
        (BasketError.insufficientPoolCardinality pool minPoolCardinality actual)
      pure { s with assets := s.assets ++ [⟨token, pool, swapFee, true, token_ne_zero hne, hne.2, hpaired⟩] }
    else .error (.custom .poolTokenMismatch)
  else .error (.custom .zeroAddress)

/-- `removeAsset(index)` -/
def removeAsset (s : State env) (sender : Address) (index : ℕ) : Call BasketError (State env) := do
  s.roles.check .adminRole sender
  match s.assets[index]? with
  | none => .error (.custom .assetNotFound)
  | some i => do
    revertIf (i.active = false) BasketError.assetNotFound
    revertIf (0 < s.world.held env i.token) BasketError.assetStillHeld
    pure { s with assets := s.assets.set index { i with active := false } }

/-! ### Emergencies -/

/-- `pause()` -/
def pause (s : State env) (sender : Address) : Call BasketError (State env) := do
  s.roles.check .emergencyRole sender
  revertIf (s.paused = true) BasketError.enforcedPause
  pure { s with paused := true }

/-- `unpause()` -/
def unpause (s : State env) (sender : Address) : Call BasketError (State env) := do
  s.roles.check .adminRole sender
  revertIf (s.paused = false) BasketError.expectedPause
  pure { s with paused := false }

/-- What `_emergencyUnwindAsset` and `_emergencyUnwindAssetWithCap` share: all the vault has of a token
is swapped.  With `cap`, less than the floor reverts once more. -/
def unwindAsset (env : Env V) (cap : Bool) (w : World V) (i : AssetInfo env) (floor : ℕ) :
    Call BasketError (World V × List Swapped) :=
  if w.held env i.token = 0 then .ok (w, [])
  else do
    let bal := w.held env i.token
    let (w, received) ← swap env w i.token env.usdc i.swapFee bal floor
    revertIf (cap = true ∧ received < floor)
      (BasketError.emergencyUnwindLossCapExceeded i.token received floor)
    pure (w, [⟨i.token, env.usdc, bal, received⟩])

/-- `_emergencyUnwindAsset(assetInfo, minUsdcOut)` -/
def emergencyUnwindAsset (env : Env V) (w : World V) (i : AssetInfo env) (minUsdcOut : ℕ) :
    Call BasketError (World V × List Swapped) :=
  unwindAsset env false w i minUsdcOut

/-- `_emergencyUnwindAssetWithCap(assetInfo, appliedFloor)` -/
def emergencyUnwindAssetWithCap (env : Env V) (w : World V) (i : AssetInfo env) (appliedFloor : ℕ) :
    Call BasketError (World V × List Swapped) :=
  unwindAsset env true w i appliedFloor

/-- The floor an emergency sale of all the vault has of a token takes from the price. -/
def twapFloor (s : State env) (w : World V) (i : AssetInfo env) : Call BasketError ℕ := do
  let quote ← s.twapUsdcValue w.ext i.pool i.token (w.held env i.token)
  s.slippageFloor quote

/-- The loop of `emergencyUnwind`. -/
def unwindLoop (s : State env) :
    World V → List (AssetInfo env) → Call BasketError (World V × List Swapped)
  | w, [] => .ok (w, [])
  | w, i :: is =>
    if i.active = false then unwindLoop s w is
    else if w.held env i.token = 0 then unwindLoop s w is
    else do
      let twapFloor ← s.twapFloor w i
      let configuredMin := (s.emergencyUnwindGuard i.token).minUsdcOut
      let effectiveFloor := if configuredMin < twapFloor then twapFloor else configuredMin
      let (w, swaps) ← emergencyUnwindAsset env w i effectiveFloor
      let (w, rest) ← unwindLoop s w is
      pure (w, swaps ++ rest)

/-- `emergencyUnwind()`, which pauses an unpaused vault. -/
def emergencyUnwind (s : State env) (sender : Address) :
    Call BasketError (State env × List Swapped) := do
  s.roles.check .emergencyRole sender
  let (w, swaps) ← s.unwindLoop s.world s.assets
  pure ({ s with paused := true, world := w }, swaps)

/-- The loop of `emergencyUnwindWithOverride`. -/
def overrideLoop (s : State env) :
    World V → List Address → Call BasketError (World V × List Swapped)
  | w, [] => .ok (w, [])
  | w, token :: tokens => do
    let guard := s.emergencyUnwindGuard token
    revertIf (guard.overrideAllowed = false) BasketError.emergencyUnwindOverrideDisabled
    let i ← s.activeAssetForToken token
    if w.held env i.token = 0 then overrideLoop s w tokens
    else do
      let product ← mulU guard.minUsdcOut (maxBps - guard.maxLossBps)
      let appliedFloor := product / maxBps
      let twapFloor ← s.twapFloor w i
      let effectiveFloor := if appliedFloor < twapFloor then twapFloor else appliedFloor
      let (w, swaps) ← emergencyUnwindAssetWithCap env w i effectiveFloor
      let (w, rest) ← overrideLoop s w tokens
      pure (w, swaps ++ rest)

/-- `emergencyUnwindWithOverride(tokens)` -/
def emergencyUnwindWithOverride (s : State env) (sender : Address) (tokens : List Address) :
    Call BasketError (State env × List Swapped) := do
  s.roles.check .emergencyRole sender
  let (w, swaps) ← s.overrideLoop s.world tokens
  pure ({ s with paused := true, world := w }, swaps)

/-- `shutdownVault()` -/
def shutdownVault (s : State env) (sender : Address) : Call BasketError (State env) := do
  s.roles.check .emergencyRole sender
  pure { s with shutdown := true, tvlCap := 0 }

/-- The last step of `rescueTokens`: all the vault has of a token, be it shares of its own, is sent. -/
def sendAll (s : State env) (token dst : Address) : Call BasketError (State env) :=
  if token = env.self then do
    let shares ← s.shares.transfer env.self dst (s.shares.balanceOf env.self)
    pure { s with shares }
  else do
    let t ← (s.world.ledger token).transfer env.self dst (s.world.held env token)
    pure { s with world := s.world.setLedger token t }

/-- `rescueTokens(token, to)` -/
def rescueTokens (s : State env) (sender token dst : Address) : Call BasketError (State env) := do
  s.roles.check .adminRole sender
  revertIf (token = env.usdc) BasketError.cannotRescueUsdc
  revertIf (dst = 0) BasketError.zeroAddress
  revertIf (token ∈ s.assets.map fun i => i.token) BasketError.assetInBasket
  s.sendAll token dst

/-! ### Parameters -/

/-- `setTvlCap(newCap)` -/
def setTvlCap (s : State env) (sender : Address) (newCap : ℕ) : Call BasketError (State env) := do
  s.roles.check .adminRole sender
  pure { s with tvlCap := newCap }

/-- `setPerDepositCap(newCap)` -/
def setPerDepositCap (s : State env) (sender : Address) (newCap : ℕ) :
    Call BasketError (State env) := do
  s.roles.check .adminRole sender
  pure { s with perDepositCap := newCap }

/-- `setExitFeeBps(newBps)` -/
def setExitFeeBps (s : State env) (sender : Address) (newBps : ℕ) : Call BasketError (State env) := do
  s.roles.check .adminRole sender
  if h : newBps ≤ maxExitFeeBps then pure { s with exitFeeBps := ⟨newBps, h⟩ }
  else .error (.custom .invalidFee)

/-- `setFeeRecipient(newRecipient)` -/
def setFeeRecipient (s : State env) (sender newRecipient : Address) :
    Call BasketError (State env) := do
  s.roles.check .adminRole sender
  if h : newRecipient ≠ 0 then pure { s with feeRecipient := ⟨newRecipient, h⟩ }
  else .error (.custom .zeroAddress)

/-- `setMaxSlippageBps(newBps)` -/
def setMaxSlippageBps (s : State env) (sender : Address) (newBps : ℕ) :
    Call BasketError (State env) := do
  s.roles.check .adminRole sender
  if h : newBps ≤ maxSlippageBpsCeiling then pure { s with maxSlippageBps := ⟨newBps, h⟩ }
  else .error (.custom .invalidParam)

/-- `setEmergencyUnwindGuard(token, minUsdcOut, overrideAllowed, maxLossBps)` -/
def setEmergencyUnwindGuard (s : State env) (sender token : Address) (minUsdcOut : ℕ)
    (overrideAllowed : Bool) (maxLossBps : ℕ) : Call BasketError (State env) := do
  s.roles.check .adminRole sender
  if h : maxLossBps ≤ maxBps then do
    let _ ← s.activeAssetForToken token
    pure { s with
      emergencyUnwindGuard :=
        Function.update s.emergencyUnwindGuard token ⟨minUsdcOut, overrideAllowed, maxLossBps, h⟩ }
  else .error (.custom .invalidParam)

/-- `setTwapWindow(token, window)` -/
def setTwapWindow (s : State env) (sender token : Address) (window : ℕ) :
    Call BasketError (State env) := do
  s.roles.check .adminRole sender
  if h : minTwapWindow ≤ window ∧ window ≤ maxTwapWindow then do
    let _ ← s.activeAssetForToken token
    pure { s with twapWindow := Function.update s.twapWindow token ⟨window, Or.inr h⟩ }
  else .error (.custom (.invalidTwapWindow window))

/-! ### All calls -/

/-- The calls of the vault.  `elsewhere` is a call of another contract, which may change the world but
not the vault's storage. -/
inductive BasketCall (V : Type) where
  | deposit (assets : ℕ) (receiver : Address)
  | mint (shares : ℕ) (receiver : Address)
  | withdraw (assets : ℕ) (receiver owner : Address)
  | redeem (shares : ℕ) (receiver owner : Address)
  | transfer (dst : Address) (amount : ℕ)
  | approve (spender : Address) (amount : ℕ)
  | transferFrom (src dst : Address) (amount : ℕ)
  | addAsset (token pool : Address) (swapFee : ℕ)
  | removeAsset (index : ℕ)
  | pause
  | unpause
  | emergencyUnwind
  | emergencyUnwindWithOverride (tokens : List Address)
  | shutdownVault
  | rescueTokens (token dst : Address)
  | setTvlCap (newCap : ℕ)
  | setPerDepositCap (newCap : ℕ)
  | setExitFeeBps (newBps : ℕ)
  | setFeeRecipient (newRecipient : Address)
  | setMaxSlippageBps (newBps : ℕ)
  | setEmergencyUnwindGuard (token : Address) (minUsdcOut : ℕ) (overrideAllowed : Bool)
      (maxLossBps : ℕ)
  | setTwapWindow (token : Address) (window : ℕ)
  | grantRole (role : BasketRole) (account : Address)
  | revokeRole (role : BasketRole) (account : Address)
  | renounceRole (role : BasketRole) (confirmation : Address)
  | elsewhere (world : World V)

/-- What a call leaves behind beside the state: the number it returns, the swaps it made, and the
charge of a redemption. -/
structure Receipt where
  value : ℕ
  swaps : List Swapped
  charge : Option ExitFeeCharged
  deriving DecidableEq

/-- A call without a result. -/
def silent (x : Call BasketError (State env)) : Call BasketError (State env × Receipt) := do
  let s ← x
  pure (s, ⟨0, [], none⟩)

/-- A call that only swaps. -/
def swapping (x : Call BasketError (State env × List Swapped)) :
    Call BasketError (State env × Receipt) := do
  let (s, swaps) ← x
  pure (s, ⟨0, swaps, none⟩)

/-- A deposit. -/
def paying (x : Call BasketError (State env × ℕ × List Swapped)) :
    Call BasketError (State env × Receipt) := do
  let (s, value, swaps) ← x
  pure (s, ⟨value, swaps, none⟩)

/-- A redemption. -/
def redeeming (x : Call BasketError (State env × ℕ × List Swapped × ExitFeeCharged)) :
    Call BasketError (State env × Receipt) := do
  let (s, value, swaps, charge) ← x
  pure (s, ⟨value, swaps, some charge⟩)

/-- A call on the ledger of shares. -/
def onShares (s : State env) (x : Call BasketError (Token Address)) :
    Call BasketError (State env × Receipt) := do
  let shares ← x
  pure ({ s with shares }, ⟨0, [], none⟩)

/-- A call on the role table. -/
def onRoles (s : State env) (x : Call BasketError (Roles BasketRole Address)) :
    Call BasketError (State env × Receipt) := do
  let roles ← x
  pure ({ s with roles }, ⟨0, [], none⟩)

/-- One call. -/
def exec (s : State env) (tx : Tx (BasketCall V)) : Call BasketError (State env × Receipt) :=
  match tx.call with
  | .deposit assets receiver => paying (s.deposit tx.sender assets receiver)
  | .mint shares receiver => paying (s.mint tx.sender shares receiver)
  | .withdraw assets receiver owner => redeeming (s.withdraw tx.sender assets receiver owner)
  | .redeem shares receiver owner => redeeming (s.redeem tx.sender shares receiver owner)
  | .transfer dst amount => s.onShares (s.shares.transfer tx.sender dst amount)
  | .approve spender amount => s.onShares (s.shares.approve tx.sender spender amount)
  | .transferFrom src dst amount => s.onShares (s.shares.transferFrom tx.sender src dst amount)
  | .addAsset token pool swapFee => silent (s.addAsset tx.sender token pool swapFee)
  | .removeAsset index => silent (s.removeAsset tx.sender index)
  | .pause => silent (s.pause tx.sender)
  | .unpause => silent (s.unpause tx.sender)
  | .emergencyUnwind => swapping (s.emergencyUnwind tx.sender)
  | .emergencyUnwindWithOverride tokens => swapping (s.emergencyUnwindWithOverride tx.sender tokens)
  | .shutdownVault => silent (s.shutdownVault tx.sender)
  | .rescueTokens token dst => silent (s.rescueTokens tx.sender token dst)
  | .setTvlCap newCap => silent (s.setTvlCap tx.sender newCap)
  | .setPerDepositCap newCap => silent (s.setPerDepositCap tx.sender newCap)
  | .setExitFeeBps newBps => silent (s.setExitFeeBps tx.sender newBps)
  | .setFeeRecipient newRecipient => silent (s.setFeeRecipient tx.sender newRecipient)
  | .setMaxSlippageBps newBps => silent (s.setMaxSlippageBps tx.sender newBps)
  | .setEmergencyUnwindGuard token minUsdcOut overrideAllowed maxLossBps =>
    silent (s.setEmergencyUnwindGuard tx.sender token minUsdcOut overrideAllowed maxLossBps)
  | .setTwapWindow token window => silent (s.setTwapWindow tx.sender token window)
  | .grantRole role account =>
    s.onRoles (Roles.grantRole (fun t r a => .ok (t.set r a true)) BasketRole.admin s.roles tx.sender
      role account)
  | .revokeRole role account =>
    s.onRoles (Roles.revokeRole BasketRole.admin s.roles tx.sender role account)
  | .renounceRole role confirmation =>
    s.onRoles (Roles.renounceRole s.roles tx.sender role confirmation)
  | .elsewhere world => .ok ({ s with world }, ⟨0, [], none⟩)

/-- The storage that the constructor writes. -/
def initial (env : Env V) (tvlCap perDepositCap : ℕ) (exitFeeBps : ExitFee) (maxSlippageBps : Slippage)
    (feeRecipient : Recipient) (admin emergencyResponder : Address) (world : World V) : State env where
  shares := Token.empty
  assets := []
  tvlCap := tvlCap
  perDepositCap := perDepositCap
  exitFeeBps := exitFeeBps
  feeRecipient := feeRecipient
  maxSlippageBps := maxSlippageBps
  shutdown := false
  paused := false
  emergencyUnwindGuard _ := ⟨0, false, 0, by decide⟩
  twapWindow _ := ⟨0, by decide⟩
  roles := Roles.set (Roles.set (fun _ _ => false) .adminRole admin true) .emergencyRole
    emergencyResponder true
  world := world

/-- The vault after its constructor. -/
def deploy (env : Env V) (tvlCap perDepositCap exitFeeBps initialSlippageBps : ℕ)
    (feeRecipient admin emergencyResponder : Address) (world : World V) :
    Call BasketError (State env) :=
  if h : env.usdc ≠ 0 ∧ env.router ≠ 0 ∧ feeRecipient ≠ 0 ∧ admin ≠ 0 ∧ emergencyResponder ≠ 0 then
    if hfee : exitFeeBps ≤ maxExitFeeBps then
      if hslip : initialSlippageBps ≤ maxSlippageBpsCeiling then
        .ok (initial env tvlCap perDepositCap ⟨exitFeeBps, hfee⟩ ⟨initialSlippageBps, hslip⟩
          ⟨feeRecipient, h.2.2.1⟩ admin emergencyResponder world)
      else .error (.custom .invalidParam)
    else .error (.custom .invalidFee)
  else .error (.custom .zeroAddress)

end State

/-! ### The two baskets -/

/-- `_MAX_ASSETS` and `_DEFAULT_SLIPPAGE_BPS` of `AgentTokenVault`. -/
def AgentTokenVault.maxAssets : ℕ := 15

def AgentTokenVault.defaultSlippageBps : ℕ := 300

/-- `_MAX_ASSETS` and `_DEFAULT_SLIPPAGE_BPS` of `ProtocolAssetVault`. -/
def ProtocolAssetVault.maxAssets : ℕ := 10

def ProtocolAssetVault.defaultSlippageBps : ℕ := 100

end RobotMoney.Basket
