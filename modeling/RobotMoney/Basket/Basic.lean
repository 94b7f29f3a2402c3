import RobotMoney.Basket.Twap
import RobotMoney.Lib.AccessControl
import RobotMoney.Lib.Token

/-!
# The basket vault

`BasketVault`: an ERC-4626 vault over USDC that holds a list of tokens.  A deposit is split over the
active tokens and swapped into them; a redemption sells its fraction of each and pays out the proceeds,
with its fraction of the USDC the vault holds idle.  The vault's assets are the idle USDC and what the
active tokens are worth at their time-weighted price.

The tokens are ledgers of the world, the vault's own shares a ledger of its state.  Pools and the swap
router are reached through `Env`; they do not call back into the vault, which is locked while it swaps.
An entry of the list is kept with the checks it passed when it was added: `AssetInfo`.
-/

namespace RobotMoney.Basket

open RobotMoney.Lib

/-- `MAX_EXIT_FEE_BPS` -/
def maxExitFeeBps : ℕ := 100

/-- `MAX_SLIPPAGE_BPS` -/
def maxSlippageBpsCeiling : ℕ := 500

/-- `MAX_BPS` -/
def maxBps : ℕ := 10000

/-- `MIN_TWAP_WINDOW`, ten minutes. -/
def minTwapWindow : ℕ := 600

/-- `MAX_TWAP_WINDOW`, one day. -/
def maxTwapWindow : ℕ := 86400

/-- `DEFAULT_TWAP_WINDOW`, half an hour. -/
def defaultTwapWindow : ℕ := 1800

/-- `MIN_POOL_CARDINALITY` -/
def minPoolCardinality : ℕ := 2

/-- `10 ** _decimalsOffset()`, the number of virtual shares. -/
def virtualShares : ℕ := 10 ^ 18

/-- The exit fees the setter admits. -/
abbrev ExitFee : Type := { n : ℕ // n ≤ maxExitFeeBps }

/-- The slippages the setter admits. -/
abbrev Slippage : Type := { n : ℕ // n ≤ maxSlippageBpsCeiling }

/-- An account that is not the zero account. -/
abbrev Recipient : Type := { a : Address // a ≠ 0 }

/-- The windows the setter admits, and zero, which stands for the default. -/
abbrev TwapWindow : Type := { n : ℕ // n = 0 ∨ minTwapWindow ≤ n ∧ n ≤ maxTwapWindow }

/-- `ExactInputSingleParams`; the price limit is always zero. -/
structure SwapParams where
  tokenIn : Address
  tokenOut : Address
  fee : ℕ
  recipient : Address
  amountIn : ℕ
  amountOutMinimum : ℕ

/-- The ledgers of the tokens, USDC among them, and whatever the pools keep. -/
structure World (V : Type) where
  ledger : Address → Token Address
  ext : V

/-- The vault's own address, the addresses of USDC and of the swap router, the size of the basket, and
the contracts around the vault. -/
structure Env (V : Type) where
  self : Address
  usdc : Address
  router : Address
  maxAssets : ℕ
  /-- the answers of `token0()` and `token1()`, which are fixed when a pool is made -/
  token0 : (pool : Address) → Option Address
  token1 : (pool : Address) → Option Address
  /-- the fourth value of `slot0()` -/
  observationCardinality : V → (pool : Address) → Option ℕ
  /-- the first list of `observe(secondsAgos)` -/
  observe : V → (pool : Address) → (secondsAgos : List ℕ) → Call Unit (List Int56)
  /-- `exactInputSingle(params)`, called by the vault, with the amount that came out -/
  exactInputSingle : World V → SwapParams → Call Unit (World V × ℕ)
  /-- whether the inherited `maxWithdraw` takes the exit fee into account: it is
  `previewRedeem(balance)` in some releases of the library, `convertToAssets(balance)` in others -/
  maxWithdrawNet : Bool

/-- The pool pairs the token with USDC. -/
def Env.Paired {V : Type} (env : Env V) (pool token : Address) : Prop :=
  (env.token0 pool = some token ∧ env.token1 pool = some env.usdc) ∨
    (env.token1 pool = some token ∧ env.token0 pool = some env.usdc)

instance {V : Type} (env : Env V) (pool token : Address) : Decidable (env.Paired pool token) :=
  inferInstanceAs (Decidable (_ ∨ _))

/-- An entry of the list of assets. -/
structure AssetInfo {V : Type} (env : Env V) where
  token : Address
  pool : Address
  swapFee : ℕ
  active : Bool
  token_ne : token ≠ 0
  pool_ne : pool ≠ 0
  paired : env.Paired pool token

/-- What an emergency sale of a token has to bring. -/
structure EmergencyUnwindGuard where
  minUsdcOut : ℕ
  overrideAllowed : Bool
  maxLossBps : ℕ
  maxLossBps_le : maxLossBps ≤ maxBps := by decide

inductive BasketRole where
  | defaultAdminRole
  | adminRole
  | emergencyRole
  | other (id : ℕ)
  deriving DecidableEq, Repr

/-- `getRoleAdmin(role)` after the constructor. -/
def BasketRole.admin : BasketRole → BasketRole
  | .adminRole => .adminRole
  | .emergencyRole => .adminRole
  | _ => .defaultAdminRole

/-- The event `Swapped`. -/
structure Swapped where
  tokenIn : Address
  tokenOut : Address
  amountIn : ℕ
  amountOut : ℕ
  deriving DecidableEq

/-- The event `ExitFeeCharged`. -/
structure ExitFeeCharged where
  owner : Address
  receiver : Address
  gross : ℕ
  fee : ℕ
  net : ℕ
  deriving DecidableEq

variable {V : Type} {env : Env V}

/-- The storage of the vault, its share ledger, and the world it acts on. -/
structure State (env : Env V) where
  shares : Token Address
  assets : List (AssetInfo env)
  tvlCap : ℕ
  perDepositCap : ℕ
  exitFeeBps : ExitFee
  feeRecipient : Recipient
  maxSlippageBps : Slippage
  shutdown : Bool
  paused : Bool
  emergencyUnwindGuard : Address → EmergencyUnwindGuard
  twapWindow : Address → TwapWindow
  roles : Roles BasketRole Address
  world : World V

/-- What the vault holds of a token. -/
def World.held (env : Env V) (w : World V) (token : Address) : ℕ := (w.ledger token).balanceOf env.self

/-- The world with one ledger replaced. -/
def World.setLedger (w : World V) (token : Address) (t : Token Address) : World V :=
  { w with ledger := Function.update w.ledger token t }

namespace State

/-! ### Prices -/

/-- `effectiveTwapWindow(token)` -/
def effectiveTwapWindow (s : State env) (token : Address) : ℕ :=
  if (s.twapWindow token).1 = 0 then defaultTwapWindow else (s.twapWindow token).1

/-- `_twapQuote(pool, tokenIn, tokenOut, amountIn)` -/
def twapQuote (s : State env) (ext : V) (pool tokenIn tokenOut : Address) (amountIn : ℕ) :
    Call BasketError ℕ :=
  if amountIn = 0 then .ok 0
  else do
    let basketAsset := if tokenIn = env.usdc then tokenOut else tokenIn
    let window := s.effectiveTwapWindow basketAsset
    let tickCumulatives ← inner (env.observe ext pool [window, 0])
    let tick ← arithmeticMeanTick tickCumulatives window
    let sqrtPriceX96 ← TickMath.getSqrtRatioAtTick tick
    quoteAt sqrtPriceX96 (decide (Fin.val tokenIn < Fin.val tokenOut)) amountIn

/-- `_twapUsdcValue(pool, token, tokenAmount)` -/
def twapUsdcValue (s : State env) (ext : V) (pool token : Address) (tokenAmount : ℕ) :
    Call BasketError ℕ :=
  s.twapQuote ext pool token env.usdc tokenAmount

/-- `_twapTokenValue(pool, token, usdcAmount)` -/
def twapTokenValue (s : State env) (ext : V) (pool token : Address) (usdcAmount : ℕ) :
    Call BasketError ℕ :=
  s.twapQuote ext pool env.usdc token usdcAmount

/-- `quote * (MAX_BPS - maxSlippageBps) / MAX_BPS`, the least a swap has to bring. -/
def slippageFloor (s : State env) (quote : ℕ) : Call BasketError ℕ := do
  let product ← mulU quote (maxBps - s.maxSlippageBps.1)
  pure (product / maxBps)

/-! ### What the vault has -/

/-- The active entries, in the order of the list. -/
def activeAssets (s : State env) : List (AssetInfo env) := s.assets.filter fun i => i.active

/-- `_activeAssetCount()` -/
def activeAssetCount (s : State env) : ℕ := s.activeAssets.length

/-- The loop of `_activeAssetForToken`: the first active entry of a token. -/
def activeAssetForToken (s : State env) (token : Address) : Call BasketError (AssetInfo env) :=
  match s.assets.find? fun i => i.active && decide (i.token = token) with
  | some i => .ok i
  | none => .error (.custom .assetNotFound)

/-- The USDC in the vault itself. -/
def idle (s : State env) : ℕ := s.world.held env env.usdc

/-- The loop of `totalAssets`: what each active token is worth is added to `sum`. -/
def totalLoop (s : State env) : ℕ → List (AssetInfo env) → Call BasketError ℕ
  | sum, [] => .ok sum
  | sum, i :: is =>
    if i.active = false then totalLoop s sum is
    else if 0 < s.world.held env i.token then do
      let value ← s.twapUsdcValue s.world.ext i.pool i.token (s.world.held env i.token)
      let sum ← addU sum value
      totalLoop s sum is
    else totalLoop s sum is

/-- `totalAssets()` -/
def totalAssets (s : State env) : Call BasketError ℕ := s.totalLoop s.idle s.assets

/-! ### Conversions -/

/-- `_convertToShares(assets, Floor)` -/
def convertToShares (s : State env) (assets : ℕ) : Call BasketError ℕ := do
  let supply ← addU s.shares.totalSupply virtualShares
  let total ← s.totalAssets
  let total ← addU total 1
  mulDiv assets supply total

/-- `_convertToShares(assets, Ceil)` -/
def convertToSharesUp (s : State env) (assets : ℕ) : Call BasketError ℕ := do
  let supply ← addU s.shares.totalSupply virtualShares
  let total ← s.totalAssets
  let total ← addU total 1
  mulDivUp assets supply total

/-- `_convertToAssets(shares, Floor)` -/
def convertToAssets (s : State env) (shares : ℕ) : Call BasketError ℕ := do
  let total ← s.totalAssets
  let total ← addU total 1
  let supply ← addU s.shares.totalSupply virtualShares
  mulDiv shares total supply

/-- `_convertToAssets(shares, Ceil)` -/
def convertToAssetsUp (s : State env) (shares : ℕ) : Call BasketError ℕ := do
  let total ← s.totalAssets
  let total ← addU total 1
  let supply ← addU s.shares.totalSupply virtualShares
  mulDivUp shares total supply

/-- `previewRedeem(shares)` -/
def previewRedeem (s : State env) (shares : ℕ) : Call BasketError ℕ := do
  let gross ← s.convertToAssets shares
  let fee ← mulDiv gross s.exitFeeBps.1 maxBps
  subU gross fee

/-- The gross amount that `previewWithdraw` takes for a net one. -/
def netToGross (s : State env) (assets : ℕ) : Call BasketError ℕ :=
  if s.exitFeeBps.1 = 0 then .ok assets else mulDivUp assets maxBps (maxBps - s.exitFeeBps.1)

/-- `previewWithdraw(assets_)` -/
def previewWithdraw (s : State env) (assets : ℕ) : Call BasketError ℕ := do
  let gross ← s.netToGross assets
  s.convertToSharesUp gross

/-- `maxRedeem(owner)` -/
def maxRedeem (s : State env) (owner : Address) : ℕ := s.shares.balanceOf owner

/-- `maxWithdraw(owner)` -/
def maxWithdraw (s : State env) (owner : Address) : Call BasketError ℕ :=
  if env.maxWithdrawNet then s.previewRedeem (s.shares.balanceOf owner)
  else s.convertToAssets (s.shares.balanceOf owner)

/-! ### Swaps -/

/-- `IERC20(token).forceApprove(address(SWAP_ROUTER), amount)` -/
def approveRouter (env : Env V) (w : World V) (token : Address) (amount : ℕ) :
    Call BasketError (World V) := do
  let t ← (w.ledger token).approve env.self env.router amount
  pure (w.setLedger token t)

/-- What every swap of the vault does: the router is approved, swaps, and is unapproved. -/
def swap (env : Env V) (w : World V) (tokenIn tokenOut : Address) (fee amountIn amountOutMinimum : ℕ) :
    Call BasketError (World V × ℕ) := do
  let w ← approveRouter env w tokenIn amountIn
  let (w, amountOut) ← inner (env.exactInputSingle w
    ⟨tokenIn, tokenOut, fee, env.self, amountIn, amountOutMinimum⟩)
  let w ← approveRouter env w tokenIn 0
  pure (w, amountOut)

/-- The loop of `_routeDeposit`. -/
def routeLoop (s : State env) (perAsset remainder : ℕ) :
    World V → List (AssetInfo env) → Bool → Call BasketError (World V × List Swapped)
  | w, [], _ => .ok (w, [])
  | w, i :: is, firstActive =>
    if i.active = false then routeLoop s perAsset remainder w is firstActive
    else
      let swapIn := if firstActive then perAsset + remainder else perAsset
      if swapIn = 0 then routeLoop s perAsset remainder w is false
      else do
        let quote ← s.twapTokenValue w.ext i.pool i.token swapIn
        let minOut ← s.slippageFloor quote
        let (w, amountOut) ← swap env w env.usdc i.token i.swapFee swapIn minOut
        let (w, swaps) ← routeLoop s perAsset remainder w is false
        pure (w, ⟨env.usdc, i.token, swapIn, amountOut⟩ :: swaps)

/-- `_routeDeposit(usdcAmount)` -/
def routeDeposit (s : State env) (usdcAmount : ℕ) : Call BasketError (State env × List Swapped) :=
  if s.activeAssetCount = 0 ∨ usdcAmount = 0 then .ok (s, [])
  else do
    let perAsset := usdcAmount / s.activeAssetCount
    let remainder := usdcAmount - perAsset * s.activeAssetCount
    let (w, swaps) ← s.routeLoop perAsset remainder s.world s.assets true
    pure ({ s with world := w }, swaps)

/-- The loop of `_sellProportional`: the swaps made, and `usdcOut` with their proceeds. -/
def sellLoop (s : State env) (shares supplyBefore : ℕ) :
    World V → List (AssetInfo env) → ℕ → Call BasketError (World V × ℕ × List Swapped)
  | w, [], usdcOut => .ok (w, usdcOut, [])
  | w, i :: is, usdcOut =>
    if i.active = false then sellLoop s shares supplyBefore w is usdcOut
    else if w.held env i.token = 0 then sellLoop s shares supplyBefore w is usdcOut
    else do
      let sellAmount ← mulDiv (w.held env i.token) shares supplyBefore
      if sellAmount = 0 then sellLoop s shares supplyBefore w is usdcOut
      else do
        let quote ← s.twapUsdcValue w.ext i.pool i.token sellAmount
        let minUsdcOut ← s.slippageFloor quote
        let (w, received) ← swap env w i.token env.usdc i.swapFee sellAmount minUsdcOut
        let usdcOut ← addU usdcOut received
        let (w, usdcOut, swaps) ← sellLoop s shares supplyBefore w is usdcOut
        pure (w, usdcOut, ⟨i.token, env.usdc, sellAmount, received⟩ :: swaps)

/-- `if (idleBefore > 0) usdcOut += idleBefore.mulDiv(shares, supplyBefore)` -/
def idlePart (s : State env) (shares supplyBefore : ℕ) : Call BasketError ℕ :=
  if 0 < s.idle then mulDiv s.idle shares supplyBefore else .ok 0

/-- `_sellProportional(shares, supplyBefore)` -/
def sellProportional (s : State env) (shares supplyBefore : ℕ) :
    Call BasketError (World V × ℕ × List Swapped) := do
  let idlePart ← s.idlePart shares supplyBefore
  s.sellLoop shares supplyBefore s.world s.assets idlePart

/-! ### Deposits and redemptions -/

/-- `_deposit(caller, receiver, usdcAmount, shares)` -/
def depositInternal (s : State env) (caller receiver : Address) (usdcAmount shares : ℕ) :
    Call BasketError (State env × List Swapped) := do
  revertIf (s.paused = true) BasketError.enforcedPause
  revertIf (s.shutdown = true) BasketError.vaultShutdown
  revertIf (s.perDepositCap < usdcAmount) BasketError.perDepositCapExceeded
  let total ← s.totalAssets
  let total ← addU total usdcAmount
  revertIf (s.tvlCap < total) BasketError.tvlCapExceeded
  revertIf (s.activeAssetCount = 0) BasketError.noActiveAssets
  let usdc ← (s.world.ledger env.usdc).transferFrom env.self caller env.self usdcAmount
  let token ← s.shares.mint receiver shares
  routeDeposit { s with shares := token, world := s.world.setLedger env.usdc usdc } usdcAmount

/-- `deposit(assets, receiver)`, with the shares minted. -/
def deposit (s : State env) (caller : Address) (assets : ℕ) (receiver : Address) :
    Call BasketError (State env × ℕ × List Swapped) := do
  let shares ← s.convertToShares assets
  let (s, swaps) ← s.depositInternal caller receiver assets shares
  pure (s, shares, swaps)

/-- `mint(shares, receiver)`, with the assets paid. -/
def mint (s : State env) (caller : Address) (shares : ℕ) (receiver : Address) :
    Call BasketError (State env × ℕ × List Swapped) := do
  let assets ← s.convertToAssetsUp shares
  let (s, swaps) ← s.depositInternal caller receiver assets shares
  pure (s, assets, swaps)

/-- `if (caller != owner) _spendAllowance(owner, caller, shares)` -/
def spendShares (s : State env) (caller owner : Address) (shares : ℕ) :
    Call BasketError (Token Address) :=
  if caller ≠ owner then s.shares.spendAllowance owner caller shares else .ok s.shares

/-- `if (fee > 0) safeTransfer(feeRecipient, fee)` -/
def payFee (s : State env) (usdc : Token Address) (fee : ℕ) : Call BasketError (Token Address) :=
  if 0 < fee then usdc.transfer env.self s.feeRecipient.1 fee else .ok usdc

/-- `_withdraw(caller, receiver, owner, _, shares)` -/
def withdrawInternal (s : State env) (caller receiver owner : Address) (shares : ℕ) :
    Call BasketError (State env × List Swapped × ExitFeeCharged) := do
  revertIf (s.paused = true) BasketError.enforcedPause
  let token ← s.spendShares caller owner shares
  let supplyBefore := token.totalSupply
  let token ← token.burn owner shares
  let (w, usdcReceived, swaps) ← s.sellProportional shares supplyBefore
  let fee ← mulDiv usdcReceived s.exitFeeBps.1 maxBps
  let net ← subU usdcReceived fee
  let usdc ← s.payFee (w.ledger env.usdc) fee
  let usdc ← usdc.transfer env.self receiver net
  pure ({ s with shares := token, world := w.setLedger env.usdc usdc }, swaps,
    ⟨owner, receiver, usdcReceived, fee, net⟩)

/-- `withdraw(assets, receiver, owner)`, with the shares burned. -/
def withdraw (s : State env) (caller : Address) (assets : ℕ) (receiver owner : Address) :
    Call BasketError (State env × ℕ × List Swapped × ExitFeeCharged) := do
  let maxAssets ← s.maxWithdraw owner
  revertIf (maxAssets < assets) (BasketError.exceededMaxWithdraw owner assets maxAssets)
  let shares ← s.previewWithdraw assets
  let (s, out) ← s.withdrawInternal caller receiver owner shares
  pure (s, shares, out)

/-- `redeem(shares, receiver, owner)`, with the assets that were previewed. -/
def redeem (s : State env) (caller : Address) (shares : ℕ) (receiver owner : Address) :
    Call BasketError (State env × ℕ × List Swapped × ExitFeeCharged) := do
  revertIf (s.maxRedeem owner < shares)
    (BasketError.exceededMaxRedeem owner shares (s.maxRedeem owner))
  let assets ← s.previewRedeem shares
  let (s, out) ← s.withdrawInternal caller receiver owner shares
  pure (s, assets, out)

end State

end RobotMoney.Basket
