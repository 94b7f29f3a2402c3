import RobotMoney.Lib.AccessControl
import RobotMoney.Lib.Address
import RobotMoney.Lib.Token

/-!
# The vault

`RobotMoneyVault`: an ERC-4626 vault over USDC that spreads what it is given over a list of *adapters*
and charges a fee on the way out.  Its assets are the USDC it holds itself, idle, and what its active
adapters report.

Adapters are contracts of their own, reached through `Env`: what an adapter reports, and what happens
to the world when it is told to `deploy` or to `withdraw`.  They do not call back into the vault.

A parameter that only a checking setter writes is kept in a type that admits the checked values only:
`ExitFee`, `Recipient`, `RebalanceBps`, `RebalanceInterval`, `AdapterInfo`.
-/

namespace RobotMoney.Vault

open RobotMoney.Lib

/-- `MAX_EXIT_FEE_BPS` -/
def maxExitFeeBps : ℕ := 100

/-- `MAX_ADAPTERS` -/
def maxAdapters : ℕ := 20

/-- `MAX_BPS` -/
def maxBps : ℕ := 10000

/-- `MAX_REBALANCE_BPS_CEILING` -/
def maxRebalanceBpsCeiling : ℕ := 5000

/-- `MIN_REBALANCE_INTERVAL_FLOOR`, one hour. -/
def minRebalanceIntervalFloor : ℕ := 3600

/-- `10 ** _decimalsOffset()`, the number of virtual shares. -/
def virtualShares : ℕ := 10 ^ 18

/-- The exit fees the setter admits. -/
abbrev ExitFee : Type := { n : ℕ // n ≤ maxExitFeeBps }

/-- An account that is not the zero account. -/
abbrev Recipient : Type := { a : Address // a ≠ 0 }

/-- The rebalance caps the setter admits. -/
abbrev RebalanceBps : Type := { n : ℕ // 0 < n ∧ n ≤ maxRebalanceBpsCeiling }

/-- The rebalance intervals the setter admits. -/
abbrev RebalanceInterval : Type := { n : ℕ // minRebalanceIntervalFloor ≤ n }

/-- An entry of the registry of adapters. -/
structure AdapterInfo where
  adapter : Address
  capBps : ℕ
  active : Bool
  adapter_ne : adapter ≠ 0 := by decide
  capBps_pos : 0 < capBps := by decide
  capBps_le : capBps ≤ maxBps := by decide

inductive VaultRole where
  | defaultAdminRole
  | adminRole
  | emergencyRole
  | keeperRole
  | other (id : ℕ)
  deriving DecidableEq, Repr

/-- `getRoleAdmin(role)` after the constructor. -/
def VaultRole.admin : VaultRole → VaultRole
  | .adminRole => .adminRole
  | .emergencyRole => .adminRole
  | .keeperRole => .adminRole
  | _ => .defaultAdminRole

inductive VaultError where
  | tvlCapExceeded
  | perDepositCapExceeded
  | cannotRescueAsset
  | zeroAddress
  | vaultShutdown
  | invalidFee
  | invalidParam
  | invalidCap
  | maxAdaptersReached
  | adapterNotFound
  | adapterNotEmpty
  | noActiveAdapters
  | rebalanceTooSoon
  | unauthorizedRebalancer
  | depositsPaused
  | withdrawalsPaused
  | adapterNotAllowed (adapter : Address)
  | adapterCodeHashNotAllowed (adapter : Address) (codeHash : ℕ)
  | adapterCompatibilityCheckFailed (adapter : Address)
  | adapterAssetMismatch (adapter expected actual : Address)
  | adapterVaultMismatch (adapter expected actual : Address)
  /-- `ERC4626ExceededMaxWithdraw` and `ERC4626ExceededMaxRedeem` -/
  | exceededMaxWithdraw (owner : Address) (assets max : ℕ)
  | exceededMaxRedeem (owner : Address) (shares max : ℕ)
  deriving DecidableEq

/-- The USDC ledger, and whatever the adapters and the protocols behind them keep. -/
structure World (V : Type) where
  usdc : Token Address
  ext : V

/-- The vault's own address, the address of USDC, and the contracts around the vault. -/
structure Env (V : Type) where
  self : Address
  asset : Address
  /-- the `codehash` of an account -/
  codehash : Address → ℕ
  /-- the answer of `USDC()`, if it is an address -/
  usdcView : Address → Option Address
  /-- the answer of `VAULT()`, if it is an address -/
  vaultView : Address → Option Address
  /-- `adapter.totalAssets()` -/
  adapterAssets : World V → (adapter : Address) → ℕ
  /-- `adapter.deploy(amount)` -/
  adapterDeploy : World V → (adapter : Address) → (amount : ℕ) → Call Unit (World V)
  /-- `adapter.withdraw(amount)`, with the amount that came back -/
  adapterWithdraw : World V → (adapter : Address) → (amount : ℕ) → Call Unit (World V × ℕ)
  /-- a transfer of all the vault has of another token -/
  rescueToken : V → (token dst : Address) → Call Unit V
  /-- whether the inherited `maxWithdraw` takes the exit fee into account: it is
  `previewRedeem(balance)` in some releases of the library, `convertToAssets(balance)` in others -/
  maxWithdrawNet : Bool

/-- The storage of the vault, its share ledger, and the world it acts on. -/
structure State (V : Type) where
  shares : Token Address
  adapters : List AdapterInfo
  adapterAllowed : Address → Bool
  adapterCodeHashAllowed : ℕ → Bool
  tvlCap : ℕ
  perDepositCap : ℕ
  exitFeeBps : ExitFee
  feeRecipient : Recipient
  shutdown : Bool
  depositsPaused : Bool
  withdrawalsPaused : Bool
  maxRebalanceBpsPerCall : RebalanceBps
  minRebalanceInterval : RebalanceInterval
  lastRebalanceAt : ℕ
  roles : Roles VaultRole Address
  world : World V

variable {V : Type}

namespace State

/-! ### What the vault has -/

/-- The active adapters, in the order of the registry. -/
def activeAdapters (s : State V) : List Address :=
  (s.adapters.filter fun i => i.active).map fun i => i.adapter

/-- What the active adapters report. -/
def adapterBalances (env : Env V) (s : State V) : List ℕ :=
  s.activeAdapters.map (env.adapterAssets s.world)

/-- The USDC in the vault itself. -/
def idle (env : Env V) (s : State V) : ℕ := s.world.usdc.balanceOf env.self

/-- `totalAssets()` -/
def totalAssets (env : Env V) (s : State V) : Call VaultError ℕ :=
  sumU (s.idle env) (s.adapterBalances env)

/-- `_activeAdapterCount()` -/
def activeAdapterCount (s : State V) : ℕ := s.activeAdapters.length

/-- `_targetBpsFor()` -/
def targetBpsFor (s : State V) : ℕ :=
  if s.activeAdapterCount = 0 then 0 else maxBps / s.activeAdapterCount

/-! ### Conversions -/

/-- `_convertToShares(assets, Floor)` -/
def convertToShares (env : Env V) (s : State V) (assets : ℕ) : Call VaultError ℕ := do
  let supply ← addU s.shares.totalSupply virtualShares
  let total ← s.totalAssets env
  let total ← addU total 1
  mulDiv assets supply total

/-- `_convertToShares(assets, Ceil)` -/
def convertToSharesUp (env : Env V) (s : State V) (assets : ℕ) : Call VaultError ℕ := do
  let supply ← addU s.shares.totalSupply virtualShares
  let total ← s.totalAssets env
  let total ← addU total 1
  mulDivUp assets supply total

/-- `_convertToAssets(shares, Floor)` -/
def convertToAssets (env : Env V) (s : State V) (shares : ℕ) : Call VaultError ℕ := do
  let total ← s.totalAssets env
  let total ← addU total 1
  let supply ← addU s.shares.totalSupply virtualShares
  mulDiv shares total supply

/-- `_convertToAssets(shares, Ceil)` -/
def convertToAssetsUp (env : Env V) (s : State V) (shares : ℕ) : Call VaultError ℕ := do
  let total ← s.totalAssets env
  let total ← addU total 1
  let supply ← addU s.shares.totalSupply virtualShares
  mulDivUp shares total supply

/-- `_grossToNet(gross)` -/
def grossToNet (s : State V) (gross : ℕ) : Call VaultError ℕ := do
  let fee ← mulDiv gross s.exitFeeBps.1 maxBps
  subU gross fee

/-- `_netToGross(net)` -/
def netToGross (s : State V) (net : ℕ) : Call VaultError ℕ :=
  if s.exitFeeBps.1 = 0 then .ok net
  else do
    let rest ← subU maxBps s.exitFeeBps.1
    mulDivUp net maxBps rest

/-- `previewDeposit(assets)` -/
def previewDeposit (env : Env V) (s : State V) (assets : ℕ) : Call VaultError ℕ :=
  s.convertToShares env assets

/-- `previewMint(shares)` -/
def previewMint (env : Env V) (s : State V) (shares : ℕ) : Call VaultError ℕ :=
  s.convertToAssetsUp env shares

/-- `previewRedeem(shares)` -/
def previewRedeem (env : Env V) (s : State V) (shares : ℕ) : Call VaultError ℕ := do
  let gross ← s.convertToAssets env shares
  s.grossToNet gross

/-- `previewWithdraw(assets)` -/
def previewWithdraw (env : Env V) (s : State V) (assets : ℕ) : Call VaultError ℕ := do
  let gross ← s.netToGross assets
  s.convertToSharesUp env gross

/-- `maxRedeem(owner)` -/
def maxRedeem (s : State V) (owner : Address) : ℕ := s.shares.balanceOf owner

/-- `maxWithdraw(owner)` -/
def maxWithdraw (env : Env V) (s : State V) (owner : Address) : Call VaultError ℕ :=
  if env.maxWithdrawNet then s.previewRedeem env (s.shares.balanceOf owner)
  else s.convertToAssets env (s.shares.balanceOf owner)

/-! ### Adapters -/

/-- `_requireAdapterCompatible(adapter)` -/
def requireAdapterCompatible (env : Env V) (adapter : Address) : Call VaultError Unit :=
  match env.usdcView adapter with
  | none => .error (.custom (.adapterCompatibilityCheckFailed adapter))
  | some reportedAsset => do
    revertIf (reportedAsset ≠ env.asset)
      (VaultError.adapterAssetMismatch adapter env.asset reportedAsset)
    match env.vaultView adapter with
    | none => .error (.custom (.adapterCompatibilityCheckFailed adapter))
    | some reportedVault =>
      revertIf (reportedVault ≠ env.self)
        (VaultError.adapterVaultMismatch adapter env.self reportedVault)

/-- `_requireAdapterEligible(adapter)` -/
def requireAdapterEligible (env : Env V) (s : State V) (adapter : Address) : Call VaultError Unit := do
  revertIf (s.adapterAllowed adapter = false) (VaultError.adapterNotAllowed adapter)
  revertIf (s.adapterCodeHashAllowed (env.codehash adapter) = false)
    (VaultError.adapterCodeHashNotAllowed adapter (env.codehash adapter))
  requireAdapterCompatible env adapter

/-- `_allocateTo(i, amount)` for the adapter of entry `i`. -/
def allocateTo (env : Env V) (s : State V) (w : World V) (adapter : Address) (amount : ℕ) :
    Call VaultError (World V) := do
  s.requireAdapterEligible env adapter
  let usdc ← w.usdc.transfer env.self adapter amount
  inner (env.adapterDeploy { w with usdc } adapter amount)

/-- One pass of `_routeDeposit`: the active adapters in turn are filled up to the fraction `bpsOf` of
`totalAfter`, while something remains.  What still remains is returned. -/
def routePass (env : Env V) (s : State V) (totalAfter : ℕ) (bpsOf : AdapterInfo → ℕ) :
    World V → List AdapterInfo → ℕ → Call VaultError (World V × ℕ)
  | w, [], remaining => .ok (w, remaining)
  | w, i :: is, remaining =>
    if remaining = 0 then .ok (w, remaining)
    else if i.active = false then routePass env s totalAfter bpsOf w is remaining
    else do
      let product ← mulU totalAfter (bpsOf i)
      let currentBalance := env.adapterAssets w i.adapter
      let limitBalance := product / maxBps
      if limitBalance ≤ currentBalance then routePass env s totalAfter bpsOf w is remaining
      else do
        let allocation := min (limitBalance - currentBalance) remaining
        let w ← s.allocateTo env w i.adapter allocation
        routePass env s totalAfter bpsOf w is (remaining - allocation)

/-- `_routeDeposit(amount)`: a pass toward the lower of the equal target and the adapter's cap, and a
pass toward the cap. -/
def routeDeposit (env : Env V) (s : State V) (amount : ℕ) : Call VaultError (State V) :=
  if amount = 0 then .ok s
  else do
    let totalAfter ← s.totalAssets env
    let targetBps := s.targetBpsFor
    let (w, remaining) ← s.routePass env totalAfter (fun i => min i.capBps targetBps) s.world
      s.adapters amount
    let (w, _) ← s.routePass env totalAfter (fun i => i.capBps) w s.adapters remaining
    pure { s with world := w }

/-- The loop of `_pullProportional`: what was taken out, what remains needed, and the last active
adapter visited. -/
def pullLoop (env : Env V) (remainingNeeded totalInAdapters : ℕ) :
    World V → List AdapterInfo → ℕ → Option Address →
      Call VaultError (World V × ℕ × Option Address)
  | w, [], remaining, last => .ok (w, remaining, last)
  | w, i :: is, remaining, last =>
    if remaining = 0 then .ok (w, remaining, last)
    else if i.active = false then pullLoop env remainingNeeded totalInAdapters w is remaining last
    else do
      let product ← mulU remainingNeeded (env.adapterAssets w i.adapter)
      let pull := min (product / totalInAdapters) remaining
      if pull = 0 then
        pullLoop env remainingNeeded totalInAdapters w is remaining (some i.adapter)
      else do
        let (w, actual) ← inner (env.adapterWithdraw w i.adapter pull)
        let remaining ← subU remaining actual
        pullLoop env remainingNeeded totalInAdapters w is remaining (some i.adapter)

/-- The last step of `_pullProportional`: what the truncation left is asked of the last adapter. -/
def pullDust (env : Env V) (w : World V) (remaining : ℕ) (last : Option Address) :
    Call VaultError (World V) :=
  match last with
  | none => .ok w
  | some adapter =>
    if remaining = 0 then .ok w
    else do
      let (w, _) ← inner (env.adapterWithdraw w adapter remaining)
      pure w

/-- `_pullProportional(assetsNeeded)` -/
def pullProportional (env : Env V) (s : State V) (assetsNeeded : ℕ) : Call VaultError (State V) :=
  if assetsNeeded = 0 then .ok s
  else if assetsNeeded ≤ s.idle env then .ok s
  else do
    let totalInAdapters ← sumU 0 (s.adapterBalances env)
    if totalInAdapters = 0 then pure s
    else do
      let remainingNeeded := min (assetsNeeded - s.idle env) totalInAdapters
      let (w, remaining, last) ←
        pullLoop env remainingNeeded totalInAdapters s.world s.adapters remainingNeeded none
      let w ← pullDust env w remaining last
      pure { s with world := w }

/-! ### Deposits and withdrawals -/

/-- `_deposit(caller, receiver, assets, shares)` -/
def depositInternal (env : Env V) (s : State V) (caller receiver : Address) (assets shares : ℕ) :
    Call VaultError (State V) := do
  revertIf (s.depositsPaused = true) VaultError.depositsPaused
  revertIf (s.shutdown = true) VaultError.vaultShutdown
  revertIf (s.perDepositCap < assets) VaultError.perDepositCapExceeded
  let total ← s.totalAssets env
  let total ← addU total assets
  revertIf (s.tvlCap < total) VaultError.tvlCapExceeded
  revertIf (s.activeAdapterCount = 0) VaultError.noActiveAdapters
  let usdc ← s.world.usdc.transferFrom env.self caller env.self assets
  let token ← s.shares.mint receiver shares
  routeDeposit env { s with shares := token, world := { s.world with usdc } } assets

/-- `deposit(assets, receiver)`: the assets paid and the shares minted. -/
def deposit (env : Env V) (s : State V) (caller : Address) (assets : ℕ) (receiver : Address) :
    Call VaultError (State V × ℕ × ℕ) := do
  let shares ← s.previewDeposit env assets
  let s ← s.depositInternal env caller receiver assets shares
  pure (s, assets, shares)

/-- `mint(shares, receiver)` -/
def mint (env : Env V) (s : State V) (caller : Address) (shares : ℕ) (receiver : Address) :
    Call VaultError (State V × ℕ × ℕ) := do
  let assets ← s.previewMint env shares
  let s ← s.depositInternal env caller receiver assets shares
  pure (s, assets, shares)

/-- `if (caller != owner) _spendAllowance(owner, caller, shares)` -/
def spendShares (s : State V) (caller owner : Address) (shares : ℕ) :
    Call VaultError (Token Address) :=
  if caller ≠ owner then s.shares.spendAllowance owner caller shares else .ok s.shares

/-- `if (fee > 0) safeTransfer(feeRecipient, fee)` -/
def payFee (env : Env V) (s : State V) (usdc : Token Address) (fee : ℕ) :
    Call VaultError (Token Address) :=
  if 0 < fee then usdc.transfer env.self s.feeRecipient.1 fee else .ok usdc

/-- `_withdraw(caller, receiver, owner, assets, shares)` -/
def withdrawInternal (env : Env V) (s : State V) (caller receiver owner : Address)
    (assets shares : ℕ) : Call VaultError (State V) := do
  revertIf (s.withdrawalsPaused = true) VaultError.withdrawalsPaused
  let token ← s.spendShares caller owner shares
  let gross ← s.convertToAssets env shares
  let fee ← subU gross assets
  let s ← s.pullProportional env gross
  let token ← token.burn owner shares
  let usdc ← s.payFee env s.world.usdc fee
  let usdc ← usdc.transfer env.self receiver assets
  pure { s with shares := token, world := { s.world with usdc } }

/-- `withdraw(assets, receiver, owner)`: the assets received and the shares burned. -/
def withdraw (env : Env V) (s : State V) (caller : Address) (assets : ℕ)
    (receiver owner : Address) : Call VaultError (State V × ℕ × ℕ) := do
  let maxAssets ← s.maxWithdraw env owner
  revertIf (maxAssets < assets) (VaultError.exceededMaxWithdraw owner assets maxAssets)
  let shares ← s.previewWithdraw env assets
  let s ← s.withdrawInternal env caller receiver owner assets shares
  pure (s, assets, shares)

/-- `redeem(shares, receiver, owner)` -/
def redeem (env : Env V) (s : State V) (caller : Address) (shares : ℕ)
    (receiver owner : Address) : Call VaultError (State V × ℕ × ℕ) := do
  revertIf (s.maxRedeem owner < shares)
    (VaultError.exceededMaxRedeem owner shares (s.maxRedeem owner))
  let assets ← s.previewRedeem env shares
  let s ← s.withdrawInternal env caller receiver owner assets shares
  pure (s, assets, shares)

end State

end RobotMoney.Vault
