import RobotMoney.Lib.Proportion
import RobotMoney.Lib.Token
import RobotMoney.Portfolio.Registry

/-!
# The portfolio router

`PortfolioRouter`: it takes USDC from a depositor and splits it over vaults by a weight vector.  There
are two vectors, the *voted* one, in force when `votedWeightsActive`, and the *default* one.

What lies outside the router is a `World`: the USDC ledger and, abstractly, the state of every vault.
The vaults are a parameter (`RouterEnv`): any contract may sit at a registered address, and the router
only ever calls `asset()`, `previewDeposit` and `deposit` on it.
-/

namespace RobotMoney.Portfolio

open RobotMoney.Lib

/-- The USDC ledger and whatever the vaults keep. -/
structure World (V : Type) where
  usdc : Token Address
  ext : V

/-- The router's own address, the address of USDC, and the vaults it calls. -/
structure RouterEnv (V : Type) where
  self : Address
  usdc : Address
  /-- whether there is code at an address -/
  hasCode : V → Address → Bool
  /-- the `asset()` view of a vault; `none` when the call reverts -/
  asset : V → Address → Option Address
  /-- the `previewDeposit` view of a vault; `none` when the call reverts -/
  previewDeposit : V → Address → ℕ → Option ℕ
  /-- `deposit(assets, receiver)` on a vault, called by `caller` -/
  deposit : World V → (vault caller : Address) → (assets : ℕ) → (receiver : Address) →
    Call Unit (World V × ℕ)

/-- `BPS_DENOMINATOR` -/
def bpsDenominator : ℕ := 10000

inductive RouterError where
  | zeroAddress
  | invalidWeightSum
  | lengthMismatch
  | minSharesLengthMismatch
  | slippageExceeded
  | routerCapExceeded
  | vaultCapExceeded
  | noWeightsSet
  | vaultNotActive (vault : Address) (status : VaultStatus)
  | vaultAssetMismatch (vault vaultAsset : Address)
  | vaultAssetUnreadable (vault : Address)
  | usdcCustodyInvariantViolated
  | vaultNotRouterEligible (vault : Address)
  deriving DecidableEq

inductive RouterEvent where
  | routerDeposit (depositor vault : Address) (amount shares weightBps : ℕ)
  | weightsSet (vaults : List Address) (bps : List ℕ)
  | defaultWeightsSet (vaults : List Address) (bps : List ℕ)
  | votedWeightsCleared
  | routerCapSet (oldCap newCap : ℕ)
  | vaultCapSet (vault : Address) (oldCap newCap : ℕ)
  | rescuedUsdc (dst : Address) (amount : ℕ)
  deriving DecidableEq

/-- The storage of the router. -/
structure Router where
  routerCap : ℕ
  vaultCap : Address → ℕ
  weightVaultList : List Address
  weightBps : List ℕ
  votedWeightsActive : Bool
  defaultWeightVaultList : List Address
  defaultWeightBps : List ℕ
  roles : Roles AdminRole Address

/-- The router with the registry it reads and the world it acts on. -/
structure RouterState (V : Type) where
  router : Router
  registry : Registry
  world : World V

variable {V : Type}

namespace RouterState

/-! ### Eligibility -/

/-- `_requireRouterEligible(vault)` -/
def requireRouterEligible (env : RouterEnv V) (p : RouterState V) (vault : Address) :
    Call RouterError Unit := do
  revertIf (env.hasCode p.world.ext vault = false) (RouterError.vaultAssetUnreadable vault)
  match env.asset p.world.ext vault with
  | none => .error (.custom (.vaultAssetUnreadable vault))
  | some vaultAsset => do
    revertIf (vaultAsset ≠ env.usdc) (RouterError.vaultAssetMismatch vault vaultAsset)
    revertIf (p.registry.isRouterEligible vault = false) (RouterError.vaultNotRouterEligible vault)

/-- `isRouterEligible(vault)` -/
def isRouterEligible (env : RouterEnv V) (p : RouterState V) (vault : Address) : Bool :=
  if vault = 0 then false
  else if env.hasCode p.world.ext vault = false then false
  else
    match env.asset p.world.ext vault with
    | none => false
    | some vaultAsset =>
      if vaultAsset ≠ env.usdc then false else p.registry.isRouterEligible vault

/-! ### Weight vectors -/

/-- The loop both setters run over the arrays: every vault registered and eligible, the weights added
up.  The two arrays have been found to be of equal length. -/
def sumWeights (env : RouterEnv V) (p : RouterState V) :
    List Address → List ℕ → ℕ → Call RouterError ℕ
  | v :: vs, w :: ws, total => do
    revertIf (v = 0) RouterError.zeroAddress
    let _ ← inner (p.registry.getVault v)
    p.requireRouterEligible env v
    let total ← addU total w
    sumWeights env p vs ws total
  | _, _, total => .ok total

/-- `setWeights(vaults, bps)` -/
def setWeights (env : RouterEnv V) (p : RouterState V) (sender : Address) (vaults : List Address)
    (bps : List ℕ) : Call RouterError (RouterState V × List RouterEvent) := do
  p.router.roles.check .adminRole sender
  revertIf (vaults.length ≠ bps.length) RouterError.lengthMismatch
  let total ← p.sumWeights env vaults bps 0
  revertIf (total ≠ bpsDenominator) RouterError.invalidWeightSum
  pure
    ({ p with
        router :=
          { p.router with weightVaultList := vaults, weightBps := bps, votedWeightsActive := true } },
      [.weightsSet vaults bps])

/-- `setDefaultWeights(vaults, bps)` -/
def setDefaultWeights (env : RouterEnv V) (p : RouterState V) (sender : Address)
    (vaults : List Address) (bps : List ℕ) : Call RouterError (RouterState V × List RouterEvent) := do
  p.router.roles.check .adminRole sender
  revertIf (vaults.length ≠ bps.length) RouterError.lengthMismatch
  revertIf (vaults.length ≠ p.registry.routerEligibleCount) RouterError.lengthMismatch
  let total ← p.sumWeights env vaults bps 0
  revertIf (total ≠ bpsDenominator) RouterError.invalidWeightSum
  pure
    ({ p with
        router := { p.router with defaultWeightVaultList := vaults, defaultWeightBps := bps } },
      [.defaultWeightsSet vaults bps])

/-- `clearVotedWeights()` -/
def clearVotedWeights (p : RouterState V) (sender : Address) :
    Call RouterError (RouterState V × List RouterEvent) := do
  p.router.roles.check .adminRole sender
  pure
    ({ p with
        router :=
          { p.router with weightVaultList := [], weightBps := [], votedWeightsActive := false } },
      [.votedWeightsCleared])

/-- `getWeights()`, the voted vector, whether it is in force or not -/
def getWeights (r : Router) : List Address × List ℕ := (r.weightVaultList, r.weightBps)

/-- `_effectiveWeights()` -/
def effectiveWeights (r : Router) : List Address × List ℕ :=
  if r.votedWeightsActive then (r.weightVaultList, r.weightBps)
  else (r.defaultWeightVaultList, r.defaultWeightBps)

/-- `defaultWeightsLength()` -/
def defaultWeightsLength (r : Router) : ℕ := r.defaultWeightVaultList.length

/-! ### Caps and recovery -/

/-- `setRouterCap(cap)` -/
def setRouterCap (p : RouterState V) (sender : Address) (cap : ℕ) :
    Call RouterError (RouterState V × List RouterEvent) := do
  p.router.roles.check .adminRole sender
  pure
    ({ p with router := { p.router with routerCap := cap } },
      [.routerCapSet p.router.routerCap cap])

/-- `setVaultCap(vault, cap)` -/
def setVaultCap (p : RouterState V) (sender vault : Address) (cap : ℕ) :
    Call RouterError (RouterState V × List RouterEvent) := do
  p.router.roles.check .adminRole sender
  revertIf (vault = 0) RouterError.zeroAddress
  pure
    ({ p with router := { p.router with vaultCap := Function.update p.router.vaultCap vault cap } },
      [.vaultCapSet vault (p.router.vaultCap vault) cap])

/-- `rescueUsdc(to)` -/
def rescueUsdc (env : RouterEnv V) (p : RouterState V) (sender dst : Address) :
    Call RouterError (RouterState V × List RouterEvent) := do
  p.router.roles.check .adminRole sender
  revertIf (dst = 0) RouterError.zeroAddress
  let amount := p.world.usdc.balanceOf env.self
  if amount = 0 then pure (p, [])
  else
    let usdc ← p.world.usdc.transfer env.self dst amount
    pure ({ p with world := { p.world with usdc } }, [.rescuedUsdc dst amount])

/-! ### Preview -/

structure LegPreview where
  vault : Address
  weightBps : ℕ
  legAmount : ℕ
  estShares : ℕ
  unavailable : Bool
  deriving DecidableEq

/-- One leg of `previewDeposit`. -/
def previewLeg (env : RouterEnv V) (p : RouterState V) (vault : Address) (weightBps legAmount : ℕ) :
    LegPreview :=
  match p.registry.getVault vault with
  | .error _ => ⟨vault, weightBps, legAmount, 0, true⟩
  | .ok (_, status) =>
    if status ≠ .active then ⟨vault, weightBps, legAmount, 0, true⟩
    else
      match env.previewDeposit p.world.ext vault legAmount with
      | some estShares => ⟨vault, weightBps, legAmount, estShares, false⟩
      | none => ⟨vault, weightBps, legAmount, 0, true⟩

/-- `previewDeposit(amount)` -/
def previewDeposit (env : RouterEnv V) (p : RouterState V) (amount : ℕ) :
    Call RouterError (List LegPreview) :=
  go (effectiveWeights p.router).1 (effectiveWeights p.router).2
where
  go : List Address → List ℕ → Call RouterError (List LegPreview)
    | v :: vs, w :: ws => do
      let product ← mulU amount w
      let rest ← go vs ws
      pure (p.previewLeg env v w (product / bpsDenominator) :: rest)
    | _, _ => .ok []

/-! ### Deposit -/

/-- The loop that pre-computes the leg amounts: the amounts rounded down, and their sum. -/
def legAmounts (amount : ℕ) : List ℕ → ℕ → Call RouterError (List ℕ × ℕ)
  | [], allocated => .ok ([], allocated)
  | w :: ws, allocated => do
    let product ← mulU amount w
    let leg := product / bpsDenominator
    let allocated ← addU allocated leg
    let (legs, total) ← legAmounts amount ws allocated
    pure (leg :: legs, total)

/-- `legAmounts[n - 1] += d` -/
def addToLast : List ℕ → ℕ → Call RouterError (List ℕ)
  | [], _ => .error (.panic .outOfBounds)
  | [a], d => do
    let a ← addU a d
    pure [a]
  | a :: b :: l, d => do
    let rest ← addToLast (b :: l) d
    pure (a :: rest)

/-- The rounding remainder goes to the final leg. -/
def assignRemainder (floors : List ℕ) (allocated amount : ℕ) : Call RouterError (List ℕ) :=
  if allocated < amount then addToLast floors (amount - allocated) else .ok floors

/-- One leg to execute: the vault, its weight, and the amount it is to get. -/
structure Leg where
  vault : Address
  weightBps : ℕ
  amount : ℕ

/-- The arrays `vaultList`, `bpsList` and `legAmounts`, leg by leg. -/
def legs (vaults : List Address) (bps amounts : List ℕ) : List Leg :=
  (vaults.zip (bps.zip amounts)).map fun x => ⟨x.1, x.2.1, x.2.2⟩

/-- The slippage guard of a leg: the head of the minima, if any were given. -/
def belowMin (minShares : List ℕ) (shares : ℕ) : Bool :=
  match minShares with
  | [] => false
  | m :: _ => decide (shares < m)

/-- One leg: status, cap, eligibility, approval, the vault's deposit, the slippage guard. -/
def executeLeg (env : RouterEnv V) (p : RouterState V) (receiver : Address) (minShares : List ℕ)
    (l : Leg) : Call RouterError (RouterState V × RouterEvent) := do
  let (_, status) ← inner (p.registry.getVault l.vault)
  revertIf (status ≠ .active) (RouterError.vaultNotActive l.vault status)
  revertIf (p.router.vaultCap l.vault ≠ 0 ∧ p.router.vaultCap l.vault < l.amount)
    RouterError.vaultCapExceeded
  p.requireRouterEligible env l.vault
  let usdc ← p.world.usdc.approve env.self l.vault l.amount
  let (world, shares) ← inner (env.deposit { p.world with usdc } l.vault env.self l.amount receiver)
  revertIf (belowMin minShares shares = true) RouterError.slippageExceeded
  pure ({ p with world }, .routerDeposit receiver l.vault l.amount shares l.weightBps)

/-- The loop of `_executeLegs`. -/
def executeLegs (env : RouterEnv V) (receiver : Address) :
    RouterState V → List Leg → List ℕ → Call RouterError (RouterState V × List RouterEvent)
  | p, [], _ => .ok (p, [])
  | p, l :: ls, minShares => do
    let (p, event) ← p.executeLeg env receiver minShares l
    let (p, events) ← executeLegs env receiver p ls minShares.tail
    pure (p, event :: events)

/-- `_depositTo(receiver, amount, minSharesPerLeg)`, called by `sender`.  The shares minted by every
leg are in its event. -/
def depositTo (env : RouterEnv V) (p : RouterState V) (sender receiver : Address) (amount : ℕ)
    (minSharesPerLeg : List ℕ) : Call RouterError (RouterState V × List RouterEvent) := do
  let (vaultList, bpsList) := effectiveWeights p.router
  revertIf (vaultList.length = 0) RouterError.noWeightsSet
  revertIf (p.router.routerCap ≠ 0 ∧ p.router.routerCap < amount) RouterError.routerCapExceeded
  let usdc ← p.world.usdc.transferFrom env.self sender env.self amount
  revertIf (minSharesPerLeg.length ≠ 0 ∧ minSharesPerLeg.length ≠ vaultList.length)
    RouterError.minSharesLengthMismatch
  let (floors, allocated) ← legAmounts amount bpsList 0
  let amounts ← assignRemainder floors allocated amount
  let (p, events) ← executeLegs env receiver { p with world := { p.world with usdc } }
    (legs vaultList bpsList amounts) minSharesPerLeg
  revertIf (p.world.usdc.balanceOf env.self ≠ 0) RouterError.usdcCustodyInvariantViolated
  pure (p, events)

/-- `deposit(amount, minSharesPerLeg)` -/
def deposit (env : RouterEnv V) (p : RouterState V) (sender : Address) (amount : ℕ)
    (minSharesPerLeg : List ℕ) : Call RouterError (RouterState V × List RouterEvent) :=
  p.depositTo env sender sender amount minSharesPerLeg

/-- `depositFor(receiver, amount, minSharesPerLeg)` -/
def depositFor (env : RouterEnv V) (p : RouterState V) (sender receiver : Address) (amount : ℕ)
    (minSharesPerLeg : List ℕ) : Call RouterError (RouterState V × List RouterEvent) := do
  revertIf (receiver = 0) RouterError.zeroAddress
  p.depositTo env sender receiver amount minSharesPerLeg

/-! ### The contract as a state machine -/

/-- The calls that change the router. -/
inductive RouterCall where
  | setWeights (vaults : List Address) (bps : List ℕ)
  | setDefaultWeights (vaults : List Address) (bps : List ℕ)
  | clearVotedWeights
  | setRouterCap (cap : ℕ)
  | setVaultCap (vault : Address) (cap : ℕ)
  | rescueUsdc (dst : Address)
  | deposit (amount : ℕ) (minSharesPerLeg : List ℕ)
  | depositFor (receiver : Address) (amount : ℕ) (minSharesPerLeg : List ℕ)
  | grantRole (role : AdminRole) (account : Address)
  | revokeRole (role : AdminRole) (account : Address)
  | renounceRole (role : AdminRole) (confirmation : Address)

/-- The role table replaced. -/
def withRoles (p : RouterState V) (roles : Roles AdminRole Address) : RouterState V :=
  { p with router := { p.router with roles } }

/-- One call of the router. -/
def exec (env : RouterEnv V) (p : RouterState V) (sender : Address) :
    RouterCall → Call RouterError (RouterState V × List RouterEvent)
  | .setWeights vaults bps => p.setWeights env sender vaults bps
  | .setDefaultWeights vaults bps => p.setDefaultWeights env sender vaults bps
  | .clearVotedWeights => p.clearVotedWeights sender
  | .setRouterCap cap => p.setRouterCap sender cap
  | .setVaultCap vault cap => p.setVaultCap sender vault cap
  | .rescueUsdc dst => p.rescueUsdc env sender dst
  | .deposit amount minShares => p.deposit env sender amount minShares
  | .depositFor receiver amount minShares => p.depositFor env sender receiver amount minShares
  | .grantRole role account => do
    let roles ← Roles.grantRole (fun t r a => .ok (t.set r a true)) AdminRole.admin p.router.roles
      sender role account
    pure (p.withRoles roles, [])
  | .revokeRole role account => do
    let roles ← Roles.revokeRole AdminRole.admin p.router.roles sender role account
    pure (p.withRoles roles, [])
  | .renounceRole role confirmation => do
    let roles ← Roles.renounceRole p.router.roles sender role confirmation
    pure (p.withRoles roles, [])

/-- The router after its constructor. -/
def deploy (env : RouterEnv V) (registryAddress admin : Address) (registry : Registry)
    (world : World V) : Call RouterError (RouterState V) := do
  revertIf (env.usdc = 0 ∨ registryAddress = 0 ∨ admin = 0) RouterError.zeroAddress
  pure
    { router :=
        { routerCap := 0
          vaultCap := fun _ => 0
          weightVaultList := []
          weightBps := []
          votedWeightsActive := false
          defaultWeightVaultList := []
          defaultWeightBps := []
          roles := soleAdmin admin }
      registry, world }

end RouterState

end RobotMoney.Portfolio
