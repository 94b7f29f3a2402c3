import RobotMoney.Lib.AccessControl
import RobotMoney.Lib.Address

/-!
# The vault registry

`VaultRegistry`: which vaults exist, their lifecycle status, and which of them the portfolio router may
weight.  The registry may be linked to a router; then a change of eligibility must leave the number of
eligible vaults equal to the length of that router's default weight vector, if it has one.  The router
is a different contract, and any account can be linked: what accounts answer when they are asked for the
length of their default vector is an argument here.
-/

namespace RobotMoney.Portfolio

open RobotMoney.Lib

/-- The roles of a contract whose `ADMIN_ROLE` administers itself.  The admin of every other role is
`DEFAULT_ADMIN_ROLE`, which nobody is given. -/
inductive AdminRole where
  | defaultAdminRole
  | adminRole
  | other (id : ℕ)
  deriving DecidableEq, Repr

/-- `getRoleAdmin(role)` after `_setRoleAdmin(ADMIN_ROLE, ADMIN_ROLE)`. -/
def AdminRole.admin : AdminRole → AdminRole
  | .adminRole => .adminRole
  | _ => .defaultAdminRole

/-- The role table a constructor leaves: one admin. -/
def soleAdmin (admin : Address) : Roles AdminRole Address :=
  Roles.set (fun _ _ => false) .adminRole admin true

inductive VaultStatus where
  | active
  | paused
  | retired
  deriving DecidableEq, Repr

structure VaultMetadata where
  name : String
  asset : Address
  registeredAt : ℕ
  deriving DecidableEq

inductive RegistryError where
  | zeroAddress
  | alreadyRegistered
  | notRegistered
  | staleDefaultWeightsLength (expectedLength defaultLength : ℕ)
  | routerUnlinkBlocked (defaultLength : ℕ)
  deriving DecidableEq, Repr

inductive RegistryEvent where
  | vaultRegistered (vault : Address) (name : String) (asset : Address)
  | vaultStatusChanged (vault : Address) (newStatus : VaultStatus) (timestamp : ℕ)
  | routerEligibilityChanged (vault : Address) (oldValue newValue : Bool)
  | routerSet (oldRouter newRouter : Address)
  deriving DecidableEq

/-- The storage of the registry. -/
structure Registry where
  metadata : Address → VaultMetadata
  status : Address → VaultStatus
  vaults : List Address
  registered : Address → Bool
  routerEligible : Address → Bool
  routerEligibleCount : ℕ
  router : Address
  roles : Roles AdminRole Address

namespace Registry

/-- The constructor. -/
def deploy (admin : Address) : Call RegistryError Registry := do
  revertIf (admin = 0) RegistryError.zeroAddress
  pure
    { metadata := fun _ => ⟨"", 0, 0⟩
      status := fun _ => .active
      vaults := []
      registered := fun _ => false
      routerEligible := fun _ => false
      routerEligibleCount := 0
      router := 0
      roles := soleAdmin admin }

def registerVault (g : Registry) (b : Block) (sender vault : Address) (name : String)
    (asset : Address) : Call RegistryError (Registry × List RegistryEvent) := do
  g.roles.check .adminRole sender
  revertIf (vault = 0) RegistryError.zeroAddress
  revertIf (g.registered vault = true) RegistryError.alreadyRegistered
  pure
    ({ g with
        registered := Function.update g.registered vault true
        vaults := g.vaults ++ [vault]
        metadata := Function.update g.metadata vault ⟨name, asset, b.timestamp⟩
        status := Function.update g.status vault .active },
      [.vaultRegistered vault name asset])

def setVaultStatus (g : Registry) (b : Block) (sender vault : Address) (newStatus : VaultStatus) :
    Call RegistryError (Registry × List RegistryEvent) := do
  g.roles.check .adminRole sender
  revertIf (g.registered vault = false) RegistryError.notRegistered
  pure
    ({ g with status := Function.update g.status vault newStatus },
      [.vaultStatusChanged vault newStatus b.timestamp])

/-- The number of eligible vaults after one more, or one less, is eligible. -/
def newCount (g : Registry) (eligible : Bool) : Call RegistryError ℕ :=
  if eligible then addU g.routerEligibleCount 1 else subU g.routerEligibleCount 1

/-- `router.defaultWeightsLength()` of the linked router: `none` is a call that reverts, as a call of an
account without code does.  No router is asked when none is linked, and zero stands for that. -/
def linkedLength (defaultWeightsLength : Address → Option ℕ) (g : Registry) : Call RegistryError ℕ :=
  if g.router = 0 then .ok 0
  else
    match defaultWeightsLength g.router with
    | none => .error .innerCall
    | some n => .ok n

/-- `setRouterEligible(vault, eligible)` -/
def setRouterEligible (defaultWeightsLength : Address → Option ℕ) (g : Registry)
    (sender vault : Address) (eligible : Bool) : Call RegistryError (Registry × List RegistryEvent) := do
  g.roles.check .adminRole sender
  revertIf (g.registered vault = false) RegistryError.notRegistered
  let old := g.routerEligible vault
  if old = eligible then
    pure (g, [.routerEligibilityChanged vault old eligible])
  else
    let newCount ← g.newCount eligible
    let defaultLength ← g.linkedLength defaultWeightsLength
    revertIf (defaultLength ≠ 0 ∧ defaultLength ≠ newCount)
      (RegistryError.staleDefaultWeightsLength newCount defaultLength)
    pure
      ({ g with
          routerEligibleCount := newCount
          routerEligible := Function.update g.routerEligible vault eligible },
        [.routerEligibilityChanged vault old eligible])

/-- The length that stands in the way of linking `newRouter`: only an unlinking, with the zero address,
asks the router that is linked. -/
def unlinkLength (defaultWeightsLength : Address → Option ℕ) (g : Registry) (newRouter : Address) :
    Call RegistryError ℕ :=
  if newRouter = 0 then g.linkedLength defaultWeightsLength else .ok 0

/-- `setRouter(newRouter)` -/
def setRouter (defaultWeightsLength : Address → Option ℕ) (g : Registry) (sender newRouter : Address) :
    Call RegistryError (Registry × List RegistryEvent) := do
  g.roles.check .adminRole sender
  let defaultLength ← g.unlinkLength defaultWeightsLength newRouter
  revertIf (defaultLength ≠ 0) (RegistryError.routerUnlinkBlocked defaultLength)
  pure ({ g with router := newRouter }, [.routerSet g.router newRouter])

/-- `getVault(vault)` -/
def getVault (g : Registry) (vault : Address) : Call RegistryError (VaultMetadata × VaultStatus) := do
  revertIf (g.registered vault = false) RegistryError.notRegistered
  pure (g.metadata vault, g.status vault)

/-- `isRouterEligible(vault)` -/
def isRouterEligible (g : Registry) (vault : Address) : Bool := g.routerEligible vault

/-! ### The contract as a state machine -/

/-- The calls that change the registry. -/
inductive RegistryCall where
  | registerVault (vault : Address) (name : String) (asset : Address)
  | setVaultStatus (vault : Address) (newStatus : VaultStatus)
  | setRouterEligible (vault : Address) (eligible : Bool)
  | setRouter (newRouter : Address)
  | grantRole (role : AdminRole) (account : Address)
  | revokeRole (role : AdminRole) (account : Address)
  | renounceRole (role : AdminRole) (confirmation : Address)

/-- A call on the role table. -/
def onRoles (g : Registry) (x : Call RegistryError (Roles AdminRole Address)) :
    Call RegistryError (Registry × List RegistryEvent) := do
  let roles ← x
  pure ({ g with roles }, [])

/-- One call, with what the accounts answer at that time. -/
def exec (g : Registry) (i : Tx RegistryCall × (Address → Option ℕ)) :
    Call RegistryError (Registry × List RegistryEvent) :=
  match i.1.call with
  | .registerVault vault name asset => g.registerVault i.1.block i.1.sender vault name asset
  | .setVaultStatus vault newStatus => g.setVaultStatus i.1.block i.1.sender vault newStatus
  | .setRouterEligible vault eligible => g.setRouterEligible i.2 i.1.sender vault eligible
  | .setRouter newRouter => g.setRouter i.2 i.1.sender newRouter
  | .grantRole role account =>
    g.onRoles (Roles.grantRole (fun t r a => .ok (t.set r a true)) AdminRole.admin g.roles i.1.sender
      role account)
  | .revokeRole role account =>
    g.onRoles (Roles.revokeRole AdminRole.admin g.roles i.1.sender role account)
  | .renounceRole role confirmation =>
    g.onRoles (Roles.renounceRole g.roles i.1.sender role confirmation)

end Registry

end RobotMoney.Portfolio
