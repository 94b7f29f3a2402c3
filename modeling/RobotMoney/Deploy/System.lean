import RobotMoney.Gateway.Roles
import RobotMoney.Governance.Effect
import RobotMoney.Lib.RoleHolders
import RobotMoney.Portfolio.Link
import RobotMoney.Vault.Touches

/-!
# The five contracts together

The vault, the gateway, the registry, the router and the governance, as one system that takes calls to each of
them in any order.  Each has an `ADMIN_ROLE`.  In four of them that role administers itself; in the gateway
every role is administered by `DEFAULT_ADMIN_ROLE`.

The point of the module is what calls do to the holders: a call to one contract makes a step of that contract's
role (`RoleStep`) and none of the others' (`exec_steps`), and a call that asks for `ADMIN_ROLE` reverts when its
sender does not have it (`exec_unauthorized`).
-/

namespace RobotMoney.Deploy

open RobotMoney.Lib

/-- The contracts that `DeployTimelock` hands over. -/
inductive Contract where
  | vault
  | gateway
  | registry
  | router
  | governance
  deriving DecidableEq, Repr

/-- The storages of the five.  The governance comes with the router and the registry it acts on. -/
structure System (U V W : Type) where
  vault : Vault.State U
  gateway : Gateway.State V
  governance : Governance.State W

structure Envs (U V W : Type) where
  vault : Vault.Env U
  gateway : Gateway.Env V
  governance : Governance.Env W

/-- A call of one of the contracts; of the registry, with what accounts answer when they are asked for the
length of their default vector. -/
inductive SystemCall (U V W : Type) where
  | vault (call : Vault.State.VaultCall U)
  | gateway (call : Gateway.State.GatewayCall V)
  | registry (call : Portfolio.Registry.RegistryCall) (answers : Address → Option ℕ)
  | router (call : Portfolio.RouterState.RouterCall)
  | governance (call : Governance.State.GovernanceCall)
  | elsewhere (world : Portfolio.World W)

/-- The reason of a revert, whichever contract it comes from. -/
def Revert.forget {ε : Type} : Revert ε → Revert Unit
  | .panic p => .panic p
  | .token e => .token e
  | .unauthorizedAccount => .unauthorizedAccount
  | .badConfirmation => .badConfirmation
  | .innerCall => .innerCall
  | .custom _ => .custom ()

/-- A call whose result goes into the state of the system. -/
def embed {ε σ ρ τ : Type} (x : Call ε (σ × ρ)) (put : σ → τ) : Call Unit (τ × Unit) :=
  match x with
  | .ok (s, _) => .ok (put s, ())
  | .error e => .error (Revert.forget e)

theorem embed_eq_ok {ε σ ρ τ : Type} {x : Call ε (σ × ρ)} {put : σ → τ} {t : τ × Unit} :
    embed x put = .ok t ↔ ∃ s r, x = .ok (s, r) ∧ t = (put s, ()) := by
  unfold embed
  rcases x with e | ⟨s, r⟩
  · simp
  · constructor
    · rintro ⟨⟩
      exact ⟨s, r, rfl, rfl⟩
    · rintro ⟨s₁, r₁, ⟨⟩, rfl⟩
      rfl

variable {U V W : Type}

namespace System

/-- One call. -/
def exec (envs : Envs U V W) (s : System U V W) (tx : Tx (SystemCall U V W)) : Call Unit (System U V W × Unit) :=
  match tx.call with
  | .vault call =>
    embed (s.vault.exec envs.vault ⟨tx.block, tx.sender, call, tx.sender_ne⟩) fun vault => { s with vault }
  | .gateway call =>
    embed (s.gateway.exec envs.gateway ⟨tx.block, tx.sender, call, tx.sender_ne⟩) fun gateway => { s with gateway }
  | .registry call answers =>
    embed (s.governance.portfolio.registry.exec (⟨tx.block, tx.sender, call, tx.sender_ne⟩, answers))
      fun registry => { s with governance.portfolio.registry := registry }
  | .router call =>
    embed (s.governance.portfolio.exec envs.governance.router tx.sender call)
      fun portfolio => { s with governance.portfolio := portfolio }
  | .governance call =>
    embed (s.governance.exec envs.governance ⟨tx.block, tx.sender, call, tx.sender_ne⟩)
      fun governance => { s with governance }
  | .elsewhere world => .ok ({ s with governance.portfolio.world := world }, ())

end System

/-! ### Who is asked for, named and seated -/

/-- The roles that the handover is about: `ADMIN_ROLE` of each contract, and the gateway's
`DEFAULT_ADMIN_ROLE`. -/
inductive Seat where
  | admin (c : Contract)
  | defaultAdmin
  deriving DecidableEq, Repr

/-- `getRoleAdmin` of a seat. -/
def Seat.overseer : Seat → Seat
  | .admin .gateway => .defaultAdmin
  | seat => seat

/-- `hasRole` of a seat. -/
def System.holds (s : System U V W) : Roles Seat Address
  | .admin .vault => s.vault.roles .adminRole
  | .admin .gateway => s.gateway.roles .adminRole
  | .admin .registry => s.governance.portfolio.registry.roles .adminRole
  | .admin .router => s.governance.portfolio.router.roles .adminRole
  | .admin .governance => s.governance.gov.roles .adminRole
  | .defaultAdmin => s.gateway.roles .defaultAdminRole

namespace SystemCall

/-- The seat that a call grants, and to whom. -/
def gives : SystemCall U V W → Option (Seat × Address)
  | .vault (.grantRole .adminRole account) => some (.admin .vault, account)
  | .gateway (.grantRole .adminRole account) => some (.admin .gateway, account)
  | .gateway (.grantRole .defaultAdminRole account) => some (.defaultAdmin, account)
  | .registry (.grantRole .adminRole account) _ => some (.admin .registry, account)
  | .router (.grantRole .adminRole account) => some (.admin .router, account)
  | .governance (.grantRole .adminRole account) => some (.admin .governance, account)
  | _ => none

/-- The seat that a call revokes or renounces, and whose it is. -/
def takes : SystemCall U V W → Option (Seat × Address)
  | .vault (.revokeRole .adminRole account) => some (.admin .vault, account)
  | .vault (.renounceRole .adminRole account) => some (.admin .vault, account)
  | .gateway (.revokeRole .adminRole account) => some (.admin .gateway, account)
  | .gateway (.renounceRole .adminRole account) => some (.admin .gateway, account)
  | .gateway (.revokeRole .defaultAdminRole account) => some (.defaultAdmin, account)
  | .gateway (.renounceRole .defaultAdminRole account) => some (.defaultAdmin, account)
  | .registry (.revokeRole .adminRole account) _ => some (.admin .registry, account)
  | .registry (.renounceRole .adminRole account) _ => some (.admin .registry, account)
  | .router (.revokeRole .adminRole account) => some (.admin .router, account)
  | .router (.renounceRole .adminRole account) => some (.admin .router, account)
  | .governance (.revokeRole .adminRole account) => some (.admin .governance, account)
  | .governance (.renounceRole .adminRole account) => some (.admin .governance, account)
  | _ => none

end SystemCall

/-! ### The vault -/

section vault

variable {env : Vault.Env U} {s s' : Vault.State U} {tx : Tx (Vault.State.VaultCall U)} {r : ℕ × ℕ}

open Vault Vault.State

/-- What a call of the vault makes of its `ADMIN_ROLE`. -/
theorem vault_step (h : s.exec env tx = .ok (s', r)) :
    RoleStep VaultRole.admin .adminRole tx.sender (fun a => tx.call = .grantRole .adminRole a)
      (fun a => tx.call = .revokeRole .adminRole a ∨ tx.call = .renounceRole .adminRole a) s.roles s'.roles := by
  by_cases hcall : OnRoles tx
  · obtain ⟨b, sender, call, hsender⟩ := tx
    unfold State.exec at h
    rcases hcall with ⟨role, account, rfl⟩ | ⟨role, account, rfl⟩ | ⟨role, confirmation, rfl⟩
    · obtain ⟨roles, hroles, h⟩ := bind_eq_ok.mp h
      cases h
      refine .of_grantRole (fun hset => (Except.ok.inj hset).symm) hroles ?_
      rintro rfl
      rfl
    · obtain ⟨roles, hroles, h⟩ := bind_eq_ok.mp h
      cases h
      refine .of_revokeRole hroles ?_
      rintro rfl
      exact .inl rfl
    · obtain ⟨roles, hroles, h⟩ := bind_eq_ok.mp h
      cases h
      refine .of_renounceRole hroles ?_
      rintro rfl
      exact .inr rfl
  · refine .of_eq fun a => ?_
    rw [(exec_touches h).2 hcall]

end vault

/-! ### The gateway -/

section gateway

variable {env : Gateway.Env V} {s s' : Gateway.State V} {tx : Tx (Gateway.State.GatewayCall V)} {r : Gateway.Receipt}
  {role : Gateway.Role}

open Gateway Gateway.State

/-- What a call of the gateway makes of a role other than that of the agents. -/
theorem gateway_step (hrole : role ≠ .agentRole) (h : s.exec env tx = .ok (s', r)) :
    RoleStep (fun _ => .defaultAdminRole) role tx.sender (fun a => tx.call = .grantRole role a)
      (fun a => tx.call = .revokeRole role a ∨ tx.call = .renounceRole role a) s.roles s'.roles := by
  cases exec_effect h with
  | committed | policySet | paused | elsewhere => exact .of_eq fun a => rfl
  | authorized | revealed => exact .of_eq fun a => Roles.set_of_ne _ _ (.inl hrole)
  | revoked hc ho hr => exact .of_eq fun a => hr role a hrole
  | paid hc hp =>
    refine .of_eq fun a => ?_
    rw [hp.roles_eq]
  | roles hc =>
    cases exec_inherited h hc with
    | granted hc hadmin hg =>
      obtain ⟨-, rfl⟩ := grantRole_eq_ok hg
      refine .of_set_true hadmin ?_
      rintro rfl
      exact hc
    | revoked hc hadmin =>
      refine .of_set_false (.inr hadmin) ?_
      rintro rfl
      exact .inl hc
    | renounced hc =>
      refine .of_set_false (.inl rfl) ?_
      rintro rfl
      exact .inr hc

end gateway

/-! ### The registry, the router and the governance -/

section portfolio

open Portfolio

variable {env : RouterEnv W} {sender : Address}

/-- What a call of the registry makes of its `ADMIN_ROLE`. -/
theorem registry_step {g g' : Registry} {i : Tx Registry.RegistryCall × (Address → Option ℕ)}
    {events : List RegistryEvent} (h : g.exec i = .ok (g', events)) :
    RoleStep AdminRole.admin .adminRole i.1.sender (fun a => i.1.call = .grantRole .adminRole a)
      (fun a => i.1.call = .revokeRole .adminRole a ∨ i.1.call = .renounceRole .adminRole a) g.roles g'.roles := by
  obtain ⟨⟨b, sender, call, hsender⟩, answers⟩ := i
  unfold Registry.exec at h
  cases call with
  | registerVault vault name asset =>
    simp only [Registry.registerVault, bind_eq_ok, pure_eq_ok, Prod.mk.injEq] at h
    obtain ⟨_, -, _, -, _, -, rfl, -⟩ := h
    exact .of_eq fun a => rfl
  | setVaultStatus vault newStatus =>
    simp only [Registry.setVaultStatus, bind_eq_ok, pure_eq_ok, Prod.mk.injEq] at h
    obtain ⟨_, -, _, -, rfl, -⟩ := h
    exact .of_eq fun a => rfl
  | setRouterEligible vault eligible =>
    simp only [Registry.setRouterEligible, bind_eq_ok] at h
    obtain ⟨_, -, _, -, h⟩ := h
    split at h
    · cases h
      exact .of_eq fun a => rfl
    · simp only [bind_eq_ok, pure_eq_ok, Prod.mk.injEq] at h
      obtain ⟨n, -, length, -, _, -, rfl, -⟩ := h
      exact .of_eq fun a => rfl
  | setRouter newRouter =>
    simp only [Registry.setRouter, bind_eq_ok, pure_eq_ok, Prod.mk.injEq] at h
    obtain ⟨_, -, length, -, _, -, rfl, -⟩ := h
    exact .of_eq fun a => rfl
  | grantRole role account =>
    obtain ⟨roles, hroles, h⟩ := bind_eq_ok.mp h
    cases h
    refine .of_grantRole (fun hset => (Except.ok.inj hset).symm) hroles ?_
    rintro rfl
    rfl
  | revokeRole role account =>
    obtain ⟨roles, hroles, h⟩ := bind_eq_ok.mp h
    cases h
    refine .of_revokeRole hroles ?_
    rintro rfl
    exact .inl rfl
  | renounceRole role confirmation =>
    obtain ⟨roles, hroles, h⟩ := bind_eq_ok.mp h
    cases h
    refine .of_renounceRole hroles ?_
    rintro rfl
    exact .inr rfl

/-- What a call of the router makes of its `ADMIN_ROLE`; the registry is as it was. -/
theorem router_step {p p' : RouterState W} {call : RouterState.RouterCall} {events : List RouterEvent}
    (h : p.exec env sender call = .ok (p', events)) :
    RoleStep AdminRole.admin .adminRole sender (fun a => call = .grantRole .adminRole a)
      (fun a => call = .revokeRole .adminRole a ∨ call = .renounceRole .adminRole a) p.router.roles
        p'.router.roles ∧ p'.registry = p.registry := by
  refine ⟨?_, (RouterState.exec_default h).1⟩
  cases call with
  | setWeights vaults bps =>
    obtain ⟨-, rfl⟩ := RouterState.setWeights_ok h
    exact .of_eq fun a => rfl
  | setDefaultWeights vaults bps =>
    obtain ⟨-, rfl⟩ := RouterState.setDefaultWeights_ok h
    exact .of_eq fun a => rfl
  | clearVotedWeights =>
    simp only [RouterState.exec, RouterState.clearVotedWeights, bind_eq_ok, pure_eq_ok, Prod.mk.injEq] at h
    obtain ⟨-, -, rfl, -⟩ := h
    exact .of_eq fun a => rfl
  | setRouterCap cap =>
    simp only [RouterState.exec, RouterState.setRouterCap, bind_eq_ok, pure_eq_ok, Prod.mk.injEq] at h
    obtain ⟨-, -, rfl, -⟩ := h
    exact .of_eq fun a => rfl
  | setVaultCap vault cap =>
    simp only [RouterState.exec, RouterState.setVaultCap, bind_eq_ok, pure_eq_ok, Prod.mk.injEq] at h
    obtain ⟨-, -, -, -, rfl, -⟩ := h
    exact .of_eq fun a => rfl
  | rescueUsdc dst =>
    simp only [RouterState.exec, RouterState.rescueUsdc, bind_eq_ok] at h
    obtain ⟨-, -, -, -, h⟩ := h
    split at h
    · cases h
      exact .of_eq fun a => rfl
    · obtain ⟨usdc, -, h⟩ := bind_eq_ok.mp h
      cases h
      exact .of_eq fun a => rfl
  | deposit amount minShares =>
    obtain ⟨usdc, amounts, -, hlegs⟩ := RouterState.depositTo_legs h
    refine .of_eq fun a => ?_
    rw [(RouterState.executeLegs_kept hlegs).1]
  | depositFor receiver amount minShares =>
    obtain ⟨-, -, h⟩ := bind_eq_ok.mp h
    obtain ⟨usdc, amounts, -, hlegs⟩ := RouterState.depositTo_legs h
    refine .of_eq fun a => ?_
    rw [(RouterState.executeLegs_kept hlegs).1]
  | grantRole role account =>
    obtain ⟨roles, hroles, h⟩ := bind_eq_ok.mp h
    cases h
    refine .of_grantRole (fun hset => (Except.ok.inj hset).symm) hroles ?_
    rintro rfl
    rfl
  | revokeRole role account =>
    obtain ⟨roles, hroles, h⟩ := bind_eq_ok.mp h
    cases h
    refine .of_revokeRole hroles ?_
    rintro rfl
    exact .inl rfl
  | renounceRole role confirmation =>
    obtain ⟨roles, hroles, h⟩ := bind_eq_ok.mp h
    cases h
    refine .of_renounceRole hroles ?_
    rintro rfl
    exact .inr rfl

open Governance in
/-- What a call of the governance makes of its `ADMIN_ROLE`.  What it does to the router is none of the calls on
roles. -/
theorem governance_step {env : Governance.Env W} {s s' : Governance.State W}
    {tx : Tx Governance.State.GovernanceCall} {events : List GovernanceEvent}
    (h : s.exec env tx = .ok (s', events)) :
    RoleStep AdminRole.admin .adminRole tx.sender (fun a => tx.call = .grantRole .adminRole a)
      (fun a => tx.call = .revokeRole .adminRole a ∨ tx.call = .renounceRole .adminRole a) s.gov.roles
        s'.gov.roles ∧
    s'.portfolio.registry = s.portfolio.registry ∧ s'.portfolio.router.roles = s.portfolio.router.roles := by
  obtain ⟨b, sender, call, hsender⟩ := tx
  unfold State.exec at h
  cases call with
  | setQuorumThreshold | setVotingPeriod =>
    obtain ⟨gov, hx, rfl⟩ := onGov_eq_ok h
    obtain ⟨-, rfl, -⟩ := setter_eq_ok hx
    exact ⟨.of_eq fun a => rfl, rfl, rfl⟩
  | setExecutionDelay delay =>
    obtain ⟨gov, hx, rfl⟩ := onGov_eq_ok h
    obtain ⟨-, -, hx⟩ := bind_eq_ok.mp hx
    cases hx
    exact ⟨.of_eq fun a => rfl, rfl, rfl⟩
  | setVotingPower voter power =>
    obtain ⟨gov, hx, rfl⟩ := onGov_eq_ok h
    obtain ⟨-, rfl, -⟩ := setVotingPower_eq_ok hx
    exact ⟨.of_eq fun a => rfl, rfl, rfl⟩
  | setDefaultWeights vaults bps =>
    obtain ⟨portfolio, ev, hx, rfl, -⟩ := forward_eq_ok h
    obtain ⟨-, rfl⟩ := RouterState.setDefaultWeights_ok hx
    exact ⟨.of_eq fun a => rfl, rfl, rfl⟩
  | clearVotedWeights =>
    obtain ⟨portfolio, ev, hx, rfl, -⟩ := forward_eq_ok h
    simp only [RouterState.clearVotedWeights, bind_eq_ok, pure_eq_ok, Prod.mk.injEq] at hx
    obtain ⟨-, -, rfl, -⟩ := hx
    exact ⟨.of_eq fun a => rfl, rfl, rfl⟩
  | propose vaults bps =>
    obtain ⟨gov, hx, rfl⟩ := onGov_eq_ok h
    obtain ⟨-, rfl, -⟩ := propose_eq_ok hx
    exact ⟨.of_eq fun a => rfl, rfl, rfl⟩
  | cancel i =>
    obtain ⟨gov, hx, rfl⟩ := onGov_eq_ok h
    obtain ⟨-, -, -, rfl, -⟩ := cancel_eq_ok hx
    exact ⟨.of_eq fun a => rfl, rfl, rfl⟩
  | vote i =>
    obtain ⟨gov, hx, rfl⟩ := onGov_eq_ok h
    obtain ⟨-, -, -, -, rfl, -⟩ := vote_eq_ok hx
    exact ⟨.of_eq fun a => rfl, rfl, rfl⟩
  | execute i =>
    simp only [State.execute, bind_eq_ok, revertIf_eq_ok, exists_const, Prod.exists, inner_eq_ok, pure_eq_ok,
      Prod.mk.injEq] at h
    obtain ⟨-, -, _, -, portfolio, ev, hset, rfl, -⟩ := h
    obtain ⟨-, rfl⟩ := RouterState.setWeights_ok hset
    exact ⟨.of_eq fun a => rfl, rfl, rfl⟩
  | grantRole role account =>
    obtain ⟨roles, hroles, h⟩ := bind_eq_ok.mp h
    cases h
    refine ⟨.of_grantRole (fun hset => (Except.ok.inj hset).symm) hroles ?_, rfl, rfl⟩
    rintro rfl
    rfl
  | revokeRole role account =>
    obtain ⟨roles, hroles, h⟩ := bind_eq_ok.mp h
    cases h
    refine ⟨.of_revokeRole hroles ?_, rfl, rfl⟩
    rintro rfl
    exact .inl rfl
  | renounceRole role confirmation =>
    obtain ⟨roles, hroles, h⟩ := bind_eq_ok.mp h
    cases h
    refine ⟨.of_renounceRole hroles ?_, rfl, rfl⟩
    rintro rfl
    exact .inr rfl

end portfolio

/-! ### The system -/

variable {envs : Envs U V W}

/-- Every call makes a step of every seat. -/
theorem exec_steps (envs : Envs U V W) (seat : Seat) :
    Stepwise (System.exec envs) System.holds Seat.overseer seat Tx.sender
      (fun tx a => tx.call.gives = some (seat, a)) fun tx a => tx.call.takes = some (seat, a) := by
  rintro s ⟨b, sender, call, hsender⟩ s' r h
  unfold System.exec at h
  cases call with
  | vault call =>
    obtain ⟨vault, r, hx, ⟨⟩⟩ := embed_eq_ok.mp h
    rcases seat with (- | - | - | - | -) | -
    case admin.vault =>
      refine (vault_step hx).lift rfl rfl rfl ?_ ?_
      · rintro a rfl
        rfl
      · rintro a (rfl | rfl) <;> rfl
    all_goals exact .of_eq fun a => rfl
  | gateway call =>
    obtain ⟨gateway, r, hx, ⟨⟩⟩ := embed_eq_ok.mp h
    rcases seat with (- | - | - | - | -) | -
    case admin.gateway =>
      have hne : Gateway.Role.adminRole ≠ .agentRole := nofun
      refine (gateway_step hne hx).lift rfl rfl rfl ?_ ?_
      · rintro a rfl
        rfl
      · rintro a (rfl | rfl) <;> rfl
    case defaultAdmin =>
      have hne : Gateway.Role.defaultAdminRole ≠ .agentRole := nofun
      refine (gateway_step hne hx).lift rfl rfl rfl ?_ ?_
      · rintro a rfl
        rfl
      · rintro a (rfl | rfl) <;> rfl
    all_goals exact .of_eq fun a => rfl
  | registry call answers =>
    obtain ⟨registry, r, hx, ⟨⟩⟩ := embed_eq_ok.mp h
    rcases seat with (- | - | - | - | -) | -
    case admin.registry =>
      refine (registry_step hx).lift rfl rfl rfl ?_ ?_
      · rintro a rfl
        rfl
      · rintro a (rfl | rfl) <;> rfl
    all_goals exact .of_eq fun a => rfl
  | router call =>
    obtain ⟨portfolio, r, hx, ⟨⟩⟩ := embed_eq_ok.mp h
    obtain ⟨hstep, hregistry⟩ := router_step hx
    rcases seat with (- | - | - | - | -) | -
    case admin.router =>
      refine hstep.lift rfl rfl rfl ?_ ?_
      · rintro a rfl
        rfl
      · rintro a (rfl | rfl) <;> rfl
    case admin.registry =>
      refine .of_eq fun a => ?_
      exact congrArg (fun g => g.roles .adminRole a) hregistry
    all_goals exact .of_eq fun a => rfl
  | governance call =>
    obtain ⟨governance, r, hx, ⟨⟩⟩ := embed_eq_ok.mp h
    obtain ⟨hstep, hregistry, hroles⟩ := governance_step hx
    rcases seat with (- | - | - | - | -) | -
    case admin.governance =>
      refine hstep.lift rfl rfl rfl ?_ ?_
      · rintro a rfl
        rfl
      · rintro a (rfl | rfl) <;> rfl
    case admin.registry =>
      refine .of_eq fun a => ?_
      exact congrArg (fun g => g.roles .adminRole a) hregistry
    case admin.router =>
      refine .of_eq fun a => ?_
      exact congrArg (fun t => t .adminRole a) hroles
    all_goals exact .of_eq fun a => rfl
  | elsewhere world =>
    cases h
    rcases seat with (- | - | - | - | -) | -
    all_goals exact .of_eq fun a => rfl

/-! ### Calls that ask for the role -/

namespace SystemCall

open Vault.State in
/-- The contract whose `ADMIN_ROLE` a call asks for, before all else. -/
def asks : SystemCall U V W → Option Contract
  | .vault call =>
    match call with
    | .addAdapter .. | .setAdapterAllowed .. | .setAdapterCodeHashAllowed .. | .removeAdapter .. => some .vault
    | .setAdapterCap .. | .adminRebalance .. | .unpause | .setTvlCap .. | .setPerDepositCap .. => some .vault
    | .setExitFeeBps .. | .setFeeRecipient .. | .setMaxRebalanceBpsPerCall .. => some .vault
    | .setMinRebalanceInterval .. | .rescueTokens .. => some .vault
    | .grantRole role _ | .revokeRole role _ => if role.admin = .adminRole then some .vault else none
    | _ => none
  | .gateway .unpause => some .gateway
  | .registry call _ =>
    match call with
    | .registerVault .. | .setVaultStatus .. | .setRouterEligible .. | .setRouter .. => some .registry
    | .grantRole role _ | .revokeRole role _ => if role.admin = .adminRole then some .registry else none
    | .renounceRole .. => none
  | .router call =>
    match call with
    | .setWeights .. | .setDefaultWeights .. | .clearVotedWeights | .setRouterCap .. => some .router
    | .setVaultCap .. | .rescueUsdc .. => some .router
    | .grantRole role _ | .revokeRole role _ => if role.admin = .adminRole then some .router else none
    | _ => none
  | .governance call =>
    match call with
    | .setQuorumThreshold .. | .setVotingPeriod .. | .setExecutionDelay .. | .setVotingPower .. => some .governance
    | .setDefaultWeights .. | .clearVotedWeights | .propose .. | .cancel .. => some .governance
    | .grantRole role _ | .revokeRole role _ => if role.admin = .adminRole then some .governance else none
    | _ => none
  | _ => none

end SystemCall

theorem check_refuses {R A ε α : Type} [DecidableEq R] [DecidableEq A] {t : Roles R A} {role : R} {a : A}
    {f : Unit → Call ε α} (h : t role a = false) : (t.check role a >>= f) = .error .unauthorizedAccount := by
  unfold Roles.check
  rw [h]
  rfl

theorem embed_unauthorized {ε σ ρ τ : Type} {x : Call ε (σ × ρ)} {put : σ → τ}
    (h : x = .error .unauthorizedAccount) : embed x put = .error .unauthorizedAccount := by
  rw [h]
  rfl

open Vault Vault.State in
theorem vault_unauthorized {env : Vault.Env U} {s : Vault.State U} {tx : Tx (VaultCall U)} {c : Contract}
    (hasks : (SystemCall.vault tx.call : SystemCall U V W).asks = some c) :
    c = .vault ∧ (s.roles .adminRole tx.sender = false → s.exec env tx = .error .unauthorizedAccount) := by
  obtain ⟨b, sender, call, hsender⟩ := tx
  unfold SystemCall.asks at hasks
  cases call with
  | grantRole role account | revokeRole role account =>
    dsimp only at hasks
    split at hasks
    · rename_i hrole
      cases hasks
      refine ⟨rfl, fun hno => ?_⟩
      simp [State.exec, State.onRoles, Roles.grantRole, Roles.revokeRole, hrole, check_refuses hno]
    · cases hasks
  | _ =>
    cases hasks
    all_goals
      refine ⟨rfl, fun hno => ?_⟩
      simp [State.exec, silent, State.addAdapter, State.setAdapterAllowed, State.setAdapterCodeHashAllowed,
        State.removeAdapter, State.setAdapterCap, State.adminRebalance, State.unpause, State.setTvlCap,
        State.setPerDepositCap, State.setExitFeeBps, State.setFeeRecipient, State.setMaxRebalanceBpsPerCall,
        State.setMinRebalanceInterval, State.rescueTokens, check_refuses hno]

open Portfolio Registry in
theorem registry_unauthorized {g : Registry} {i : Tx RegistryCall × (Address → Option ℕ)} {c : Contract}
    (hasks : (SystemCall.registry i.1.call i.2 : SystemCall U V W).asks = some c) :
    c = .registry ∧ (g.roles .adminRole i.1.sender = false → g.exec i = .error .unauthorizedAccount) := by
  obtain ⟨⟨b, sender, call, hsender⟩, answers⟩ := i
  unfold SystemCall.asks at hasks
  cases call with
  | grantRole role account | revokeRole role account =>
    dsimp only at hasks
    split at hasks
    · rename_i hrole
      cases hasks
      refine ⟨rfl, fun hno => ?_⟩
      simp [Registry.exec, Registry.onRoles, Roles.grantRole, Roles.revokeRole, hrole, check_refuses hno]
    · cases hasks
  | _ =>
    cases hasks
    all_goals
      refine ⟨rfl, fun hno => ?_⟩
      simp [Registry.exec, Registry.registerVault, Registry.setVaultStatus, Registry.setRouterEligible,
        Registry.setRouter, check_refuses hno]

open Portfolio RouterState in
theorem router_unauthorized {env : RouterEnv W} {p : RouterState W} {sender : Address} {call : RouterCall}
    {c : Contract} (hasks : (SystemCall.router call : SystemCall U V W).asks = some c) :
    c = .router ∧ (p.router.roles .adminRole sender = false →
      p.exec env sender call = .error .unauthorizedAccount) := by
  unfold SystemCall.asks at hasks
  cases call with
  | grantRole role account | revokeRole role account =>
    dsimp only at hasks
    split at hasks
    · rename_i hrole
      cases hasks
      refine ⟨rfl, fun hno => ?_⟩
      simp [RouterState.exec, Roles.grantRole, Roles.revokeRole, hrole, check_refuses hno]
    · cases hasks
  | _ =>
    cases hasks
    all_goals
      refine ⟨rfl, fun hno => ?_⟩
      simp [RouterState.exec, RouterState.setWeights, RouterState.setDefaultWeights, RouterState.clearVotedWeights,
        RouterState.setRouterCap, RouterState.setVaultCap, RouterState.rescueUsdc, check_refuses hno]

open Portfolio Governance Governance.State in
theorem governance_unauthorized {env : Governance.Env W} {s : Governance.State W} {tx : Tx GovernanceCall}
    {c : Contract} (hasks : (SystemCall.governance tx.call : SystemCall U V W).asks = some c) :
    c = .governance ∧ (s.gov.roles .adminRole tx.sender = false →
      s.exec env tx = .error .unauthorizedAccount) := by
  obtain ⟨b, sender, call, hsender⟩ := tx
  unfold SystemCall.asks at hasks
  cases call with
  | grantRole role account | revokeRole role account =>
    dsimp only at hasks
    split at hasks
    · rename_i hrole
      cases hasks
      refine ⟨rfl, fun hno => ?_⟩
      simp [State.exec, State.onRoles, Roles.grantRole, Roles.revokeRole, hrole, check_refuses hno]
    · cases hasks
  | _ =>
    cases hasks
    all_goals
      refine ⟨rfl, fun hno => ?_⟩
      simp [State.exec, onGov, Storage.setQuorumThreshold, Storage.setVotingPeriod, Storage.setExecutionDelay,
        Storage.setVotingPower, Storage.propose, Storage.cancel, State.setDefaultWeights, State.clearVotedWeights,
        check_refuses hno]

/-- Such a call of an account without the role reverts, and says why. -/
theorem exec_unauthorized {s : System U V W} {tx : Tx (SystemCall U V W)} {c : Contract}
    (hasks : tx.call.asks = some c) (hno : s.holds (.admin c) tx.sender = false) :
    s.exec envs tx = .error .unauthorizedAccount := by
  obtain ⟨b, sender, call, hsender⟩ := tx
  cases call with
  | vault call =>
    obtain ⟨rfl, hrefuses⟩ := @vault_unauthorized _ _ _ _ _ ⟨b, sender, call, hsender⟩ _ hasks
    exact embed_unauthorized (hrefuses hno)
  | gateway call =>
    cases call with
    | unpause =>
      cases hasks
      refine embed_unauthorized ?_
      simp only [Gateway.State.exec, Gateway.State.unpause]
      exact check_refuses hno
    | _ => cases hasks
  | registry call answers =>
    obtain ⟨rfl, hrefuses⟩ := registry_unauthorized (i := (⟨b, sender, call, hsender⟩, answers)) hasks
    exact embed_unauthorized (hrefuses hno)
  | router call =>
    obtain ⟨rfl, hrefuses⟩ := router_unauthorized hasks
    exact embed_unauthorized (hrefuses hno)
  | governance call =>
    obtain ⟨rfl, hrefuses⟩ := @governance_unauthorized _ _ _ _ _ ⟨b, sender, call, hsender⟩ _ hasks
    exact embed_unauthorized (hrefuses hno)
  | elsewhere => cases hasks

end RobotMoney.Deploy
