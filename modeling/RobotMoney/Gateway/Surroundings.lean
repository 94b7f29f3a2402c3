import RobotMoney.Gateway.Payments
import RobotMoney.Portfolio.Conservation

/-!
# The gateway among the other contracts

`Env` leaves the vault and the router open.  Here the router is the repository's own: a `Setting` has
the contracts the gateway lives among, `Setting.env` is the gateway's environment in which
`router.depositFor` runs the model of `PortfolioRouter`, and the vaults, the pinned one and those of the
router's legs, are the only parameter left.

`Honest` says what the vaults are taken to be: contracts that keep to the two standards.  A deposit
debits its caller by exactly the assets and mints shares to the receiver; a redemption burns shares of
its owner and pays the receiver, and the fee recipient, out of the vault.  Other than that, USDC moves
only among the accounts of the vaults themselves.
-/

namespace RobotMoney.Gateway

open RobotMoney.Lib State
open RobotMoney.Portfolio (RouterState)

variable {W : Type}

/-- The ledger of the shares of every vault, and the rest of the chain. -/
structure Market (W : Type) where
  ledgers : Address → Token Address
  rest : W

/-- What is around the gateway, the ledgers of USDC and of the pinned vault's shares apart. -/
structure Surroundings (W : Type) where
  router : Portfolio.Router
  registry : Portfolio.Registry
  ledgers : Address → Token Address
  rest : W

/-- The contracts the gateway lives among. -/
structure Setting (W : Type) where
  self : Address
  vaultContract : Address
  chainid : ℕ
  /-- the router, at the zero address when there is none, with the views and the `deposit` of the
  vaults -/
  router : Portfolio.RouterEnv (Market W)
  /-- `redeem(shares, receiver, owner)` on a vault, called by `caller` -/
  redeem : Portfolio.World (Market W) → (vault caller : Address) → (shares : ℕ) →
    (receiver owner : Address) → Call Unit (Portfolio.World (Market W) × ℕ)
  /-- the account the exit fee of a vault goes to -/
  feeRecipient : W → (vault : Address) → Address
  /-- the accounts of the vaults: the vaults, their adapters, and what these invest in -/
  own : Address → Prop

namespace Setting

variable (S : Setting W)

/-- The world as the vaults and the router see it. -/
def market (w : World (Surroundings W)) : Portfolio.World (Market W) where
  usdc := w.usdc
  ext := ⟨Function.update w.ext.ledgers S.vaultContract w.shares, w.ext.rest⟩

/-- The world after the vaults and the router changed what they see of it. -/
def withMarket (w : World (Surroundings W)) (m : Portfolio.World (Market W)) :
    World (Surroundings W) where
  usdc := m.usdc
  shares := m.ext.ledgers S.vaultContract
  ext := { w.ext with ledgers := m.ext.ledgers, rest := m.ext.rest }

/-- The router with what it reads and acts on. -/
def portfolio (w : World (Surroundings W)) : RouterState (Market W) where
  router := w.ext.router
  registry := w.ext.registry
  world := S.market w

/-- The world after a call of the router. -/
def withPortfolio (w : World (Surroundings W)) (p : RouterState (Market W)) : World (Surroundings W) :=
  S.withMarket { w with ext := { w.ext with router := p.router, registry := p.registry } } p.world

/-- The shares an event of the router reports, if it is that of a leg. -/
def legShares : Portfolio.RouterEvent → Option ℕ
  | .routerDeposit _ _ _ shares _ => some shares
  | _ => none

/-- The gateway's environment: the pinned vault, and `PortfolioRouter`. -/
def env : Env (Surroundings W) where
  self := S.self
  usdcToken := S.router.usdc
  vaultContract := S.vaultContract
  routerContract := S.router.self
  chainid := S.chainid
  vaultDeposit w assets receiver := do
    let (m, shares) ← S.router.deposit (S.market w) S.vaultContract S.self assets receiver
    pure (S.withMarket w m, shares)
  vaultRedeem w shares receiver owner := do
    let (m, assets) ← S.redeem (S.market w) S.vaultContract S.self shares receiver owner
    pure (S.withMarket w m, assets)
  routerDepositFor w receiver amount minSharesPerLeg := do
    let (p, events) ←
      inner ((S.portfolio w).depositFor S.router S.self receiver amount minSharesPerLeg)
    pure (S.withPortfolio w p, events.filterMap legShares)

/-- The share ledger of a vault. -/
def ledger (w : World (Surroundings W)) (vault : Address) : Token Address :=
  (S.market w).ext.ledgers vault

@[simp] theorem market_withMarket (w : World (Surroundings W)) (m : Portfolio.World (Market W)) :
    S.market (S.withMarket w m) = m := by
  unfold market withMarket
  rw [Function.update_eq_self]

/-- The gateway's USDC ledger is that of the others. -/
theorem market_withMarket_usdc (w : World (Surroundings W)) (m : Portfolio.World (Market W))
    (t : Token Address) :
    S.market { S.withMarket w m with usdc := t } = { m with usdc := t } := by
  unfold market withMarket
  rw [Function.update_eq_self]

@[simp] theorem market_usdc (w : World (Surroundings W)) : (S.market w).usdc = w.usdc := rfl

@[simp] theorem ledger_vaultContract (w : World (Surroundings W)) :
    S.ledger w S.vaultContract = w.shares :=
  Function.update_self ..

theorem ledger_of_ne (w : World (Surroundings W)) {v : Address} (h : v ≠ S.vaultContract) :
    S.ledger w v = w.ext.ledgers v :=
  Function.update_of_ne h _ _

/-- No account of the contracts around the gateway, nor the gateway. -/
structure Outsider (a : Address) : Prop where
  ne_self : a ≠ S.self
  ne_router : a ≠ S.router.self
  not_own : ¬ S.own a

end Setting

/-! ### Honest vaults -/

/-- What a deposit of `assets` by `caller` for `receiver` does, when the vault answers `shares`. -/
structure Deposited (S : Setting W) (w : Portfolio.World (Market W)) (vault caller : Address)
    (assets : ℕ) (receiver : Address) (w' : Portfolio.World (Market W)) (shares : ℕ) : Prop where
  paid : w'.usdc.balanceOf caller + assets = w.usdc.balanceOf caller
  balances : ∀ x, x ≠ caller → ¬ S.own x → w'.usdc.balanceOf x = w.usdc.balanceOf x
  /-- an unlimited allowance is not used up -/
  allowance : w.usdc.allowance caller vault < maxWord →
    w'.usdc.allowance caller vault + assets = w.usdc.allowance caller vault
  allowances : ∀ o s, ¬ S.own o → o ≠ caller ∨ s ≠ vault →
    w'.usdc.allowance o s = w.usdc.allowance o s
  minted : Token.Minted (w.ext.ledgers vault) receiver shares (w'.ext.ledgers vault)
  ledgers : ∀ v, v ≠ vault → w'.ext.ledgers v = w.ext.ledgers v

/-- What a redemption of `shares` of `owner`, called by herself, does, when the vault answers
`assets`. -/
structure Redeemed (S : Setting W) (w : Portfolio.World (Market W)) (vault owner : Address)
    (shares : ℕ) (receiver : Address) (w' : Portfolio.World (Market W)) (assets : ℕ) : Prop where
  burned : Token.Burned (w.ext.ledgers vault) owner shares (w'.ext.ledgers vault)
  ledgers : ∀ v, v ≠ vault → w'.ext.ledgers v = w.ext.ledgers v
  paid : ∃ fee, ∀ x, ¬ S.own x → w'.usdc.balanceOf x = w.usdc.balanceOf x +
    (if x = receiver then assets else 0) + (if x = S.feeRecipient w.ext.rest vault then fee else 0)
  allowances : ∀ o s, ¬ S.own o → w'.usdc.allowance o s = w.usdc.allowance o s

/-- The vaults keep to the standards, whoever calls them, and neither the gateway nor the router is an
account of theirs. -/
structure Honest (S : Setting W) : Prop where
  self_not_own : ¬ S.own S.self
  router_not_own : ¬ S.own S.router.self
  self_ne_router : S.self ≠ S.router.self
  deposit : ∀ w vault caller assets receiver w' shares, ¬ S.own caller →
    S.router.deposit w vault caller assets receiver = .ok (w', shares) →
    Deposited S w vault caller assets receiver w' shares
  redeem : ∀ w vault owner shares receiver w' assets, ¬ S.own owner →
    S.redeem w vault owner shares receiver owner = .ok (w', assets) →
    Redeemed S w vault owner shares receiver w' assets

/-- Honest vaults take no more than they are allowed to. -/
theorem Honest.spendsAllowanceOnly {S : Setting W} (h : Honest S) :
    RouterState.SpendsAllowanceOnly S.router := by
  intro w w' vault assets receiver shares hlim hd
  have hdep := h.deposit w vault S.router.self assets receiver w' shares h.router_not_own hd
  refine ⟨assets, 0, hdep.paid, hdep.allowance hlim, ?_⟩
  intro s hs
  exact hdep.allowances _ s h.router_not_own (.inr hs)

/-! ### Reachable states -/

/-- The reachable states of the gateway in a setting: its constructor, its calls, which come from none
of the contracts around it, and whatever others do in between.  Others cannot give an allowance over the
gateway's USDC, and leave the router in a state it can reach. -/
inductive Reachable (S : Setting W) : State (Surroundings W) → Prop
  | deploy {vaultAsset admin pauser : Address} {world : World (Surroundings W)}
      {s : State (Surroundings W)} (fresh : ∀ x, world.usdc.allowance S.self x = 0)
      (hrouter : RouterState.Reachable S.router (S.portfolio world))
      (h : deploy S.env vaultAsset admin pauser world = .ok s) : Reachable S s
  | call {s s' : State (Surroundings W)} {tx : Tx (GatewayCall (Surroundings W))} {r : Receipt}
      (hs : Reachable S s) (hsender : S.Outsider tx.sender)
      (hc : ∀ world, tx.call ≠ .elsewhere world) (h : exec S.env s tx = .ok (s', r)) : Reachable S s'
  | outside {s : State (Surroundings W)} (hs : Reachable S s) (world : World (Surroundings W))
      (hallow : ∀ x, world.usdc.allowance S.self x ≤ s.world.usdc.allowance S.self x)
      (hrouter : RouterState.Reachable S.router (S.portfolio world)) : Reachable S { s with world }

/-- A run of the gateway's own calls, by others than the contracts around it, stays in reachable
states. -/
theorem Reachable.run {S : Setting W} {s : State (Surroundings W)} (hs : Reachable S s) :
    ∀ {txs : List (Tx (GatewayCall (Surroundings W)))},
      (∀ tx ∈ txs, S.Outsider tx.sender ∧ ∀ world, tx.call ≠ .elsewhere world) →
      Reachable S (Lib.run (exec S.env) s txs) := by
  intro txs
  induction txs generalizing s with
  | nil =>
    intro _
    exact hs
  | cons tx txs ih =>
    intro h
    have hrest : ∀ tx' ∈ txs, S.Outsider tx'.sender ∧ ∀ world, tx'.call ≠ .elsewhere world :=
      fun tx' htx' => h tx' (List.mem_cons_of_mem _ htx')
    obtain ⟨hsender, helse⟩ := h tx (List.mem_cons_self ..)
    rcases hx : exec S.env s tx with e | ⟨s', r⟩
    · rw [Lib.run, next_of_error hx]
      exact ih hs hrest
    · rw [Lib.run, next_of_ok hx]
      exact ih (.call hs hsender helse hx) hrest

/-! ### A setting -/

/-- There is a vault at the account. -/
def isVault (a : Address) : Prop := a = 3 ∨ a = 10

instance (a : Address) : Decidable (isVault a) := inferInstanceAs (Decidable (_ ∨ _))

/-- The gateway at the account `1`, the router at `4`, and two vaults at `3` and `10` that mint one share
for each unit and pay one unit for each share, as the repository's `MockVault` does.  The first of them
is the pinned one. -/
def mockSetting : Setting Unit where
  self := 1
  vaultContract := 3
  chainid := 8453
  router :=
    { self := 4
      usdc := 2
      hasCode := fun _ vault => decide (isVault vault)
      asset := fun _ _ => some 2
      previewDeposit := fun _ _ assets => some assets
      deposit := fun w vault caller assets receiver => do
        revertIf (¬ isVault vault ∨ assets = 0 ∨ receiver = 0) ()
        let usdc ← w.usdc.transferFrom vault caller vault assets
        let token ← (w.ext.ledgers vault).mint receiver assets
        pure (⟨usdc, { w.ext with ledgers := Function.update w.ext.ledgers vault token }⟩, assets) }
  redeem w vault caller shares receiver owner := do
    revertIf (¬ isVault vault ∨ shares = 0 ∨ receiver = 0) ()
    let token ← if owner ≠ caller then (w.ext.ledgers vault).spendAllowance owner caller shares
      else pure (w.ext.ledgers vault)
    let token ← token.burn owner shares
    let usdc ← w.usdc.transfer vault receiver shares
    pure (⟨usdc, { w.ext with ledgers := Function.update w.ext.ledgers vault token }⟩, shares)
  feeRecipient _ _ := 6
  own := isVault

theorem mockSetting_deposited {w w' : Portfolio.World (Market Unit)} {vault caller receiver : Address}
    {assets shares : ℕ} (hcaller : ¬ isVault caller)
    (h : mockSetting.router.deposit w vault caller assets receiver = .ok (w', shares)) :
    Deposited mockSetting w vault caller assets receiver w' shares := by
  simp only [mockSetting, bind_eq_ok, revertIf_eq_ok, exists_const, pure_eq_ok, Prod.mk.injEq, not_or,
    not_not] at h
  obtain ⟨⟨hvault, -, -⟩, usdc, htake, token, hmint, rfl, rfl⟩ := h
  obtain ⟨hle, hbal, -⟩ := Token.transferFrom_balances htake
  obtain ⟨-, hlt, rfl⟩ := Token.mint_eq_ok.mp hmint
  have hne : caller ≠ vault := by
    rintro rfl
    exact hcaller hvault
  refine
    { paid := ?_
      balances := ?_
      allowance := fun hlim => (Token.transferFrom_allowance hlim htake).1
      allowances := fun o s _ hos => Token.transferFrom_allowance_frame htake hos
      minted := ?_
      ledgers := fun v hv => Function.update_of_ne hv _ _ }
  · rw [hbal, Token.moved_src hne]
    omega
  · intro x hx hown
    have hxv : x ≠ vault := by
      rintro rfl
      exact hown hvault
    rw [hbal, Token.moved_of_ne hx hxv]
  · simp only [Function.update_self]
    exact ⟨rfl, rfl⟩

theorem mockSetting_redeemed {w w' : Portfolio.World (Market Unit)} {vault owner receiver : Address}
    {shares assets : ℕ} (h : mockSetting.redeem w vault owner shares receiver owner = .ok (w', assets)) :
    Redeemed mockSetting w vault owner shares receiver w' assets := by
  simp only [mockSetting, bind_eq_ok, revertIf_eq_ok, exists_const, pure_eq_ok, Prod.mk.injEq, not_or,
    not_not, ne_eq, not_true_eq_false, if_false, exists_eq_left'] at h
  obtain ⟨⟨hvault, -, -⟩, token, hburn, usdc, hpay, rfl, rfl⟩ := h
  obtain ⟨-, hle, rfl⟩ := Token.burn_eq_ok.mp hburn
  obtain ⟨-, -, hle', rfl⟩ := Token.transfer_eq_ok.mp hpay
  refine
    { burned := ?_
      ledgers := fun v hv => Function.update_of_ne hv _ _
      paid := ⟨0, ?_⟩
      allowances := fun _ _ _ => rfl }
  · simp only [Function.update_self]
    exact ⟨hle, rfl, rfl⟩
  · intro x hown
    have hxv : x ≠ vault := by
      rintro rfl
      exact hown hvault
    by_cases hx : x = receiver
    · subst hx
      simp only [Token.move, Token.moved_dst hxv.symm, if_true, ite_self, Nat.add_zero]
    · simp only [Token.move, Token.moved_of_ne hxv hx, if_neg hx, ite_self, Nat.add_zero]

theorem mockSetting_honest : Honest mockSetting where
  self_not_own := show ¬ isVault 1 by decide
  router_not_own := show ¬ isVault 4 by decide
  self_ne_router := show (1 : Address) ≠ 4 by decide
  deposit _ _ _ _ _ _ _ hcaller h := mockSetting_deposited hcaller h
  redeem _ _ _ _ _ _ _ _ h := mockSetting_redeemed h

/-- A registry with the two vaults, both eligible. -/
def mockRegistry : Portfolio.Registry where
  metadata _ := ⟨"", 2, 1⟩
  status _ := .active
  vaults := [3, 10]
  registered v := decide (isVault v)
  routerEligible v := decide (isVault v)
  routerEligibleCount := 2
  router := 4
  roles := Portfolio.soleAdmin 20

/-- The router as it is deployed. -/
def mockRouter : Portfolio.Router where
  routerCap := 0
  vaultCap _ := 0
  weightVaultList := []
  weightBps := []
  votedWeightsActive := false
  defaultWeightVaultList := []
  defaultWeightBps := []
  roles := Portfolio.soleAdmin 20

theorem issuable_1200 : (Token.empty : Token Address).totalSupply + 1200 < wordSize := by decide

/-- The agent `7` has 1200 units and lets the gateway take them and up to 50 shares; the account `9` has
70 units and 5 shares of the pinned vault.  The router splits deposits 60 to 40. -/
def mockWorld : World (Surroundings Unit) where
  usdc := ((Token.empty.issue 7 1200 issuable_1200).issue 9 70 (by decide)).setAllowance 7 1 1200
  shares := (Token.empty.issue 9 5 (by decide)).setAllowance 7 1 50
  ext :=
    { router :=
        { mockRouter with defaultWeightVaultList := [3, 10], defaultWeightBps := [6000, 4000] }
      registry := mockRegistry
      ledgers := fun _ => Token.empty
      rest := () }

theorem mockWorld_noAllowance {a : Address} (ha : a ≠ 7) (x : Address) :
    mockWorld.usdc.allowance a x = 0 := by
  unfold mockWorld
  rw [Token.setAllowance_allowance_of_ne _ _ (.inl ha)]
  rfl

theorem mockWorld_router : RouterState.Reachable mockSetting.router (mockSetting.portfolio mockWorld) := by
  have hdeploy : RouterState.deploy mockSetting.router 8 20 mockRegistry (mockSetting.market mockWorld) =
      .ok ⟨mockRouter, mockRegistry, mockSetting.market mockWorld⟩ := rfl
  have hset : RouterState.exec mockSetting.router
      ⟨mockRouter, mockRegistry, mockSetting.market mockWorld⟩ 20
      (.setDefaultWeights [3, 10] [6000, 4000]) =
      .ok (mockSetting.portfolio mockWorld, [.defaultWeightsSet [3, 10] [6000, 4000]]) := rfl
  exact .call (.deploy (fun x => mockWorld_noAllowance (by decide) x) hdeploy) (by decide) hset

/-- The gateway in this setting, with the admin `20` and the pauser `21`. -/
def mockGateway : State (Surroundings Unit) := fresh deployed.roles mockWorld

theorem deploy_mockGateway : deploy mockSetting.env 2 20 21 mockWorld = .ok mockGateway := rfl

theorem mockGateway_reachable : Reachable mockSetting mockGateway :=
  .deploy (fun x => mockWorld_noAllowance (by decide) x) mockWorld_router deploy_mockGateway

/-- Up to 100 units a payment and a window, for shares to the agent `7` itself; up to 50 shares, for USDC
to the depositor `5`. -/
def mockPolicy : AgentPolicy := ⟨true, 1000000, 100, 100, 7, [], 5, 50, 50, []⟩

/-- The depositor `5` authorizes the agent `7` under a policy. -/
def mockAuthorization (p : AgentPolicy) : Tx (GatewayCall (Surroundings Unit)) :=
  .of 5 (.of 10 1000) (.authorizeAgent 7 p)

/-- The agent deposits 100 units through the router. -/
def routedDeposit : Tx (GatewayCall (Surroundings Unit)) :=
  .of 7 (.of 11 1012) (.depositTo (.word 1) 100 1100 (.word 2) 4 [])

/-- The agent redeems 20 shares. -/
def mockWithdrawal : Tx (GatewayCall (Surroundings Unit)) :=
  .of 7 (.of 12 1024) (.withdraw (.word 3) 20 3 1200 (.word 4))

theorem outsider_depositor : mockSetting.Outsider 5 :=
  ⟨by decide, by decide, show ¬ isVault 5 by decide⟩

theorem outsider_agent : mockSetting.Outsider 7 :=
  ⟨by decide, by decide, show ¬ isVault 7 by decide⟩

theorem authorized_reachable (p : AgentPolicy) :
    Reachable mockSetting (run (exec mockSetting.env) mockGateway [mockAuthorization p]) := by
  refine mockGateway_reachable.run fun tx htx => ?_
  obtain rfl := List.mem_singleton.mp htx
  exact ⟨outsider_depositor, fun _ h => by cases h⟩

theorem authorized_world (p : AgentPolicy) :
    (run (exec mockSetting.env) mockGateway [mockAuthorization p]).world = mockWorld := by
  rcases hx : exec mockSetting.env mockGateway (mockAuthorization p) with e | ⟨s', r⟩
  · rw [run, next_of_error hx]
    rfl
  · rw [run, next_of_ok hx]
    exact (exec_effect hx).world_eq rfl fun _ h => by cases h

end RobotMoney.Gateway
