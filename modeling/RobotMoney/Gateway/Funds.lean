import RobotMoney.Gateway.Policies
import RobotMoney.Gateway.Surroundings

/-!
# Where the funds of a payment go

In a setting of honest vaults and the repository's router, every successful payment of a reachable
gateway moves what it says and nothing else.

A deposit has three parts: the agent's USDC is pulled, and the amount then *passes* through the gateway
into the vault, or through the router into the vaults of its legs (`Passed`).  Along each part the
accounts that are no party to it keep their USDC, their allowances and their shares (`Spread`).  That the
gateway gives no allowance between calls is the invariant that carries over from call to call (`Quiet`).
-/

namespace RobotMoney.Gateway

open RobotMoney.Lib State
open RobotMoney.Portfolio (RouterState)

variable {W : Type} {S : Setting W} {receiver agent : Address} {amount : ℕ}

/-! ### What the contracts around the gateway leave alone -/

/-- From `w` to `w'` the contract `payer` spends its USDC on shares of `receiver`: nobody else, the
vaults apart, has other balances or allowances after it, and the shares are minted to the receiver. -/
structure Spread (S : Setting W) (payer receiver : Address) (w w' : Portfolio.World (Market W)) :
    Prop where
  balances : ∀ x, x ≠ payer → ¬ S.own x → w'.usdc.balanceOf x = w.usdc.balanceOf x
  allowances : ∀ o s, o ≠ payer → ¬ S.own o → w'.usdc.allowance o s = w.usdc.allowance o s
  ledgers : ∀ v, ∃ n, Token.Minted (w.ext.ledgers v) receiver n (w'.ext.ledgers v)

namespace Spread

variable {payer : Address} {w w₁ w' : Portfolio.World (Market W)}

theorem refl (w : Portfolio.World (Market W)) : Spread S payer receiver w w where
  balances _ _ _ := rfl
  allowances _ _ _ _ := rfl
  ledgers _ := ⟨0, .refl _ _⟩

theorem trans (h₁ : Spread S payer receiver w w₁) (h₂ : Spread S payer receiver w₁ w') :
    Spread S payer receiver w w' where
  balances x hx ho := (h₂.balances x hx ho).trans (h₁.balances x hx ho)
  allowances o s ho hown := (h₂.allowances o s ho hown).trans (h₁.allowances o s ho hown)
  ledgers v := by
    obtain ⟨n₁, hn₁⟩ := h₁.ledgers v
    obtain ⟨n₂, hn₂⟩ := h₂.ledgers v
    exact ⟨n₁ + n₂, hn₁.trans hn₂⟩

theorem of_approve (w : Portfolio.World (Market W)) (spender : Address) (v : ℕ) :
    Spread S payer receiver w { w with usdc := w.usdc.setAllowance payer spender v } where
  balances _ _ _ := rfl
  allowances _ _ ho _ := Token.setAllowance_allowance_of_ne _ _ (.inl ho)
  ledgers _ := ⟨0, .refl _ _⟩

theorem of_deposited {vault : Address} {assets shares : ℕ}
    (h : Deposited S w vault payer assets receiver w' shares) : Spread S payer receiver w w' where
  balances := h.balances
  allowances o s ho hown := h.allowances o s hown (.inl ho)
  ledgers v := by
    by_cases hv : v = vault
    · rw [hv]
      exact ⟨shares, h.minted⟩
    · rw [h.ledgers v hv]
      exact ⟨0, .refl _ _⟩

end Spread

/-- The legs of the router. -/
theorem executeLegs_spread (h : Honest S) {p p' : RouterState (Market W)} {ls : List RouterState.Leg}
    {mins : List ℕ} {events : List Portfolio.RouterEvent}
    (hx : RouterState.executeLegs S.router receiver p ls mins = .ok (p', events)) :
    Spread S S.router.self receiver p.world p'.world := by
  refine RouterState.executeLegs_rel Spread.refl Spread.trans Spread.of_approve ?_ hx
  intro l _ w w' shares hd
  exact .of_deposited (h.deposit _ _ _ _ _ _ _ h.router_not_own hd)

/-! ### The amount passes through the gateway -/

/-- The gateway's `amount` has become shares of `receiver`, and no allowance of the gateway is left. -/
structure Passed (S : Setting W) (receiver : Address) (amount : ℕ) (w w' : World (Surroundings W)) :
    Prop where
  balance : w'.usdc.balanceOf S.self + amount = w.usdc.balanceOf S.self
  allowance : ∀ s, w'.usdc.allowance S.self s = 0
  spread : Spread S S.self receiver (S.market w) (S.market w')
  router : w'.ext.router = w.ext.router

/-- What is given for the time of a call is taken back: if all but one allowance is as it was, and there
was none, then none is left when that one is cleared. -/
theorem cleared_allowance {t t' : Token Address} {spender : Address}
    (hquiet : ∀ s, t.allowance S.self s = 0)
    (hsame : ∀ s, s ≠ spender → t'.allowance S.self s = t.allowance S.self s) (s : Address) :
    (t'.setAllowance S.self spender 0).allowance S.self s = 0 := by
  by_cases hs : s = spender
  · rw [hs, Token.setAllowance_allowance_self]
  · rw [Token.setAllowance_allowance_of_ne _ _ (.inr hs), hsame s hs, hquiet s]

theorem vaultDeposit_eq_ok {w w' : World (Surroundings W)} {minted : ℕ} :
    S.env.vaultDeposit w amount receiver = .ok (w', minted) ↔
      ∃ m, S.router.deposit (S.market w) S.vaultContract S.self amount receiver = .ok (m, minted) ∧
        w' = S.withMarket w m := by
  simp only [Setting.env, bind_eq_ok, pure_eq_ok, Prod.exists, Prod.mk.injEq]
  constructor
  · rintro ⟨m, n, hd, rfl, rfl⟩
    exact ⟨m, hd, rfl⟩
  · rintro ⟨m, hd, rfl⟩
    exact ⟨m, minted, hd, rfl, rfl⟩

theorem vaultLeg_passed (h : Honest S) {w w' : World (Surroundings W)} {minted : ℕ}
    (hquiet : ∀ s, w.usdc.allowance S.self s = 0)
    (hleg : vaultLeg S.env w amount receiver = .ok (w', minted)) : Passed S receiver amount w w' := by
  unfold vaultLeg at hleg
  simp only [bind_eq_ok, inner_eq_ok, pure_eq_ok, Prod.exists, Prod.mk.injEq, forceApprove_eq_ok,
    vaultDeposit_eq_ok] at hleg
  obtain ⟨w₁, ⟨-, -, rfl⟩, w₂, n, ⟨m, hd, rfl⟩, w₃, ⟨-, -, rfl⟩, rfl, -⟩ := hleg
  have hdep := h.deposit _ _ _ _ _ _ _ h.self_not_own hd
  refine ⟨hdep.paid, ?_, ?_, rfl⟩
  · refine cleared_allowance hquiet fun s hs => ?_
    refine (hdep.allowances S.self s h.self_not_own (.inr hs)).trans ?_
    exact Token.setAllowance_allowance_of_ne _ _ (.inr hs)
  · rw [S.market_withMarket_usdc]
    have hbefore : Spread S S.self receiver (S.market w) m :=
      (Spread.of_approve (S.market w) S.vaultContract amount).trans (.of_deposited hdep)
    exact hbefore.trans (.of_approve m S.vaultContract 0)

theorem routerDepositFor_eq_ok {w w' : World (Surroundings W)} {mins minted : List ℕ} :
    S.env.routerDepositFor w receiver amount mins = .ok (w', minted) ↔
      ∃ p events, (S.portfolio w).depositFor S.router S.self receiver amount mins = .ok (p, events) ∧
        w' = S.withPortfolio w p ∧ minted = events.filterMap Setting.legShares := by
  simp only [Setting.env, bind_eq_ok, inner_eq_ok, pure_eq_ok, Prod.exists, Prod.mk.injEq]
  constructor
  · rintro ⟨p, events, hd, rfl, rfl⟩
    exact ⟨p, events, hd, rfl, rfl⟩
  · rintro ⟨p, events, hd, rfl, rfl⟩
    exact ⟨p, events, hd, rfl, rfl⟩

/-- The router's own entries are as they were: it held nothing and allowed nothing, before and after. -/
theorem depositFor_passed (h : Honest S) {p p' : RouterState (Market W)} {mins : List ℕ}
    {events : List Portfolio.RouterEvent} (hinv : RouterState.Inv S.router p)
    (hd : p.depositFor S.router S.self receiver amount mins = .ok (p', events)) :
    p'.world.usdc.balanceOf S.self + amount = p.world.usdc.balanceOf S.self ∧
      (∀ s, s ≠ S.router.self → p'.world.usdc.allowance S.self s = p.world.usdc.allowance S.self s) ∧
      Spread S S.self receiver p.world p'.world ∧ p'.router = p.router := by
  have hself := h.self_ne_router
  obtain ⟨hcons, hrouter⟩ := RouterState.deposit_conserves h.spendsAllowanceOnly hinv hself
    (c := .depositFor receiver amount mins) rfl hd
  have hbefore := hcons.balance_before hinv.effective_length hself
  obtain ⟨_, -, hdepositTo⟩ := bind_eq_ok.mp hd
  obtain ⟨usdc, amounts, htake, hex⟩ := RouterState.depositTo_legs hdepositTo
  have hspread := executeLegs_spread h hex
  obtain ⟨hle, hbal, -⟩ := Token.transferFrom_balances htake
  refine ⟨?_, ?_, ⟨?_, ?_, hspread.ledgers⟩, hrouter⟩
  · rw [hspread.balances S.self hself h.self_not_own]
    simp only [hbal, Token.moved_src hself]
    omega
  · intro s hs
    rw [hspread.allowances S.self s hself h.self_not_own]
    exact Token.transferFrom_allowance_frame htake (.inr hs)
  · intro x hx hown
    by_cases hr : x = S.router.self
    · rw [hr, hcons.balance, hbefore]
    · rw [hspread.balances x hr hown]
      simp only [hbal, Token.moved_of_ne hx hr]
  · intro o s ho hown
    by_cases hr : o = S.router.self
    · rw [hr, hcons.allowance s, hinv.allowance s]
    · rw [hspread.allowances o s hr hown]
      exact Token.transferFrom_allowance_of_ne htake ho s

theorem routerLeg_passed (h : Honest S) {w w₁ w₂ w' : World (Surroundings W)} {mins minted : List ℕ}
    (hquiet : ∀ s, w.usdc.allowance S.self s = 0)
    (hreach : RouterState.Reachable S.router (S.portfolio w))
    (happrove : forceApprove S.env w S.router.self amount = .ok w₁)
    (hdeposit : S.env.routerDepositFor w₁ receiver amount mins = .ok (w₂, minted))
    (hclear : forceApprove S.env w₂ S.router.self 0 = .ok w') : Passed S receiver amount w w' := by
  obtain ⟨-, -, rfl⟩ := forceApprove_eq_ok.mp happrove
  obtain ⟨p, events, hd, rfl, -⟩ := routerDepositFor_eq_ok.mp hdeposit
  obtain ⟨-, -, rfl⟩ := forceApprove_eq_ok.mp hclear
  have happroved : ∀ s, (w.usdc.setAllowance S.self S.router.self amount).allowance S.router.self s =
      w.usdc.allowance S.router.self s := by
    intro s
    exact Token.setAllowance_allowance_of_ne _ _ (.inl h.self_ne_router.symm)
  have hinv : RouterState.Inv S.router
      (S.portfolio { w with usdc := w.usdc.setAllowance S.self S.router.self amount }) :=
    (RouterState.Reachable.outside hreach w.ext.registry _ fun s => (happroved s).le).inv
      h.spendsAllowanceOnly
  obtain ⟨hbal, hallow, hspread, hrouter⟩ := depositFor_passed h hinv hd
  refine ⟨hbal, ?_, ?_, hrouter⟩
  · refine cleared_allowance hquiet fun s hs => (hallow s hs).trans ?_
    exact Token.setAllowance_allowance_of_ne _ _ (.inr hs)
  · unfold Setting.withPortfolio
    rw [S.market_withMarket_usdc]
    have hbefore : Spread S S.self receiver (S.market w) p.world :=
      (Spread.of_approve (S.market w) S.router.self amount).trans hspread
    exact hbefore.trans (.of_approve p.world S.router.self 0)

/-! ### A deposit -/

/-- Where the funds of a deposit of `amount` by `agent` under the policy `p` have gone. -/
structure DepositFlow (S : Setting W) (agent : Address) (p : AgentPolicy) (amount : ℕ)
    (w w' : World (Surroundings W)) : Prop where
  gateway : w'.usdc.balanceOf S.self = w.usdc.balanceOf S.self
  vaultAllowance : w'.usdc.allowance S.self S.vaultContract = 0
  routerAllowance : w'.usdc.allowance S.self S.router.self = 0
  debited : w'.usdc.balanceOf agent + amount = w.usdc.balanceOf agent
  balances : ∀ x, x ≠ agent → ¬ S.own x → w'.usdc.balanceOf x = w.usdc.balanceOf x
  allowances : ∀ o s, ¬ S.own o → o ≠ agent ∨ s ≠ S.self →
    w'.usdc.allowance o s = w.usdc.allowance o s
  shares : ∀ v, ∃ minted, Token.Minted (S.ledger w v) p.shareReceiver minted (S.ledger w' v)

theorem depositFlow_of_passed {p : AgentPolicy} {w w₁ w' : World (Surroundings W)}
    (hagent : S.Outsider agent) (hquiet : ∀ s, w.usdc.allowance S.self s = 0)
    (hpull : pullUsdc S.env w agent amount = .ok w₁) (hpass : Passed S p.shareReceiver amount w₁ w') :
    DepositFlow S agent p amount w w' := by
  obtain ⟨usdc, htake, rfl⟩ := pullUsdc_ok hpull
  obtain ⟨hle, hbal, -⟩ : amount ≤ w.usdc.balanceOf agent ∧
      usdc.balanceOf = Token.moved w.usdc.balanceOf agent S.self amount ∧ _ :=
    Token.transferFrom_balances htake
  have hne := hagent.ne_self
  have hgateway : w'.usdc.balanceOf S.self = w.usdc.balanceOf S.self := by
    have hpaid : w'.usdc.balanceOf S.self + amount = usdc.balanceOf S.self := hpass.balance
    rw [hbal, Token.moved_dst hne] at hpaid
    omega
  refine
    { gateway := hgateway
      vaultAllowance := hpass.allowance _
      routerAllowance := hpass.allowance _
      debited := ?_
      balances := ?_
      allowances := ?_
      shares := hpass.spread.ledgers }
  · have hsame : w'.usdc.balanceOf agent = usdc.balanceOf agent :=
      hpass.spread.balances agent hne hagent.not_own
    rw [hsame, hbal, Token.moved_src hne]
    omega
  · intro x hx hown
    by_cases hself : x = S.self
    · rw [hself, hgateway]
    · have hsame : w'.usdc.balanceOf x = usdc.balanceOf x := hpass.spread.balances x hself hown
      rw [hsame, hbal, Token.moved_of_ne hx hself]
  · intro o s hown hos
    by_cases hself : o = S.self
    · rw [hself, hpass.allowance s, hquiet s]
    · have hsame : w'.usdc.allowance o s = usdc.allowance o s :=
        hpass.spread.allowances o s hself hown
      rw [hsame, Token.transferFrom_allowance_frame htake hos]

/-! ### A withdrawal -/

/-- Where the funds of a withdrawal of `shares` by `agent` under the policy `p` have gone, when the
gateway answers `out`. -/
structure WithdrawFlow (S : Setting W) (agent : Address) (p : AgentPolicy) (shares : ℕ)
    (w w' : World (Surroundings W)) (out : List ℕ) : Prop where
  gateway : w'.usdc.balanceOf S.self = w.usdc.balanceOf S.self
  vaultAllowance : w'.usdc.allowance S.self S.vaultContract = 0
  routerAllowance : w'.usdc.allowance S.self S.router.self = 0
  /-- the recipient gets what the vault answers, and the vault's fee recipient the fee -/
  paid : ∃ assets fee, out = [assets] ∧ ∀ x, ¬ S.own x → w'.usdc.balanceOf x = w.usdc.balanceOf x +
    (if x = p.assetRecipient then assets else 0) +
    (if x = S.feeRecipient w.ext.rest S.vaultContract then fee else 0)
  allowances : ∀ o s, ¬ S.own o → w'.usdc.allowance o s = w.usdc.allowance o s
  debited : w'.shares.balanceOf agent + shares = w.shares.balanceOf agent
  shareBalances : ∀ x, x ≠ agent → w'.shares.balanceOf x = w.shares.balanceOf x
  burned : w'.shares.totalSupply + shares = w.shares.totalSupply
  shareAllowances : ∀ o s, o ≠ agent ∨ s ≠ S.self → w'.shares.allowance o s = w.shares.allowance o s
  ledgers : ∀ v, v ≠ S.vaultContract → S.ledger w' v = S.ledger w v

/-- What the success of a `withdraw` says of the two ledgers. -/
theorem withdraw_ok {V : Type} {env : Env V} {s s' : State V} {b : Block} {sender sourceVault : Address}
    {orderId key : Bytes32} {shares deadline : ℕ} {r : Receipt}
    (h : s.withdraw env b sender orderId shares sourceVault deadline key = .ok (s', r)) :
    ∃ token assetsOut,
      (s.world.shares.transferFrom env.self sender env.self shares : Call GatewayError _) = .ok token ∧
      env.vaultRedeem { s.world with shares := token } shares (s.agents sender).assetRecipient env.self =
        .ok (s'.world, assetsOut) ∧
      s'.world.usdc.balanceOf env.self = s.world.usdc.balanceOf env.self ∧
      s'.world.shares.balanceOf env.self = 0 ∧ r.out = [assetsOut] := by
  unfold State.withdraw at h
  simp only [bind_eq_ok, revertIf_eq_ok, exists_const, inner_eq_ok, accrueRollingWithdraw_eq_ok,
    Prod.exists, not_not, checkNoShares] at h
  obtain ⟨_, -, -, -, -, -, _, -, _, -, -, -, _, ⟨window, -, rfl⟩, -, token, hpull, world, assetsOut,
    hredeem, husdc, hshares, h⟩ := h
  obtain ⟨rfl, rfl⟩ := Prod.mk.injEq .. ▸ pure_eq_ok.mp h
  exact ⟨token, assetsOut, hpull, hredeem, husdc, hshares, rfl⟩

theorem vaultRedeem_eq_ok {w w' : World (Surroundings W)} {owner : Address} {shares assets : ℕ} :
    S.env.vaultRedeem w shares receiver owner = .ok (w', assets) ↔
      ∃ m, S.redeem (S.market w) S.vaultContract S.self shares receiver owner = .ok (m, assets) ∧
        w' = S.withMarket w m := by
  simp only [Setting.env, bind_eq_ok, pure_eq_ok, Prod.exists, Prod.mk.injEq]
  constructor
  · rintro ⟨m, n, hd, rfl, rfl⟩
    exact ⟨m, hd, rfl⟩
  · rintro ⟨m, hd, rfl⟩
    exact ⟨m, assets, hd, rfl, rfl⟩

theorem withdraw_flow (h : Honest S) {s s' : State (Surroundings W)} {b : Block} {sourceVault : Address}
    {orderId key : Bytes32} {shares deadline : ℕ} {r : Receipt} (hagent : S.Outsider agent)
    (hquiet : ∀ x, s.world.usdc.allowance S.self x = 0)
    (hx : s.withdraw S.env b agent orderId shares sourceVault deadline key = .ok (s', r)) :
    WithdrawFlow S agent (s.agents agent) shares s.world s'.world r.out ∧
      s'.world.ext.router = s.world.ext.router := by
  obtain ⟨token, assets, hpull, hredeem, husdc, -, hout⟩ := withdraw_ok hx
  obtain ⟨m, hm, hworld⟩ := vaultRedeem_eq_ok.mp hredeem
  have hred := h.redeem _ _ _ _ _ _ _ h.self_not_own hm
  have hne := hagent.ne_self
  have hledger : (S.market { s.world with shares := token }).ext.ledgers S.vaultContract = token :=
    S.ledger_vaultContract _
  have hburned : Token.Burned token S.self shares s'.world.shares := by
    rw [hworld, ← hledger]
    exact hred.burned
  obtain ⟨hle, hbal, hsupply⟩ := Token.transferFrom_burned hne hpull hburned
  have hallow : ∀ o s', ¬ S.own o → _ = s.world.usdc.allowance o s' := hred.allowances
  rw [hworld] at husdc hbal hsupply hburned ⊢
  refine ⟨?_, rfl⟩
  refine
    { gateway := husdc
      vaultAllowance := (hallow _ _ h.self_not_own).trans (hquiet _)
      routerAllowance := (hallow _ _ h.self_not_own).trans (hquiet _)
      paid := ?_
      allowances := hallow
      debited := ?_
      shareBalances := ?_
      burned := hsupply
      shareAllowances := ?_
      ledgers := ?_ }
  · obtain ⟨fee, hpaid⟩ := hred.paid
    exact ⟨assets, fee, hout, hpaid⟩
  · rw [hbal, Function.update_self]
    omega
  · intro x hx
    rw [hbal, Function.update_of_ne hx]
  · intro o x hox
    rw [hburned.allowance]
    exact Token.transferFrom_allowance_frame hpull hox
  · intro v hv
    have hsame : m.ext.ledgers v = S.ledger { s.world with shares := token } v := hred.ledgers v hv
    rw [S.ledger_of_ne _ hv] at hsame ⊢
    rw [S.ledger_of_ne _ hv]
    exact hsame

/-! ### Every payment -/

/-- Where the funds of a payment have gone. -/
def Flow (S : Setting W) (agent : Address) (p : AgentPolicy) (pay : Payment)
    (w w' : World (Surroundings W)) (out : List ℕ) : Prop :=
  match pay.side with
  | .deposit => DepositFlow S agent p pay.amount w w'
  | .withdraw => WithdrawFlow S agent p pay.amount w w' out

/-- What holds between two calls: the gateway allows nothing, and the router is in a state it can
reach. -/
structure Quiet (S : Setting W) (w : World (Surroundings W)) : Prop where
  allowance : ∀ x, w.usdc.allowance S.self x = 0
  router : RouterState.Reachable S.router (S.portfolio w)

/-- The pull of USDC keeps the quiet. -/
theorem Quiet.pull {w w' : World (Surroundings W)} (hq : Quiet S w) (hagent : S.Outsider agent)
    (h : pullUsdc S.env w agent amount = .ok w') : Quiet S w' := by
  obtain ⟨usdc, htake, rfl⟩ := pullUsdc_ok h
  refine ⟨?_, hq.router.outside w.ext.registry _ ?_⟩
  · intro s
    rw [Token.transferFrom_allowance_of_ne htake hagent.ne_self.symm, hq.allowance s]
  · intro s
    exact (Token.transferFrom_allowance_of_ne htake hagent.ne_router.symm s).le

theorem settles_flow (h : Honest S) {p : AgentPolicy} {orderId key : Bytes32}
    {w w' : World (Surroundings W)} (hagent : S.Outsider agent) (hq : Quiet S w)
    (hs : Settles S.env agent p w ⟨.deposit, orderId, amount, key⟩ w') :
    DepositFlow S agent p amount w w' ∧ w'.ext.router = w.ext.router := by
  have key : ∀ {w₁}, pullUsdc S.env w agent amount = .ok w₁ → Passed S p.shareReceiver amount w₁ w' →
      DepositFlow S agent p amount w w' ∧ w'.ext.router = w.ext.router := by
    intro w₁ hpull hpass
    obtain ⟨usdc, -, rfl⟩ := pullUsdc_ok hpull
    exact ⟨depositFlow_of_passed hagent hq.allowance hpull hpass, hpass.router⟩
  cases hs with
  | vault hpull hleg =>
    exact key hpull (vaultLeg_passed h (hq.pull hagent hpull).allowance hleg)
  | router hpull happrove hdeposit hclear =>
    have hq₁ := hq.pull hagent hpull
    exact key hpull (routerLeg_passed h hq₁.allowance hq₁.router happrove hdeposit hclear)

variable {s s' : State (Surroundings W)} {tx : Tx (GatewayCall (Surroundings W))} {r : Receipt}
  {pay : Payment}

theorem exec_flow (h : Honest S) (hsender : S.Outsider tx.sender) (hq : Quiet S s.world)
    (hpay : tx.call.payment = some pay) (hx : exec S.env s tx = .ok (s', r)) :
    Flow S tx.sender (s.agents tx.sender) pay s.world s'.world r.out ∧
      s'.world.ext.router = s.world.ext.router := by
  obtain ⟨b, sender, call, hne⟩ := tx
  cases call with
  | deposit orderId amount deadline key =>
    cases hpay
    exact settles_flow h hsender hq (deposit_paid hx).settles
  | depositTo orderId amount deadline key destination mins =>
    cases hpay
    exact settles_flow h hsender hq (depositTo_paid hx).settles
  | withdraw orderId shares sourceVault deadline key =>
    cases hpay
    exact withdraw_flow h hsender hq.allowance hx
  | _ => cases hpay

/-- Nobody's allowances but the agent's and the vaults' are other than before. -/
theorem Flow.allowances {p : AgentPolicy} {w w' : World (Surroundings W)} {out : List ℕ}
    (hf : Flow S agent p pay w w' out) {o : Address} (ho : o ≠ agent) (hown : ¬ S.own o) (x : Address) :
    w'.usdc.allowance o x = w.usdc.allowance o x := by
  obtain ⟨side, orderId, amount, key⟩ := pay
  cases side with
  | deposit => exact DepositFlow.allowances hf o x hown (.inl ho)
  | withdraw => exact WithdrawFlow.allowances hf o x hown

/-- A call of the gateway keeps the quiet. -/
theorem exec_quiet (h : Honest S) (hsender : S.Outsider tx.sender)
    (helse : ∀ world, tx.call ≠ .elsewhere world) (hq : Quiet S s.world)
    (hx : exec S.env s tx = .ok (s', r)) : Quiet S s'.world := by
  cases hpay : tx.call.payment with
  | none =>
    rw [(exec_effect hx).world_eq hpay helse]
    exact hq
  | some pay =>
    obtain ⟨hflow, hrouter⟩ := exec_flow h hsender hq hpay hx
    refine ⟨?_, ?_⟩
    · intro x
      rw [hflow.allowances hsender.ne_self.symm h.self_not_own, hq.allowance x]
    · have hreach := hq.router.outside s'.world.ext.registry (S.market s'.world)
        fun x => (hflow.allowances hsender.ne_router.symm h.router_not_own x).le
      unfold Setting.portfolio at hreach ⊢
      rw [hrouter]
      exact hreach

theorem Reachable.quiet (h : Honest S) (hs : Reachable S s) : Quiet S s.world := by
  induction hs with
  | deploy fresh hrouter hd =>
    obtain ⟨_, _, t, -, -, -, rfl⟩ := deploy_ok hd
    exact ⟨fresh, hrouter⟩
  | call _ hsender helse hx ih => exact exec_quiet h hsender helse ih hx
  | outside _ world hallow hrouter ih =>
    exact ⟨fun x => Nat.le_zero.mp (ih.allowance x ▸ hallow x), hrouter⟩

/-- **The flow of funds.**  Among honest vaults and with the repository's router, a successful payment
of a reachable gateway leaves the gateway's USDC as it was and no allowance with the vault or the router;
it takes from the agent exactly the amount, or exactly the shares, gives all shares minted to the
policy's receiver and the USDC redeemed, less the fee, to its recipient; and no other account, those of
the vaults and the fee recipient apart, has other USDC, shares or allowances after it. -/
theorem funds_flow (h : Honest S) (hs : Reachable S s) (hsender : S.Outsider tx.sender)
    (hpay : tx.call.payment = some pay) (hx : exec S.env s tx = .ok (s', r)) :
    Flow S tx.sender (s.agents tx.sender) pay s.world s'.world r.out :=
  (exec_flow h hsender (hs.quiet h) hpay hx).1

/-- The agent deposits through both legs of the router, and redeems a part of its shares. -/
theorem funds_flow_sample :
    let s := run (exec mockSetting.env) mockGateway [mockAuthorization mockPolicy]
    ∃ s₁ r₁ s₂ r₂, exec mockSetting.env s routedDeposit = .ok (s₁, r₁) ∧
      exec mockSetting.env s₁ mockWithdrawal = .ok (s₂, r₂) ∧
      Flow mockSetting 7 mockPolicy ⟨.deposit, .word 1, 100, .word 2⟩ s.world s₁.world r₁.out ∧
      Flow mockSetting 7 mockPolicy ⟨.withdraw, .word 3, 20, .word 4⟩ s₁.world s₂.world r₂.out := by
  intro s
  have hs : Reachable mockSetting s := authorized_reachable mockPolicy
  rcases hd : exec mockSetting.env s routedDeposit with e | ⟨s₁, r₁⟩
  · have hok : succeeds (exec mockSetting.env s routedDeposit) = true := by decide
    rw [hd] at hok
    cases hok
  · have hs₁ : Reachable mockSetting s₁ := .call hs outsider_agent (fun _ h => by cases h) hd
    have hnext : next (exec mockSetting.env) s routedDeposit = s₁ := next_of_ok hd
    obtain ⟨⟨s₂, r₂⟩, hw⟩ := succeeds_iff.mp
      (show succeeds (exec mockSetting.env s₁ mockWithdrawal) = true by rw [← hnext]; decide)
    have hflow := funds_flow mockSetting_honest hs outsider_agent rfl hd
    have hflow₁ := funds_flow mockSetting_honest hs₁ outsider_agent rfl hw
    have hpolicy : s₁.agents 7 = mockPolicy := by
      rw [← hnext]
      decide
    refine ⟨s₁, r₁, s₂, r₂, rfl, hw, hflow, ?_⟩
    change Flow mockSetting 7 (s₁.agents 7) _ _ _ _ at hflow₁
    rw [hpolicy] at hflow₁
    exact hflow₁

end RobotMoney.Gateway
