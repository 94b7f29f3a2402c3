import RobotMoney.Gateway.Custody
import RobotMoney.Lib.Collect

/-!
# What others send to the gateway

Anybody can send USDC or vault shares to the gateway.  Two runs of one call are compared here, without
and with such gifts before it.  The gateway compares its USDC with what it had before the call, so a gift
of USDC goes unnoticed.  Of the pinned vault's shares it wants to hold none at all, so a single share
sent to it stops `deposit`, `depositTo` the vault and `withdraw`, for every agent; a `depositTo` through
the router does not look at the shares and goes on.

The vaults are taken to be *indifferent* to the gifts: what a stranger sends to the gateway is no concern
of theirs, and their deposits and redemptions do the same with and without it.
-/

namespace RobotMoney.Gateway

open RobotMoney.Lib State
open RobotMoney.Portfolio (RouterState)

/-- A transfer to the gateway: of USDC, or of shares of a vault. -/
inductive Gift where
  | usdc (donor : Address) (amount : ℕ)
  | shares (vault donor : Address) (amount : ℕ)

namespace Gift

/-- Who sends it. -/
def donor : Gift → Address
  | .usdc donor _ => donor
  | .shares _ donor _ => donor

/-- The transfers of USDC among gifts, in order. -/
def ofUsdc (gs : List Gift) : List (Address × ℕ) :=
  gs.filterMap fun
    | .usdc donor amount => some (donor, amount)
    | .shares _ _ _ => none

/-- The transfers of a vault's shares among gifts, in order. -/
def ofShares (vault : Address) (gs : List Gift) : List (Address × ℕ) :=
  gs.filterMap fun
    | .usdc _ _ => none
    | .shares v donor amount => if v = vault then some (donor, amount) else none

theorem ofUsdc_donor_ne {gs : List Gift} {a : Address} (h : ∀ g ∈ gs, g.donor ≠ a) :
    ∀ x ∈ ofUsdc gs, x.1 ≠ a := by
  intro x hx
  obtain ⟨g, hg, hgx⟩ := List.mem_filterMap.mp hx
  cases g with
  | usdc donor amount =>
    cases hgx
    exact h _ hg
  | shares v donor amount => cases hgx

theorem ofShares_donor_ne {gs : List Gift} {vault a : Address} (h : ∀ g ∈ gs, g.donor ≠ a) :
    ∀ x ∈ ofShares vault gs, x.1 ≠ a := by
  intro x hx
  obtain ⟨g, hg, hgx⟩ := List.mem_filterMap.mp hx
  cases g with
  | usdc donor amount => cases hgx
  | shares v donor amount =>
    dsimp only at hgx
    split at hgx
    · cases hgx
      exact h _ hg
    · cases hgx

end Gift

variable {W : Type}

/-- The world `m₁` is the world `m` after the gifts: each ledger has the transfers that are its own, and
nothing else has changed. -/
structure Gifted (S : Setting W) (gs : List Gift) (m m₁ : Portfolio.World (Market W)) : Prop where
  usdc : (m.usdc.collect S.self (Gift.ofUsdc gs) : Call Unit _) = .ok m₁.usdc
  ledgers : ∀ v, ((m.ext.ledgers v).collect S.self (Gift.ofShares v gs) : Call Unit _) =
    .ok (m₁.ext.ledgers v)
  rest : m₁.ext.rest = m.ext.rest

/-- The same of the world of the gateway. -/
structure GiftedTo (S : Setting W) (gs : List Gift) (w w₁ : World (Surroundings W)) : Prop where
  market : Gifted S gs (S.market w) (S.market w₁)
  router : w₁.ext.router = w.ext.router
  registry : w₁.ext.registry = w.ext.registry

/-- The gifts come from strangers: none of the contracts, and not the agent who calls. -/
def Strange (S : Setting W) (agent : Address) (gs : List Gift) : Prop :=
  ∀ g ∈ gs, S.Outsider g.donor ∧ g.donor ≠ agent

/-- **The vaults are indifferent to gifts.**  Their views, deposits and redemptions do the same after
strangers sent something to the gateway. -/
structure Indifferent (S : Setting W) : Prop where
  self_ne_router : S.self ≠ S.router.self
  hasCode : ∀ {gs m m₁}, Gifted S gs m m₁ → ∀ v, S.router.hasCode m₁.ext v = S.router.hasCode m.ext v
  asset : ∀ {gs m m₁}, Gifted S gs m m₁ → ∀ v, S.router.asset m₁.ext v = S.router.asset m.ext v
  deposit : ∀ {gs m m₁ vault caller assets receiver m' shares}, (∀ g ∈ gs, S.Outsider g.donor) →
    caller = S.self ∨ caller = S.router.self → Gifted S gs m m₁ →
    S.router.deposit m vault caller assets receiver = .ok (m', shares) →
    ∃ m₁', S.router.deposit m₁ vault caller assets receiver = .ok (m₁', shares) ∧ Gifted S gs m' m₁'
  redeem : ∀ {gs m m₁ vault shares receiver m' assets}, (∀ g ∈ gs, S.Outsider g.donor) →
    Gifted S gs m m₁ → S.redeem m vault S.self shares receiver S.self = .ok (m', assets) →
    ∃ m₁', S.redeem m₁ vault S.self shares receiver S.self = .ok (m₁', assets) ∧ Gifted S gs m' m₁'

variable {S : Setting W} {gs : List Gift} {agent receiver : Address} {amount : ℕ}

/-! ### The router is indifferent to gifts -/

/-- The router's state after the gifts. -/
structure GiftedRouter (S : Setting W) (gs : List Gift) (p p₁ : RouterState (Market W)) : Prop where
  router : p₁.router = p.router
  registry : p₁.registry = p.registry
  world : Gifted S gs p.world p₁.world

theorem requireRouterEligible_gifted (h : Indifferent S) {p p₁ : RouterState (Market W)}
    (hg : GiftedRouter S gs p p₁) (vault : Address) :
    p₁.requireRouterEligible S.router vault = p.requireRouterEligible S.router vault := by
  unfold RouterState.requireRouterEligible
  rw [h.hasCode hg.world, h.asset hg.world, hg.registry]

theorem Gifted.approve {m m₁ : Portfolio.World (Market W)} (hg : Gifted S gs m m₁) (owner spender : Address)
    (v : ℕ) : Gifted S gs { m with usdc := m.usdc.setAllowance owner spender v }
      { m₁ with usdc := m₁.usdc.setAllowance owner spender v } :=
  ⟨Token.collect_setAllowance hg.usdc, hg.ledgers, hg.rest⟩

theorem executeLeg_gifted (h : Indifferent S) (hgs : ∀ g ∈ gs, S.Outsider g.donor)
    {p p' p₁ : RouterState (Market W)} {mins : List ℕ} {l : RouterState.Leg}
    {event : Portfolio.RouterEvent} (hg : GiftedRouter S gs p p₁)
    (hx : p.executeLeg S.router receiver mins l = .ok (p', event)) :
    ∃ p₁', p₁.executeLeg S.router receiver mins l = .ok (p₁', event) ∧ GiftedRouter S gs p' p₁' := by
  unfold RouterState.executeLeg at hx ⊢
  rw [hg.registry, hg.router, requireRouterEligible_gifted h hg]
  simp only [bind_eq_ok, inner_eq_ok, pure_eq_ok, Prod.exists, Prod.mk.injEq, Token.approve_eq_ok] at hx ⊢
  obtain ⟨_, status, hvault, _, hactive, _, hcap, _, heligible, t, ⟨hself, hspender, rfl⟩, m', shares, hdep,
    _, hmin, rfl, rfl⟩ := hx
  obtain ⟨m₁', hdep₁, hg'⟩ := h.deposit hgs (.inr rfl) (hg.world.approve _ _ _) hdep
  exact ⟨_, ⟨_, status, hvault, _, hactive, _, hcap, _, heligible, _, ⟨hself, hspender, rfl⟩, m₁', shares,
    hdep₁, _, hmin, rfl, rfl⟩, rfl, rfl, hg'⟩

theorem executeLegs_gifted (h : Indifferent S) (hgs : ∀ g ∈ gs, S.Outsider g.donor) :
    ∀ {ls : List RouterState.Leg} {p p' p₁ : RouterState (Market W)} {mins : List ℕ}
      {events : List Portfolio.RouterEvent}, GiftedRouter S gs p p₁ →
      RouterState.executeLegs S.router receiver p ls mins = .ok (p', events) →
      ∃ p₁', RouterState.executeLegs S.router receiver p₁ ls mins = .ok (p₁', events) ∧
        GiftedRouter S gs p' p₁'
  | [], p, p', p₁, mins, events, hg, hx => by
    cases hx
    exact ⟨p₁, rfl, hg⟩
  | l :: ls, p, p', p₁, mins, events, hg, hx => by
    unfold RouterState.executeLegs at hx ⊢
    simp only [bind_eq_ok, pure_eq_ok, Prod.exists, Prod.mk.injEq] at hx ⊢
    obtain ⟨q, event, hleg, q', rest, hlegs, rfl, rfl⟩ := hx
    obtain ⟨q₁, hleg₁, hq⟩ := executeLeg_gifted h hgs hg hleg
    obtain ⟨q₁', hlegs₁, hq'⟩ := executeLegs_gifted h hgs hq hlegs
    exact ⟨q₁', ⟨q₁, event, hleg₁, q₁', rest, hlegs₁, rfl, rfl⟩, hq'⟩

/-- An account that is sent nothing and sends nothing keeps its USDC. -/
theorem Gifted.usdc_of_ne {m m₁ : Portfolio.World (Market W)} (hg : Gifted S gs m m₁) {x : Address}
    (hx : x ≠ S.self) (hgs : ∀ g ∈ gs, g.donor ≠ x) : m₁.usdc.balanceOf x = m.usdc.balanceOf x := by
  have hbal := Token.collect_balanceOf hg.usdc x
  rw [Token.sentBy_eq_zero (Gift.ofUsdc_donor_ne hgs), if_neg hx] at hbal
  exact hbal

theorem depositFor_gifted (h : Indifferent S) (hgs : ∀ g ∈ gs, S.Outsider g.donor)
    {p p' p₁ : RouterState (Market W)} {mins : List ℕ} {events : List Portfolio.RouterEvent}
    (hg : GiftedRouter S gs p p₁)
    (hx : p.depositFor S.router S.self receiver amount mins = .ok (p', events)) :
    ∃ p₁', p₁.depositFor S.router S.self receiver amount mins = .ok (p₁', events) ∧
      GiftedRouter S gs p' p₁' := by
  unfold RouterState.depositFor RouterState.depositTo at hx ⊢
  simp only [hg.router, bind_eq_ok, revertIf_eq_ok, exists_const, pure_eq_ok, Prod.exists, Prod.mk.injEq,
    not_not] at hx ⊢
  obtain ⟨hreceiver, hweights, hcap, usdc, htake, hmins, floors, allocated, hfloors, amounts, hamounts, q,
    ev, hlegs, hcustody, rfl, rfl⟩ := hx
  obtain ⟨usdc₁, htake₁, hcollect⟩ := Token.collect_transferFrom
    (Gift.ofUsdc_donor_ne fun g hmem => (hgs g hmem).ne_self) hg.world.usdc htake
  have hstart : GiftedRouter S gs { p with world := { p.world with usdc } }
      { p₁ with world := { p₁.world with usdc := usdc₁ } } :=
    ⟨hg.router, hg.registry, hcollect, hg.world.ledgers, hg.world.rest⟩
  obtain ⟨q₁, hlegs₁, hq⟩ := executeLegs_gifted h hgs hstart hlegs
  have hcustody₁ : q₁.world.usdc.balanceOf S.router.self = 0 := by
    rw [hq.world.usdc_of_ne h.self_ne_router.symm fun g hmem => (hgs g hmem).ne_router]
    exact hcustody
  exact ⟨q₁, ⟨hreceiver, hweights, hcap, usdc₁, htake₁, hmins, floors, allocated, hfloors, amounts,
    hamounts, q₁, ev, by simpa only [hg.router] using hlegs₁, hcustody₁, rfl, rfl⟩, hq⟩

/-! ### The parts of a payment -/

section Parts

variable {w w' w₁ : World (Surroundings W)}

/-- What the gateway holds after the gifts. -/
theorem GiftedTo.usdc_self (hg : GiftedTo S gs w w₁) (hgs : ∀ g ∈ gs, S.Outsider g.donor) :
    w₁.usdc.balanceOf S.self = w.usdc.balanceOf S.self + Token.collected (Gift.ofUsdc gs) :=
  Token.collect_receiver hg.market.usdc (Gift.ofUsdc_donor_ne fun g hmem => (hgs g hmem).ne_self)

/-- The gifts of shares of the pinned vault are the gateway's. -/
theorem GiftedTo.shares (hg : GiftedTo S gs w w₁) :
    (w.shares.collect S.self (Gift.ofShares S.vaultContract gs) : Call Unit _) = .ok w₁.shares := by
  have hledger := hg.market.ledgers S.vaultContract
  rw [← S.ledger_vaultContract w, ← S.ledger_vaultContract w₁]
  exact hledger

theorem GiftedTo.shares_self (hg : GiftedTo S gs w w₁) (hgs : ∀ g ∈ gs, S.Outsider g.donor) :
    w₁.shares.balanceOf S.self =
      w.shares.balanceOf S.self + Token.collected (Gift.ofShares S.vaultContract gs) :=
  Token.collect_receiver hg.shares (Gift.ofShares_donor_ne fun g hmem => (hgs g hmem).ne_self)

/-- A changed USDC ledger, with the same gifts. -/
theorem GiftedTo.withUsdc (hg : GiftedTo S gs w w₁) {t t₁ : Token Address}
    (h : (t.collect S.self (Gift.ofUsdc gs) : Call Unit _) = .ok t₁) :
    GiftedTo S gs { w with usdc := t } { w₁ with usdc := t₁ } :=
  ⟨⟨h, hg.market.ledgers, hg.market.rest⟩, hg.router, hg.registry⟩

theorem pullUsdc_gifted (hgs : Strange S agent gs) (hg : GiftedTo S gs w w₁)
    (h : pullUsdc S.env w agent amount = .ok w') :
    ∃ w₁', pullUsdc S.env w₁ agent amount = .ok w₁' ∧ GiftedTo S gs w' w₁' := by
  unfold pullUsdc at h ⊢
  simp only [bind_eq_ok, revertIf_eq_ok, exists_const, pure_eq_ok, subU_eq_ok, not_not] at h ⊢
  obtain ⟨usdc, htake, delta, ⟨hle, rfl⟩, hdelta, rfl⟩ := h
  obtain ⟨usdc₁, htake₁, hcollect⟩ := Token.collect_transferFrom
    (Gift.ofUsdc_donor_ne fun g hmem => (hgs g hmem).2) hg.market.usdc htake
  have hg' := hg.withUsdc hcollect
  have hbefore := hg.usdc_self fun g hmem => (hgs g hmem).1
  have hafter : usdc₁.balanceOf S.self = usdc.balanceOf S.self + Token.collected (Gift.ofUsdc gs) :=
    hg'.usdc_self fun g hmem => (hgs g hmem).1
  change w.usdc.balanceOf S.self ≤ usdc.balanceOf S.self at hle
  change usdc.balanceOf S.self - w.usdc.balanceOf S.self = amount at hdelta
  refine ⟨_, ⟨usdc₁, htake₁, _, ⟨?_, rfl⟩, ?_, rfl⟩, hg'⟩
  · change w₁.usdc.balanceOf S.self ≤ usdc₁.balanceOf S.self
    omega
  · change usdc₁.balanceOf S.self - w₁.usdc.balanceOf S.self = amount
    omega

theorem forceApprove_gifted {spender : Address} {v : ℕ} (hg : GiftedTo S gs w w₁)
    (h : forceApprove S.env w spender v = .ok w') :
    ∃ w₁', forceApprove S.env w₁ spender v = .ok w₁' ∧ GiftedTo S gs w' w₁' := by
  obtain ⟨hself, hspender, rfl⟩ := forceApprove_eq_ok.mp h
  exact ⟨_, forceApprove_eq_ok.mpr ⟨hself, hspender, rfl⟩,
    hg.withUsdc (Token.collect_setAllowance hg.market.usdc)⟩

/-- A call of the vault. -/
theorem GiftedTo.withMarket (hg : GiftedTo S gs w w₁) {m m₁ : Portfolio.World (Market W)}
    (h : Gifted S gs m m₁) : GiftedTo S gs (S.withMarket w m) (S.withMarket w₁ m₁) := by
  refine ⟨?_, hg.router, hg.registry⟩
  rw [S.market_withMarket, S.market_withMarket]
  exact h

theorem vaultLeg_gifted (h : Indifferent S) (hgs : ∀ g ∈ gs, S.Outsider g.donor) {minted : ℕ}
    (hg : GiftedTo S gs w w₁) (hleg : vaultLeg S.env w amount receiver = .ok (w', minted)) :
    ∃ w₁', vaultLeg S.env w₁ amount receiver = .ok (w₁', minted) ∧ GiftedTo S gs w' w₁' := by
  unfold vaultLeg at hleg ⊢
  simp only [bind_eq_ok, inner_eq_ok, pure_eq_ok, Prod.exists, Prod.mk.injEq] at hleg ⊢
  obtain ⟨w₂, happrove, w₃, n, hdeposit, w₄, hclear, rfl, rfl⟩ := hleg
  obtain ⟨w₂', happrove₁, hg₂⟩ := forceApprove_gifted hg happrove
  obtain ⟨m, hm, rfl⟩ := vaultDeposit_eq_ok.mp hdeposit
  obtain ⟨m₁, hm₁, hgm⟩ := h.deposit hgs (.inl rfl) hg₂.market hm
  obtain ⟨w₄', hclear₁, hg₄⟩ := forceApprove_gifted (hg₂.withMarket hgm) hclear
  exact ⟨w₄', ⟨w₂', happrove₁, _, n, vaultDeposit_eq_ok.mpr ⟨m₁, hm₁, rfl⟩, w₄', hclear₁, rfl, rfl⟩, hg₄⟩

/-- A changed ledger of the pinned vault's shares, with the same gifts. -/
theorem GiftedTo.withShares (hg : GiftedTo S gs w w₁) {t t₁ : Token Address}
    (h : (t.collect S.self (Gift.ofShares S.vaultContract gs) : Call Unit _) = .ok t₁) :
    GiftedTo S gs { w with shares := t } { w₁ with shares := t₁ } := by
  refine ⟨⟨hg.market.usdc, ?_, hg.market.rest⟩, hg.router, hg.registry⟩
  intro v
  change ((S.ledger { w with shares := t } v).collect S.self (Gift.ofShares v gs) : Call Unit _) =
    .ok (S.ledger { w₁ with shares := t₁ } v)
  by_cases hv : v = S.vaultContract
  · subst hv
    rw [S.ledger_vaultContract, S.ledger_vaultContract]
    exact h
  · have hsame : ((S.ledger w v).collect S.self (Gift.ofShares v gs) : Call Unit _) =
        .ok (S.ledger w₁ v) := hg.market.ledgers v
    rw [S.ledger_of_ne _ hv, S.ledger_of_ne _ hv] at hsame ⊢
    exact hsame

theorem pullShares_gifted (hgs : Strange S agent gs) (hg : GiftedTo S gs w w₁) {t : Token Address}
    (h : (w.shares.transferFrom S.self agent S.self amount : Call GatewayError _) = .ok t) :
    ∃ t₁, (w₁.shares.transferFrom S.self agent S.self amount : Call GatewayError _) = .ok t₁ ∧
      GiftedTo S gs { w with shares := t } { w₁ with shares := t₁ } := by
  obtain ⟨t₁, htake, hcollect⟩ := Token.collect_transferFrom
    (Gift.ofShares_donor_ne fun g hmem => (hgs g hmem).2) hg.shares h
  exact ⟨t₁, htake, hg.withShares hcollect⟩

theorem vaultRedeem_gifted (h : Indifferent S) (hgs : ∀ g ∈ gs, S.Outsider g.donor) {assets : ℕ}
    (hg : GiftedTo S gs w w₁) (hx : S.env.vaultRedeem w amount receiver S.self = .ok (w', assets)) :
    ∃ w₁', S.env.vaultRedeem w₁ amount receiver S.self = .ok (w₁', assets) ∧ GiftedTo S gs w' w₁' := by
  obtain ⟨m, hm, rfl⟩ := vaultRedeem_eq_ok.mp hx
  obtain ⟨m₁, hm₁, hgm⟩ := h.redeem hgs hg.market hm
  exact ⟨_, vaultRedeem_eq_ok.mpr ⟨m₁, hm₁, rfl⟩, hg.withMarket hgm⟩

theorem routerDepositFor_gifted (h : Indifferent S) (hgs : ∀ g ∈ gs, S.Outsider g.donor)
    {mins minted : List ℕ} (hg : GiftedTo S gs w w₁)
    (hx : S.env.routerDepositFor w receiver amount mins = .ok (w', minted)) :
    ∃ w₁', S.env.routerDepositFor w₁ receiver amount mins = .ok (w₁', minted) ∧
      GiftedTo S gs w' w₁' := by
  obtain ⟨p, events, hd, rfl, rfl⟩ := routerDepositFor_eq_ok.mp hx
  have hgp : GiftedRouter S gs (S.portfolio w) (S.portfolio w₁) := ⟨hg.router, hg.registry, hg.market⟩
  obtain ⟨p₁, hd₁, hp⟩ := depositFor_gifted h hgs hgp hd
  refine ⟨_, routerDepositFor_eq_ok.mpr ⟨p₁, events, hd₁, rfl, rfl⟩, ?_, hp.router, hp.registry⟩
  unfold Setting.withPortfolio
  rw [S.market_withMarket, S.market_withMarket]
  exact hp.world

end Parts

/-! ### The checks -/

section Entries

variable {s s' : State (Surroundings W)} {w₁ : World (Surroundings W)} {b : Block} {orderId key : Bytes32}
  {deadline : ℕ} {r : Receipt}

/-- The call has the same outcome after the gifts: the same receipt, the same storage, and the world it
led to without them, with the gifts. -/
def Unmoved (S : Setting W) (gs : List Gift) (s' : State (Surroundings W)) (r : Receipt)
    (x : Call GatewayError (State (Surroundings W) × Receipt)) : Prop :=
  ∃ w', x = .ok ({ s' with world := w' }, r) ∧ GiftedTo S gs s'.world w'

/-- The shares of the pinned vault among the gifts. -/
def sharesGiven (S : Setting W) (gs : List Gift) : ℕ :=
  Token.collected (Gift.ofShares S.vaultContract gs)

theorem checkNoShares_gifted {w w₁ : World (Surroundings W)} {u : Unit} (hgs : ∀ g ∈ gs, S.Outsider g.donor)
    (hg : GiftedTo S gs w w₁) (h : checkNoShares S.env w = .ok u) :
    checkNoShares S.env w₁ = if sharesGiven S gs = 0 then .ok ()
      else .error (.custom .shareCustodyInvariantViolated) := by
  have hzero : w.shares.balanceOf S.self = 0 := by
    unfold checkNoShares at h
    rw [revertIf_eq_ok, not_not] at h
    exact h
  have hbal : w₁.shares.balanceOf S.self = sharesGiven S gs := by
    rw [hg.shares_self hgs, hzero, Nat.zero_add]
    rfl
  unfold checkNoShares
  split
  · refine revertIf_neg ?_ _
    rw [not_not]
    exact hbal.trans ‹_›
  · refine revertIf_pos ?_ _
    change w₁.shares.balanceOf S.self ≠ 0
    rw [hbal]
    exact ‹_›

theorem checkUsdc_gifted {w w' w₁ w₁' : World (Surroundings W)} {u : Unit}
    (hgs : ∀ g ∈ gs, S.Outsider g.donor) (hg : GiftedTo S gs w w₁) (hg' : GiftedTo S gs w' w₁')
    (h : checkUsdc S.env w' (w.usdc.balanceOf S.self) = .ok u) :
    checkUsdc S.env w₁' (w₁.usdc.balanceOf S.self) = .ok () := by
  unfold checkUsdc at h ⊢
  rw [revertIf_eq_ok, not_not] at h ⊢
  change w'.usdc.balanceOf S.self = w.usdc.balanceOf S.self at h
  change w₁'.usdc.balanceOf S.self = w₁.usdc.balanceOf S.self
  rw [hg'.usdc_self hgs, hg.usdc_self hgs, h]

/-! ### The three entry points -/

/-- The windows do not look at the world. -/
theorem accrueRollingDeposit_world {V : Type} {s s' : State V} {cap : ℕ} (w : World V)
    (h : s.accrueRollingDeposit b agent amount cap = .ok s') : s'.world = s.world ∧
      ({ s with world := w } : State V).accrueRollingDeposit b agent amount cap =
        .ok { s' with world := w } := by
  obtain ⟨window, hwindow, rfl⟩ := accrueRollingDeposit_eq_ok.mp h
  exact ⟨rfl, accrueRollingDeposit_eq_ok.mpr ⟨window, hwindow, rfl⟩⟩

theorem accrueRollingWithdraw_world {V : Type} {s s' : State V} {cap : ℕ} (w : World V)
    (h : s.accrueRollingWithdraw b agent amount cap = .ok s') : s'.world = s.world ∧
      ({ s with world := w } : State V).accrueRollingWithdraw b agent amount cap =
        .ok { s' with world := w } := by
  obtain ⟨window, hwindow, rfl⟩ := accrueRollingWithdraw_eq_ok.mp h
  exact ⟨rfl, accrueRollingWithdraw_eq_ok.mpr ⟨window, hwindow, rfl⟩⟩

theorem deposit_gifted (h : Indifferent S) (hgs : Strange S agent gs) (hg : GiftedTo S gs s.world w₁)
    (hx : s.deposit S.env b agent orderId amount deadline key = .ok (s', r)) :
    if sharesGiven S gs = 0 then
      Unmoved S gs s' r
        (({ s with world := w₁ } : State _).deposit S.env b agent orderId amount deadline key)
    else ({ s with world := w₁ } : State _).deposit S.env b agent orderId amount deadline key =
      .error (.custom .shareCustodyInvariantViolated) := by
  have hdonors : ∀ g ∈ gs, S.Outsider g.donor := fun g hmem => (hgs g hmem).1
  unfold State.deposit at hx ⊢
  simp only [bind_eq_ok, Prod.exists] at hx
  obtain ⟨_, h₁, _, h₂, _, h₃, _, h₄, _, h₅, _, h₆, _, h₇, _, hshares, s₁, hacc, w₂, hpull, w₃, minted, hleg,
    _, hshares₃, _, husdc, hr⟩ := hx
  obtain ⟨hworld, hacc₁⟩ := accrueRollingDeposit_world w₁ hacc
  have hfirst := checkNoShares_gifted hdonors hg hshares
  change pullUsdc S.env s₁.world agent amount = .ok w₂ at hpull
  change checkUsdc S.env w₃ (s₁.world.usdc.balanceOf S.self) = _ at husdc
  rw [hworld] at hpull husdc
  obtain ⟨w₂', hpull₁, hg₂⟩ := pullUsdc_gifted hgs hg hpull
  obtain ⟨w₃', hleg₁, hg₃⟩ := vaultLeg_gifted h hdonors hg₂ hleg
  have hlast := checkNoShares_gifted hdonors hg₃ hshares₃
  have husdc₁ : checkUsdc S.env w₃' (w₁.usdc.balanceOf S.env.self) = .ok () :=
    checkUsdc_gifted hdonors hg hg₃ husdc
  obtain ⟨rfl, rfl⟩ := Prod.mk.injEq .. ▸ pure_eq_ok.mp hr
  split
  · rename_i hnone
    rw [if_pos hnone] at hfirst hlast
    refine ⟨w₃', ?_, hg₃⟩
    simp only [h₁, h₂, h₃, h₄, h₅, h₆, h₇, hfirst, hacc₁, ok_bind, State.markUsed, hpull₁, hleg₁, hlast,
      husdc₁]
    rfl
  · rename_i hsome
    rw [if_neg hsome] at hfirst
    simp only [h₁, h₂, h₃, h₄, h₅, h₆, h₇, hfirst, ok_bind, error_bind]

/-- The second half of a `depositTo`; only the vault's path looks at the shares. -/
theorem executeDeposit_gifted (h : Indifferent S) (hgs : ∀ g ∈ gs, S.Outsider g.donor)
    {w w₁ w₂ w₃ w₂' : World (Surroundings W)} {isRouter : Bool} {id : Bytes32} {mins : List ℕ}
    (hg : GiftedTo S gs w w₁) (hg₂ : GiftedTo S gs w₂ w₂')
    (hx : executeDeposit S.env isRouter w₂ b agent id orderId receiver amount (w.usdc.balanceOf S.self)
      mins = .ok (w₃, r)) :
    if sharesGiven S gs = 0 ∨ isRouter = true then
      ∃ w₃', executeDeposit S.env isRouter w₂' b agent id orderId receiver amount
        (w₁.usdc.balanceOf S.self) mins = .ok (w₃', r) ∧ GiftedTo S gs w₃ w₃'
    else executeDeposit S.env isRouter w₂' b agent id orderId receiver amount (w₁.usdc.balanceOf S.self)
      mins = .error (.custom .shareCustodyInvariantViolated) := by
  unfold executeDeposit at hx ⊢
  cases isRouter with
  | true =>
    simp only [if_true, or_true] at hx ⊢
    unfold executeRouterDeposit at hx ⊢
    simp only [bind_eq_ok, inner_eq_ok, pure_eq_ok, Prod.exists, Prod.mk.injEq] at hx ⊢
    obtain ⟨w₄, happrove, w₅, minted, hdeposit, w₆, hclear, _, husdc, rfl, rfl⟩ := hx
    obtain ⟨w₄', happrove₁, hg₄⟩ := forceApprove_gifted hg₂ happrove
    obtain ⟨w₅', hdeposit₁, hg₅⟩ := routerDepositFor_gifted h hgs hg₄ hdeposit
    obtain ⟨w₆', hclear₁, hg₆⟩ := forceApprove_gifted hg₅ hclear
    exact ⟨w₆', ⟨w₄', happrove₁, w₅', minted, hdeposit₁, w₆', hclear₁, _,
      checkUsdc_gifted hgs hg hg₆ husdc, rfl, rfl⟩, hg₆⟩
  | false =>
    simp only [Bool.false_eq_true, if_false, or_false] at hx ⊢
    unfold executeVaultDeposit at hx ⊢
    simp only [bind_eq_ok, Prod.exists] at hx
    obtain ⟨_, hshares, w₄, minted, hleg, _, hshares₄, _, husdc, hr⟩ := hx
    obtain ⟨w₄', hleg₁, hg₄⟩ := vaultLeg_gifted h hgs hg₂ hleg
    have hfirst := checkNoShares_gifted hgs hg₂ hshares
    have hlast := checkNoShares_gifted hgs hg₄ hshares₄
    obtain ⟨rfl, rfl⟩ := Prod.mk.injEq .. ▸ pure_eq_ok.mp hr
    split
    · rename_i hnone
      rw [if_pos hnone] at hfirst hlast
      refine ⟨w₄', ?_, hg₄⟩
      simp only [hfirst, hleg₁, hlast, checkUsdc_gifted hgs hg hg₄ husdc, ok_bind]
      rfl
    · rename_i hsome
      rw [if_neg hsome] at hfirst
      simp only [hfirst, error_bind]

theorem depositTo_gifted (h : Indifferent S) (hgs : Strange S agent gs) (hg : GiftedTo S gs s.world w₁)
    {destination : Address} {mins : List ℕ}
    (hx : s.depositTo S.env b agent orderId amount deadline key destination mins = .ok (s', r)) :
    if sharesGiven S gs = 0 ∨ S.router.self ≠ 0 ∧ destination = S.router.self then
      Unmoved S gs s' r (({ s with world := w₁ } : State _).depositTo S.env b agent orderId amount deadline
        key destination mins)
    else ({ s with world := w₁ } : State _).depositTo S.env b agent orderId amount deadline key destination
      mins = .error (.custom .shareCustodyInvariantViolated) := by
  have hdonors : ∀ g ∈ gs, S.Outsider g.donor := fun g hmem => (hgs g hmem).1
  unfold State.depositTo at hx ⊢
  simp only [bind_eq_ok, Prod.exists] at hx
  obtain ⟨_, h₁, _, h₂, _, h₃, _, h₄, _, h₅, _, h₆, isRouter, hdest, _, h₇, s₁, hacc, w₂, hpull, w₃, receipt,
    hdep, hr⟩ := hx
  obtain ⟨hworld, hacc₁⟩ := accrueRollingDeposit_world w₁ hacc
  obtain ⟨-, -, hrouter⟩ := validateDestination_eq_ok.mp hdest
  change pullUsdc S.env s₁.world agent amount = .ok w₂ at hpull
  change executeDeposit S.env isRouter w₂ b agent _ orderId _ amount (s₁.world.usdc.balanceOf S.self) mins =
    .ok (w₃, receipt) at hdep
  rw [hworld] at hpull hdep
  obtain ⟨w₂', hpull₁, hg₂⟩ := pullUsdc_gifted hgs hg hpull
  have hdep₁ := executeDeposit_gifted h hdonors hg hg₂ hdep
  have hpath : isRouter = true ↔ S.router.self ≠ 0 ∧ destination = S.router.self := by
    rw [hrouter, decide_eq_true_iff]
    exact Iff.rfl
  obtain ⟨rfl, rfl⟩ := Prod.mk.injEq .. ▸ pure_eq_ok.mp hr
  split
  · rename_i hok
    rw [if_pos (hok.imp_right hpath.mpr)] at hdep₁
    obtain ⟨w₃', hdep₁, hg₃⟩ := hdep₁
    refine ⟨w₃', ?_, hg₃⟩
    simp only [h₁, h₂, h₃, h₄, h₅, h₆, hdest, h₇, hacc₁, ok_bind, State.markUsed, hpull₁]
    change (executeDeposit S.env isRouter w₂' b agent _ orderId _ amount (w₁.usdc.balanceOf S.self) mins >>=
      _) = _
    rw [hdep₁]
    rfl
  · rename_i hno
    rw [if_neg fun hor => hno (hor.imp_right hpath.mp)] at hdep₁
    simp only [h₁, h₂, h₃, h₄, h₅, h₆, hdest, h₇, hacc₁, ok_bind, State.markUsed, hpull₁]
    change (executeDeposit S.env isRouter w₂' b agent _ orderId _ amount (w₁.usdc.balanceOf S.self) mins >>=
      _) = _
    rw [hdep₁]
    rfl

theorem withdraw_gifted (h : Indifferent S) (hgs : Strange S agent gs) (hg : GiftedTo S gs s.world w₁)
    {sourceVault : Address} {shares : ℕ}
    (hx : s.withdraw S.env b agent orderId shares sourceVault deadline key = .ok (s', r)) :
    if sharesGiven S gs = 0 then
      Unmoved S gs s' r (({ s with world := w₁ } : State _).withdraw S.env b agent orderId shares
        sourceVault deadline key)
    else ({ s with world := w₁ } : State _).withdraw S.env b agent orderId shares sourceVault deadline key =
      .error (.custom .shareCustodyInvariantViolated) := by
  have hdonors : ∀ g ∈ gs, S.Outsider g.donor := fun g hmem => (hgs g hmem).1
  unfold State.withdraw at hx ⊢
  simp only [bind_eq_ok, inner_eq_ok, Prod.exists] at hx
  obtain ⟨_, h₁, _, h₂, _, h₃, _, h₄, _, h₅, _, h₆, _, h₇, _, h₈, _, h₉, s₁, hacc, _, hused, token, htake, w₃,
    assets, hredeem, _, husdc, _, hshares, hr⟩ := hx
  obtain ⟨hworld, hacc₁⟩ := accrueRollingWithdraw_world w₁ hacc
  change (s₁.world.shares.transferFrom S.self agent S.self shares : Call GatewayError _) = .ok token at htake
  change S.env.vaultRedeem { s₁.world with shares := token } shares _ S.self = .ok (w₃, assets) at hredeem
  change revertIf (w₃.usdc.balanceOf S.self ≠ s₁.world.usdc.balanceOf S.self) _ = _ at husdc
  rw [hworld] at htake hredeem husdc
  rw [revertIf_eq_ok, not_not] at husdc
  obtain ⟨token₁, htake₁, hg₂⟩ := pullShares_gifted hgs hg htake
  obtain ⟨w₃', hredeem₁, hg₃⟩ := vaultRedeem_gifted h hdonors hg₂ hredeem
  have hlast := checkNoShares_gifted hdonors hg₃ hshares
  have husdc₁ : ¬ w₃'.usdc.balanceOf S.env.self ≠ w₁.usdc.balanceOf S.env.self := by
    rw [not_not]
    change w₃'.usdc.balanceOf S.self = w₁.usdc.balanceOf S.self
    rw [hg₃.usdc_self hdonors, hg.usdc_self hdonors, husdc]
  -- the code spells the gateway's account `env.self`
  have htake₂ : (w₁.shares.transferFrom S.env.self agent S.env.self shares : Call GatewayError _) =
    .ok token₁ := htake₁
  have hredeem₂ : (inner (S.env.vaultRedeem { w₁ with shares := token₁ } shares
      (s.agents agent).assetRecipient S.env.self) : Call GatewayError _) = .ok (w₃', assets) :=
    inner_eq_ok.mpr hredeem₁
  obtain ⟨rfl, rfl⟩ := Prod.mk.injEq .. ▸ pure_eq_ok.mp hr
  split
  · rename_i hnone
    rw [if_pos hnone] at hlast
    refine ⟨w₃', ?_, hg₃⟩
    simp only [h₁, h₂, h₃, h₄, h₅, h₆, h₇, h₈, h₉, hacc₁, hused, ok_bind, State.markUsed, htake₂, hredeem₂,
      hlast]
    exact bind_eq_ok.mpr ⟨(), revertIf_eq_ok.mpr husdc₁, rfl⟩
  · rename_i hsome
    rw [if_neg hsome] at hlast
    simp only [h₁, h₂, h₃, h₄, h₅, h₆, h₇, h₈, h₉, hacc₁, hused, ok_bind, State.markUsed, htake₂, hredeem₂,
      hlast, error_bind]
    exact bind_eq_error.mpr (.inr ⟨(), revertIf_eq_ok.mpr husdc₁, rfl⟩)

end Entries

/-! ### Every payment -/

/-- From `w₁` to `w₁'` every account gains and loses what it does from `w` to `w'`. -/
structure SameMoves (S : Setting W) (w w' w₁ w₁' : World (Surroundings W)) : Prop where
  usdc : ∀ x, w₁'.usdc.balanceOf x + w.usdc.balanceOf x = w₁.usdc.balanceOf x + w'.usdc.balanceOf x
  shares : ∀ v x, (S.ledger w₁' v).balanceOf x + (S.ledger w v).balanceOf x =
    (S.ledger w₁ v).balanceOf x + (S.ledger w' v).balanceOf x

theorem collect_sameMoves {t t' t₁ t₁' : Token Address} {a : Address} {l : List (Address × ℕ)}
    (h : (t.collect a l : Call Unit _) = .ok t₁) (h' : (t'.collect a l : Call Unit _) = .ok t₁')
    (x : Address) : t₁'.balanceOf x + t.balanceOf x = t₁.balanceOf x + t'.balanceOf x := by
  have hbefore := Token.collect_balanceOf h x
  have hafter := Token.collect_balanceOf h' x
  omega

theorem sameMoves_of_gifted {w w' w₁ w₁' : World (Surroundings W)} (hg : GiftedTo S gs w w₁)
    (hg' : GiftedTo S gs w' w₁') : SameMoves S w w' w₁ w₁' where
  usdc := collect_sameMoves hg.market.usdc hg'.market.usdc
  shares v := collect_sameMoves (hg.market.ledgers v) (hg'.market.ledgers v)

/-- The call is a `depositTo` through the router. -/
def ThroughRouter (S : Setting W) (tx : Tx (GatewayCall (Surroundings W))) : Prop :=
  S.router.self ≠ 0 ∧
    ∃ orderId amount deadline key mins, tx.call = .depositTo orderId amount deadline key S.router.self mins

variable {s s' : State (Surroundings W)} {w₁ : World (Surroundings W)}
  {tx : Tx (GatewayCall (Surroundings W))} {r : Receipt} {pay : Payment}

/-- The call `tx` does the same after the gifts, or reverts, as the condition `c` says. -/
theorem outcome_of_gifted {c : Prop} [Decidable c]
    {x : Call GatewayError (State (Surroundings W) × Receipt)} (hg : GiftedTo S gs s.world w₁)
    (hc : c ↔ sharesGiven S gs = 0 ∨ ThroughRouter S tx)
    (h : if c then Unmoved S gs s' r x else x = .error (.custom .shareCustodyInvariantViolated)) :
    (sharesGiven S gs = 0 ∨ ThroughRouter S tx →
      ∃ w₁', x = .ok ({ s' with world := w₁' }, r) ∧ SameMoves S s.world s'.world w₁ w₁') ∧
    (¬ (sharesGiven S gs = 0 ∨ ThroughRouter S tx) →
      x = .error (.custom .shareCustodyInvariantViolated)) := by
  refine ⟨fun hok => ?_, fun hno => ?_⟩
  · rw [if_pos (hc.mpr hok)] at h
    obtain ⟨w₁', hx, hg'⟩ := h
    exact ⟨w₁', hx, sameMoves_of_gifted hg hg'⟩
  · rw [if_neg (mt hc.mp hno)] at h
    exact h

/-- **Gifts to the gateway.**  A payment that succeeds does so with the same debits and credits after any
sequence of transfers to the gateway by strangers, if no share of the pinned vault is among them or the
payment goes through the router.  Otherwise it reverts. -/
theorem gifts_stop_payment (h : Indifferent S) (hgs : Strange S tx.sender gs)
    (hg : GiftedTo S gs s.world w₁) (hpay : tx.call.payment = some pay)
    (hx : exec S.env s tx = .ok (s', r)) :
    (sharesGiven S gs = 0 ∨ ThroughRouter S tx →
      ∃ w₁', exec S.env { s with world := w₁ } tx = .ok ({ s' with world := w₁' }, r) ∧
        SameMoves S s.world s'.world w₁ w₁') ∧
    (¬ (sharesGiven S gs = 0 ∨ ThroughRouter S tx) →
      exec S.env { s with world := w₁ } tx = .error (.custom .shareCustodyInvariantViolated)) := by
  obtain ⟨b, sender, call, hne⟩ := tx
  cases call with
  | deposit orderId amount deadline key =>
    refine outcome_of_gifted hg ?_ (deposit_gifted h hgs hg hx)
    refine ⟨.inl, ?_⟩
    rintro (hnone | ⟨-, _, _, _, _, _, hc⟩)
    · exact hnone
    · cases hc
  | depositTo orderId amount deadline key destination mins =>
    refine outcome_of_gifted hg ?_ (depositTo_gifted h hgs hg hx)
    refine or_congr_right ⟨?_, ?_⟩
    · rintro ⟨hrouter, rfl⟩
      exact ⟨hrouter, orderId, amount, deadline, key, mins, rfl⟩
    · rintro ⟨hrouter, _, _, _, _, _, hc⟩
      injection hc with _ _ _ _ hdest _
      exact ⟨hrouter, hdest⟩
  | withdraw orderId shares sourceVault deadline key =>
    refine outcome_of_gifted hg ?_ (withdraw_gifted h hgs hg hx)
    refine ⟨.inl, ?_⟩
    rintro (hnone | ⟨-, _, _, _, _, _, hc⟩)
    · exact hnone
    · cases hc
  | _ => cases hpay

/-! ### Gifts in the mock setting -/

/-- One share ledger replaced, with the same gifts. -/
theorem Gifted.withLedger {S : Setting W} {m m₁ : Portfolio.World (Market W)} {vault : Address}
    {usdc usdc₁ t t₁ : Token Address} (hg : Gifted S gs m m₁)
    (husdc : (usdc.collect S.self (Gift.ofUsdc gs) : Call Unit _) = .ok usdc₁)
    (ht : (t.collect S.self (Gift.ofShares vault gs) : Call Unit _) = .ok t₁) :
    Gifted S gs ⟨usdc, { m.ext with ledgers := Function.update m.ext.ledgers vault t }⟩
      ⟨usdc₁, { m₁.ext with ledgers := Function.update m₁.ext.ledgers vault t₁ }⟩ := by
  refine ⟨husdc, fun v => ?_, hg.rest⟩
  by_cases hv : v = vault
  · subst hv
    simp only [Function.update_self]
    exact ht
  · simp only [Function.update_of_ne hv]
    exact hg.ledgers v

theorem mockSetting_indifferent : Indifferent mockSetting where
  self_ne_router := show (1 : Address) ≠ 4 by decide
  hasCode _ _ := rfl
  asset _ _ := rfl
  deposit {gs m m₁ vault caller assets receiver m' shares} hgs hcaller hg h := by
    simp only [mockSetting, bind_eq_ok, pure_eq_ok, Prod.mk.injEq] at h ⊢
    obtain ⟨_, hcheck, usdc, htake, token, hmint, rfl, rfl⟩ := h
    have hne : ∀ g ∈ gs, g.donor ≠ caller := by
      intro g hmem
      rcases hcaller with rfl | rfl
      · exact (hgs g hmem).ne_self
      · exact (hgs g hmem).ne_router
    obtain ⟨usdc₁, htake₁, husdc⟩ := Token.collect_transferFrom (Gift.ofUsdc_donor_ne hne) hg.usdc htake
    obtain ⟨token₁, hmint₁, htoken⟩ :=
      Token.collect_comm (fun _ _ _ _ _ hgift h => Token.mint_comm hgift h) (hg.ledgers vault) hmint
    exact ⟨_, ⟨_, hcheck, usdc₁, htake₁, token₁, hmint₁, rfl, rfl⟩, hg.withLedger husdc htoken⟩
  redeem {gs m m₁ vault shares receiver m' assets} hgs hg h := by
    simp only [mockSetting, bind_eq_ok, revertIf_eq_ok, exists_const, pure_eq_ok, Prod.mk.injEq, ne_eq,
      not_true_eq_false, if_false, exists_eq_left'] at h ⊢
    obtain ⟨hcheck, token, hburn, usdc, hpaid, rfl, rfl⟩ := h
    have hvault : ∀ g ∈ gs, g.donor ≠ vault := by
      rintro g hmem rfl
      exact hcheck (.inl (hgs g hmem).not_own)
    obtain ⟨token₁, hburn₁, htoken⟩ := Token.collect_comm
      (fun g hmem _ _ _ hgift h => Token.burn_comm
        (Gift.ofShares_donor_ne (fun g hmem => (hgs g hmem).ne_self) g hmem) hgift h)
      (hg.ledgers vault) hburn
    obtain ⟨usdc₁, hpaid₁, husdc⟩ := Token.collect_comm
      (fun g hmem _ _ _ hgift h => Token.transfer_comm (Gift.ofUsdc_donor_ne hvault g hmem) hgift h)
      hg.usdc hpaid
    exact ⟨_, ⟨hcheck, token₁, hburn₁, usdc₁, hpaid₁, rfl, rfl⟩, hg.withLedger husdc htoken⟩

/-- The agent deposits 100 units into the vault. -/
def mockDeposit : Tx (GatewayCall (Surroundings Unit)) :=
  .of 7 (.of 11 1012) (.deposit (.word 1) 100 1100 (.word 2))

/-- A gift of USDC alone, or of shares of the pinned vault alone. -/
theorem giftedTo_usdc {S : Setting W} {w : World (Surroundings W)} {donor : Address} {v : ℕ}
    {t : Token Address} (h : (w.usdc.transfer donor S.self v : Call Unit _) = .ok t) :
    GiftedTo S [.usdc donor v] w { w with usdc := t } := by
  refine ⟨⟨?_, fun _ => rfl, rfl⟩, rfl, rfl⟩
  exact bind_eq_ok.mpr ⟨t, h, rfl⟩

theorem giftedTo_shares {S : Setting W} {w : World (Surroundings W)} {donor : Address} {v : ℕ}
    {t : Token Address} (h : (w.shares.transfer donor S.self v : Call Unit _) = .ok t) :
    GiftedTo S [.shares S.vaultContract donor v] w { w with shares := t } := by
  refine ⟨⟨rfl, fun vault => ?_, rfl⟩, rfl, rfl⟩
  change ((S.ledger w vault).collect S.self _ : Call Unit _) = .ok (S.ledger { w with shares := t } vault)
  by_cases hv : vault = S.vaultContract
  · subst hv
    rw [S.ledger_vaultContract, S.ledger_vaultContract]
    have hown : Gift.ofShares S.vaultContract [.shares S.vaultContract donor v] = [(donor, v)] := by
      simp [Gift.ofShares]
    rw [hown]
    exact bind_eq_ok.mpr ⟨t, h, rfl⟩
  · rw [S.ledger_of_ne _ hv, S.ledger_of_ne _ hv]
    have hnone : Gift.ofShares vault [.shares S.vaultContract donor v] = [] := by
      simp [Gift.ofShares, Ne.symm hv]
    rw [hnone]
    rfl

theorem stranger_donor {gs : List Gift} (h : ∀ g ∈ gs, g.donor = 9) : Strange mockSetting 7 gs := by
  intro g hmem
  rw [h g hmem]
  exact ⟨⟨by decide, by decide, show ¬ isVault 9 by decide⟩, by decide⟩

/-- The authorized agent's deposit goes through; once the account `9` has sent one share to the gateway it
reverts. -/
theorem share_stops_deposit :
    let s := run (exec mockSetting.env) mockGateway [mockAuthorization mockPolicy]
    Reachable mockSetting s ∧ succeeds (exec mockSetting.env s mockDeposit) = true ∧
      Strange mockSetting 7 [.shares 3 9 1] ∧
      ∃ w₁, GiftedTo mockSetting [.shares 3 9 1] s.world w₁ ∧
        exec mockSetting.env { s with world := w₁ } mockDeposit =
          .error (.custom .shareCustodyInvariantViolated) := by
  intro s
  have hstrange : Strange mockSetting 7 [.shares 3 9 1] := stranger_donor (by simp [Gift.donor])
  have hok : succeeds (exec mockSetting.env s mockDeposit) = true := by decide
  refine ⟨authorized_reachable mockPolicy, hok, hstrange, ?_⟩
  obtain ⟨⟨s', r⟩, hx⟩ := succeeds_iff.mp hok
  obtain ⟨t, ht⟩ : ∃ t, (s.world.shares.transfer 9 1 1 : Call Unit _) = .ok t := by
    rw [authorized_world]
    exact succeeds_iff.mp (by decide)
  have hg := giftedTo_shares (S := mockSetting) ht
  refine ⟨_, hg, ?_⟩
  exact deposit_gifted mockSetting_indifferent hstrange hg hx

/-- After a gift of 30 units the same deposit goes through as before. -/
theorem gifts_stop_payment_sample :
    let s := run (exec mockSetting.env) mockGateway [mockAuthorization mockPolicy]
    ∃ w₁ s' r w₁', GiftedTo mockSetting [.usdc 9 30] s.world w₁ ∧
      exec mockSetting.env s mockDeposit = .ok (s', r) ∧
      exec mockSetting.env { s with world := w₁ } mockDeposit = .ok ({ s' with world := w₁' }, r) ∧
      SameMoves mockSetting s.world s'.world w₁ w₁' := by
  intro s
  have hstrange : Strange mockSetting 7 [.usdc 9 30] := stranger_donor (by simp [Gift.donor])
  obtain ⟨⟨s', r⟩, hx⟩ := succeeds_iff.mp
    (show succeeds (exec mockSetting.env s mockDeposit) = true by decide)
  obtain ⟨t, ht⟩ : ∃ t, (s.world.usdc.transfer 9 1 30 : Call Unit _) = .ok t := by
    rw [authorized_world]
    exact succeeds_iff.mp (by decide)
  have hg := giftedTo_usdc (S := mockSetting) ht
  obtain ⟨w₁', hx₁, hmoves⟩ :=
    (gifts_stop_payment mockSetting_indifferent hstrange hg rfl hx).1 (.inl rfl)
  exact ⟨_, s', r, w₁', hg, hx, hx₁, hmoves⟩

end RobotMoney.Gateway
