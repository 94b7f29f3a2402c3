import RobotMoney.Vault.Pull

/-!
# The exit fee

A withdrawal names the net amount: it is grossed up, rounded up, and turned into shares, rounded up.  What is then
paid out and charged is split from the value of these shares, rounded down.  A share is worth at most one unit unless
the price has risen by a factor of `10^18`, and then the two roundings of the price cancel; in any case the shares are
worth the gross amount at least, so that the fee a redemption would pay is paid (`exit_fee_agrees`).
-/

namespace RobotMoney.Vault

open RobotMoney.Lib State

variable {V : Type} {env : Env V} {s s' : State V} {a sh gross net A : ℕ}

/-! ### The previews -/

/-- What a net amount is grossed up to. -/
theorem netToGross_bounds (h : s.netToGross a = .ok gross) :
    a * maxBps ≤ gross * (maxBps - s.exitFeeBps.1) ∧
      gross * (maxBps - s.exitFeeBps.1) < a * maxBps + (maxBps - s.exitFeeBps.1) := by
  unfold State.netToGross at h
  split at h
  · rename_i hfee
    cases h
    rw [hfee, Nat.sub_zero]
    exact ⟨le_rfl, Nat.lt_add_of_pos_right (by decide)⟩
  · obtain ⟨rest, hrest, h⟩ := bind_eq_ok.mp h
    obtain ⟨-, rfl⟩ := subU_eq_ok.mp hrest
    exact mulDivUp_bounds h

theorem convertToSharesUp_bounds (hA : s.totalAssets env = .ok A) (h : s.convertToSharesUp env a = .ok sh) :
    a * (s.shares.totalSupply + virtualShares) ≤ sh * (A + 1) ∧
      sh * (A + 1) < a * (s.shares.totalSupply + virtualShares) + (A + 1) := by
  unfold State.convertToSharesUp at h
  simp only [bind_eq_ok, addU_eq_ok, hA] at h
  obtain ⟨_, ⟨-, rfl⟩, _, ⟨⟩, _, ⟨-, rfl⟩, h⟩ := h
  exact mulDivUp_bounds h

theorem convertToAssets_of_shares (hA : s.totalAssets env = .ok A) (h : s.convertToSharesUp env a = .ok sh)
    (hlt : s.grossOf A sh < wordSize) : s.convertToAssets env sh = .ok (s.grossOf A sh) := by
  unfold State.convertToSharesUp at h
  simp only [bind_eq_ok, addU_eq_ok, hA] at h
  obtain ⟨_, ⟨hS, rfl⟩, _, ⟨⟩, _, ⟨hA₁, rfl⟩, -⟩ := h
  unfold State.convertToAssets
  simp only [bind_eq_ok, addU_eq_ok, mulDiv_eq_ok, hA]
  exact ⟨A, rfl, _, ⟨hA₁, rfl⟩, _, ⟨hS, rfl⟩, Nat.add_pos_right _ virtualShares_pos, hlt, rfl⟩

theorem convertToAssets_ok (hA : s.totalAssets env = .ok A) (h : s.convertToAssets env sh = .ok gross) :
    gross < wordSize ∧ gross = s.grossOf A sh := by
  unfold State.convertToAssets at h
  simp only [bind_eq_ok, addU_eq_ok, mulDiv_eq_ok, hA] at h
  obtain ⟨_, ⟨⟩, _, ⟨-, rfl⟩, _, ⟨-, rfl⟩, -, hlt, rfl⟩ := h
  exact ⟨hlt, rfl⟩

/-- Shares bought for `g`, rounded up, are worth `g`, and no more while a share is worth at most a unit. -/
theorem le_grossOf {g : ℕ} (hA : s.totalAssets env = .ok A) (h : s.convertToSharesUp env g = .ok sh) :
    g ≤ s.grossOf A sh ∧ (A + 1 ≤ s.shares.totalSupply + virtualShares → s.grossOf A sh ≤ g) := by
  obtain ⟨hlow, hhigh⟩ := convertToSharesUp_bounds hA h
  have hpos : 0 < s.shares.totalSupply + virtualShares := Nat.add_pos_right _ virtualShares_pos
  unfold State.grossOf
  refine ⟨(Nat.le_div_iff_mul_le hpos).mpr hlow, ?_⟩
  intro hprice
  refine Nat.le_of_lt_succ ((Nat.div_lt_iff_lt_mul hpos).mpr ?_)
  rw [Nat.succ_mul]
  omega

/-- What is priced when shares are priced. -/
theorem totalAssets_of_convert (h : s.convertToAssets env sh = .ok gross) : ∃ A, s.totalAssets env = .ok A := by
  unfold State.convertToAssets at h
  obtain ⟨A, hA, -⟩ := bind_eq_ok.mp h
  exact ⟨A, hA⟩

/-- The fee of a redemption. -/
def State.feeOf (s : State V) (gross : ℕ) : ℕ := share gross maxBps s.exitFeeBps.1

theorem exitFee_le : s.exitFeeBps.1 ≤ maxBps := s.exitFeeBps.2.trans (by decide)

theorem previewRedeem_of_convert (h : s.convertToAssets env sh = .ok gross) :
    s.previewRedeem env sh = .ok (gross - s.feeOf gross) := by
  obtain ⟨A, hA⟩ := totalAssets_of_convert h
  unfold State.previewRedeem
  rw [h, ok_bind]
  exact (grossToNet_eq_ok (convertToAssets_ok hA h).1).mpr rfl

/-- Shares that a withdrawal is priced at can be redeemed, unless their value does not fit a word. -/
theorem previewRedeem_ok_iff (hA : s.totalAssets env = .ok A) (h : s.previewWithdraw env a = .ok sh) :
    (∃ net, s.previewRedeem env sh = .ok net) ↔ s.grossOf A sh < wordSize := by
  obtain ⟨g, -, h⟩ := bind_eq_ok.mp h
  constructor
  · rintro ⟨net, hnet⟩
    obtain ⟨gross, hgross, -⟩ := bind_eq_ok.mp hnet
    obtain ⟨hlt, rfl⟩ := convertToAssets_ok hA hgross
    exact hlt
  · intro hlt
    exact ⟨_, previewRedeem_of_convert (convertToAssets_of_shares hA h hlt)⟩

/-- The value of the shares a withdrawal burns has room for the amount and the fee. -/
theorem withdraw_room (h : s.previewWithdraw env a = .ok sh) (hgross : s.convertToAssets env sh = .ok gross) :
    a + s.feeOf gross ≤ gross ∧
      (∀ A, s.totalAssets env = .ok A → A + 1 ≤ s.shares.totalSupply + virtualShares →
        gross - a ≤ s.feeOf gross + 1) := by
  obtain ⟨g, hg, h⟩ := bind_eq_ok.mp h
  obtain ⟨hlow, hhigh⟩ := netToGross_bounds hg
  obtain ⟨A, hA⟩ := totalAssets_of_convert hgross
  obtain ⟨-, rfl⟩ := convertToAssets_ok hA hgross
  obtain ⟨hge, hle⟩ := le_grossOf hA h
  refine ⟨add_share_le exitFee_le (by decide) ?_, ?_⟩
  · exact hlow.trans (Nat.mul_le_mul_right _ hge)
  · intro A' hA' hprice
    obtain rfl : A = A' := Except.ok.inj (hA.symm.trans hA')
    refine sub_le_share_succ exitFee_le (by decide) ?_
    rw [Nat.le_antisymm (hle hprice) hge]
    exact hhigh

/-! ### What is charged -/

/-- The gross value is pulled, the fee is paid to the recipient of the fees, and the rest to the receiver. -/
structure Charged (env : Env V) (s s' : State V) (receiver : Address) (gross net fee : ℕ) : Prop where
  sum : net + fee = gross
  paid : ∃ s₁ usdc, s.pullProportional env gross = .ok s₁ ∧ s.payFee env s₁.world.usdc fee = .ok usdc ∧
    (usdc.transfer env.self receiver net : Call VaultError _) = .ok s'.world.usdc

theorem withdrawInternal_charged {caller receiver owner : Address}
    (h : s.withdrawInternal env caller receiver owner a sh = .ok s') :
    ∃ gross, s.convertToAssets env sh = .ok gross ∧ Charged env s s' receiver gross a (gross - a) := by
  unfold State.withdrawInternal at h
  simp only [bind_eq_ok, subU_eq_ok, pure_eq_ok] at h
  obtain ⟨_, -, token, -, gross, hgross, fee, ⟨hle, rfl⟩, s₁, hpull, token', -, usdc₁, hfee, usdc₂, hpay, rfl⟩ := h
  refine ⟨gross, hgross, Nat.add_sub_cancel' hle, s₁, usdc₁, hpull, ?_, hpay⟩
  rw [pullProportional_frame hpull] at hfee
  exact hfee

/-- **Both exits charge the same.**  When a withdrawal of `a` is priced at `sh` shares: a redemption of them is
priced at `a` or more, unless their value does not fit a word; their value has room for `a`, so the subtraction does not revert, and what is left over `a` is
the fee of the redemption at least, and at most one more while a share is worth no more than a unit.  A withdrawal
that succeeds charges this; a redemption that succeeds charges its fee. -/
theorem exit_fee_agrees (h : s.previewWithdraw env a = .ok sh) :
    (∀ net, s.previewRedeem env sh = .ok net → a ≤ net) ∧
    (∀ A, s.totalAssets env = .ok A → ((∃ net, s.previewRedeem env sh = .ok net) ↔
      sh * (A + 1) / (s.shares.totalSupply + 10 ^ 18) < 2 ^ 256)) ∧
    (∀ gross, s.convertToAssets env sh = .ok gross →
      (subU gross a : Call VaultError ℕ) = .ok (gross - a) ∧
      gross * s.exitFeeBps.1 / 10000 ≤ gross - a ∧
      (∀ A, s.totalAssets env = .ok A → A + 1 ≤ s.shares.totalSupply + 10 ^ 18 →
        gross - a ≤ gross * s.exitFeeBps.1 / 10000 + 1) ∧
      (∀ caller receiver owner s' x y, s.withdraw env caller a receiver owner = .ok (s', x, y) →
        x = a ∧ y = sh ∧ Charged env s s' receiver gross a (gross - a)) ∧
      (∀ caller receiver owner s' x y, s.redeem env caller sh receiver owner = .ok (s', x, y) →
        y = sh ∧ Charged env s s' receiver gross x (gross * s.exitFeeBps.1 / 10000))) := by
  refine ⟨?_, fun A hA => previewRedeem_ok_iff hA h, ?_⟩
  · intro net hnet
    obtain ⟨gross, hgross, -⟩ := bind_eq_ok.mp hnet
    obtain ⟨hroom, -⟩ := withdraw_room h hgross
    obtain rfl : gross - s.feeOf gross = net := Except.ok.inj ((previewRedeem_of_convert hgross).symm.trans hnet)
    omega
  intro gross hgross
  obtain ⟨hroom, hone⟩ := withdraw_room h hgross
  have hfee : gross * s.exitFeeBps.1 / 10000 = s.feeOf gross := rfl
  rw [hfee]
  refine ⟨subU_eq_ok.mpr ⟨by omega, rfl⟩, by omega, hone, ?_, ?_⟩
  · intro caller receiver owner s' x y hw
    unfold State.withdraw at hw
    simp only [bind_eq_ok, h, pure_eq_ok, Prod.mk.injEq] at hw
    obtain ⟨_, -, _, -, _, ⟨⟩, s₁, hin, rfl, rfl, rfl⟩ := hw
    obtain ⟨gross', hgross', hcharged⟩ := withdrawInternal_charged hin
    obtain rfl : gross = gross' := Except.ok.inj (hgross.symm.trans hgross')
    exact ⟨rfl, rfl, hcharged⟩
  · intro caller receiver owner s' x y hr
    unfold State.redeem at hr
    simp only [bind_eq_ok, previewRedeem_of_convert hgross, pure_eq_ok, Prod.mk.injEq] at hr
    obtain ⟨_, -, _, ⟨⟩, s₁, hin, rfl, rfl, rfl⟩ := hr
    obtain ⟨gross', hgross', hcharged⟩ := withdrawInternal_charged hin
    obtain rfl : gross = gross' := Except.ok.inj (hgross.symm.trans hgross')
    rw [Nat.sub_sub_self (by omega)] at hcharged
    exact ⟨rfl, hcharged⟩

/-- In the vault `inUse`, with a fee of one percent, two units net are three gross: the fee of a redemption is
nothing, and one unit is charged. -/
theorem exit_fee_agrees_inUse :
    inUse.previewWithdraw (passthrough 1 2) 2 = .ok (3 * 10 ^ 18) ∧
      (∀ net, inUse.previewRedeem (passthrough 1 2) (3 * 10 ^ 18) = .ok net → 2 ≤ net) ∧
      (subU 3 2 : Call VaultError ℕ) = .ok 1 ∧ 3 - 2 ≤ 3 * inUse.exitFeeBps.1 / 10000 + 1 := by
  have hpreview : inUse.previewWithdraw (passthrough 1 2) 2 = .ok (3 * 10 ^ 18) := by decide +kernel
  have hgross : inUse.convertToAssets (passthrough 1 2) (3 * 10 ^ 18) = .ok 3 := by decide +kernel
  obtain ⟨hnet, -, h⟩ := exit_fee_agrees hpreview
  obtain ⟨hsub, -, hone, -⟩ := h 3 hgross
  exact ⟨hpreview, hnet, hsub, hone 3 (by decide +kernel) (by decide +kernel)⟩

end RobotMoney.Vault
