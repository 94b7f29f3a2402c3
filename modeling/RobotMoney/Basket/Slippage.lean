import RobotMoney.Basket.Redeem

/-!
# How far a redemption falls below its preview

`previewRedeem` prices the whole basket with virtual shares; a redemption sells a truncated part of each
token, for no less than the truncated floor of the truncated quote of that part.  All roundings together cost
two units, three for each token and the quote of one smallest unit of each (`redemption_slippage_bounded`):
one entry costs three and its unit quote (`entry_bound`), and the rest follows by adding the entries up.
-/

namespace RobotMoney.Basket

open RobotMoney.Lib State

variable {V : Type} {env : Env V} {s s' : State env} {is : List (AssetInfo env)} {i : AssetInfo env}
  {w w' : World V} {ext : V}

/-! ### Quotes -/

/-- The quote of a positive amount is a share of it, at a price that does not depend on the amount. -/
theorem twapUsdcValue_linear {pool token : Address} {x v : ℕ} (hx : x ≠ 0)
    (h : s.twapUsdcValue ext pool token x = .ok v) :
    ∃ num den, ∀ y, y ≠ 0 → s.twapUsdcValue ext pool token y = mulDiv y num den := by
  unfold State.twapUsdcValue State.twapQuote at *
  rw [if_neg hx] at h
  simp only [bind_eq_ok] at h
  obtain ⟨ticks, hticks, tick, htick, sqrtP, hsqrt, hquote⟩ := h
  obtain ⟨num, den, hlinear⟩ := quoteAt_linear hquote
  refine ⟨num, den, fun y hy => ?_⟩
  rw [if_neg hy]
  simp only [hticks, ok_bind, htick, hsqrt, hlinear]

/-- Prices are read through `observe` only. -/
theorem twapUsdcValue_congr {ext' : V} (h : env.observe ext' = env.observe ext) (pool token : Address)
    (x : ℕ) : s.twapUsdcValue ext' pool token x = s.twapUsdcValue ext pool token x := by
  unfold State.twapUsdcValue State.twapQuote
  rw [h]

/-- The quote of one smallest unit of the token of an entry. -/
def unitQuote (s : State env) (i : AssetInfo env) : ℕ :=
  valueOr0 (s.twapUsdcValue s.world.ext i.pool i.token 1)

/-- The quotes of the token of an entry, when its balance has one: shares of the amount. -/
theorem entry_price {v : ℕ} (hheld : s.world.held env i.token ≠ 0)
    (h : s.twapUsdcValue s.world.ext i.pool i.token (s.world.held env i.token) = .ok v) :
    ∃ num den, 0 < den ∧ entryWorth s i = share (s.world.held env i.token) den num ∧
      unitQuote s i = share 1 den num ∧
      ∀ y, y ≠ 0 → s.twapUsdcValue s.world.ext i.pool i.token y = mulDiv y num den := by
  obtain ⟨num, den, hlinear⟩ := twapUsdcValue_linear hheld h
  have hvalue := hlinear _ hheld
  rw [h] at hvalue
  obtain ⟨hden, hfits, hv⟩ := mulDiv_eq_ok.mp hvalue.symm
  have hunit : (mulDiv 1 num den : Call BasketError ℕ) = .ok (share 1 den num) := by
    refine mulDiv_eq_ok.mpr ⟨hden, ?_, rfl⟩
    refine lt_of_le_of_lt (Nat.div_le_div_right (Nat.mul_le_mul_right num ?_)) hfits
    omega
  refine ⟨num, den, hden, ?_, ?_, hlinear⟩
  · rw [entryWorth, h, hv]
    rfl
  · rw [unitQuote, hlinear 1 Nat.one_ne_zero, hunit]
    rfl

/-- The floor of a quote is at most one unit below its part. -/
theorem slippageFloor_lt {quote floor : ℕ} (h : s.slippageFloor quote = .ok floor) :
    quote * (maxBps - s.maxSlippageBps.1) ≤ maxBps * (floor + 1) := by
  obtain ⟨product, hproduct, hfloor⟩ := bind_eq_ok.mp h
  obtain ⟨-, rfl⟩ := mulU_eq_ok.mp hproduct
  cases hfloor
  have hdm := Nat.div_add_mod (quote * (maxBps - s.maxSlippageBps.1)) maxBps
  have hlt := Nat.mod_lt (quote * (maxBps - s.maxSlippageBps.1)) (show 0 < maxBps by decide)
  rw [Nat.mul_add, Nat.mul_one]
  omega

/-! ### One entry -/

/-- What `received` for an entry, or nothing where nothing is sold, is worth against its part of the price. -/
theorem entry_bound {sh supply held quote received : ℕ} (hsupply : 0 < supply)
    (hheld : s.world.held env i.token ≤ held)
    (hquote : s.twapUsdcValue s.world.ext i.pool i.token (share held supply sh) = .ok quote)
    (hreceived : quote * (maxBps - s.maxSlippageBps.1) ≤ maxBps * (received + 1)) :
    sh * entryWorth s i * (maxBps - s.maxSlippageBps.1) ≤
      supply * maxBps * (received + (3 + unitQuote s i)) := by
  rcases hworth : s.twapUsdcValue s.world.ext i.pool i.token (s.world.held env i.token) with e | v
  · -- no price, no worth
    have hzero : entryWorth s i = 0 := by rw [entryWorth, hworth, valueOr0]
    simp [hzero]
  by_cases hnone : s.world.held env i.token = 0
  · simp [entryWorth_of_empty hnone]
  obtain ⟨num, den, hden, hvalue, hunit, hlinear⟩ := entry_price hnone hworth
  have hsold : quote = share (share held supply sh) den num := by
    by_cases hpart : share held supply sh = 0
    · rw [hpart] at hquote ⊢
      have hzero : (Except.ok 0 : Call BasketError ℕ) = .ok quote := hquote
      cases hzero
      simp [share]
    · rw [hlinear _ hpart] at hquote
      exact (mulDiv_eq_ok.mp hquote).2.2
  set rest := maxBps - s.maxSlippageBps.1 with hrest
  have hrestle : rest ≤ maxBps := Nat.sub_le _ _
  have hpart : sh * entryWorth s i ≤ supply * (quote + unitQuote s i + 2) := by
    rw [hvalue, hunit, hsold]
    exact (Nat.mul_le_mul_left sh (share_le_share hheld)).trans (mul_share_le hsupply hden)
  calc sh * entryWorth s i * rest ≤ supply * (quote + unitQuote s i + 2) * rest :=
        Nat.mul_le_mul_right rest hpart
    _ = supply * (quote * rest + (unitQuote s i + 2) * rest) := by ring
    _ ≤ supply * (maxBps * (received + 1) + (unitQuote s i + 2) * maxBps) :=
        Nat.mul_le_mul_left supply (Nat.add_le_add hreceived (Nat.mul_le_mul_left _ hrestle))
    _ = supply * maxBps * (received + (3 + unitQuote s i)) := by ring

/-! ### All entries -/

/-- What the preview counts for a list of entries. -/
def worthOf (s : State env) (is : List (AssetInfo env)) : ℕ :=
  ((is.filter fun i => i.active).map (entryWorth s)).sum

/-- The rounding slack of a list of entries. -/
def slackOf (s : State env) (is : List (AssetInfo env)) : ℕ :=
  ((is.filter fun i => i.active).map fun i => 3 + unitQuote s i).sum

theorem worthOf_cons (hactive : i.active = true) : worthOf s (i :: is) = entryWorth s i + worthOf s is := by
  simp [worthOf, hactive]

theorem slackOf_cons (hactive : i.active = true) :
    slackOf s (i :: is) = 3 + unitQuote s i + slackOf s is := by
  simp [slackOf, hactive]

/-- The world has the prices of the state, and no less of any of the tokens. -/
structure Intact (s : State env) (tokens : List Address) (w : World V) : Prop where
  observe : env.observe w.ext = env.observe s.world.ext
  held : ∀ t ∈ tokens, s.world.held env t ≤ w.held env t

theorem Intact.tail {token : Address} {tokens : List Address} (h : Intact s (token :: tokens) w) :
    Intact s tokens w :=
  ⟨h.observe, fun t ht => h.held t (List.mem_cons_of_mem _ ht)⟩

/-- A swap of one token leaves the others intact. -/
theorem Intact.swap (hkeeps : TakesOnly env) (hsteady : SteadyTwap env) {token : Address}
    {tokens : List Address} {fee amountIn minOut out : ℕ} (h : Intact s (token :: tokens) w)
    (hout : token ∉ tokens) (hu : env.usdc ∉ tokens)
    (hswap : State.swap env w token env.usdc fee amountIn minOut = .ok (w', out)) : Intact s tokens w' := by
  obtain ⟨w₁, w₂, hswap, h₁, h₂, hext₁, hext₂⟩ := swap_eq_ok hswap
  refine ⟨?_, ?_⟩
  · rw [hext₂, hsteady.same _ _ _ _ hswap, hext₁]
    exact h.observe
  · intro t ht
    have hne : t ≠ token := by
      rintro rfl
      exact hout ht
    have hne' : t ≠ env.usdc := by
      rintro rfl
      exact hu ht
    have hle := hkeeps.le _ _ _ _ hswap rfl t hne hne'
    rw [h₁] at hle
    rw [h₂]
    exact (h.held t (List.mem_cons_of_mem _ ht)).trans hle

/-- What the loop of `_sellProportional` brings, against the part of what the preview counts. -/
theorem sellLoop_bound (hpools : PoolsPair env) (hkeeps : TakesOnly env) (hmin : HonoursMinimum env)
    (hsteady : SteadyTwap env) {sh supply acc usdcOut : ℕ} {swaps : List Swapped} (hsupply : 0 < supply)
    (hnodup : (activeTokens is).Nodup) (hintact : Intact s (activeTokens is) w)
    (h : s.sellLoop sh supply w is acc = .ok (w', usdcOut, swaps)) :
    ∃ income, usdcOut = acc + income ∧
      sh * worthOf s is * (maxBps - s.maxSlippageBps.1) ≤ supply * maxBps * (income + slackOf s is) := by
  induction is generalizing w acc usdcOut swaps with
  | nil =>
    cases h
    exact ⟨0, rfl, by simp [worthOf]⟩
  | cons i is ih =>
    unfold State.sellLoop at h
    cases hactive : i.active with
    | false =>
      rw [if_pos hactive] at h
      rw [activeTokens_cons_of_not hactive] at hnodup hintact
      obtain ⟨income, hsum, hle⟩ := ih hnodup hintact h
      exact ⟨income, hsum, by simpa [worthOf, slackOf, hactive] using hle⟩
    | true =>
      rw [if_neg (by simp [hactive])] at h
      rw [activeTokens_cons hactive] at hnodup hintact
      obtain ⟨hout, hnodup⟩ := List.nodup_cons.mp hnodup
      have hheld := hintact.held i.token (List.mem_cons_self)
      -- the entry brings `received`, the rest of the list `income`
      have hadd : ∀ received {income quote : ℕ},
          s.twapUsdcValue s.world.ext i.pool i.token (share (w.held env i.token) supply sh) = .ok quote →
          quote * (maxBps - s.maxSlippageBps.1) ≤ maxBps * (received + 1) →
          sh * worthOf s is * (maxBps - s.maxSlippageBps.1) ≤ supply * maxBps * (income + slackOf s is) →
          sh * worthOf s (i :: is) * (maxBps - s.maxSlippageBps.1) ≤
            supply * maxBps * (received + income + slackOf s (i :: is)) := by
        intro received income quote hquote hreceived hrest
        have hentry := entry_bound hsupply hheld hquote hreceived
        rw [worthOf_cons hactive, slackOf_cons hactive, Nat.mul_add, Nat.add_mul]
        calc _ ≤ _ := Nat.add_le_add hentry hrest
          _ = _ := by ring
      -- nothing is sold
      have hskip : share (w.held env i.token) supply sh = 0 → s.sellLoop sh supply w is acc =
          .ok (w', usdcOut, swaps) → ∃ income, usdcOut = acc + income ∧
            sh * worthOf s (i :: is) * (maxBps - s.maxSlippageBps.1) ≤
              supply * maxBps * (income + slackOf s (i :: is)) := by
        intro hzero hloop
        obtain ⟨income, hsum, hle⟩ := ih hnodup hintact.tail hloop
        have hquote : s.twapUsdcValue s.world.ext i.pool i.token (share (w.held env i.token) supply sh) =
            .ok 0 := by
          rw [hzero]
          rfl
        have hle' := hadd 0 hquote (by simp) hle
        rw [Nat.zero_add] at hle'
        exact ⟨income, hsum, hle'⟩
      by_cases hnone : w.held env i.token = 0
      · rw [if_pos hnone] at h
        exact hskip (by rw [hnone, share, Nat.zero_mul, Nat.zero_div]) h
      · rw [if_neg hnone] at h
        obtain ⟨sellAmount, hsell, h⟩ := bind_eq_ok.mp h
        obtain ⟨-, -, hamount⟩ := mulDiv_eq_ok.mp hsell
        by_cases hzero : sellAmount = 0
        · rw [if_pos hzero] at h
          exact hskip (hamount.symm.trans hzero) h
        · rw [if_neg hzero] at h
          simp only [bind_eq_ok, Prod.exists, pure_eq_ok, Prod.mk.injEq] at h
          obtain ⟨quote, hquote, minOut, hfloor, w₁, received, hswap, acc', hacc, w₂, out, rest, hloop, rfl,
            rfl, rfl⟩ := h
          obtain ⟨-, rfl⟩ := addU_eq_ok.mp hacc
          obtain ⟨income, hsum, hle⟩ := ih hnodup
            (hintact.swap hkeeps hsteady hout hpools.usdc_not_mem hswap) hloop
          obtain ⟨_, _, hrouted, -⟩ := swap_eq_ok hswap
          have hpaid : minOut ≤ received := hmin.le _ _ _ _ hrouted
          rw [twapUsdcValue_congr hintact.observe, hamount] at hquote
          have hreceived : quote * (maxBps - s.maxSlippageBps.1) ≤ maxBps * (received + 1) :=
            (slippageFloor_lt hfloor).trans (Nat.mul_le_mul_left _ (by omega))
          refine ⟨received + income, by rw [hsum, Nat.add_assoc], hadd _ hquote hreceived hle⟩

/-! ### The whole redemption -/

/-- The gross amount that `previewRedeem` starts from. -/
def grossPreview (s : State env) (total sh : ℕ) : ℕ :=
  sh * (total + 1) / (s.shares.totalSupply + virtualShares)

/-- The rounding slack of a redemption: two units, three for each active token, and the quote of one smallest
unit of each. -/
def roundingSlack (s : State env) : ℕ :=
  2 + 3 * s.activeAssetCount + (s.activeAssets.map (unitQuote s)).sum

theorem roundingSlack_eq (s : State env) : roundingSlack s = 2 + slackOf s s.assets := by
  unfold roundingSlack slackOf State.activeAssetCount State.activeAssets
  induction s.assets.filter fun i => i.active with
  | nil => rfl
  | cons i is ih =>
    simp only [List.length_cons, List.map_cons, List.sum_cons] at ih ⊢
    omega

theorem convertToAssets_eq_ok {sh gross : ℕ} (h : s.convertToAssets sh = .ok gross) :
    ∃ total, s.totalAssets = .ok total ∧ gross = grossPreview s total sh := by
  unfold State.convertToAssets at h
  simp only [bind_eq_ok] at h
  obtain ⟨total, htotal, total', hadd, supply, hsupply, h⟩ := h
  obtain ⟨-, rfl⟩ := addU_eq_ok.mp hadd
  obtain ⟨-, rfl⟩ := addU_eq_ok.mp hsupply
  exact ⟨total, htotal, (mulDiv_eq_ok.mp h).2.2⟩

/-- Taking a fee off loses no order, and no more than the difference. -/
theorem net_le {gross preview d fee : ℕ} (hfee : fee ≤ maxBps) (h : preview ≤ gross + d) :
    preview - share preview maxBps fee ≤ gross - share gross maxBps fee + d := by
  have hgross : share gross maxBps fee ≤ gross := by
    refine Nat.div_le_of_le_mul ?_
    rw [Nat.mul_comm]
    exact Nat.mul_le_mul_right gross hfee
  rcases Nat.le_total preview gross with hle | hle
  · obtain ⟨k, rfl⟩ := Nat.exists_eq_add_of_le hle
    have hshare := share_add_le (x := preview) (d := k) hfee
    omega
  · have hshare := share_le_share (D := maxBps) (w := fee) hle
    omega

section Redemption

variable {sender receiver owner : Address} {sh previewed : ℕ} {swaps : List Swapped}
  {charge : ExitFeeCharged}

/-- What is collected, against the gross preview. -/
theorem gross_bound (hpools : PoolsPair env) (hkeeps : TakesOnly env) (hmin : HonoursMinimum env)
    (hsteady : SteadyTwap env) (hnodup : (activeTokens s.assets).Nodup)
    (hsupply : 0 < s.shares.totalSupply) {total gross : ℕ} (hle : sh ≤ s.shares.totalSupply)
    (htotal : s.totalAssets = .ok total)
    (hsell : s.sellProportional sh s.shares.totalSupply = .ok (w', gross, swaps)) :
    grossPreview s total sh * (maxBps - s.maxSlippageBps.1) ≤ maxBps * (gross + roundingSlack s) := by
  unfold State.sellProportional at hsell
  obtain ⟨part, hpart, hloop⟩ := bind_eq_ok.mp hsell
  have hpart := idlePart_eq hpart
  obtain ⟨income, hincome, hbound⟩ :=
    sellLoop_bound hpools hkeeps hmin hsteady hsupply hnodup ⟨rfl, fun _ _ => Nat.le_refl _⟩ hloop
  have hworth : total = s.idle + worthOf s s.assets := totalAssets_eq_ok htotal
  set S := s.shares.totalSupply with hS
  set rest := maxBps - s.maxSlippageBps.1 with hrest
  have hrestle : rest ≤ maxBps := Nat.sub_le _ _
  have hidle : s.idle * sh ≤ S * (part + 1) := by
    have hlt := lt_share_mul_add (x := s.idle) (w := sh) hsupply
    rw [← hpart] at hlt
    calc s.idle * sh ≤ part * S + S := hlt.le
      _ = S * (part + 1) := by ring
  have hpreview : grossPreview s total sh * S ≤ sh * (total + 1) := by
    calc grossPreview s total sh * S ≤ grossPreview s total sh * (S + virtualShares) :=
          Nat.mul_le_mul_left _ (Nat.le_add_right _ _)
      _ ≤ sh * (total + 1) := Nat.div_mul_le_self _ _
  refine Nat.le_of_mul_le_mul_right ?_ hsupply
  calc grossPreview s total sh * rest * S = grossPreview s total sh * S * rest := by ring
    _ ≤ sh * (total + 1) * rest := Nat.mul_le_mul_right rest hpreview
    _ = s.idle * sh * rest + sh * worthOf s s.assets * rest + sh * rest := by
      rw [hworth]
      ring
    _ ≤ S * (part + 1) * maxBps + S * maxBps * (income + slackOf s s.assets) + S * maxBps :=
      Nat.add_le_add (Nat.add_le_add (Nat.mul_le_mul hidle hrestle) hbound) (Nat.mul_le_mul hle hrestle)
    _ = maxBps * (part + income + (2 + slackOf s s.assets)) * S := by ring
    _ = maxBps * (gross + roundingSlack s) * S := by rw [roundingSlack_eq, hincome]

/-- **A redemption falls below its preview by the slippage and the rounding at most.**  With distinct active
tokens, a router that honours the minimum and takes nothing else, and steady prices, what a redemption
collects is at least the gross preview less the slippage and the rounding slack; and so what it pays falls
below `previewRedeem` by no more than the slippage on the gross preview and the slack. -/
theorem redemption_slippage_bounded (hpools : PoolsPair env) (hkeeps : TakesOnly env)
    (hmin : HonoursMinimum env) (hsteady : SteadyTwap env) (hnodup : (activeTokens s.assets).Nodup)
    (hsupply : 0 < s.shares.totalSupply)
    (h : s.redeem sender sh receiver owner = .ok (s', previewed, swaps, charge)) :
    ∃ total, s.totalAssets = .ok total ∧ s.previewRedeem sh = .ok previewed ∧
      grossPreview s total sh * (maxBps - s.maxSlippageBps.1) ≤
        maxBps * (charge.gross + roundingSlack s) ∧
      maxBps * previewed ≤ maxBps * (charge.net + roundingSlack s) +
        grossPreview s total sh * s.maxSlippageBps.1 := by
  have hin := (Redeems.redeem h).withdrawInternal
  obtain ⟨hburned, -, w, hsell, hfee, hsum, -⟩ := withdrawInternal_eq_ok hin
  have hpreview : s.previewRedeem sh = .ok previewed := by
    simp only [State.redeem, bind_eq_ok, Prod.exists, pure_eq_ok, Prod.mk.injEq] at h
    obtain ⟨_, -, assets, hassets, _, _, _, -, -, rfl, -⟩ := h
    exact hassets
  obtain ⟨gross, hgross, hnet⟩ := bind_eq_ok.mp hpreview
  obtain ⟨fee, hfee', hnet⟩ := bind_eq_ok.mp hnet
  obtain ⟨-, -, rfl⟩ := mulDiv_eq_ok.mp hfee'
  obtain ⟨-, hnet⟩ := subU_eq_ok.mp hnet
  obtain ⟨total, htotal, rfl⟩ := convertToAssets_eq_ok hgross
  have hle : sh ≤ s.shares.totalSupply := hburned.trans (s.shares.balanceOf_le_supply owner)
  have hbound := gross_bound hpools hkeeps hmin hsteady hnodup hsupply hle htotal hsell
  refine ⟨total, htotal, hpreview, hbound, ?_⟩
  set G := grossPreview s total sh with hG
  have hexit : s.exitFeeBps.1 ≤ maxBps := s.exitFeeBps.2.trans (by decide)
  have hslip : s.maxSlippageBps.1 ≤ maxBps := s.maxSlippageBps.2.trans (by decide)
  have hpaid : charge.net = charge.gross - share charge.gross maxBps s.exitFeeBps.1 := by
    rw [share, ← hfee]
    omega
  have hless : previewed ≤ charge.net + (G - charge.gross) := by
    rw [hnet, hpaid]
    exact net_le hexit (by omega)
  have hsplit : G * maxBps = G * (maxBps - s.maxSlippageBps.1) + G * s.maxSlippageBps.1 := by
    rw [← Nat.mul_add, Nat.sub_add_cancel hslip]
  have hshort : maxBps * (G - charge.gross) ≤ maxBps * roundingSlack s + G * s.maxSlippageBps.1 := by
    rw [Nat.mul_sub, Nat.mul_comm maxBps G, hsplit]
    rw [Nat.mul_add] at hbound
    omega
  calc maxBps * previewed ≤ maxBps * (charge.net + (G - charge.gross)) := Nat.mul_le_mul_left _ hless
    _ = maxBps * charge.net + maxBps * (G - charge.gross) := Nat.mul_add _ _ _
    _ ≤ maxBps * charge.net + (maxBps * roundingSlack s + G * s.maxSlippageBps.1) :=
      Nat.add_le_add_left hshort _
    _ = maxBps * (charge.net + roundingSlack s) + G * s.maxSlippageBps.1 := by ring

/-- Two thirds of the shares of `inUse` are redeemed: 67 units are previewed, and 66 paid. -/
theorem redemption_slippage_bounded_inUse :
    ∃ total, inUse.totalAssets = .ok total ∧ inUse.previewRedeem 67000000000000000000 = .ok 67 ∧
      grossPreview inUse total 67000000000000000000 * (maxBps - inUse.maxSlippageBps.1) ≤
        maxBps * (66 + roundingSlack inUse) := by
  have hrun : (inUse.redeem 5 67000000000000000000 5 5).map (fun x => (x.2.1, x.2.2.2.gross)) =
      .ok (67, 66) := by decide +kernel
  rcases hx : inUse.redeem 5 67000000000000000000 5 5 with e | ⟨s', previewed, swaps, charge⟩
  · rw [hx] at hrun
    cases hrun
  · rw [hx] at hrun
    have hvalues : (previewed, charge.gross) = (67, 66) := Except.ok.inj hrun
    obtain ⟨hpreviewed, hgross⟩ := Prod.mk.inj hvalues
    obtain ⟨total, htotal, hpreview, hbound, -⟩ := redemption_slippage_bounded poolsPair_parBasket
      (exact_par (by decide)).takesOnly honours_par steady_par (by decide +kernel) (by decide +kernel) hx
    rw [hgross] at hbound
    rw [hpreviewed] at hpreview
    exact ⟨total, htotal, hpreview, hbound⟩

end Redemption

end RobotMoney.Basket
