import RobotMoney.Basket.Quotes
import RobotMoney.Basket.Routing

/-!
# A deposit and the redemption of what it minted

A deposit mints shares at the price of all assets and one unit over all shares and the virtual ones; a
redemption pays the redeemer's part of the balances, over the shares alone.  With a router at the quotes,
buying does not add to what the vault's balances are worth (`routeLoop_worth`), and what a redemption collects
is at most its part of that (`sellLoop_worth`).  What comes back is then at most the minted part of the assets,
the deposit, and one unit of rounding for each token (`roundTrip_bounded`): no more than the deposit and that
rounding while the assets are at most the supply over the virtual shares, and more where they exceed it
(`roundTrip_gains`).
-/

namespace RobotMoney.Basket

open RobotMoney.Lib State TickMath

variable {V : Type} {env : Env V} {s s₁ s₂ : State env} {is : List (AssetInfo env)} {i : AssetInfo env}
  {w w' : World V} {ext ext' : V}

/-! ### Prices -/

/-- A price of the token of an entry that both of its quotes round down from. -/
structure Fair (s : State env) (ext : V) (i : AssetInfo env) (price : ℚ) : Prop where
  nonneg : 0 ≤ price
  sells : ∀ y v, s.twapUsdcValue ext i.pool i.token y = .ok v → v ≤ y * price ∧ y * price < v + 1
  buys : ∀ x q, s.twapTokenValue ext i.pool i.token x = .ok q → q * price ≤ x

/-- The rounded share, against the exact one. -/
theorem share_cast_bounds {x D n : ℕ} (hD : 0 < D) :
    (share x D n : ℚ) ≤ x * (n / D) ∧ (x * (n / D) : ℚ) < share x D n + 1 := by
  have hpos : (0 : ℚ) < D := by exact_mod_cast hD
  have hlow : (share x D n * D : ℚ) ≤ x * n := by exact_mod_cast share_mul_le (x := x) (D := D) (w := n)
  have hhigh : (x * n : ℚ) < share x D n * D + D := by
    exact_mod_cast lt_share_mul_add (x := x) (w := n) hD
  rw [← mul_div_assoc]
  refine ⟨(le_div_iff₀ hpos).mpr hlow, (div_lt_iff₀ hpos).mpr ?_⟩
  rw [add_mul, one_mul]
  exact hhigh

/-- A quote of a positive amount has been computed from a price. -/
theorem twapQuote_eq_ok {pool token : Address} {x v : ℕ} (hx : x ≠ 0) (htoken : token ≠ env.usdc)
    (h : s.twapUsdcValue ext pool token x = .ok v ∨ s.twapTokenValue ext pool token x = .ok v) :
    ∃ ticks tick sqrtP, env.observe ext pool [s.effectiveTwapWindow token, 0] = .ok ticks ∧
      arithmeticMeanTick ticks (s.effectiveTwapWindow token) = .ok tick ∧
      getSqrtRatioAtTick tick = .ok sqrtP := by
  unfold State.twapUsdcValue State.twapTokenValue State.twapQuote at h
  rw [if_neg hx, if_neg htoken, if_neg hx, if_pos rfl] at h
  rcases h with h | h
  all_goals
    simp only [bind_eq_ok, inner_eq_ok] at h
    obtain ⟨ticks, hticks, tick, htick, sqrtP, hsqrt, -⟩ := h
    exact ⟨ticks, tick, sqrtP, hticks, htick, hsqrt⟩

/-- Every entry has a price. -/
theorem exists_fair (hpools : PoolsPair env) (s : State env) (ext : V) (i : AssetInfo env) :
    ∃ price, Fair s ext i price := by
  have htoken := hpools.token_ne_usdc i
  by_cases hpriced : ∃ ticks tick sqrtP,
      env.observe ext i.pool [s.effectiveTwapWindow i.token, 0] = .ok ticks ∧
        arithmeticMeanTick ticks (s.effectiveTwapWindow i.token) = .ok tick ∧
        getSqrtRatioAtTick tick = .ok sqrtP
  · obtain ⟨ticks, tick, sqrtP, hobserve, htick, hsqrt⟩ := hpriced
    obtain ⟨num, den, hnum, hden, hquotes⟩ := twapQuote_reciprocal htoken hobserve htick hsqrt
    have hnum' : (0 : ℚ) < num := by exact_mod_cast hnum
    have hden' : (0 : ℚ) < den := by exact_mod_cast hden
    refine ⟨num / den, by positivity, ?_, ?_⟩
    · intro y v hv
      rw [(hquotes y).1] at hv
      obtain ⟨-, -, rfl⟩ := mulDiv_eq_ok.mp hv
      exact share_cast_bounds hden
    · intro x q hq
      rw [(hquotes x).2] at hq
      obtain ⟨-, -, rfl⟩ := mulDiv_eq_ok.mp hq
      have hle := (share_cast_bounds (x := x) (n := den) hnum).1
      calc (share x num den : ℚ) * (num / den) ≤ x * (den / num) * (num / den) :=
            mul_le_mul_of_nonneg_right hle (by positivity)
        _ = x := by field_simp
  · -- nothing but the quote of nothing succeeds
    have hnone : ∀ y v, s.twapUsdcValue ext i.pool i.token y = .ok v ∨
        s.twapTokenValue ext i.pool i.token y = .ok v → y = 0 := by
      intro y v h
      by_contra hy
      exact hpriced (twapQuote_eq_ok hy htoken h)
    refine ⟨0, le_rfl, ?_, ?_⟩
    · intro y v hv
      obtain rfl := hnone y v (.inl hv)
      cases hv
      simp
    · intro x q hq
      simp

/-- Quotes are computed from the windows and from what the pools report. -/
theorem twapQuote_congr (hwindow : s₁.twapWindow = s.twapWindow)
    (hobserve : env.observe ext' = env.observe ext) (pool tokenIn tokenOut : Address) (x : ℕ) :
    s₁.twapQuote ext' pool tokenIn tokenOut x = s.twapQuote ext pool tokenIn tokenOut x := by
  unfold State.twapQuote State.effectiveTwapWindow
  rw [hwindow, hobserve]

theorem Fair.congr {price : ℚ} (h : Fair s ext i price) (hwindow : s₁.twapWindow = s.twapWindow)
    (hobserve : env.observe ext' = env.observe ext) : Fair s₁ ext' i price := by
  have hsame := twapQuote_congr hwindow hobserve
  refine ⟨h.nonneg, ?_, ?_⟩
  · intro y v hv
    exact h.sells y v ((hsame _ _ _ _).symm.trans hv)
  · intro x q hq
    exact h.buys x q ((hsame _ _ _ _).symm.trans hq)

/-- The router is at the quotes of every vault with the same entries and windows. -/
theorem AtQuotes.congr (h : AtQuotes s) (hassets : s₁.assets = s.assets)
    (hwindow : s₁.twapWindow = s.twapWindow) : AtQuotes s₁ := by
  have hactive : s₁.activeAssets = s.activeAssets := by
    unfold State.activeAssets
    rw [hassets]
  refine ⟨?_, ?_⟩
  · intro i hi w p w' out hswap hpos hin hout
    exact (twapQuote_congr hwindow rfl _ _ _ _).trans (h.buys i (hactive ▸ hi) w p w' out hswap hpos hin hout)
  · intro i hi w p w' out hswap hpos hin hout
    exact (twapQuote_congr hwindow rfl _ _ _ _).trans (h.sells i (hactive ▸ hi) w p w' out hswap hpos hin hout)

/-! ### What the balances are worth -/

/-- What the balances of the active tokens are worth at given prices, unrounded. -/
def worthAt (price : AssetInfo env → ℚ) (w : World V) (is : List (AssetInfo env)) : ℚ :=
  ((is.filter fun i => i.active).map fun i => w.held env i.token * price i).sum

section WorthAt

variable {price : AssetInfo env → ℚ}

theorem worthAt_cons (hactive : i.active = true) :
    worthAt price w (i :: is) = w.held env i.token * price i + worthAt price w is := by
  simp [worthAt, hactive]

theorem worthAt_cons_of_not (hactive : i.active = false) : worthAt price w (i :: is) = worthAt price w is := by
  simp [worthAt, hactive]

theorem worthAt_congr (h : ∀ t ∈ activeTokens is, w'.held env t = w.held env t) :
    worthAt price w' is = worthAt price w is := by
  unfold worthAt
  refine congrArg List.sum (List.map_congr_left ?_)
  intro i hi
  rw [h i.token (List.mem_map.mpr ⟨i, hi, rfl⟩)]

/-- What `totalAssets` counts falls short of the worth by less than a unit for each active entry. -/
theorem totalLoop_worth (hfair : ∀ i, Fair s s.world.ext i (price i)) {sum A : ℕ}
    (h : s.totalLoop sum is = .ok A) :
    sum + worthAt price s.world is ≤ A + (activeTokens is).length ∧
      (activeTokens is ≠ [] → sum + worthAt price s.world is < A + (activeTokens is).length) := by
  induction is generalizing sum with
  | nil =>
    cases h
    simp [worthAt, activeTokens]
  | cons i is ih =>
    unfold State.totalLoop at h
    cases hactive : i.active with
    | false =>
      rw [if_pos hactive] at h
      rw [worthAt_cons_of_not hactive, activeTokens_cons_of_not hactive]
      exact ih h
    | true =>
      rw [if_neg (by simp [hactive])] at h
      rw [worthAt_cons hactive, activeTokens_cons hactive, List.length_cons]
      -- each entry loses less than a unit
      have hentry : ∃ value, s.totalLoop (sum + value) is = .ok A ∧
          s.world.held env i.token * price i < value + 1 := by
        by_cases hheld : 0 < s.world.held env i.token
        · rw [if_pos hheld] at h
          simp only [bind_eq_ok] at h
          obtain ⟨value, hvalue, sum', hsum, h⟩ := h
          obtain ⟨-, rfl⟩ := addU_eq_ok.mp hsum
          exact ⟨value, h, ((hfair i).sells _ _ hvalue).2⟩
        · rw [if_neg hheld] at h
          have hzero : s.world.held env i.token = 0 := by omega
          refine ⟨0, h, ?_⟩
          rw [hzero]
          simp
      obtain ⟨value, hloop, hlt⟩ := hentry
      have hrest := (ih hloop).1
      push_cast at hrest ⊢
      refine ⟨?_, fun _ => ?_⟩ <;> linarith

end WorthAt

/-! ### Buying and selling at the quotes -/

section Loops

variable {price : AssetInfo env → ℚ} {swaps : List Swapped}

/-- A swap leaves the prices. -/
theorem swap_observe (hsteady : SteadyTwap env) {tokenIn tokenOut : Address} {fee amountIn minOut out : ℕ}
    (h : State.swap env w tokenIn tokenOut fee amountIn minOut = .ok (w', out)) :
    env.observe w'.ext = env.observe w.ext := by
  obtain ⟨w₁, w₂, hswap, -, -, hext, hext'⟩ := swap_eq_ok h
  rw [hext', hsteady.same _ _ _ _ hswap, hext]

/-- A swap from USDC at the quotes. -/
theorem AtQuotes.swap_buys (hquotes : AtQuotes s) (hi : i ∈ s.activeAssets) {amountIn minOut fee out : ℕ}
    (hpos : 0 < amountIn) (hfair : Fair s w.ext i (price i))
    (h : State.swap env w env.usdc i.token fee amountIn minOut = .ok (w', out)) :
    (out : ℚ) * price i ≤ amountIn := by
  obtain ⟨w₁, w₂, hswap, -, -, hext, -⟩ := swap_eq_ok h
  have hquote := hquotes.buys i hi _ _ _ _ hswap hpos rfl rfl
  rw [hext] at hquote
  exact hfair.buys _ _ hquote

/-- A swap into USDC at the quotes. -/
theorem AtQuotes.swap_sells (hquotes : AtQuotes s) (hi : i ∈ s.activeAssets) {amountIn minOut fee out : ℕ}
    (hpos : 0 < amountIn) (hfair : Fair s w.ext i (price i))
    (h : State.swap env w i.token env.usdc fee amountIn minOut = .ok (w', out)) :
    (out : ℚ) ≤ amountIn * price i := by
  obtain ⟨w₁, w₂, hswap, -, -, hext, -⟩ := swap_eq_ok h
  have hquote := hquotes.sells i hi _ _ _ _ hswap hpos rfl rfl
  rw [hext] at hquote
  exact (hfair.sells _ _ hquote).1

theorem mem_activeAssets_of_cons (hin : ∀ j ∈ i :: is, j.active = true → j ∈ s.activeAssets) :
    ∀ j ∈ is, j.active = true → j ∈ s.activeAssets :=
  fun j hj => hin j (List.mem_cons_of_mem _ hj)

/-- What routing does to the balances: it leaves the prices, and the vault's USDC and tokens together are
worth no more than before. -/
structure Bought (price : AssetInfo env → ℚ) (is : List (AssetInfo env)) (w w' : World V) : Prop where
  observe : env.observe w'.ext = env.observe w.ext
  worth : w'.held env env.usdc + worthAt price w' is ≤ w.held env env.usdc + worthAt price w is

/-- **Buying adds nothing.** -/
theorem routeLoop_worth (hpools : PoolsPair env) (hexact : ExactRouter env) (hsteady : SteadyTwap env)
    (hquotes : AtQuotes s) (hfair : ∀ i, Fair s s.world.ext i (price i))
    (hin : ∀ j ∈ is, j.active = true → j ∈ s.activeAssets) (hnodup : (activeTokens is).Nodup)
    (hobserve : env.observe w.ext = env.observe s.world.ext) {perAsset remainder : ℕ} {first : Bool}
    (h : s.routeLoop perAsset remainder w is first = .ok (w', swaps)) : Bought price is w w' := by
  induction is generalizing w first swaps with
  | nil =>
    cases h
    exact ⟨rfl, le_rfl⟩
  | cons i is ih =>
    unfold State.routeLoop at h
    cases hactive : i.active with
    | false =>
      rw [if_pos hactive] at h
      rw [activeTokens_cons_of_not hactive] at hnodup
      obtain ⟨hsame, hworth⟩ := ih (mem_activeAssets_of_cons hin) hnodup hobserve h
      refine ⟨hsame, ?_⟩
      rw [worthAt_cons_of_not hactive, worthAt_cons_of_not hactive]
      exact hworth
    | true =>
      rw [if_neg (by simp [hactive])] at h
      rw [activeTokens_cons hactive] at hnodup
      obtain ⟨hout, hnodup⟩ := List.nodup_cons.mp hnodup
      have hne := hpools.token_ne_usdc i
      dsimp only at h
      generalize (if first = true then perAsset + remainder else perAsset) = swapIn at h
      by_cases hzero : swapIn = 0
      · rw [if_pos hzero] at h
        obtain ⟨hsame, hworth⟩ := ih (mem_activeAssets_of_cons hin) hnodup hobserve h
        refine ⟨hsame, ?_⟩
        rw [worthAt_cons hactive, worthAt_cons hactive, routeLoop_other hexact.leavesOthers h hout hne]
        linarith
      · rw [if_neg hzero] at h
        simp only [bind_eq_ok, Prod.exists, pure_eq_ok, Prod.mk.injEq] at h
        obtain ⟨quote, -, minOut, -, w₁, out, hswap, w₂, rest, hloop, rfl, rfl⟩ := h
        have hsame := swap_observe hsteady hswap
        obtain ⟨htakes, hpays, hother⟩ := hexact.swap hne.symm hswap
        have hbuys := hquotes.swap_buys (hin i List.mem_cons_self hactive) (Nat.pos_of_ne_zero hzero)
          ((hfair i).congr rfl hobserve) hswap
        have hkept : worthAt price w₁ is = worthAt price w is := worthAt_congr fun t ht =>
          hother t (fun heq => hpools.usdc_not_mem (heq ▸ ht)) fun heq => hout (heq ▸ ht)
        obtain ⟨hrest, hworth⟩ := ih (mem_activeAssets_of_cons hin) hnodup (hsame.trans hobserve) hloop
        refine ⟨hrest.trans hsame, ?_⟩
        -- the entry's token is not bought again
        rw [worthAt_cons hactive, worthAt_cons hactive, routeLoop_other hexact.leavesOthers hloop hout hne,
          hpays]
        rw [hkept] at hworth
        have htakes : (w₁.held env env.usdc : ℚ) + swapIn = w.held env env.usdc := by exact_mod_cast htakes
        push_cast
        linarith

/-- **Selling collects at most the part of the worth.** -/
theorem sellLoop_worth (hpools : PoolsPair env) (hexact : ExactRouter env) (hsteady : SteadyTwap env)
    (hquotes : AtQuotes s) (hfair : ∀ i, Fair s s.world.ext i (price i))
    (hin : ∀ j ∈ is, j.active = true → j ∈ s.activeAssets) (hnodup : (activeTokens is).Nodup)
    (hobserve : env.observe w.ext = env.observe s.world.ext) {sh supply acc usdcOut : ℕ}
    (h : s.sellLoop sh supply w is acc = .ok (w', usdcOut, swaps)) :
    (usdcOut : ℚ) ≤ acc + worthAt price w is * (sh / supply) := by
  induction is generalizing w acc usdcOut swaps with
  | nil =>
    cases h
    simp [worthAt]
  | cons i is ih =>
    unfold State.sellLoop at h
    cases hactive : i.active with
    | false =>
      rw [if_pos hactive] at h
      rw [activeTokens_cons_of_not hactive] at hnodup
      rw [worthAt_cons_of_not hactive]
      exact ih (mem_activeAssets_of_cons hin) hnodup hobserve h
    | true =>
      rw [if_neg (by simp [hactive])] at h
      rw [activeTokens_cons hactive] at hnodup
      obtain ⟨hout, hnodup⟩ := List.nodup_cons.mp hnodup
      have hne := hpools.token_ne_usdc i
      have hpart : (0 : ℚ) ≤ w.held env i.token * price i * (sh / supply) :=
        mul_nonneg (mul_nonneg (Nat.cast_nonneg _) (hfair i).nonneg) (by positivity)
      rw [worthAt_cons hactive, add_mul]
      -- an entry that is not sold brings nothing
      have hskip : s.sellLoop sh supply w is acc = .ok (w', usdcOut, swaps) →
          (usdcOut : ℚ) ≤ acc + (w.held env i.token * price i * (sh / supply) +
            worthAt price w is * (sh / supply)) := by
        intro hloop
        have hrest := ih (mem_activeAssets_of_cons hin) hnodup hobserve hloop
        linarith
      by_cases hheld : w.held env i.token = 0
      · rw [if_pos hheld] at h
        exact hskip h
      · rw [if_neg hheld] at h
        obtain ⟨sellAmount, hsell, h⟩ := bind_eq_ok.mp h
        obtain ⟨hsupply, -, hamount⟩ := mulDiv_eq_ok.mp hsell
        by_cases hzero : sellAmount = 0
        · rw [if_pos hzero] at h
          exact hskip h
        · rw [if_neg hzero] at h
          simp only [bind_eq_ok, Prod.exists, pure_eq_ok, Prod.mk.injEq] at h
          obtain ⟨quote, -, minOut, -, w₁, received, hswap, acc', hacc, w₂, out, rest, hloop, rfl, rfl,
            rfl⟩ := h
          obtain ⟨-, rfl⟩ := addU_eq_ok.mp hacc
          have hsame := swap_observe hsteady hswap
          obtain ⟨-, -, hother⟩ := hexact.swap hne hswap
          have hkept : worthAt price w₁ is = worthAt price w is := worthAt_congr fun t ht =>
            hother t (fun heq => hout (heq ▸ ht)) fun heq => hpools.usdc_not_mem (heq ▸ ht)
          have hsells := hquotes.swap_sells (hin i List.mem_cons_self hactive) (Nat.pos_of_ne_zero hzero)
            ((hfair i).congr rfl hobserve) hswap
          have hrest := ih (mem_activeAssets_of_cons hin) hnodup (hsame.trans hobserve) hloop
          have hsold : (sellAmount : ℚ) ≤ w.held env i.token * (sh / supply) := by
            rw [hamount]
            exact (share_cast_bounds hsupply).1
          have hreceived : (received : ℚ) ≤ w.held env i.token * price i * (sh / supply) := by
            calc (received : ℚ) ≤ sellAmount * price i := hsells
              _ ≤ w.held env i.token * (sh / supply) * price i :=
                mul_le_mul_of_nonneg_right hsold (hfair i).nonneg
              _ = w.held env i.token * price i * (sh / supply) := by ring
          rw [hkept] at hrest
          push_cast at hrest
          linarith

end Loops

/-! ### There and back -/

section RoundTrip

variable {caller receiver sender owner dst : Address} {X sh previewed : ℕ} {swaps swaps' : List Swapped}
  {charge : ExitFeeCharged}

/-- What a deposit mints. -/
theorem deposit_eq_ok (h : s.deposit caller X receiver = .ok (s₁, sh, swaps)) :
    s.depositInternal caller receiver X sh = .ok (s₁, swaps) ∧ ∃ A, s.totalAssets = .ok A ∧
      sh = X * (s.shares.totalSupply + virtualShares) / (A + 1) := by
  unfold State.deposit State.convertToShares at h
  simp only [bind_eq_ok, Prod.exists, pure_eq_ok, Prod.mk.injEq] at h
  obtain ⟨_, ⟨supply, hsupply, A, htotal, total, hone, hdiv⟩, _, _, hin, rfl, rfl, rfl⟩ := h
  obtain ⟨-, rfl⟩ := addU_eq_ok.mp hsupply
  obtain ⟨-, rfl⟩ := addU_eq_ok.mp hone
  exact ⟨hin, A, htotal, (mulDiv_eq_ok.mp hdiv).2.2⟩

theorem routeDeposit_worth (hpools : PoolsPair env) (hexact : ExactRouter env) (hsteady : SteadyTwap env)
    (hquotes : AtQuotes s) {price : AssetInfo env → ℚ} (hfair : ∀ i, Fair s s.world.ext i (price i))
    (hnodup : (activeTokens s.assets).Nodup) (h : s.routeDeposit X = .ok (s₁, swaps)) :
    Bought price s.assets s.world s₁.world := by
  unfold State.routeDeposit at h
  split at h
  · cases h
    exact ⟨rfl, le_rfl⟩
  · simp only [bind_eq_ok, Prod.exists, pure_eq_ok, Prod.mk.injEq] at h
    obtain ⟨w, rest, hloop, rfl, -⟩ := h
    exact routeLoop_worth hpools hexact hsteady hquotes hfair
      (fun j hj hactive => List.mem_filter.mpr ⟨hj, hactive⟩) hnodup rfl hloop

/-- What the vault's balances are worth after a deposit: no more than before it, and the deposit. -/
theorem depositInternal_worth (hpools : PoolsPair env) (hexact : ExactRouter env) (hsteady : SteadyTwap env)
    (hquotes : AtQuotes s) {price : AssetInfo env → ℚ} (hfair : ∀ i, Fair s s.world.ext i (price i))
    (hnodup : (activeTokens s.assets).Nodup)
    (h : s.depositInternal caller receiver X sh = .ok (s₁, swaps)) :
    s₁ = { s with shares := s₁.shares, world := s₁.world } ∧
      s₁.shares.totalSupply = s.shares.totalSupply + sh ∧
      env.observe s₁.world.ext = env.observe s.world.ext ∧
      s₁.idle + worthAt price s₁.world s.assets ≤ s.idle + worthAt price s.world s.assets + X := by
  obtain ⟨-, -, -, -, total, usdc, shares, -, -, husdc, hmint, hroute⟩ := depositInternal_eq_ok h
  obtain ⟨-, hfits, rfl⟩ := Token.mint_eq_ok.mp hmint
  have hframe := routeDeposit_frame hroute
  set w₀ := s.world.setLedger env.usdc usdc with hw₀
  have hbought := routeDeposit_worth hpools hexact hsteady (hquotes.congr (by rfl) (by rfl))
    (fun i => (hfair i).congr (by rfl) (by rfl)) (by exact hnodup) hroute
  have hpulled : w₀.held env env.usdc ≤ s.idle + X := by
    rw [hw₀, held_setLedger_self, (Token.transferFrom_balances husdc).2.1]
    by_cases hself : caller = env.self
    · subst hself
      rw [Token.moved_self (Token.transferFrom_balances husdc).1]
      exact Nat.le_add_right _ _
    · exact (Token.moved_dst hself).le
  have hothers : worthAt price w₀ s.assets = worthAt price s.world s.assets := worthAt_congr fun t ht =>
    held_setLedger_of_ne fun heq => hpools.usdc_not_mem (heq ▸ ht)
  have hworth := hbought.worth
  rw [hothers] at hworth
  have hpulled : (w₀.held env env.usdc : ℚ) ≤ s.idle + X := by exact_mod_cast hpulled
  refine ⟨by rw [hframe], by rw [hframe]; rfl, hbought.observe, ?_⟩
  change (s₁.world.held env env.usdc : ℚ) + _ ≤ _
  linarith

/-- What a redemption collects of what the balances are worth. -/
theorem redeem_worth (hpools : PoolsPair env) (hexact : ExactRouter env) (hsteady : SteadyTwap env)
    (hquotes : AtQuotes s) {price : AssetInfo env → ℚ} (hfair : ∀ i, Fair s s.world.ext i (price i))
    (hnodup : (activeTokens s.assets).Nodup)
    (h : s.redeem sender sh receiver owner = .ok (s₁, previewed, swaps, charge)) :
    (charge.net : ℚ) ≤ (s.idle + worthAt price s.world s.assets) * (sh / s.shares.totalSupply) := by
  obtain ⟨-, -, w, hsell, -, hsum, -⟩ := withdrawInternal_eq_ok (Redeems.redeem h).withdrawInternal
  obtain ⟨part, hpart, hloop⟩ := bind_eq_ok.mp hsell
  have hworth := sellLoop_worth hpools hexact hsteady hquotes hfair
    (fun j hj hactive => List.mem_filter.mpr ⟨hj, hactive⟩) hnodup rfl hloop
  have hidle : (part : ℚ) ≤ s.idle * (sh / s.shares.totalSupply) := by
    rw [idlePart_eq hpart]
    rcases Nat.eq_zero_or_pos s.shares.totalSupply with hzero | hpos
    · rw [hzero]
      simp [share]
    · exact (share_cast_bounds hpos).1
  have hnet : (charge.net : ℚ) ≤ charge.gross := by
    have hle : charge.net ≤ charge.gross := by omega
    exact_mod_cast hle
  rw [add_mul]
  linarith

/-- Where a unit of assets has at least the virtual shares, the minted part of the assets is at most the
amount's part of the supply. -/
theorem minted_mul_le {A S : ℕ} (h : A * virtualShares ≤ S) :
    X * (S + virtualShares) / (A + 1) * A ≤ X * S := by
  have hmint : X * (S + virtualShares) / (A + 1) * (A + 1) ≤ X * (S + virtualShares) := Nat.div_mul_le_self _ _
  refine Nat.le_of_mul_le_mul_right ?_ (Nat.succ_pos A)
  calc X * (S + virtualShares) / (A + 1) * A * (A + 1)
      = X * (S + virtualShares) / (A + 1) * (A + 1) * A := by ring
    _ ≤ X * (S + virtualShares) * A := Nat.mul_le_mul_right A hmint
    _ = X * (S * A + A * virtualShares) := by ring
    _ ≤ X * (S * A + S) := Nat.mul_le_mul_left X (Nat.add_le_add_left h _)
    _ = X * S * (A + 1) := by ring

/-- A vault with distinct active tokens and no exit fee, and a router that trades at its quotes. -/
structure Ideal (s : State env) : Prop where
  pools : PoolsPair env
  exact : ExactRouter env
  steady : SteadyTwap env
  quotes : AtQuotes s
  nodup : (activeTokens s.assets).Nodup
  noFee : s.exitFeeBps.1 = 0

/-- **What a round trip brings.**  With distinct active tokens, no exit fee and a router at the quotes,
redeeming the shares that a deposit of `X` has minted brings at most their part of the assets before, the
deposit and one unit for each active token.  Where a unit of assets has at least the virtual shares, that is
less than one unit for each active token above `X`. -/
theorem roundTrip_bounded (hideal : Ideal s)
    (hdeposit : s.deposit caller X receiver = .ok (s₁, sh, swaps))
    (hredeem : s₁.redeem sender sh dst owner = .ok (s₂, previewed, swaps', charge)) :
    ∃ A, s.totalAssets = .ok A ∧
      charge.net * (s.shares.totalSupply + sh) ≤ sh * (A + X + s.activeAssetCount) ∧
      (A * virtualShares ≤ s.shares.totalSupply → charge.net < X + s.activeAssetCount) := by
  obtain ⟨hpools, hexact, hsteady, hquotes, hnodup, -⟩ := hideal
  obtain ⟨hin, A, htotal, hsh⟩ := deposit_eq_ok hdeposit
  refine ⟨A, htotal, ?_⟩
  choose price hfair using exists_fair hpools s s.world.ext
  obtain ⟨hstorage, hsupply, hobserve, hworth⟩ :=
    depositInternal_worth hpools hexact hsteady hquotes hfair hnodup hin
  have hassets : s₁.assets = s.assets := by rw [hstorage]
  have hwindow : s₁.twapWindow = s.twapWindow := by rw [hstorage]
  have hpaid := redeem_worth hpools hexact hsteady (hquotes.congr hassets hwindow)
    (fun i => (hfair i).congr hwindow hobserve) (by rw [hassets]; exact hnodup) hredeem
  rw [hassets, hsupply] at hpaid
  obtain ⟨hcounted, hstrict⟩ := totalLoop_worth hfair htotal
  have hcount : (activeTokens s.assets).length = s.activeAssetCount := List.length_map _
  rw [hcount] at hcounted hstrict
  have hsome : activeTokens s.assets ≠ [] := by
    obtain ⟨-, -, -, hactive, -⟩ := depositInternal_eq_ok hin
    exact List.ne_nil_of_length_pos (hcount ▸ hactive)
  have hstrict := hstrict hsome
  set S := s.shares.totalSupply with hS
  set n := s.activeAssetCount with hn
  set value := (s₁.idle : ℚ) + worthAt price s₁.world s.assets with hvalue
  have hvalue_lt : value < A + X + n := by linarith
  -- the payout is a part of the value
  have hpart : (charge.net : ℚ) * (S + sh) ≤ sh * value := by
    rcases Nat.eq_zero_or_pos (S + sh) with hzero | hpos
    · obtain ⟨hS0, hsh0⟩ := Nat.add_eq_zero_iff.mp hzero
      simp [hS0, hsh0]
    · have hpos' : (0 : ℚ) < (S + sh : ℕ) := by exact_mod_cast hpos
      have hmul := mul_le_mul_of_nonneg_right hpaid hpos'.le
      calc (charge.net : ℚ) * (S + sh) = charge.net * (S + sh : ℕ) := by push_cast; ring
        _ ≤ value * (sh / (S + sh : ℕ)) * (S + sh : ℕ) := hmul
        _ = sh * value := by field_simp
  have hsh0 : (0 : ℚ) ≤ sh := Nat.cast_nonneg _
  refine ⟨?_, ?_⟩
  · have hle : (charge.net : ℚ) * (S + sh) ≤ sh * (A + X + n) :=
      hpart.trans (mul_le_mul_of_nonneg_left hvalue_lt.le hsh0)
    exact_mod_cast hle
  · intro hrel
    have hn0 : 0 < n := hcount ▸ List.length_pos_of_ne_nil hsome
    rcases Nat.eq_zero_or_pos sh with hnone | hpos
    · rw [hnone] at hpaid
      have hnothing : (charge.net : ℚ) ≤ 0 := by simpa using hpaid
      have hnothing : charge.net ≤ 0 := by exact_mod_cast hnothing
      omega
    · have hpos' : (0 : ℚ) < sh := by exact_mod_cast hpos
      have hlt : (charge.net : ℚ) * (S + sh) < sh * (A + X + n) :=
        lt_of_le_of_lt hpart (mul_lt_mul_of_pos_left hvalue_lt hpos')
      have hlt : charge.net * (S + sh) < sh * (A + X + n) := by exact_mod_cast hlt
      have hfair' : sh * A ≤ X * S := hsh ▸ minted_mul_le hrel
      refine Nat.lt_of_mul_lt_mul_right (a := S + sh) ?_
      calc charge.net * (S + sh) < sh * (A + X + n) := hlt
        _ = sh * A + sh * (X + n) := by ring
        _ ≤ X * S + n * S + sh * (X + n) := by omega
        _ = (X + n) * (S + sh) := by ring

end RoundTrip

/-! ### Vaults that are given something -/

/-- What `user` gets who deposits `X` and at once redeems the shares minted for it. -/
def roundTrip (s : State env) (user : Address) (X : ℕ) : Call BasketError ℕ := do
  let (s, sh, _) ← s.deposit user X user
  let (_, _, _, charge) ← s.redeem user sh user user
  pure charge.net

/-- The router gives the vault some units of a token. -/
def given (w : World Unit) (token : Address) (amount : ℕ) : World Unit :=
  if h : amount ≤ (w.ledger token).balanceOf 3 then w.setLedger token ((w.ledger token).move 3 1 amount h)
  else w

/-- A vault with one token at par, to which a hundred units of USDC are given. -/
def donated : State (quotedBasket ⟨0, zero_int56⟩) :=
  run exec (quotedVault ⟨0, zero_int56⟩)
    [callBy 20 (.addAsset 10 11 500), callBy 5 (.elsewhere (given parWorld 2 100))]

/-- The cumulative tick of a price of nearly a million units of a token for one of USDC. -/
def cheap : Int56 := ⟨138160 * 1800, by decide⟩

theorem issuable_reserve : (Token.empty : Token Address).totalSupply + 1000000000000 < wordSize := by decide

/-- A vault with two cheap tokens, in which one unit of USDC was deposited. -/
def started : State (quotedBasket cheap) :=
  run exec { quotedVault cheap with
      world := { parWorld with
        ledger := fun token =>
          if token = 2 then parWorld.ledger 2 else Token.empty.issue 3 1000000000000 issuable_reserve } }
    [callBy 20 (.addAsset 10 11 500), callBy 20 (.addAsset 13 14 500), callBy 5 (.deposit 1 5)]

/-- The same vault, when it is given less than a unit's worth of each token. -/
def dusty : State (quotedBasket cheap) :=
  run exec started [callBy 5 (.elsewhere (given (given started.world 10 997600) 13 998900))]

theorem poolsPair_quotedBasket (last : Int56) : PoolsPair (quotedBasket last) := by
  refine poolsPair_quoted fun pool => ?_
  change (if pool = 11 ∨ pool = 12 then some 10 else if pool = 14 then some 13 else none) ≠ some 2
  split
  · decide
  · split <;> decide

/-- A vault among these surroundings that reads the default window. -/
theorem ideal_quotedBasket {last : Int56} {s : State (quotedBasket last)}
    (hwindow : ∀ i ∈ s.activeAssets, s.effectiveTwapWindow i.token = defaultTwapWindow)
    (hnodup : (activeTokens s.assets).Nodup) (hfee : s.exitFeeBps.1 = 0) : Ideal s :=
  ⟨poolsPair_quotedBasket last, exact_quoted (by decide), steady_quoted,
    atQuotes_quoted (poolsPair_quotedBasket last) hwindow, hnodup, hfee⟩

theorem ideal_dusty : Ideal dusty :=
  ideal_quotedBasket (by decide +kernel) (by decide +kernel) (by decide +kernel)

/-- Who deposits a hundred units in `donated` is paid two hundred; and in `dusty`, whose supply is the virtual
shares for its one unit of assets, a hundred and one. -/
theorem roundTrip_gains :
    (Ideal donated ∧ roundTrip donated 5 100 = .ok 200) ∧
      Ideal dusty ∧ dusty.totalAssets = .ok 1 ∧ dusty.shares.totalSupply = virtualShares ∧
      roundTrip dusty 5 100 = .ok 101 := by
  refine ⟨⟨?_, by decide +kernel⟩, ideal_dusty, by decide +kernel, by decide +kernel, by decide +kernel⟩
  exact ideal_quotedBasket (by decide +kernel) (by decide +kernel) (by decide +kernel)

/-- In `dusty` the bound is reached: with two active tokens, one unit above the deposit. -/
theorem roundTrip_bounded_dusty : ∃ s₁ sh swaps s₂ previewed swaps' charge,
    dusty.deposit 5 100 5 = .ok (s₁, sh, swaps) ∧ s₁.redeem 5 sh 5 5 = .ok (s₂, previewed, swaps', charge) ∧
      charge.net = 101 ∧ charge.net < 100 + dusty.activeAssetCount := by
  have hrun : roundTrip dusty 5 100 = .ok 101 := by decide +kernel
  unfold roundTrip at hrun
  simp only [bind_eq_ok, Prod.exists, pure_eq_ok] at hrun
  obtain ⟨s₁, sh, swaps, hdeposit, s₂, previewed, swaps', charge, hredeem, hnet⟩ := hrun
  obtain ⟨A, htotal, -, hless⟩ := roundTrip_bounded ideal_dusty hdeposit hredeem
  have hone : dusty.totalAssets = .ok 1 := by decide +kernel
  obtain rfl : A = 1 := Except.ok.inj (htotal.symm.trans hone)
  exact ⟨s₁, sh, swaps, s₂, previewed, swaps', charge, hdeposit, hredeem, hnet, hless (by decide +kernel)⟩

end RobotMoney.Basket
