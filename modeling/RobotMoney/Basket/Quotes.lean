import RobotMoney.Basket.Router
import RobotMoney.Basket.TickRange

/-!
# What a quote can be relied on for

The mean tick of `_twapQuote` is the difference of the cumulative ticks divided by the window and rounded
down, whatever its sign (`arithmeticMeanTick_eq`).  At every price of `TickMath` neither branch overflows or
divides by zero (`Prices`), and the two directions are shares of the amount with reciprocal weights
(`quoteAt_reciprocal`).  So a quote and the quote back never gain (`NeverGains`, `twapQuote_safe`).
-/

namespace RobotMoney.Basket

open RobotMoney.Lib TickMath State

variable {V : Type} {env : Env V} {s : State env}

/-! ### The mean tick -/

/-- Truncating and correcting a negative quotient with a rest is rounding down. -/
theorem tdiv_corrected {delta window : ℤ} (hwindow : 0 < window) :
    (if delta < 0 ∧ delta.tmod window ≠ 0 then delta.tdiv window - 1 else delta.tdiv window) =
      delta.fdiv window := by
  rw [Int.fdiv_eq_ediv_of_nonneg _ hwindow.le, Int.tdiv_eq_ediv, Int.sign_eq_one_of_pos hwindow]
  simp only [ne_eq, ← Int.dvd_iff_tmod_eq_zero]
  by_cases hneg : delta < 0
  · by_cases hdvd : window ∣ delta
    · simp [hdvd]
    · simp [hneg, hdvd, Int.not_le.mpr hneg]
  · simp [hneg, Int.not_lt.mp hneg]

/-- The quotient of a bounded difference is a tick of the domain. -/
theorem fdiv_natAbs_le {delta : ℤ} {window bound : ℕ} (hwindow : 0 < window)
    (h : delta.natAbs ≤ bound * window) : (delta.fdiv window).natAbs ≤ bound := by
  have hpos : (0 : ℤ) < window := by exact_mod_cast hwindow
  have hle : (delta.natAbs : ℤ) ≤ bound * window := by exact_mod_cast h
  rw [Int.fdiv_eq_ediv_of_nonneg _ hpos.le]
  have hlow : -(bound : ℤ) ≤ delta / window := by
    refine (Int.le_ediv_iff_mul_le hpos).mpr ?_
    rw [Int.neg_mul]
    omega
  have hhigh : delta / window ≤ bound := by
    refine Int.ediv_le_of_le_mul hpos ?_
    omega
  omega

/-- **The mean tick is the quotient rounded down**, for every difference that stays in the domain. -/
theorem arithmeticMeanTick_eq {first last : Int56} {window : ℕ} (hwindow : 0 < window)
    (hmax : window ≤ maxTwapWindow) (h : (last.1 - first.1).natAbs ≤ maxTick * window) :
    arithmeticMeanTick [first, last] window = .ok ((last.1 - first.1).fdiv window) ∧
      ((last.1 - first.1).fdiv window).natAbs ≤ maxTick := by
  have hbound := fdiv_natAbs_le hwindow h
  refine ⟨?_, hbound⟩
  set delta := last.1 - first.1 with hdelta
  have hmost : maxTick * window ≤ maxTick * maxTwapWindow := Nat.mul_le_mul_left _ hmax
  have hsub : subI56 last first = .ok delta := by
    refine if_pos ?_
    rw [← hdelta]
    simp only [maxTick, maxTwapWindow] at h hmost
    omega
  have hpos : (0 : ℤ) < window := by exact_mod_cast hwindow
  have hfloor : (if delta < 0 ∧ delta.tmod window ≠ 0 then delta.tdiv window - 1 else delta.tdiv window) =
      delta.fdiv window := tdiv_corrected hpos
  have htrunc : (delta.tdiv window).natAbs ≤ maxTick := by
    rw [Int.natAbs_tdiv]
    refine Nat.div_le_of_le_mul ?_
    rw [Nat.mul_comm]
    exact h
  -- the narrowing to 24 bits loses nothing
  have hnarrow : (delta.tdiv window).bmod (2 ^ 24) = delta.tdiv window := by
    refine Int.bmod_eq_of_le ?_ ?_
    · simp only [maxTick] at htrunc
      omega
    · simp only [maxTick] at htrunc
      omega
  unfold arithmeticMeanTick
  simp only [elementAt, List.getElem?_cons_zero, List.getElem?_cons_succ, ok_bind, hsub, hnarrow]
  by_cases hneg : delta < 0 ∧ delta.tmod window ≠ 0
  · rw [if_pos hneg] at hfloor ⊢
    rw [hfloor]
    refine if_pos ?_
    simp only [maxTick] at hbound
    omega
  · rw [if_neg hneg] at hfloor ⊢
    rw [hfloor]
    rfl

/-- Every window that a vault reads is one the setter admits, or the default. -/
theorem effectiveTwapWindow_bounds (s : State env) (token : Address) :
    minTwapWindow ≤ s.effectiveTwapWindow token ∧ s.effectiveTwapWindow token ≤ maxTwapWindow := by
  unfold State.effectiveTwapWindow
  split
  · decide
  · rename_i hne
    exact (s.twapWindow token).2.resolve_left hne

/-! ### Prices -/

/-- What both branches compute from the square root of the price: the square fits and is not zero, and so
does the ratio with fewer fractional bits. -/
structure Prices (sqrtP : ℕ) : Prop where
  square : sqrtP ≤ 2 ^ 128 - 1 → 0 < sqrtP * sqrtP ∧ sqrtP * sqrtP < wordSize
  ratio : 2 ^ 128 - 1 < sqrtP → ∃ ratioX128, (mulDiv sqrtP sqrtP (2 ^ 64) : Call BasketError ℕ) = .ok ratioX128 ∧
    0 < ratioX128 ∧ ratioX128 < wordSize

theorem Prices.of_range {sqrtP : ℕ} (hlow : minSqrtRatio ≤ sqrtP) (hhigh : sqrtP < 2 ^ 160) :
    Prices sqrtP := by
  have hpos : 0 < sqrtP := lt_of_lt_of_le (by decide) hlow
  refine ⟨?_, ?_⟩
  · intro hsmall
    refine ⟨Nat.mul_pos hpos hpos, lt_of_le_of_lt (Nat.mul_le_mul hsmall hsmall) ?_⟩
    decide
  · intro hlarge
    have hfits : sqrtP * sqrtP / 2 ^ 64 < wordSize := by
      refine Nat.div_lt_of_lt_mul ?_
      calc sqrtP * sqrtP < 2 ^ 160 * 2 ^ 160 := Nat.mul_lt_mul'' hhigh hhigh
        _ = 2 ^ 64 * wordSize := by decide
    refine ⟨_, mulDiv_eq_ok.mpr ⟨by decide, hfits, rfl⟩, ?_, hfits⟩
    refine Nat.div_pos ?_ (by decide)
    calc 2 ^ 64 ≤ 2 ^ 128 * 2 ^ 128 := by decide
      _ ≤ sqrtP * sqrtP := Nat.mul_le_mul (by omega) (by omega)

/-- The two directions of a quote are shares of the amount with reciprocal weights. -/
theorem quoteAt_reciprocal {sqrtP : ℕ} (hprices : Prices sqrtP) (zeroForOne : Bool) :
    ∃ num den, 0 < num ∧ 0 < den ∧ ∀ y, quoteAt sqrtP zeroForOne y = mulDiv y num den ∧
      quoteAt sqrtP (!zeroForOne) y = mulDiv y den num := by
  -- both branches scale by a ratio of so many fractional bits, up or down
  have hbranch : ∃ ratio scale, 0 < ratio ∧ 0 < scale ∧ ∀ y, quoteAt sqrtP true y = mulDiv y ratio scale ∧
      quoteAt sqrtP false y = mulDiv y scale ratio := by
    unfold quoteAt
    by_cases hsmall : sqrtP ≤ 2 ^ 128 - 1
    · obtain ⟨hpos, hfits⟩ := hprices.square hsmall
      have hsquare : (mulU sqrtP sqrtP : Call BasketError ℕ) = .ok (sqrtP * sqrtP) :=
        mulU_eq_ok.mpr ⟨hfits, rfl⟩
      refine ⟨sqrtP * sqrtP, 2 ^ 192, hpos, Nat.two_pow_pos _, fun y => ⟨?_, ?_⟩⟩
      · rw [if_pos hsmall, hsquare, ok_bind, if_pos rfl]
      · rw [if_pos hsmall, hsquare, ok_bind, if_neg Bool.false_ne_true]
    · obtain ⟨ratio, hratio, hpos, -⟩ := hprices.ratio (Nat.not_le.mp hsmall)
      refine ⟨ratio, 2 ^ 128, hpos, Nat.two_pow_pos _, fun y => ⟨?_, ?_⟩⟩
      · rw [if_neg hsmall, hratio, ok_bind, if_pos rfl]
      · rw [if_neg hsmall, hratio, ok_bind, if_neg Bool.false_ne_true]
  obtain ⟨ratio, scale, hratio, hscale, hquote⟩ := hbranch
  cases zeroForOne with
  | false => exact ⟨scale, ratio, hscale, hratio, fun y => (hquote y).symm⟩
  | true => exact ⟨ratio, scale, hratio, hscale, hquote⟩

/-! ### Quotes there and back -/

/-- A quote `there` and the quote `back`: the way back never gains, more is never quoted less, parts are
quoted no more than the whole, and a quote fails only where it does not fit a word. -/
structure NeverGains (there back : ℕ → Call BasketError ℕ) : Prop where
  roundTrip : ∀ x y z, there x = .ok y → back y = .ok z → z ≤ x
  monotone : ∀ x y v, x ≤ y → there y = .ok v → ∃ u, there x = .ok u ∧ u ≤ v
  superadditive : ∀ x y v, there (x + y) = .ok v → ∃ a b, there x = .ok a ∧ there y = .ok b ∧ a + b ≤ v
  reverts : ∀ x e, there x = .error e → e = .panic .arithmetic

theorem mulDiv_ok_of_le {x y num den v : ℕ} (hle : x ≤ y) (h : (mulDiv y num den : Call BasketError ℕ) = .ok v) :
    (mulDiv x num den : Call BasketError ℕ) = .ok (share x den num) ∧ share x den num ≤ v := by
  obtain ⟨hden, hfits, rfl⟩ := mulDiv_eq_ok.mp h
  have hshare : share x den num ≤ share y den num := share_le_share hle
  exact ⟨mulDiv_eq_ok.mpr ⟨hden, lt_of_le_of_lt hshare hfits, rfl⟩, hshare⟩

/-- Shares with reciprocal weights never gain. -/
theorem NeverGains.of_reciprocal {there back : ℕ → Call BasketError ℕ} {num den : ℕ} (hden : 0 < den)
    (hthere : ∀ y, there y = mulDiv y num den) (hback : ∀ y, back y = mulDiv y den num) :
    NeverGains there back := by
  refine ⟨?_, ?_, ?_, ?_⟩
  · intro x y z hy hz
    rw [hthere] at hy
    rw [hback] at hz
    obtain ⟨-, -, rfl⟩ := mulDiv_eq_ok.mp hy
    obtain ⟨-, -, rfl⟩ := mulDiv_eq_ok.mp hz
    exact share_share_le
  · intro x y v hle hv
    rw [hthere] at hv
    obtain ⟨hx, hshare⟩ := mulDiv_ok_of_le hle hv
    exact ⟨_, (hthere x).trans hx, hshare⟩
  · intro x y v hv
    rw [hthere] at hv
    obtain ⟨hx, -⟩ := mulDiv_ok_of_le (Nat.le_add_right x y) hv
    obtain ⟨hy, -⟩ := mulDiv_ok_of_le (Nat.le_add_left y x) hv
    obtain ⟨-, -, rfl⟩ := mulDiv_eq_ok.mp hv
    exact ⟨_, _, (hthere x).trans hx, (hthere y).trans hy, share_add_share_le hden⟩
  · intro x e he
    rw [hthere, mulDiv, if_neg hden.ne'] at he
    split at he
    · cases he
    · cases he
      rfl

section Vault

variable {ext : V} {pool token : Address} {ticks : List Int56} {tick : ℤ} {sqrtP : ℕ}

/-- The quotes of a vault at a price. -/
theorem twapQuote_eq (htoken : token ≠ env.usdc)
    (hobserve : env.observe ext pool [s.effectiveTwapWindow token, 0] = .ok ticks)
    (htick : arithmeticMeanTick ticks (s.effectiveTwapWindow token) = .ok tick)
    (hsqrt : getSqrtRatioAtTick tick = .ok sqrtP) {y : ℕ} (hy : y ≠ 0) :
    s.twapUsdcValue ext pool token y = quoteAt sqrtP (decide (token.val < env.usdc.val)) y ∧
      s.twapTokenValue ext pool token y = quoteAt sqrtP (!decide (token.val < env.usdc.val)) y := by
  have hflip : decide (env.usdc.val < token.val) = !decide (token.val < env.usdc.val) := by
    have hne : token.val ≠ env.usdc.val := fun heq => htoken (Fin.ext heq)
    rw [← decide_not, decide_eq_decide]
    omega
  unfold State.twapUsdcValue State.twapTokenValue State.twapQuote
  rw [if_neg hy, if_neg hy, if_neg htoken, if_pos rfl]
  simp only [hobserve, Lib.inner, ok_bind, htick, hsqrt, hflip, and_self]

/-- The two quotes of a token, at one price. -/
theorem twapQuote_reciprocal (htoken : token ≠ env.usdc)
    (hobserve : env.observe ext pool [s.effectiveTwapWindow token, 0] = .ok ticks)
    (htick : arithmeticMeanTick ticks (s.effectiveTwapWindow token) = .ok tick)
    (hsqrt : getSqrtRatioAtTick tick = .ok sqrtP) :
    ∃ num den, 0 < num ∧ 0 < den ∧ ∀ y, s.twapUsdcValue ext pool token y = mulDiv y num den ∧
      s.twapTokenValue ext pool token y = mulDiv y den num := by
  obtain ⟨-, hlow, hhigh⟩ := getSqrtRatioAtTick_eq_ok hsqrt
  obtain ⟨num, den, hnum, hden, hquote⟩ :=
    quoteAt_reciprocal (.of_range hlow hhigh) (decide (token.val < env.usdc.val))
  refine ⟨num, den, hnum, hden, fun y => ?_⟩
  have hnone : ∀ n d, 0 < d → (mulDiv 0 n d : Call BasketError ℕ) = .ok 0 := by
    intro n d hd
    refine mulDiv_eq_ok.mpr ⟨hd, ?_, ?_⟩ <;> rw [Nat.zero_mul, Nat.zero_div]
    exact Nat.two_pow_pos _
  by_cases hy : y = 0
  · subst hy
    rw [hnone _ _ hden, hnone _ _ hnum]
    exact ⟨rfl, rfl⟩
  · obtain ⟨husdc, htoken'⟩ := twapQuote_eq htoken hobserve htick hsqrt hy
    rw [husdc, htoken']
    exact hquote y

/-- **Quotes are safe and never gain.**  When the pool answers two cumulative ticks whose difference stays in
the domain, the mean tick is the quotient rounded down, it has a price, both branches compute with it, and in
either direction a quote and the quote back never gain. -/
theorem twapQuote_safe (s : State env) (ext : V) (pool token : Address) (htoken : token ≠ env.usdc)
    (first last : Int56)
    (hobserve : env.observe ext pool [s.effectiveTwapWindow token, 0] = .ok [first, last])
    (hdelta : (last.1 - first.1).natAbs ≤ maxTick * s.effectiveTwapWindow token) :
    ∃ tick sqrtP, arithmeticMeanTick [first, last] (s.effectiveTwapWindow token) = .ok tick ∧
      tick = (last.1 - first.1).fdiv (s.effectiveTwapWindow token) ∧ tick.natAbs ≤ maxTick ∧
      getSqrtRatioAtTick tick = .ok sqrtP ∧ minSqrtRatio ≤ sqrtP ∧ sqrtP < 2 ^ 160 ∧ Prices sqrtP ∧
      NeverGains (s.twapTokenValue ext pool token) (s.twapUsdcValue ext pool token) ∧
      NeverGains (s.twapUsdcValue ext pool token) (s.twapTokenValue ext pool token) := by
  obtain ⟨hmin, hmax⟩ := effectiveTwapWindow_bounds s token
  have hpos : 0 < s.effectiveTwapWindow token := lt_of_lt_of_le (by decide) hmin
  obtain ⟨htick, hdomain⟩ := arithmeticMeanTick_eq hpos hmax hdelta
  obtain ⟨sqrtP, hsqrt, hlow, hhigh⟩ := getSqrtRatioAtTick_range _ hdomain
  obtain ⟨num, den, hnum, hden, hquotes⟩ := twapQuote_reciprocal htoken hobserve htick hsqrt
  refine ⟨_, sqrtP, htick, rfl, hdomain, hsqrt, hlow, hhigh, .of_range hlow hhigh, ?_, ?_⟩
  · exact .of_reciprocal hnum (fun y => (hquotes y).2) fun y => (hquotes y).1
  · exact .of_reciprocal hden (fun y => (hquotes y).1) fun y => (hquotes y).2

/-- The cumulative tick falls by one over the default window: the mean tick is minus one. -/
theorem twapQuote_safe_falling : ∃ tick sqrtP,
    arithmeticMeanTick [⟨0, zero_int56⟩, ⟨-1, by decide⟩] defaultTwapWindow = .ok tick ∧ tick = -1 ∧
      getSqrtRatioAtTick tick = .ok sqrtP ∧ Prices sqrtP ∧
      NeverGains ((quotedVault ⟨-1, by decide⟩).twapTokenValue () 11 10)
        ((quotedVault ⟨-1, by decide⟩).twapUsdcValue () 11 10) := by
  obtain ⟨tick, sqrtP, htick, hfloor, -, hsqrt, -, -, hprices, hgain, -⟩ :=
    twapQuote_safe (quotedVault ⟨-1, by decide⟩) () 11 10 (by decide) ⟨0, zero_int56⟩ ⟨-1, by decide⟩ rfl
      (by decide)
  exact ⟨tick, sqrtP, htick, hfloor, hsqrt, hprices, hgain⟩

end Vault

end RobotMoney.Basket
