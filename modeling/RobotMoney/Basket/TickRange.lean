import RobotMoney.Basket.Twap

/-!
# The range of `getSqrtRatioAtTick`

The ratio of a tick is a product with one factor for each bit of it, and every factor is below one.  Among the
ticks up to a limit the least ratio is found bit by bit from the lowest on, with two numbers: the least over
the ticks whose lower bits are at most those of the limit, and the least over all (`leastRatio`).  The square
root of the price of every tick of the domain lies between those of its two ends
(`getSqrtRatioAtTick_range`).
-/

namespace RobotMoney.Basket.TickMath

open RobotMoney.Lib

/-- `MIN_SQRT_RATIO`, the value at the lowest tick. -/
def minSqrtRatio : ℕ := 4295128739

/-- A lower bound of `scale` over the ticks up to a limit: `tight` bounds the ratio of those whose bits below
`bit` are at most those of the limit, `loose` the ratio of all. -/
def leastRatio (limit : ℕ) : ℕ → List ℕ → ℕ → ℕ → ℕ
  | _, [], tight, _ => tight
  | bit, factor :: factors, tight, loose =>
    leastRatio limit (bit + 1) factors
      (if limit.testBit bit then min loose (tight * factor / 2 ^ 128) else tight)
      (loose * factor / 2 ^ 128)

/-- A factor is below one. -/
theorem mul_factor_le {ratio factor : ℕ} (h : factor < 2 ^ 128) : ratio * factor / 2 ^ 128 ≤ ratio := by
  refine Nat.div_le_of_le_mul ?_
  rw [Nat.mul_comm]
  exact Nat.mul_le_mul_right ratio h.le

/-- One more bit of a tick. -/
theorem mod_two_pow_succ (t bit : ℕ) :
    t % 2 ^ (bit + 1) = t % 2 ^ bit + 2 ^ bit * (t.testBit bit).toNat := by
  rw [Nat.mod_pow_succ, Nat.toNat_testBit]

/-- Scaling succeeds, and stays above the least ratio. -/
theorem scale_ok {absTick limit : ℕ} {fs : List ℕ} (hfactors : ∀ f ∈ fs, f < 2 ^ 128) {bit : ℕ}
    {ratio tight loose : ℕ} (hratio : ratio ≤ 2 ^ 128) (hloose : loose ≤ ratio)
    (htight : absTick % 2 ^ bit ≤ limit % 2 ^ bit → tight ≤ ratio) :
    ∃ v, scale absTick bit fs ratio = .ok v ∧ v ≤ 2 ^ 128 ∧
      (absTick % 2 ^ (bit + fs.length) ≤ limit % 2 ^ (bit + fs.length) →
        leastRatio limit bit fs tight loose ≤ v) := by
  induction fs generalizing bit ratio tight loose with
  | nil => exact ⟨ratio, rfl, hratio, htight⟩
  | cons factor fs ih =>
    have hfactor := hfactors factor List.mem_cons_self
    have hrest : ∀ f ∈ fs, f < 2 ^ 128 := fun f hf => hfactors f (List.mem_cons_of_mem _ hf)
    have hmod := mod_two_pow_succ absTick bit
    have hmod' := mod_two_pow_succ limit bit
    have hlt : limit % 2 ^ bit < 2 ^ bit := Nat.mod_lt _ (Nat.two_pow_pos bit)
    have hlength : bit + (factor :: fs).length = bit + 1 + fs.length := by
      rw [List.length_cons]
      omega
    rw [hlength]
    unfold scale leastRatio
    by_cases hbit : absTick.testBit bit = true
    · -- the factor is taken
      rw [if_pos hbit]
      rw [hbit] at hmod
      have hfits : ratio * factor < wordSize := by
        calc ratio * factor ≤ 2 ^ 128 * factor := Nat.mul_le_mul_right factor hratio
          _ < 2 ^ 128 * 2 ^ 128 := Nat.mul_lt_mul_of_pos_left hfactor (Nat.two_pow_pos _)
          _ = wordSize := by decide
      rw [mulU_eq_ok.mpr ⟨hfits, rfl⟩, ok_bind]
      refine ih hrest ((mul_factor_le hfactor).trans hratio) (Nat.div_le_div_right
        (Nat.mul_le_mul_right factor hloose)) ?_
      intro hle
      rw [hmod, hmod'] at hle
      cases hlimit : limit.testBit bit with
      | true =>
        rw [hlimit] at hle
        have hlow := htight (by simpa using hle)
        rw [if_pos rfl]
        exact (Nat.min_le_right _ _).trans (Nat.div_le_div_right (Nat.mul_le_mul_right factor hlow))
      | false =>
        rw [hlimit] at hle
        simp only [Bool.toNat_true, Bool.toNat_false, Nat.mul_one, Nat.mul_zero, Nat.add_zero] at hle
        omega
    · rw [if_neg hbit]
      rw [Bool.eq_false_of_not_eq_true hbit] at hmod
      refine ih hrest hratio ((mul_factor_le hfactor).trans hloose) ?_
      intro hle
      rw [hmod, hmod'] at hle
      cases hlimit : limit.testBit bit with
      | true =>
        rw [if_pos rfl]
        exact (Nat.min_le_left _ _).trans hloose
      | false =>
        rw [if_neg Bool.false_ne_true]
        rw [hlimit] at hle
        exact htight (by simpa using hle)

theorem factors_lt : ∀ f ∈ factors, f < 2 ^ 128 := by decide

/-- The ratio of the lowest tick is the least. -/
theorem leastRatio_maxTick :
    leastRatio maxTick 1 factors (2 ^ 128) 0xfffcb933bd6fad37aa2d162d1a594001 = 18447437462383981825 := by
  decide +kernel

/-- The ratio of every tick of the domain. -/
theorem scale_range {absTick : ℕ} (h : absTick ≤ maxTick) :
    ∃ v, scale absTick 1 factors
        (if absTick.testBit 0 then 0xfffcb933bd6fad37aa2d162d1a594001 else 2 ^ 128) = .ok v ∧
      18447437462383981825 ≤ v ∧ v ≤ 2 ^ 128 := by
  have hlow : absTick % 2 ^ 1 ≤ maxTick % 2 ^ 1 →
      2 ^ 128 ≤ if absTick.testBit 0 then 0xfffcb933bd6fad37aa2d162d1a594001 else 2 ^ 128 := by
    intro hle
    have heven : absTick.testBit 0 = false := by
      rw [Nat.testBit_zero]
      simp only [maxTick] at hle
      simp
      omega
    rw [heven]
    simp
  have hsmall : ∀ t, t ≤ maxTick → t % 2 ^ (1 + factors.length) = t := by
    intro t ht
    refine Nat.mod_eq_of_lt (lt_of_le_of_lt ht ?_)
    decide
  have hloose : 0xfffcb933bd6fad37aa2d162d1a594001 ≤
      if absTick.testBit 0 then 0xfffcb933bd6fad37aa2d162d1a594001 else 2 ^ 128 := by
    split <;> decide
  obtain ⟨v, hv, hle, hleast⟩ := scale_ok factors_lt (by split <;> decide) hloose hlow
  rw [hsmall _ h, hsmall _ le_rfl, leastRatio_maxTick] at hleast
  exact ⟨v, hv, hleast h, hle⟩

/-- `(ratio >> 32) + (ratio % (1 << 32) == 0 ? 0 : 1)` rounds up. -/
theorem shift_up_bounds (ratio : ℕ) :
    ratio ≤ (ratio / 2 ^ 32 + if ratio % 2 ^ 32 = 0 then 0 else 1) * 2 ^ 32 ∧
      (ratio / 2 ^ 32 + if ratio % 2 ^ 32 = 0 then 0 else 1) ≤ ratio / 2 ^ 32 + 1 := by
  split <;> omega

/-- **The range of the square root of the price.**  At every tick of the domain, and at no other, the call
answers, with a value of 160 bits that is no less than the one at the lowest tick. -/
theorem getSqrtRatioAtTick_range (tick : ℤ) (h : tick.natAbs ≤ maxTick) :
    ∃ sqrtP, getSqrtRatioAtTick tick = .ok sqrtP ∧ minSqrtRatio ≤ sqrtP ∧ sqrtP < 2 ^ 160 := by
  obtain ⟨v, hv, hlow, hhigh⟩ := scale_range h
  have hwrap : ∀ ratio, 18447437462383981825 ≤ ratio → ratio ≤ maxWord / 18447437462383981825 →
      minSqrtRatio ≤ (ratio / 2 ^ 32 + if ratio % 2 ^ 32 = 0 then 0 else 1) % 2 ^ 160 ∧
        (ratio / 2 ^ 32 + if ratio % 2 ^ 32 = 0 then 0 else 1) % 2 ^ 160 < 2 ^ 160 := by
    intro ratio hlow hhigh
    obtain ⟨hup, hle⟩ := shift_up_bounds ratio
    have hmost : ratio / 2 ^ 32 + 1 < 2 ^ 160 := by
      have hdiv : ratio / 2 ^ 32 ≤ maxWord / 18447437462383981825 / 2 ^ 32 := Nat.div_le_div_right hhigh
      refine lt_of_le_of_lt (Nat.succ_le_succ hdiv) ?_
      decide
    rw [Nat.mod_eq_of_lt (lt_of_le_of_lt hle hmost)]
    refine ⟨?_, lt_of_le_of_lt hle hmost⟩
    unfold minSqrtRatio
    omega
  unfold getSqrtRatioAtTick
  simp only [revertIf_neg (Nat.not_lt.mpr h), ok_bind, hv]
  by_cases hsign : 0 < tick
  · -- a positive tick has the reciprocal of the ratio
    have hne : v ≠ 0 := by omega
    rw [if_pos hsign, if_neg hne]
    refine ⟨_, rfl, hwrap _ ?_ (Nat.div_le_div_left hlow (by decide))⟩
    have hdiv : maxWord / 2 ^ 128 ≤ maxWord / v := Nat.div_le_div_left hhigh (by omega)
    refine le_trans ?_ hdiv
    decide
  · rw [if_neg hsign]
    refine ⟨_, rfl, hwrap v hlow (hhigh.trans ?_)⟩
    decide

theorem getSqrtRatioAtTick_eq_ok {tick : ℤ} {sqrtP : ℕ} (h : getSqrtRatioAtTick tick = .ok sqrtP) :
    tick.natAbs ≤ maxTick ∧ minSqrtRatio ≤ sqrtP ∧ sqrtP < 2 ^ 160 := by
  have hdomain : tick.natAbs ≤ maxTick := by
    unfold getSqrtRatioAtTick at h
    obtain ⟨_, hin, -⟩ := bind_eq_ok.mp h
    exact Nat.not_lt.mp (revertIf_eq_ok.mp hin)
  obtain ⟨sqrtP', hok, hlow, hhigh⟩ := getSqrtRatioAtTick_range tick hdomain
  obtain rfl : sqrtP' = sqrtP := Except.ok.inj (hok.symm.trans h)
  exact ⟨hdomain, hlow, hhigh⟩

end RobotMoney.Basket.TickMath
