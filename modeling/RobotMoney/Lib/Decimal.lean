import Mathlib.Algebra.Order.Floor.Semifield
import Mathlib.Data.Rat.Floor
import Mathlib.Tactic

/-!
# Decimal notation

A numeral is a text of decimal digits, perhaps with a minus sign before it, and perhaps with a point and
more digits behind it.  It stands for a rational number, and many numerals stand for the same one; those
without superfluous zeros, points and signs are the shortest (`Canonical.shortest`).  A text is at most
one numeral (`text_injective`).
-/

namespace RobotMoney.Lib

/-! ### Digits -/

/-- The number that digits stand for. -/
def digitsValue (cs : List Char) : ℕ := Nat.ofDigitChars 10 cs 0

section Digits

variable {cs ds : List Char} {c : Char} {n : ℕ}

theorem digitsValue_append : digitsValue (cs ++ ds) = 10 ^ ds.length * digitsValue cs + digitsValue ds := by
  unfold digitsValue
  rw [Nat.ofDigitChars_append, Nat.ofDigitChars_eq_ofDigitChars_zero]

theorem digitsValue_singleton : digitsValue [c] = c.toNat - '0'.toNat := by
  unfold digitsValue
  rw [Nat.ofDigitChars_cons, Nat.ofDigitChars_nil, Nat.mul_zero, Nat.zero_add]

theorem digitsValue_zeros : digitsValue (List.replicate n '0') = 0 := by
  unfold digitsValue
  rw [Nat.ofDigitChars_replicate_zero, Nat.mul_zero]

theorem digitsValue_append_zeros : digitsValue (cs ++ List.replicate n '0') = 10 ^ n * digitsValue cs := by
  rw [digitsValue_append, digitsValue_zeros, List.length_replicate, Nat.add_zero]

theorem digit_bounds (h : c.isDigit = true) : 48 ≤ c.toNat ∧ c.toNat ≤ 57 := by
  simpa [Char.isDigit, Char.le_def, UInt32.le_iff_toNat_le] using h

theorem digitsValue_lt (h : ∀ c ∈ cs, c.isDigit = true) : digitsValue cs < 10 ^ cs.length := by
  induction cs using List.reverseRecOn with
  | nil => exact Nat.one_pos
  | append_singleton cs c ih =>
    have hcs := ih fun c hc => h c (List.mem_append_left _ hc)
    have hc := digit_bounds (h c (by simp))
    rw [digitsValue_append, digitsValue_singleton, List.length_append, List.length_singleton, pow_succ]
    have hzero : '0'.toNat = 48 := rfl
    omega

/-- A list of digits that begins with another one than zero is as great as its length says. -/
theorem le_digitsValue (hc : c.isDigit = true) (hne : c ≠ '0') : 10 ^ cs.length ≤ digitsValue (c :: cs) := by
  have hpos : 1 ≤ digitsValue [c] := by
    rw [digitsValue_singleton]
    have hbounds := digit_bounds hc
    have hne : c.toNat ≠ 48 := fun h => hne (Char.toNat_inj.mp h)
    have hzero : '0'.toNat = 48 := rfl
    omega
  have happend : digitsValue ([c] ++ cs) = 10 ^ cs.length * digitsValue [c] + digitsValue cs :=
    digitsValue_append
  rw [show c :: cs = [c] ++ cs from rfl, happend]
  exact (Nat.le_mul_of_pos_right _ hpos).trans (Nat.le_add_right _ _)

/-- A number ends with zero if its digits do. -/
theorem digitsValue_mod (hc : c.isDigit = true) (hne : c ≠ '0') : digitsValue (cs ++ [c]) % 10 ≠ 0 := by
  have hbounds := digit_bounds hc
  have hne : c.toNat ≠ 48 := fun h => hne (Char.toNat_inj.mp h)
  have hzero : '0'.toNat = 48 := rfl
  rw [digitsValue_append, digitsValue_singleton, List.length_singleton]
  omega

theorem digitsValue_toDigits : digitsValue (Nat.toDigits 10 n) = n := Nat.ofDigitChars_ten_toDigits

/-- The first digits of a number. -/
theorem digitsValue_take (h : ∀ c ∈ cs, c.isDigit = true) :
    digitsValue (cs.take n) = digitsValue cs / 10 ^ (cs.length - n) := by
  have hlt := digitsValue_lt fun c hc => h c (List.mem_of_mem_drop (i := n) hc)
  have hvalue : digitsValue (cs.take n ++ cs.drop n) =
      10 ^ (cs.drop n).length * digitsValue (cs.take n) + digitsValue (cs.drop n) := digitsValue_append
  rw [List.take_append_drop, List.length_drop] at hvalue
  rw [List.length_drop] at hlt
  rw [hvalue, Nat.mul_add_div (Nat.pow_pos (by omega)), Nat.div_eq_of_lt hlt, Nat.add_zero]

/-- No number begins with a zero but zero. -/
theorem toDigits_head (h : (Nat.toDigits 10 n).head? = some '0') : Nat.toDigits 10 n = ['0'] := by
  induction n using Nat.strong_induction_on with
  | _ n ih =>
    rcases Nat.lt_or_ge n 10 with hn | hn
    · rw [Nat.toDigits_of_lt_base hn] at h ⊢
      rw [List.head?_cons, Option.some.injEq] at h
      rw [h]
    · rw [Nat.toDigits_of_base_le (by omega) hn, List.head?_append_of_ne_nil _ Nat.toDigits_ne_nil] at h
      have hzero := congrArg digitsValue (ih (n / 10) (by omega) h)
      rw [digitsValue_toDigits] at hzero
      have hzero : n / 10 = 0 := hzero
      omega

end Digits

/-! ### Numerals -/

/-- A sign, digits, and the digits behind the point, if there is one. -/
structure Numeral where
  neg : Bool
  whole : List Char
  frac : Option (List Char)
  whole_ne : whole ≠ []
  whole_digits : ∀ c ∈ whole, c.isDigit = true
  frac_digits : ∀ ds, frac = some ds → ∀ c ∈ ds, c.isDigit = true

namespace Numeral

/-- The digits behind the point. -/
def fraction (d : Numeral) : List Char := d.frac.getD []

/-- What a numeral says without its sign. -/
def magnitude (d : Numeral) : ℚ := digitsValue (d.whole ++ d.fraction) / 10 ^ d.fraction.length

/-- The number a numeral stands for. -/
def value (d : Numeral) : ℚ := if d.neg then -d.magnitude else d.magnitude

/-- The point, and what is behind it. -/
def tail (d : Numeral) : List Char :=
  match d.frac with
  | none => []
  | some ds => '.' :: ds

/-- The text of a numeral. -/
def text (minus : Char) (d : Numeral) : List Char :=
  (if d.neg then [minus] else []) ++ (d.whole ++ d.tail)

/-- No superfluous zeros, no trailing point, no sign before zero. -/
structure Canonical (d : Numeral) : Prop where
  leading : d.whole.head? = some '0' → d.whole = ['0']
  trailing : ∀ ds, d.frac = some ds → ∃ (ds' : List Char) (c : Char), ds = ds' ++ [c] ∧ c ≠ '0'
  negative : d.neg = true → d.magnitude ≠ 0

/-- No text of a numeral for the same number is shorter. -/
def Shortest (minus : Char) (d : Numeral) : Prop :=
  ∀ e : Numeral, e.value = d.value → (d.text minus).length ≤ (e.text minus).length

variable {d e : Numeral} {minus : Char}

theorem fraction_digits (d : Numeral) : ∀ c ∈ d.fraction, c.isDigit = true := by
  unfold fraction
  cases hfrac : d.frac with
  | none =>
    intro c hc
    cases hc
  | some ds => exact d.frac_digits ds hfrac

theorem magnitude_nonneg (d : Numeral) : 0 ≤ d.magnitude := by
  unfold magnitude
  positivity

theorem magnitude_eq_abs (d : Numeral) : d.magnitude = |d.value| := by
  unfold value
  split
  · rw [abs_neg, abs_of_nonneg d.magnitude_nonneg]
  · rw [abs_of_nonneg d.magnitude_nonneg]

/-- Numerals of the same magnitude, with a common denominator. -/
theorem cross_eq (h : e.magnitude = d.magnitude) :
    digitsValue (d.whole ++ d.fraction) * 10 ^ e.fraction.length =
      digitsValue (e.whole ++ e.fraction) * 10 ^ d.fraction.length := by
  unfold magnitude at h
  rw [div_eq_div_iff (by positivity) (by positivity)] at h
  exact_mod_cast h.symm

/-- The digits before the point are those of the whole part. -/
theorem whole_eq (d : Numeral) :
    digitsValue (d.whole ++ d.fraction) / 10 ^ d.fraction.length = digitsValue d.whole := by
  rw [digitsValue_append, Nat.mul_add_div (Nat.pow_pos (by omega)),
    Nat.div_eq_of_lt (digitsValue_lt d.fraction_digits), Nat.add_zero]

theorem whole_unique (h : e.magnitude = d.magnitude) : digitsValue e.whole = digitsValue d.whole := by
  have hcross := cross_eq h
  rw [← e.whole_eq, ← d.whole_eq,
    ← Nat.mul_div_mul_right (digitsValue (e.whole ++ e.fraction)) _ (Nat.pow_pos (n := d.fraction.length)
      (show 0 < 10 by omega)), ← hcross, mul_comm (10 ^ e.fraction.length),
    Nat.mul_div_mul_right _ _ (Nat.pow_pos (by omega))]

/-- Digits without a superfluous zero are the fewest for their number. -/
theorem whole_length (hd : d.whole.head? = some '0' → d.whole = ['0'])
    (h : digitsValue e.whole = digitsValue d.whole) : d.whole.length ≤ e.whole.length := by
  have hpos : 1 ≤ e.whole.length := List.length_pos_iff.mpr e.whole_ne
  cases hwhole : d.whole with
  | nil => exact absurd hwhole d.whole_ne
  | cons c cs =>
    by_cases hc : c = '0'
    · subst hc
      rw [hwhole] at hd
      rw [hd rfl]
      exact hpos
    · have hle : 10 ^ cs.length ≤ digitsValue (c :: cs) :=
        le_digitsValue (d.whole_digits c (by simp [hwhole])) hc
      rw [← hwhole, ← h] at hle
      have hlt := hle.trans_lt (digitsValue_lt e.whole_digits)
      have hlength := (Nat.pow_lt_pow_iff_right (by omega)).mp hlt
      rw [List.length_cons]
      omega

/-- A point and digits without a superfluous zero are needed. -/
theorem fraction_length (hd : ∀ ds, d.frac = some ds → ∃ (ds' : List Char) (c : Char), ds = ds' ++ [c] ∧ c ≠ '0')
    (h : e.magnitude = d.magnitude) : d.tail.length ≤ e.tail.length := by
  cases hfrac : d.frac with
  | none =>
    unfold tail
    rw [hfrac]
    exact Nat.zero_le _
  | some ds =>
    obtain ⟨ds', c, rfl, hc⟩ := hd ds hfrac
    have hfraction : d.fraction = ds' ++ [c] := by
      unfold fraction
      rw [hfrac]
      rfl
    have hle : d.fraction.length ≤ e.fraction.length := by
      by_contra hlt
      rw [Nat.not_le] at hlt
      -- a shorter one would leave a zero at the end
      have hcross := cross_eq h
      obtain ⟨k, hk⟩ := Nat.exists_eq_add_of_lt hlt
      rw [hk, show e.fraction.length + k + 1 = (k + 1) + e.fraction.length by omega, pow_add,
        ← mul_assoc] at hcross
      have hvalue := Nat.eq_of_mul_eq_mul_right (Nat.pow_pos (by omega)) hcross
      have hmod : digitsValue (d.whole ++ ds' ++ [c]) % 10 ≠ 0 :=
        digitsValue_mod (d.frac_digits _ hfrac c (by simp)) hc
      rw [List.append_assoc, ← hfraction, hvalue, pow_succ, ← mul_assoc, Nat.mul_mod_left] at hmod
      exact hmod rfl
    have hne : e.frac ≠ none := by
      intro hnone
      have hnil : e.fraction = [] := by
        unfold fraction
        rw [hnone]
        rfl
      rw [hnil, hfraction, List.length_append, List.length_singleton, List.length_nil] at hle
      omega
    obtain ⟨es, hes⟩ := Option.ne_none_iff_exists'.mp hne
    have hes' : e.fraction = es := by
      unfold fraction
      rw [hes]
      rfl
    unfold tail
    rw [hfrac, hes]
    rw [hfraction, hes'] at hle
    exact Nat.succ_le_succ hle

/-- **A numeral without anything superfluous is the shortest** for its number. -/
theorem Canonical.shortest (h : d.Canonical) : d.Shortest minus := by
  intro e he
  have hmagnitude : e.magnitude = d.magnitude := by
    rw [e.magnitude_eq_abs, d.magnitude_eq_abs, he]
  have hwhole := whole_length h.leading (whole_unique hmagnitude)
  have htail := fraction_length h.trailing hmagnitude
  have hneg : d.neg = true → e.neg = true := by
    intro hneg
    by_contra hpos
    have hd : d.value = -d.magnitude := if_pos hneg
    have he' : e.value = e.magnitude := if_neg hpos
    have hzero := h.negative hneg
    have hnonneg := d.magnitude_nonneg
    rw [hd, he', hmagnitude] at he
    exact hzero (by linarith)
  unfold text
  rw [List.length_append, List.length_append, List.length_append, List.length_append]
  cases hd : d.neg with
  | false =>
    simp only [Bool.false_eq_true, if_false, List.length_nil]
    omega
  | true =>
    rw [hneg hd]
    simp only [if_true, List.length_singleton]
    omega

/-- The text tells the digits before the point from the rest. -/
theorem whole_append_tail (d : Numeral) :
    (d.whole ++ d.tail).takeWhile Char.isDigit = d.whole ∧ (d.whole ++ d.tail).dropWhile Char.isDigit = d.tail := by
  have htake : d.tail.takeWhile Char.isDigit = [] ∧ d.tail.dropWhile Char.isDigit = d.tail := by
    unfold tail
    cases d.frac with
    | none => exact ⟨rfl, rfl⟩
    | some ds => exact ⟨rfl, rfl⟩
  rw [List.takeWhile_append_of_pos d.whole_digits, List.dropWhile_append_of_pos d.whole_digits, htake.1,
    htake.2, List.append_nil]
  exact ⟨rfl, rfl⟩

theorem eq_of_parts (hneg : d.neg = e.neg) (hwhole : d.whole = e.whole) (htail : d.tail = e.tail) :
    d = e := by
  have hfrac : d.frac = e.frac := by
    unfold tail at htail
    cases hd : d.frac <;> cases he : e.frac <;> rw [hd, he] at htail <;> simp_all
  cases d
  cases e
  cases hneg
  cases hwhole
  cases hfrac
  rfl

/-- **A text is at most one numeral.** -/
theorem text_injective (hminus : minus.isDigit = false) : Function.Injective (text minus) := by
  have hsigned : ∀ d e : Numeral, minus :: (d.whole ++ d.tail) ≠ e.whole ++ e.tail := by
    intro d e h
    have htake := congrArg (List.takeWhile Char.isDigit) h
    rw [e.whole_append_tail.1, List.takeWhile_cons, hminus] at htake
    exact e.whole_ne htake.symm
  intro d e h
  have hbody : d.whole ++ d.tail = e.whole ++ e.tail ∧ d.neg = e.neg := by
    unfold text at h
    cases hd : d.neg <;> cases he : e.neg <;> rw [hd, he] at h
    · exact ⟨h, rfl⟩
    · exact absurd h.symm (hsigned e d)
    · exact absurd h (hsigned d e)
    · exact ⟨List.cons.inj h |>.2, rfl⟩
  refine eq_of_parts hbody.2 ?_ ?_
  · rw [← d.whole_append_tail.1, hbody.1, e.whole_append_tail.1]
  · rw [← d.whole_append_tail.2, hbody.1, e.whole_append_tail.2]

end Numeral

/-- The first `k` digits behind the point. -/
def truncated (k : ℕ) (q : ℚ) : ℚ := ⌊q * 10 ^ k⌋₊ / 10 ^ k

/-- Of a decimal fraction with more digits. -/
theorem truncated_div (k j n : ℕ) :
    truncated k ((n : ℚ) / 10 ^ (k + j)) = ((n / 10 ^ j : ℕ) : ℚ) / 10 ^ k := by
  unfold truncated
  have hshift : (n : ℚ) / 10 ^ (k + j) * 10 ^ k = (n : ℚ) / ((10 ^ j : ℕ) : ℚ) := by
    push_cast
    rw [pow_add]
    field_simp
  rw [hshift, Nat.floor_div_natCast, Nat.floor_natCast]

end RobotMoney.Lib
