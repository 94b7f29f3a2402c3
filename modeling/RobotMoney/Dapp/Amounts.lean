import RobotMoney.Dapp.Format
import RobotMoney.Lib.Decimal

/-!
# What displayed amounts say

`bigintToDecimalString` prints a numeral.  With room for all digits behind the point it is the shortest one
for the amount; with less room it is the shortest for the amount cut off there, behind the sign of the
amount, also where nothing is left of it.
-/

namespace RobotMoney.Dapp

open RobotMoney.Lib

variable {raw : ℤ} {abs decimals maxFrac : ℕ}

/-- `fracFull` -/
def fracFull (abs decimals : ℕ) : List Char := padStart (Nat.toDigits 10 (abs % 10 ^ decimals)) decimals

/-- `fracTrimmed` -/
def fracTrimmed (abs decimals maxFrac : ℕ) : List Char :=
  ((fracFull abs decimals).take maxFrac).rdropWhile (· == '0')

theorem fracFull_digits : ∀ c ∈ fracFull abs decimals, c.isDigit = true := by
  intro c hc
  unfold fracFull padStart List.leftpad at hc
  rcases List.mem_append.mp hc with hc | hc
  · rw [List.eq_of_mem_replicate hc]
    rfl
  · exact Nat.isDigit_of_mem_toDigits (by omega) (by omega) hc

theorem fracTrimmed_digits : ∀ c ∈ fracTrimmed abs decimals maxFrac, c.isDigit = true :=
  fun c hc => fracFull_digits c (List.mem_of_mem_take ((List.rdropWhile_prefix _ _).subset hc))

theorem digitsValue_fracFull : digitsValue (fracFull abs decimals) = abs % 10 ^ decimals := by
  unfold fracFull padStart List.leftpad
  rw [digitsValue_append, digitsValue_zeros, Nat.mul_zero, Nat.zero_add, digitsValue_toDigits]

/-- As many digits as there are decimals; without decimals, one zero. -/
theorem length_fracFull : (fracFull abs decimals).length = max decimals 1 := by
  unfold fracFull padStart
  rw [List.leftpad, List.length_append, List.length_replicate]
  have hpos : 0 < (Nat.toDigits 10 (abs % 10 ^ decimals)).length := Nat.length_toDigits_pos
  rcases Nat.eq_zero_or_pos decimals with rfl | hd
  · rw [pow_zero, Nat.mod_one, Nat.toDigits_zero]
    rfl
  · have hle := (Nat.length_toDigits_le_iff (b := 10) (by omega) hd).mpr
      (Nat.mod_lt abs (Nat.pow_pos (n := decimals) (show 0 < 10 by omega)))
    omega

/-- The numeral that an amount is displayed as, with a sign or without. -/
def displayed (neg : Bool) (abs decimals maxFrac : ℕ) : Numeral where
  neg := neg
  whole := Nat.toDigits 10 (abs / 10 ^ decimals)
  frac := if fracTrimmed abs decimals maxFrac = [] then none else some (fracTrimmed abs decimals maxFrac)
  whole_ne := Nat.toDigits_ne_nil
  whole_digits c hc := Nat.isDigit_of_mem_toDigits (by omega) (by omega) hc
  frac_digits := by
    intro ds hds
    split at hds
    · cases hds
    · cases hds
      exact fracTrimmed_digits

theorem displayed_fraction {neg : Bool} :
    (displayed neg abs decimals maxFrac).fraction = fracTrimmed abs decimals maxFrac := by
  unfold Numeral.fraction displayed
  dsimp only
  split
  · rename_i hnil
    rw [hnil]
    rfl
  · rfl

theorem displayed_tail {neg : Bool} : (displayed neg abs decimals maxFrac).tail =
    if fracTrimmed abs decimals maxFrac = [] then [] else '.' :: fracTrimmed abs decimals maxFrac := by
  unfold Numeral.tail displayed
  dsimp only
  split <;> split <;> simp_all

/-- The text of the amount: the numeral, behind a minus sign if the amount is negative. -/
theorem bigintToDecimalString_eq : bigintToDecimalString raw decimals maxFrac =
    String.ofList ((if raw < 0 then ['−'] else []) ++
      (displayed false raw.natAbs decimals maxFrac).text '−') := by
  have hformatted : (if 0 < (fracTrimmed raw.natAbs decimals maxFrac).length then
      toString (raw.natAbs / 10 ^ decimals) ++ "." ++
        String.ofList (fracTrimmed raw.natAbs decimals maxFrac)
      else toString (raw.natAbs / 10 ^ decimals)) =
      String.ofList ((displayed false raw.natAbs decimals maxFrac).text '−') := by
    show _ = String.ofList ([] ++ (Nat.toDigits 10 (raw.natAbs / 10 ^ decimals) ++ Numeral.tail _))
    rw [displayed_tail, Nat.toString_eq_ofList_toDigits, List.nil_append]
    by_cases hnil : fracTrimmed raw.natAbs decimals maxFrac = []
    · rw [if_neg (by simp [hnil]), if_pos hnil, List.append_nil]
    · rw [if_pos (List.length_pos_iff.mpr hnil), if_neg hnil, List.append_cons, String.ofList_append,
        String.ofList_append]
  rw [String.ofList_append, ← hformatted]
  show (if raw < 0 then "−" ++ _ else _) = _
  by_cases hneg : raw < 0
  · rw [if_pos hneg, if_pos hneg]
    rfl
  · rw [if_neg hneg, if_neg hneg]
    exact String.empty_append.symm

/-- Zeros at the end of the digits behind the point say nothing. -/
theorem trimmed_value (ws : List Char) :
    (digitsValue (ws ++ fracTrimmed abs decimals maxFrac) : ℚ) /
        10 ^ (fracTrimmed abs decimals maxFrac).length =
      digitsValue (ws ++ (fracFull abs decimals).take maxFrac) /
        10 ^ ((fracFull abs decimals).take maxFrac).length := by
  have hsplit : fracTrimmed abs decimals maxFrac ++ ((fracFull abs decimals).take maxFrac).rtakeWhile
      (· == '0') = (fracFull abs decimals).take maxFrac := List.rdropWhile_append_rtakeWhile
  have hzeros : ∀ c ∈ ((fracFull abs decimals).take maxFrac).rtakeWhile (· == '0'), c = '0' := by
    intro c hc
    have hzero := List.mem_rtakeWhile_imp hc
    exact beq_iff_eq.mp hzero
  rw [List.eq_replicate_of_mem hzeros] at hsplit
  rw [← hsplit, ← List.append_assoc, digitsValue_append_zeros, List.length_append, List.length_replicate]
  push_cast
  rw [pow_add, mul_comm (10 ^ (fracTrimmed abs decimals maxFrac).length : ℚ),
    mul_div_mul_left _ _ (by positivity)]

/-- **What the digits say**: the amount, cut off behind `maxFrac` digits. -/
theorem displayed_magnitude {neg : Bool} : (displayed neg abs decimals maxFrac).magnitude =
    ((abs / 10 ^ (decimals - maxFrac) : ℕ) : ℚ) / 10 ^ min decimals maxFrac := by
  unfold Numeral.magnitude
  rw [displayed_fraction]
  show (digitsValue (Nat.toDigits 10 (abs / 10 ^ decimals) ++ _) : ℚ) / _ = _
  rw [trimmed_value, digitsValue_append, digitsValue_toDigits, digitsValue_take fracFull_digits,
    digitsValue_fracFull, List.length_take, length_fracFull]
  rcases Nat.eq_zero_or_pos decimals with rfl | hd
  · rw [pow_zero, Nat.mod_one, Nat.zero_div, Nat.add_zero, Nat.div_one, Nat.zero_sub, pow_zero, Nat.div_one,
      Nat.zero_min, pow_zero, div_one]
    push_cast
    exact mul_div_cancel_left₀ _ (by positivity)
  · rw [Nat.max_eq_left hd, Nat.min_comm]
    congr 2
    have hsum : decimals - maxFrac + min decimals maxFrac = decimals := by omega
    have hdiv := Nat.div_add_mod abs (10 ^ decimals)
    conv_rhs => rw [← hdiv]
    rw [← hsum, pow_add, hsum, mul_assoc, Nat.mul_add_div (Nat.pow_pos (by omega))]

theorem displayed_leading {neg : Bool} (h : (displayed neg abs decimals maxFrac).whole.head? = some '0') :
    (displayed neg abs decimals maxFrac).whole = ['0'] := toDigits_head h

theorem displayed_trailing {neg : Bool} {ds : List Char}
    (h : (displayed neg abs decimals maxFrac).frac = some ds) :
    ∃ (ds' : List Char) (c : Char), ds = ds' ++ [c] ∧ c ≠ '0' := by
  have h : (if fracTrimmed abs decimals maxFrac = [] then none
    else some (fracTrimmed abs decimals maxFrac)) = some ds := h
  split at h
  · cases h
  · rename_i hne
    cases h
    refine ⟨_, _, (List.dropLast_append_getLast hne).symm, ?_⟩
    have hlast := List.rdropWhile_last_not (· == '0') ((fracFull abs decimals).take maxFrac) hne
    rw [beq_iff_eq] at hlast
    exact hlast

theorem displayed_canonical {neg : Bool}
    (h : neg = true → (displayed neg abs decimals maxFrac).magnitude ≠ 0) :
    (displayed neg abs decimals maxFrac).Canonical :=
  ⟨displayed_leading, fun _ => displayed_trailing, h⟩

/-- With room for all decimals. -/
theorem displayed_value (h : decimals ≤ maxFrac) :
    (displayed (decide (raw < 0)) raw.natAbs decimals maxFrac).value = (raw : ℚ) / 10 ^ decimals := by
  have habs : (raw.natAbs : ℚ) = |(raw : ℚ)| := by
    rw [Nat.cast_natAbs, Int.cast_abs]
  unfold Numeral.value
  rw [displayed_magnitude, Nat.sub_eq_zero_of_le h, pow_zero, Nat.div_one, Nat.min_eq_left h, habs]
  show (if decide (raw < 0) = true then _ else _) = _
  by_cases hneg : raw < 0
  · rw [if_pos (decide_eq_true hneg), abs_of_neg (by exact_mod_cast hneg)]
    ring
  · rw [if_neg (by simpa using hneg), abs_of_nonneg (by exact_mod_cast Int.not_lt.mp hneg)]

/-- The sign of an amount is a part of its numeral if there is room for all decimals. -/
theorem displayed_signed (h : decimals ≤ maxFrac) :
    (displayed (decide (raw < 0)) raw.natAbs decimals maxFrac).Canonical := by
  refine displayed_canonical ?_
  intro hneg
  have hneg : raw < 0 := of_decide_eq_true hneg
  rw [Numeral.magnitude_eq_abs, displayed_value h]
  have hne : (raw : ℚ) ≠ 0 := by exact_mod_cast hneg.ne
  positivity

theorem bigintToDecimalString_text : bigintToDecimalString raw decimals maxFrac =
    String.ofList ((displayed (decide (raw < 0)) raw.natAbs decimals maxFrac).text '−') := by
  rw [bigintToDecimalString_eq]
  by_cases hneg : raw < 0
  · rw [if_pos hneg, decide_eq_true hneg]
    rfl
  · rw [if_neg hneg, decide_eq_false hneg]
    rfl

/-- **Displayed amounts are lossless** with room for all decimals, and otherwise cut off. -/
theorem amounts_displayed (raw : ℤ) (decimals maxFrac : ℕ) :
    (decimals ≤ maxFrac →
      (∃ d : Numeral, bigintToDecimalString raw decimals maxFrac = String.ofList (d.text '−') ∧
        d.value = (raw : ℚ) / 10 ^ decimals ∧ d.Canonical ∧ d.Shortest '−') ∧
      Function.Injective fun raw => bigintToDecimalString raw decimals maxFrac) ∧
    (maxFrac < decimals →
      ∃ d : Numeral, bigintToDecimalString raw decimals maxFrac =
          (if raw < 0 then "−" else "") ++ String.ofList (d.text '−') ∧
        d.value = truncated maxFrac (|(raw : ℚ)| / 10 ^ decimals) ∧ d.neg = false ∧ d.Canonical ∧
        d.Shortest '−') := by
  constructor
  · intro h
    refine ⟨⟨_, bigintToDecimalString_text, displayed_value h, displayed_signed h,
      (displayed_signed h).shortest⟩, ?_⟩
    intro raw raw' hsame
    have hsame : bigintToDecimalString raw decimals maxFrac = bigintToDecimalString raw' decimals maxFrac :=
      hsame
    rw [bigintToDecimalString_text, bigintToDecimalString_text] at hsame
    have htext := congrArg String.toList hsame
    rw [String.toList_ofList, String.toList_ofList] at htext
    have hvalue := congrArg Numeral.value (Numeral.text_injective (by decide) htext)
    rw [displayed_value h, displayed_value h, div_left_inj' (by positivity)] at hvalue
    exact_mod_cast hvalue
  · intro h
    have hcanonical : (displayed false raw.natAbs decimals maxFrac).Canonical :=
      displayed_canonical fun hneg => by cases hneg
    refine ⟨displayed false raw.natAbs decimals maxFrac, ?_, ?_, rfl, hcanonical, hcanonical.shortest⟩
    · rw [bigintToDecimalString_eq, String.ofList_append]
      by_cases hneg : raw < 0
      · rw [if_pos hneg, if_pos hneg]
      · rw [if_neg hneg, if_neg hneg]
    · obtain ⟨k, rfl⟩ := Nat.exists_eq_add_of_le h.le
      have habs : |(raw : ℚ)| = (raw.natAbs : ℚ) := by
        rw [Nat.cast_natAbs, Int.cast_abs]
      rw [habs, truncated_div]
      show Numeral.magnitude _ = _
      rw [displayed_magnitude, Nat.add_sub_cancel_left, Nat.min_eq_right (Nat.le_add_right _ _)]

/-- An amount with all its decimals, and one of which only the sign is left. -/
theorem amounts_displayed_examples :
    (∃ d : Numeral, "−1.5" = String.ofList (d.text '−') ∧ d.value = ((-1500000 : ℤ) : ℚ) / 10 ^ 6 ∧
      d.Canonical ∧ d.Shortest '−') ∧
    bigintToDecimalString (-1) 6 2 = "−0" ∧
    ∃ d : Numeral, bigintToDecimalString (-1) 6 2 = (if (-1 : ℤ) < 0 then "−" else "") ++
        String.ofList (d.text '−') ∧
      d.value = truncated 2 (|((-1 : ℤ) : ℚ)| / 10 ^ 6) ∧ d.neg = false ∧ d.Canonical ∧ d.Shortest '−' := by
  have htext : bigintToDecimalString (-1500000) 6 6 = "−1.5" := by decide +kernel
  refine ⟨?_, by decide +kernel, (amounts_displayed (-1) 6 2).2 (by decide)⟩
  rw [← htext]
  exact ((amounts_displayed (-1500000) 6 6).1 (by decide)).1

end RobotMoney.Dapp
