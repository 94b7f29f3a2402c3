import Mathlib.Tactic

/-!
# Hexadecimal words

A number written with a fixed count of hexadecimal digits, and a list of numbers written one after the
other with the same count: both can be read back.  The other way, the value of a text of digits of either
case.  A number written in decimal can be told from the others.
-/

namespace RobotMoney.Lib

/-! ### Writing -/

/-- The last `w` hexadecimal digits of `n`, the high one first. -/
def hexWord : ℕ → ℕ → List Char
  | 0, _ => []
  | w + 1, n => hexWord w (n / 16) ++ [Nat.digitChar (n % 16)]

/-- The numbers of a list, `w` digits each. -/
def hexWords (w : ℕ) (ns : List ℕ) : List Char := ns.flatMap (hexWord w)

@[simp] theorem length_hexWord (w n : ℕ) : (hexWord w n).length = w := by
  induction w generalizing n with
  | zero => rfl
  | succ w ih => simp [hexWord, ih]

theorem le_digitChar : ∀ a < 16, 0x20 ≤ (Nat.digitChar a).toNat := by decide

/-- A hexadecimal word has no control character. -/
theorem le_of_mem_hexWord {w n : ℕ} {c : Char} (h : c ∈ hexWord w n) : 0x20 ≤ c.toNat := by
  induction w generalizing n with
  | zero => simp [hexWord] at h
  | succ w ih =>
    rcases List.mem_append.mp h with h | h
    · exact ih h
    · obtain rfl : c = Nat.digitChar (n % 16) := by simpa using h
      exact le_digitChar _ (Nat.mod_lt _ (by omega))

theorem digitChar_inj : ∀ a < 16, ∀ b < 16, Nat.digitChar a = Nat.digitChar b → a = b := by decide

theorem hexWord_inj {w n m : ℕ} (hn : n < 16 ^ w) (hm : m < 16 ^ w) (h : hexWord w n = hexWord w m) :
    n = m := by
  induction w generalizing n m with
  | zero =>
    simp only [pow_zero] at hn hm
    omega
  | succ w ih =>
    have hparts := List.append_inj h (by simp)
    have hhigh : n / 16 = m / 16 := by
      refine ih ?_ ?_ hparts.1
      · rw [pow_succ] at hn
        omega
      · rw [pow_succ] at hm
        omega
    have hlow : n % 16 = m % 16 :=
      digitChar_inj _ (Nat.mod_lt _ (by omega)) _ (Nat.mod_lt _ (by omega)) (by simpa using hparts.2)
    omega

/-- A text of words that fit is the text of one list of numbers only. -/
theorem hexWords_inj {w : ℕ} (hw : 0 < w) {ns ms : List ℕ} (hns : ∀ n ∈ ns, n < 16 ^ w)
    (hms : ∀ m ∈ ms, m < 16 ^ w) (h : hexWords w ns = hexWords w ms) : ns = ms := by
  induction ns generalizing ms with
  | nil =>
    cases ms with
    | nil => rfl
    | cons m ms =>
      have hlen := congrArg List.length h
      simp [hexWords] at hlen
      omega
  | cons n ns ih =>
    cases ms with
    | nil =>
      have hlen := congrArg List.length h
      simp [hexWords] at hlen
      omega
    | cons m ms =>
      simp only [List.forall_mem_cons] at hns hms
      have hparts := List.append_inj (by simpa only [hexWords, List.flatMap_cons] using h) (by simp)
      have hhead : n = m := hexWord_inj hns.1 hms.1 hparts.1
      have htail : ns = ms := ih hns.2 hms.2 hparts.2
      rw [hhead, htail]

/-! ### Reading -/

/-- The value of a hexadecimal digit, of either case. -/
def hexDigitValue (c : Char) : Option ℕ :=
  if '0' ≤ c ∧ c ≤ '9' then some (c.toNat - 48)
  else if 'a' ≤ c ∧ c ≤ 'f' then some (c.toNat - 87)
  else if 'A' ≤ c ∧ c ≤ 'F' then some (c.toNat - 55)
  else none

/-- The value of a text of hexadecimal digits, from what was read before it. -/
def readHexFrom : ℕ → List Char → Option ℕ
  | n, [] => some n
  | n, c :: cs => do
    let d ← hexDigitValue c
    readHexFrom (16 * n + d) cs

def readHex (cs : List Char) : Option ℕ := readHexFrom 0 cs

theorem hexDigitValue_lt {c : Char} {d : ℕ} (h : hexDigitValue c = some d) : d < 16 := by
  unfold hexDigitValue at h
  simp only [Char.le_def, UInt32.le_iff_toNat_le] at h
  have hval : c.toNat = c.val.toNat := rfl
  split at h
  · rename_i hc
    have h9 : c.val.toNat ≤ 57 := hc.2
    simp only [Option.some.injEq] at h
    omega
  · split at h
    · rename_i hc
      have hf : c.val.toNat ≤ 102 := hc.2
      simp only [Option.some.injEq] at h
      omega
    · split at h
      · rename_i hc
        have hF : c.val.toNat ≤ 70 := hc.2
        simp only [Option.some.injEq] at h
        omega
      · cases h

theorem readHexFrom_lt {n k : ℕ} {cs : List Char} (h : readHexFrom n cs = some k) :
    k < (n + 1) * 16 ^ cs.length := by
  induction cs generalizing n with
  | nil =>
    simp only [readHexFrom, Option.some.injEq] at h
    simp [h]
  | cons c cs ih =>
    obtain ⟨d, hd, hrest⟩ := Option.bind_eq_some_iff.mp h
    have hd16 := hexDigitValue_lt hd
    have hstep : (16 * n + d + 1) * 16 ^ cs.length ≤ (n + 1) * 16 ^ (c :: cs).length := by
      rw [List.length_cons, pow_succ, mul_comm (16 ^ cs.length), ← mul_assoc]
      exact Nat.mul_le_mul_right _ (by omega)
    exact lt_of_lt_of_le (ih hrest) hstep

theorem readHex_lt {k : ℕ} {cs : List Char} (h : readHex cs = some k) : k < 16 ^ cs.length := by
  simpa using readHexFrom_lt h

/-! ### What is written is read -/

theorem hexDigitValue_digitChar : ∀ d < 16, hexDigitValue (Nat.digitChar d) = some d := by decide

theorem readHexFrom_append (n : ℕ) (as bs : List Char) :
    readHexFrom n (as ++ bs) = (readHexFrom n as).bind fun m => readHexFrom m bs := by
  induction as generalizing n with
  | nil => rfl
  | cons a as ih =>
    simp only [List.cons_append, readHexFrom, bind]
    cases hexDigitValue a with
    | none => rfl
    | some d => simp [ih]

theorem readHexFrom_hexWord {w n : ℕ} (k : ℕ) (hn : n < 16 ^ w) :
    readHexFrom k (hexWord w n) = some (k * 16 ^ w + n) := by
  induction w generalizing n with
  | zero =>
    simp only [pow_zero] at hn
    simp [hexWord, readHexFrom]
    omega
  | succ w ih =>
    rw [pow_succ] at hn
    have hhigh := ih (n := n / 16) (by omega)
    have hlow := hexDigitValue_digitChar (n % 16) (Nat.mod_lt _ (by omega))
    simp only [hexWord, readHexFrom_append, hhigh, Option.bind_some, readHexFrom, hlow, bind, Option.some.injEq]
    rw [pow_succ]
    ring_nf
    omega

theorem readHex_hexWord {w n : ℕ} (hn : n < 16 ^ w) : readHex (hexWord w n) = some n := by
  rw [readHex, readHexFrom_hexWord 0 hn, zero_mul, zero_add]

/-! ### Decimal digits -/

/-- The text of a number is the text of that number only. -/
theorem natRepr_injective : Function.Injective Nat.repr := by
  intro n m h
  have hdigits : Nat.toDigits 10 n = Nat.toDigits 10 m := by
    simpa using congrArg String.toList h
  calc n = Nat.ofDigitChars 10 (Nat.toDigits 10 n) 0 := Nat.ofDigitChars_ten_toDigits.symm
    _ = Nat.ofDigitChars 10 (Nat.toDigits 10 m) 0 := by rw [hdigits]
    _ = m := Nat.ofDigitChars_ten_toDigits

end RobotMoney.Lib
