import Mathlib.Tactic

/-!
# Texts as code units

A string of a language whose strings are sequences of 16-bit units: its code points are the characters it
spells and the surrogates that are left alone (`codePoints`).  A string without these is the encoding of one
list of characters (`utf16_of_codePoints`).
-/

namespace RobotMoney.Lib

def isHighSurrogate (u : UInt16) : Prop := 0xD800 ≤ u.toNat ∧ u.toNat < 0xDC00

def isLowSurrogate (u : UInt16) : Prop := 0xDC00 ≤ u.toNat ∧ u.toNat < 0xE000

instance : DecidablePred isHighSurrogate := fun _ => inferInstanceAs (Decidable (_ ∧ _))

instance : DecidablePred isLowSurrogate := fun _ => inferInstanceAs (Decidable (_ ∧ _))

/-- A code point of a string of units: a character, or half of one without the other half. -/
inductive CodePoint where
  | scalar (c : Char)
  | surrogate (u : UInt16) (h : isHighSurrogate u ∨ isLowSurrogate u)
  deriving DecidableEq

/-- The code point of a unit by itself. -/
def CodePoint.single (u : UInt16) : CodePoint :=
  if h : isHighSurrogate u ∨ isLowSurrogate u then .surrogate u h else .scalar (Char.ofNat u.toNat)

/-- The code points of a string of units, read from the left. -/
def codePoints : List UInt16 → List CodePoint
  | [] => []
  | [u] => [.single u]
  | h :: l :: us =>
    if isHighSurrogate h ∧ isLowSurrogate l then
      .scalar (Char.ofNat (0x10000 + (h.toNat - 0xD800) * 0x400 + (l.toNat - 0xDC00))) :: codePoints us
    else .single h :: codePoints (l :: us)

/-- The units of a character. -/
def utf16Char (c : Char) : List UInt16 :=
  if c.toNat < 0x10000 then [UInt16.ofNat c.toNat]
  else [UInt16.ofNat (0xD800 + (c.toNat - 0x10000) / 0x400), UInt16.ofNat (0xDC00 + (c.toNat - 0x10000) % 0x400)]

/-- The units of a text. -/
def utf16 (cs : List Char) : List UInt16 := cs.flatMap utf16Char

/-! ### A string without lone surrogates is the encoding of its characters -/

theorem toNat_ofNat_of_valid {n : ℕ} (h : n.isValidChar) : (Char.ofNat n).toNat = n := by
  rw [Char.ofNat, dif_pos h]
  rfl

theorem utf16Char_single {u : UInt16} (hh : ¬ isHighSurrogate u) (hl : ¬ isLowSurrogate u) :
    utf16Char (Char.ofNat u.toNat) = [u] := by
  have hlt := u.toNat_lt
  have hvalid : u.toNat.isValidChar := by
    unfold isHighSurrogate at hh
    unfold isLowSurrogate at hl
    unfold Nat.isValidChar
    omega
  rw [utf16Char, toNat_ofNat_of_valid hvalid, if_pos (by omega), UInt16.ofNat_toNat]

theorem utf16Char_pair {h l : UInt16} (hh : isHighSurrogate h) (hl : isLowSurrogate l) :
    utf16Char (Char.ofNat (0x10000 + (h.toNat - 0xD800) * 0x400 + (l.toNat - 0xDC00))) = [h, l] := by
  unfold isHighSurrogate at hh
  unfold isLowSurrogate at hl
  have hvalid : (0x10000 + (h.toNat - 0xD800) * 0x400 + (l.toNat - 0xDC00)).isValidChar := by
    unfold Nat.isValidChar
    omega
  have hhigh : 0xD800 + (0x10000 + (h.toNat - 0xD800) * 0x400 + (l.toNat - 0xDC00) - 0x10000) / 0x400 =
      h.toNat := by omega
  have hlow : 0xDC00 + (0x10000 + (h.toNat - 0xD800) * 0x400 + (l.toNat - 0xDC00) - 0x10000) % 0x400 =
      l.toNat := by omega
  rw [utf16Char, toNat_ofNat_of_valid hvalid, if_neg (by omega), hhigh, hlow, UInt16.ofNat_toNat,
    UInt16.ofNat_toNat]

theorem single_eq_scalar {u : UInt16} {c : Char} (h : CodePoint.single u = .scalar c) : utf16Char c = [u] := by
  unfold CodePoint.single at h
  split at h
  · cases h
  · rename_i hnot
    cases h
    exact utf16Char_single (fun hh => hnot (.inl hh)) (fun hl => hnot (.inr hl))

/-- A string all of whose code points are characters is the encoding of these. -/
theorem utf16_of_codePoints {us : List UInt16} {cs : List Char} (h : codePoints us = cs.map .scalar) :
    utf16 cs = us := by
  induction us using codePoints.induct generalizing cs with
  | case1 =>
    obtain rfl : cs = [] := by simpa [codePoints] using h.symm
    rfl
  | case2 u =>
    obtain ⟨c, rfl, hc⟩ : ∃ c, cs = [c] ∧ CodePoint.single u = .scalar c := by
      rcases cs with _ | ⟨c, _ | ⟨d, cs⟩⟩ <;> simp_all [codePoints]
    simp [utf16, single_eq_scalar hc]
  | case3 hi lo us hpair ih =>
    rw [codePoints, if_pos hpair] at h
    rcases cs with _ | ⟨c, cs⟩
    · cases h
    · simp only [List.map_cons, List.cons.injEq, CodePoint.scalar.injEq] at h
      obtain ⟨rfl, hrest⟩ := h
      have htail : utf16 cs = us := ih hrest
      rw [utf16, List.flatMap_cons, utf16Char_pair hpair.1 hpair.2, ← utf16, htail]
      rfl
  | case4 hi lo us hpair ih =>
    rw [codePoints, if_neg hpair] at h
    rcases cs with _ | ⟨c, cs⟩
    · cases h
    · simp only [List.map_cons, List.cons.injEq] at h
      have htail : utf16 cs = lo :: us := ih h.2
      rw [utf16, List.flatMap_cons, single_eq_scalar h.1, ← utf16, htail]
      rfl

end RobotMoney.Lib
