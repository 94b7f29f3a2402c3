import Mathlib.Tactic

/-!
# Byte code

The code of a stack machine as it lies in memory.  A byte is an operation, and the operations `PUSH1` to
`PUSH32` are followed by *immediate* bytes, which are data.  So where an instruction starts depends on all
that is before it: `Starts` reads the code from its first byte on.

Control follows that reading.  It passes from an instruction to the one behind it, or jumps to a `JUMPDEST`,
and the machine takes only those that start an instruction.  Hence it never gets into immediate data
(`Reaches.starts`), and what is behind the end of a program does not change where its control goes
(`Reaches.append`).
-/

namespace RobotMoney.Lib.Bytecode

abbrev Code : Type := List UInt8

/-- The byte at a position; behind the end of the code there are zeros. -/
def opAt (code : Code) (pc : ℕ) : ℕ := (code.getD pc 0).toNat

/-- The number of immediate bytes behind an operation. -/
def immediates (op : ℕ) : ℕ := if 0x60 ≤ op ∧ op ≤ 0x7F then op - 0x5F else 0

/-- Where the instruction behind the one at `pc` starts. -/
def after (code : Code) (pc : ℕ) : ℕ := pc + 1 + immediates (opAt code pc)

/-- An instruction starts here. -/
inductive Starts (code : Code) : ℕ → Prop
  | first : Starts code 0
  | next {pc : ℕ} (h : Starts code pc) (hlt : pc < code.length) : Starts code (after code pc)

/-- A jump may go here: to a `JUMPDEST` that is an instruction. -/
def JumpDest (code : Code) (pc : ℕ) : Prop := Starts code pc ∧ pc < code.length ∧ opAt code pc = 0x5B

/-- Control passes on behind the operation: it is none of `STOP`, `JUMP`, `RETURN`, `REVERT`, `INVALID` and
`SELFDESTRUCT`. -/
def PassesOn (op : ℕ) : Prop := op ∉ [0x00, 0x56, 0xF3, 0xFD, 0xFE, 0xFF]

instance (op : ℕ) : Decidable (PassesOn op) := by
  unfold PassesOn
  infer_instance

/-- The positions that control may come to, whatever the machine computes. -/
inductive Reaches (code : Code) : ℕ → Prop
  | start : Reaches code 0
  | pass {pc : ℕ} (h : Reaches code pc) (hlt : pc < code.length) (hop : PassesOn (opAt code pc)) :
    Reaches code (after code pc)
  | jump {pc dst : ℕ} (h : Reaches code pc) (hlt : pc < code.length)
    (hop : opAt code pc = 0x56 ∨ opAt code pc = 0x57) (hdst : JumpDest code dst) : Reaches code dst

variable {code code' : Code} {pc p q : ℕ}

theorem lt_after : pc < after code pc := by
  unfold after
  omega

/-- **Control stays on instructions.** -/
theorem Reaches.starts (h : Reaches code pc) : Starts code pc := by
  induction h with
  | start => exact .first
  | pass _ hlt _ ih => exact ih.next hlt
  | jump _ _ _ hdst => exact hdst.1

/-- Between an instruction and the one behind it none starts. -/
theorem Starts.after_le (hp : Starts code p) (hq : Starts code q) (h : p < q) : after code p ≤ q := by
  induction q using Nat.strong_induction_on generalizing p with
  | _ q ih =>
    cases hq with
    | first => cases h
    | next hr hlt =>
      rename_i r
      rcases Nat.lt_trichotomy p r with hpr | rfl | hrp
      · exact (ih r lt_after hp hr hpr).trans (Nat.le_of_lt lt_after)
      · exact Nat.le_refl _
      · have hle := ih p h hr hp hrp
        omega

/-! ### Code with something behind it -/

theorem opAt_append (h : pc < code.length) : opAt (code ++ code') pc = opAt code pc := by
  unfold opAt
  rw [List.getD_eq_getElem?_getD, List.getD_eq_getElem?_getD, List.getElem?_append_left h]

theorem after_append (h : pc < code.length) : after (code ++ code') pc = after code pc := by
  unfold after
  rw [opAt_append h]

theorem lt_length_append (h : pc < code.length) : pc < (code ++ code').length := by
  rw [List.length_append]
  omega

theorem Starts.append (h : Starts code pc) : Starts (code ++ code') pc := by
  induction h with
  | first => exact .first
  | next _ hlt ih =>
    rw [← after_append hlt]
    exact ih.next (lt_length_append hlt)

theorem JumpDest.append (h : JumpDest code pc) : JumpDest (code ++ code') pc := by
  obtain ⟨hstarts, hlt, hop⟩ := h
  exact ⟨hstarts.append, lt_length_append hlt, by rw [opAt_append hlt, hop]⟩

/-- **What is behind a program** leaves the ways of its control. -/
theorem Reaches.append (h : Reaches code pc) : Reaches (code ++ code') pc := by
  induction h with
  | start => exact .start
  | pass _ hlt hop ih =>
    rw [← after_append hlt]
    exact ih.pass (lt_length_append hlt) (by rwa [opAt_append hlt])
  | jump _ hlt hop hdst ih => exact ih.jump (lt_length_append hlt) (by rwa [opAt_append hlt]) hdst.append

end RobotMoney.Lib.Bytecode
