import Mathlib.Data.Nat.ModEq
import Mathlib.Tactic

/-!
# Calls that may revert

A contract call either returns a value or reverts with a reason and leaves no trace.  `Call ε α` is
that, over the error type `ε` of the contract; the reasons every contract shares (an arithmetic panic,
a failed token operation, a missing role, a failed inner call) are constructors of `Revert`.

The arithmetic of a contract is on 256-bit words and panics when a result does not fit.  The operations
`addU`, `subU`, `mulU`, `divU` are that arithmetic on naturals, and `mulDiv`, `mulDivUp` the
full-precision `x * y / d` of fixed-point libraries, rounded down and up.  Each operation has one
lemma: what its success says.
-/

namespace RobotMoney.Lib

/-- The number of 256-bit words. -/
def wordSize : ℕ := 2 ^ 256

/-- The largest 256-bit word, which allowances read as "unlimited". -/
def maxWord : ℕ := 2 ^ 256 - 1

/-- The reasons of a panic. -/
inductive Panic where
  | arithmetic
  | divisionByZero
  | outOfBounds
  deriving DecidableEq, Repr

/-- The reasons a token operation fails. -/
inductive TokenError where
  | invalidSender
  | invalidReceiver
  | invalidApprover
  | invalidSpender
  | insufficientBalance
  | insufficientAllowance
  deriving DecidableEq, Repr

/-- Why a call reverted: a reason all contracts share, or an error of its own. -/
inductive Revert (ε : Type) where
  | panic (p : Panic)
  | token (e : TokenError)
  | unauthorizedAccount
  | badConfirmation
  | innerCall
  | custom (e : ε)
  deriving DecidableEq, Repr

/-- A call: a value, or a revert. -/
abbrev Call (ε α : Type) : Type := Except (Revert ε) α

variable {ε α β : Type}

/-- `if (c) revert e();` -/
def revertIf (c : Prop) [Decidable c] (e : ε) : Call ε Unit :=
  if c then .error (.custom e) else .ok ()

/-- An inner call made through a low-level or interface call: its reason is not looked at. -/
def inner {ε' : Type} (x : Call ε' α) : Call ε α :=
  match x with
  | .ok a => .ok a
  | .error _ => .error .innerCall

/-! ### What success says -/

theorem bind_eq_ok {x : Except ε α} {f : α → Except ε β} {r : β} :
    (x >>= f) = .ok r ↔ ∃ a, x = .ok a ∧ f a = .ok r := by
  rcases x with e | a
  · constructor
    · intro h
      cases h
    · rintro ⟨a, h, -⟩
      cases h
  · constructor
    · intro h
      exact ⟨a, rfl, h⟩
    · rintro ⟨b, h, hf⟩
      cases h
      exact hf

theorem pure_eq_ok {a r : α} : (pure a : Except ε α) = .ok r ↔ a = r := by
  simp [pure, Except.pure]

@[simp] theorem ok_bind (a : α) (f : α → Call ε β) : ((Except.ok a : Call ε α) >>= f) = f a := rfl

@[simp] theorem error_bind (e : Revert ε) (f : α → Call ε β) :
    ((Except.error e : Call ε α) >>= f) = .error e := rfl

theorem revertIf_eq_ok {c : Prop} [Decidable c] {e : ε} {u : Unit} :
    revertIf c e = .ok u ↔ ¬ c := by
  unfold revertIf
  split <;> simp_all

theorem revertIf_neg {c : Prop} [Decidable c] (h : ¬ c) (e : ε) : revertIf c e = .ok () :=
  if_neg h

theorem revertIf_pos {c : Prop} [Decidable c] (h : c) (e : ε) :
    revertIf c e = .error (.custom e) :=
  if_pos h

/-! ### What failure says -/

theorem bind_eq_error {x : Except ε α} {f : α → Except ε β} {e : ε} :
    (x >>= f) = .error e ↔ x = .error e ∨ ∃ a, x = .ok a ∧ f a = .error e := by
  rcases x with e' | a
  · simp [bind, Except.bind]
  · simp [bind, Except.bind]

theorem revertIf_eq_error {c : Prop} [Decidable c] {e : ε} {r : Revert ε} :
    revertIf c e = .error r ↔ c ∧ r = .custom e := by
  unfold revertIf
  split <;> simp_all [eq_comm]

theorem inner_eq_ok {ε' : Type} {x : Call ε' α} {a : α} :
    (inner x : Call ε α) = .ok a ↔ x = .ok a := by
  cases x <;> simp [inner]

/-- Whether a call succeeds. -/
def succeeds (x : Call ε α) : Bool :=
  match x with
  | .ok _ => true
  | .error _ => false

theorem succeeds_iff {x : Call ε α} : succeeds x = true ↔ ∃ a, x = .ok a := by
  cases x <;> simp [succeeds]

/-- The reason of a revert. -/
def reason (x : Call ε α) : Option (Revert ε) :=
  match x with
  | .ok _ => none
  | .error e => some e

theorem reason_eq_some {x : Call ε α} {e : Revert ε} : reason x = some e ↔ x = .error e := by
  cases x <;> simp [reason]

/-- The call does not revert with the contract's own error `e`. -/
def Avoids (e : ε) (x : Call ε α) : Prop := x ≠ .error (.custom e)

namespace Avoids

variable {e : ε}

theorem bind {x : Call ε α} {f : α → Call ε β} (hx : Avoids e x)
    (hf : ∀ a, x = .ok a → Avoids e (f a)) : Avoids e (x >>= f) := by
  intro h
  rcases bind_eq_error.mp h with h | ⟨a, ha, h⟩
  · exact hx h
  · exact hf a ha h

theorem of_ok {a : α} : Avoids e (.ok a : Call ε α) := by
  intro h
  cases h

theorem of_revertIf {c : Prop} [Decidable c] {e' : ε} (h : e' ≠ e) : Avoids e (revertIf c e') := by
  intro hr
  obtain ⟨-, he⟩ := revertIf_eq_error.mp hr
  exact h (Revert.custom.inj he).symm

theorem of_inner {ε' : Type} {x : Call ε' α} : Avoids e (inner x) := by
  unfold inner
  cases x <;> intro h <;> cases h

end Avoids

/-! ### Checked arithmetic -/

/-- `a + b`, panicking when the sum does not fit a word. -/
def addU (a b : ℕ) : Call ε ℕ :=
  if a + b < wordSize then .ok (a + b) else .error (.panic .arithmetic)

/-- `a - b`, panicking below zero. -/
def subU (a b : ℕ) : Call ε ℕ :=
  if b ≤ a then .ok (a - b) else .error (.panic .arithmetic)

/-- `a * b`, panicking when the product does not fit a word. -/
def mulU (a b : ℕ) : Call ε ℕ :=
  if a * b < wordSize then .ok (a * b) else .error (.panic .arithmetic)

/-- `a + b` on 64-bit words. -/
def addU64 (a b : ℕ) : Call ε ℕ :=
  if a + b < 2 ^ 64 then .ok (a + b) else .error (.panic .arithmetic)

/-- `x * y / d` rounded down, with an intermediate product of any size. -/
def mulDiv (x y d : ℕ) : Call ε ℕ :=
  if d = 0 then .error (.panic .divisionByZero)
  else if x * y / d < wordSize then .ok (x * y / d) else .error (.panic .arithmetic)

/-- `x * y / d` rounded up: the quotient rounded down, plus one when the division leaves a rest. -/
def mulDivUp (x y d : ℕ) : Call ε ℕ := do
  let q ← mulDiv x y d
  addU q (if 0 < x * y % d then 1 else 0)

/-- The sum of a list, added up from the left. -/
def sumU : ℕ → List ℕ → Call ε ℕ
  | acc, [] => .ok acc
  | acc, a :: as => do
      let acc' ← addU acc a
      sumU acc' as

theorem addU_eq_ok {a b c : ℕ} : (addU a b : Call ε ℕ) = .ok c ↔ a + b < wordSize ∧ c = a + b := by
  unfold addU
  split <;> simp_all [eq_comm]

theorem addU_avoids {a b : ℕ} {e : ε} : Avoids e (addU a b) := by
  unfold addU
  split <;> intro h <;> cases h

theorem subU_avoids {a b : ℕ} {e : ε} : Avoids e (subU a b) := by
  unfold subU
  split <;> intro h <;> cases h

theorem mulU_avoids {a b : ℕ} {e : ε} : Avoids e (mulU a b) := by
  unfold mulU
  split <;> intro h <;> cases h

theorem mulDiv_avoids {x y d : ℕ} {e : ε} : Avoids e (mulDiv x y d) := by
  unfold mulDiv
  repeat' split
  all_goals intro h; cases h

theorem sumU_avoids {l : List ℕ} {e : ε} : ∀ {acc : ℕ}, Avoids e (sumU acc l) := by
  induction l with
  | nil => exact .of_ok
  | cons a as ih => exact .bind addU_avoids fun _ _ => ih

theorem subU_eq_ok {a b c : ℕ} : (subU a b : Call ε ℕ) = .ok c ↔ b ≤ a ∧ c = a - b := by
  unfold subU
  split <;> simp_all [eq_comm]

theorem mulU_eq_ok {a b c : ℕ} : (mulU a b : Call ε ℕ) = .ok c ↔ a * b < wordSize ∧ c = a * b := by
  unfold mulU
  split <;> simp_all [eq_comm]

theorem addU64_eq_ok {a b c : ℕ} :
    (addU64 a b : Call ε ℕ) = .ok c ↔ a + b < 2 ^ 64 ∧ c = a + b := by
  unfold addU64
  split <;> simp_all [eq_comm]

theorem mulDiv_eq_ok {x y d c : ℕ} :
    (mulDiv x y d : Call ε ℕ) = .ok c ↔ 0 < d ∧ x * y / d < wordSize ∧ c = x * y / d := by
  unfold mulDiv
  by_cases hd : d = 0
  · simp [hd]
  · simp only [hd, if_false]
    split <;> simp_all [eq_comm, Nat.pos_iff_ne_zero]

/-- A quotient rounded down, times the divisor, does not exceed the product. -/
theorem mulDiv_mul_le {x y d c : ℕ} (h : (mulDiv x y d : Call ε ℕ) = .ok c) : c * d ≤ x * y := by
  obtain ⟨-, -, rfl⟩ := mulDiv_eq_ok.mp h
  exact Nat.div_mul_le_self _ _

/-- A quotient rounded up, times the divisor, covers the product, by less than one divisor. -/
theorem mulDivUp_bounds {x y d c : ℕ} (h : (mulDivUp x y d : Call ε ℕ) = .ok c) :
    x * y ≤ c * d ∧ c * d < x * y + d := by
  unfold mulDivUp at h
  obtain ⟨q, hq, hc⟩ := bind_eq_ok.mp h
  obtain ⟨hd, -, rfl⟩ := mulDiv_eq_ok.mp hq
  obtain ⟨-, rfl⟩ := addU_eq_ok.mp hc
  have hdm := Nat.div_add_mod (x * y) d
  have hlt := Nat.mod_lt (x * y) hd
  rw [mul_comm] at hdm
  split
  · rw [Nat.add_mul]
    omega
  · rw [Nat.add_mul]
    omega

/-- A quotient rounded up is the least that, times the divisor, covers the product. -/
theorem mulDivUp_le_iff {x y d c k : ℕ} (h : (mulDivUp x y d : Call ε ℕ) = .ok c) :
    c ≤ k ↔ x * y ≤ k * d := by
  obtain ⟨hlow, hhigh⟩ := mulDivUp_bounds h
  constructor
  · intro hle
    exact hlow.trans (Nat.mul_le_mul_right d hle)
  · intro hle
    have hlt : c * d < (k + 1) * d := by
      rw [Nat.add_mul]
      omega
    exact Nat.le_of_lt_succ (Nat.lt_of_mul_lt_mul_right hlt)

theorem sumU_eq_ok {l : List ℕ} : ∀ {acc c : ℕ}, acc < wordSize →
    ((sumU acc l : Call ε ℕ) = .ok c ↔ acc + l.sum < wordSize ∧ c = acc + l.sum) := by
  induction l with
  | nil =>
    intro acc c hacc
    simp [sumU, hacc, eq_comm]
  | cons a as ih =>
    intro acc c hacc
    simp only [sumU, bind_eq_ok, addU_eq_ok, List.sum_cons]
    constructor
    · rintro ⟨b, ⟨hb, rfl⟩, h⟩
      have := (ih hb).mp h
      omega
    · rintro ⟨h, rfl⟩
      exact ⟨acc + a, ⟨by omega, rfl⟩, (ih (by omega)).mpr (by omega)⟩

end RobotMoney.Lib
