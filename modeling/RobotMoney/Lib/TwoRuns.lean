import RobotMoney.Lib.Run

/-!
# Two runs side by side

Two computations are `Alike` when both fail for the same reason, or both return and their values are
related.  The rule for `>>=` carries a relation through two programs that read different states.

Two lists of calls are `Twins` when they differ in silent calls only: these may be dropped, added or
changed in either list, and the others are matched one to one.  `Twins.run` is the induction: a relation
that silent calls keep on one side, and matched calls on both, holds at the end of the two runs.
-/

namespace RobotMoney.Lib

variable {ε α β γ δ : Type} {R : α → β → Prop} {S : γ → δ → Prop}

/-! ### Two computations -/

/-- Both fail for the same reason, or both return and the values are related. -/
inductive Alike (R : α → β → Prop) : Except ε α → Except ε β → Prop
  | ok {a : α} {b : β} (h : R a b) : Alike R (.ok a) (.ok b)
  | error (e : ε) : Alike R (.error e) (.error e)

namespace Alike

theorem bind {x : Except ε α} {y : Except ε β} {f : α → Except ε γ} {g : β → Except ε δ}
    (h : Alike R x y) (hf : ∀ a b, R a b → Alike S (f a) (g b)) : Alike S (x >>= f) (y >>= g) := by
  cases h with
  | ok hab => exact hf _ _ hab
  | error e => exact .error e

/-- The two programs begin with the same computation. -/
theorem same {x : Except ε α} {f : α → Except ε γ} {g : α → Except ε δ}
    (hf : ∀ a, Alike S (f a) (g a)) : Alike S (x >>= f) (x >>= g) := by
  cases x with
  | ok a => exact hf a
  | error e => exact .error e

/-- What is read off related values in the same way comes out the same. -/
theorem map_eq {x : Except ε α} {y : Except ε β} {f : α → γ} {g : β → γ} (h : Alike R x y)
    (hf : ∀ a b, R a b → f a = g b) : x.map f = y.map g := by
  cases h with
  | ok hab => exact congrArg Except.ok (hf _ _ hab)
  | error e => rfl

/-- Of inner calls only the values are seen. -/
theorem inner {ε' : Type} {x : Call ε' α} {y : Call ε' β} (h : Alike R x y) :
    Alike R (inner x : Call ε α) (Lib.inner y : Call ε β) := by
  cases h with
  | ok hab => exact .ok hab
  | error e => exact .error _

end Alike

/-! ### Two runs -/

variable {σ ι ρ : Type} {exec : σ → ι → Call ε (σ × ρ)} {s t : σ} {i j : ι} {is js : List ι}
  {R : σ → σ → Prop}

/-- A property that a call keeps when it succeeds. -/
theorem next_kept {P : σ → Prop} (h₀ : P s) (h : ∀ s' r, exec s i = .ok (s', r) → P s') :
    P (next exec s i) := by
  rcases hx : exec s i with e | ⟨s', r⟩
  · rw [next_of_error hx]
    exact h₀
  · rw [next_of_ok hx]
    exact h s' r hx

/-- Two calls that are alike keep the relation, also when both revert. -/
theorem Alike.next (h : Alike (fun a b => R a.1 b.1) (exec s i) (exec t j)) (h₀ : R s t) :
    R (next exec s i) (Lib.next exec t j) := by
  cases hx : exec s i with
  | ok a =>
    cases hy : exec t j with
    | ok b =>
      rw [hx, hy] at h
      cases h with
      | ok hab =>
        rw [next_of_ok hx, next_of_ok hy]
        exact hab
    | error e =>
      rw [hx, hy] at h
      cases h
  | error e =>
    cases hy : exec t j with
    | ok b =>
      rw [hx, hy] at h
      cases h
    | error e' =>
      rw [next_of_error hx, next_of_error hy]
      exact h₀

/-- Two lists of calls that differ in silent calls only. -/
inductive Twins (Silent : ι → Prop) (Same : ι → ι → Prop) : List ι → List ι → Prop
  | nil : Twins Silent Same [] []
  | left {i : ι} {is js : List ι} (hi : Silent i) (h : Twins Silent Same is js) :
      Twins Silent Same (i :: is) js
  | right {j : ι} {is js : List ι} (hj : Silent j) (h : Twins Silent Same is js) :
      Twins Silent Same is (j :: js)
  | both {i j : ι} {is js : List ι} (hij : Same i j) (h : Twins Silent Same is js) :
      Twins Silent Same (i :: is) (j :: js)

/-- **Two runs stay related**, when silent calls keep the relation on either side and matched calls
keep it together. -/
theorem Twins.run {Silent : ι → Prop} {Same : ι → ι → Prop} (h : Twins Silent Same is js)
    (hl : ∀ s t i, Silent i → R s t → R (next exec s i) t)
    (hr : ∀ s t j, Silent j → R s t → R s (next exec t j))
    (hb : ∀ s t i j, Same i j → R s t → R (next exec s i) (next exec t j)) (h₀ : R s t) :
    R (run exec s is) (Lib.run exec t js) := by
  induction h generalizing s t with
  | nil => exact h₀
  | left hi _ ih => exact ih (hl s t _ hi h₀)
  | right hj _ ih => exact ih (hr s t _ hj h₀)
  | both hij _ ih => exact ih (hb s t _ _ hij h₀)

end RobotMoney.Lib
