import Mathlib.Tactic

/-!
# Positions over distinct accounts

The sum of a quantity over a list of distinct accounts, when it changes at one of them only.
-/

namespace RobotMoney.Lib

variable {α : Type} {l : List α} {a : α} {f f' : α → ℕ} {y : ℕ}

/-- One position grows. -/
theorem sum_map_add_of_mem (hl : l.Nodup) (ha : a ∈ l) (hsame : ∀ b ∈ l, b ≠ a → f' b = f b)
    (hgrow : f' a = f a + y) : (l.map f').sum = (l.map f).sum + y := by
  induction l with
  | nil => cases ha
  | cons b l ih =>
    obtain ⟨hb, hl⟩ := List.nodup_cons.mp hl
    rw [List.map_cons, List.map_cons, List.sum_cons, List.sum_cons]
    rcases List.mem_cons.mp ha with rfl | ha
    · have hrest : l.map f' = l.map f := by
        refine List.map_congr_left ?_
        intro c hc
        refine hsame c (List.mem_cons_of_mem _ hc) ?_
        rintro rfl
        exact hb hc
      rw [hgrow, hrest]
      omega
    · have hne : b ≠ a := by
        rintro rfl
        exact hb ha
      have hrest := ih hl ha fun c hc => hsame c (List.mem_cons_of_mem _ hc)
      rw [hsame b List.mem_cons_self hne, hrest]
      omega

/-- One position falls. -/
theorem sum_map_sub_of_mem (hl : l.Nodup) (ha : a ∈ l) (hsame : ∀ b ∈ l, b ≠ a → f' b = f b)
    (hfall : f' a + y = f a) : (l.map f').sum + y = (l.map f).sum := by
  refine (sum_map_add_of_mem hl ha ?_ hfall.symm).symm
  intro b hb hne
  exact (hsame b hb hne).symm

end RobotMoney.Lib
