import Mathlib.Tactic

/-!
# Spending in a window of time

A ledger is a list of entries, each a time and an amount.  `spent W s l` is what the ledger `l` spends
in the `W` units of time from `s` on.  A meter with one anchor and one counter bounds it over every
such window, wherever it starts, provided that the meter moves its anchor only when everything before
has aged out: `Tracks` is the invariant, `Tracks.add` and `Tracks.reanchor` the two ways to go on.
-/

namespace RobotMoney.Lib

/-- What a ledger spends in `[s, s + W)`. -/
def spent (W s : ℕ) (l : List (ℕ × ℕ)) : ℕ :=
  ((l.filter fun x => s ≤ x.1 ∧ x.1 < s + W).map Prod.snd).sum

section Spent

variable {W s : ℕ} {l l' : List (ℕ × ℕ)}

theorem spent_append : spent W s (l ++ l') = spent W s l + spent W s l' := by
  simp [spent]

theorem spent_le_sum : spent W s l ≤ (l.map Prod.snd).sum := by
  unfold spent
  induction l with
  | nil => simp
  | cons x l ih =>
    rw [List.filter_cons]
    split
    · simp only [List.map_cons, List.sum_cons]
      omega
    · simp only [List.map_cons, List.sum_cons]
      omega

theorem spent_eq_zero (h : ∀ x ∈ l, ¬ (s ≤ x.1 ∧ x.1 < s + W)) : spent W s l = 0 := by
  unfold spent
  have hnil : l.filter (fun x => s ≤ x.1 ∧ x.1 < s + W) = [] := by
    rw [List.filter_eq_nil_iff]
    intro x hx
    simpa using h x hx
  rw [hnil]
  rfl

end Spent

/-- A meter with its anchor and its counter: `old` is what it has put behind it, `cur` what it counts.
Whatever is old has aged out at the anchor. -/
structure Tracks (W M anchor gross : ℕ) (old cur : List (ℕ × ℕ)) : Prop where
  bounded : ∀ s, spent W s old ≤ M
  counted : (cur.map Prod.snd).sum = gross
  gross_le : gross ≤ M
  apart : ∀ x ∈ old, x.1 + W ≤ anchor
  since : ∀ x ∈ cur, anchor ≤ x.1

namespace Tracks

variable {W M anchor gross t x : ℕ} {old cur : List (ℕ × ℕ)}

theorem init : Tracks W M 0 0 [] [] :=
  ⟨fun _ => Nat.zero_le M, rfl, Nat.zero_le M, by simp, by simp⟩

/-- No window sees both what is old and what is counted, so each sees at most `M`. -/
theorem spent_le (h : Tracks W M anchor gross old cur) (s : ℕ) : spent W s (old ++ cur) ≤ M := by
  rw [spent_append]
  by_cases hcur : ∃ y ∈ cur, s ≤ y.1 ∧ y.1 < s + W
  · obtain ⟨y, hy, hs, hlt⟩ := hcur
    have hold : spent W s old = 0 := by
      refine spent_eq_zero ?_
      intro z hz hz'
      have h₁ := h.apart z hz
      have h₂ := h.since y hy
      omega
    have hle : spent W s cur ≤ (cur.map Prod.snd).sum := spent_le_sum
    rw [h.counted] at hle
    have hM := h.gross_le
    omega
  · have hzero : spent W s cur = 0 := by
      refine spent_eq_zero ?_
      intro y hy hy'
      exact hcur ⟨y, hy, hy'⟩
    rw [hzero, Nat.add_zero]
    exact h.bounded s

/-- The anchor stays, and the counter grows. -/
theorem add (h : Tracks W M anchor gross old cur) (ht : anchor ≤ t) (hx : gross + x ≤ M) :
    Tracks W M anchor (gross + x) old (cur ++ [(t, x)]) := by
  refine ⟨h.bounded, ?_, hx, h.apart, ?_⟩
  · rw [List.map_append, List.sum_append, h.counted]
    simp
  · intro y hy
    rcases List.mem_append.mp hy with hy | hy
    · exact h.since y hy
    · rw [List.mem_singleton.mp hy]
      exact ht

/-- The anchor moves to the present, once everything before has aged out. -/
theorem reanchor (h : Tracks W M anchor gross old cur) (hage : ∀ y ∈ old ++ cur, y.1 + W ≤ t)
    (hx : x ≤ M) : Tracks W M t x (old ++ cur) [(t, x)] := by
  refine ⟨h.spent_le, ?_, hx, hage, ?_⟩
  · simp
  · intro y hy
    rw [List.mem_singleton.mp hy]

end Tracks

end RobotMoney.Lib
