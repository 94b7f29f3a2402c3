import Mathlib.Tactic

/-!
# What comes before what

In a log, an element may need a key that an earlier element has to give: a change of something that was
created before, a vote on something that was proposed.  `Precedes gives needs xs` says that this is so
for every element of `xs`.  A log that grows keeps it if each new element needs only what has been given
(`Precedes.append`), and it can be shown on the part of the log that matters (`Precedes.of_filterMap`).
-/

namespace RobotMoney.Lib

variable {α β κ : Type} {gives needs : α → κ → Prop} {xs ys : List α}

/-- Every element that needs a key comes after one that gives it. -/
def Precedes (gives needs : α → κ → Prop) (xs : List α) : Prop :=
  ∀ k pre x post, xs = pre ++ x :: post → needs x k → ∃ y ∈ pre, gives y k

namespace Precedes

theorem nil : Precedes gives needs [] := by
  intro k pre x post h
  simp at h

theorem mono {needs' : α → κ → Prop} (h : Precedes gives needs xs) (hneeds : ∀ x k, needs' x k → needs x k) :
    Precedes gives needs' xs := by
  intro k pre x post hsplit hx
  exact h k pre x post hsplit (hneeds x k hx)

/-- The beginning of a log. -/
theorem left (h : Precedes gives needs (xs ++ ys)) : Precedes gives needs xs := by
  rintro k pre x post rfl hneeds
  exact h k pre x (post ++ ys) (by simp) hneeds

/-- More elements, which need what was given before all of them. -/
theorem append (h : Precedes gives needs xs) (hys : ∀ x ∈ ys, ∀ k, needs x k → ∃ y ∈ xs, gives y k) :
    Precedes gives needs (xs ++ ys) := by
  intro k pre x post hsplit hneeds
  rcases List.append_eq_append_iff.mp hsplit with ⟨as, rfl, hys'⟩ | ⟨bs, rfl, hrest⟩
  · -- the element is one of the new ones
    obtain ⟨y, hy, hgives⟩ := hys x (by simp [hys']) k hneeds
    exact ⟨y, List.mem_append_left _ hy, hgives⟩
  · cases bs with
    | nil =>
      have hx : x ∈ ys := by
        rw [List.nil_append] at hrest
        rw [← hrest]
        exact List.mem_cons_self
      obtain ⟨y, hy, hgives⟩ := hys x hx k hneeds
      exact ⟨y, by simpa using hy, hgives⟩
    | cons b bs =>
      obtain ⟨rfl, -⟩ := List.cons.inj hrest
      exact h k pre x bs rfl hneeds

/-- It is enough to look at the part of a list that has to do with the keys. -/
theorem of_filterMap {gives' needs' : β → κ → Prop} {f : α → Option β}
    (h : Precedes gives' needs' (xs.filterMap f))
    (hneeds : ∀ x k, needs x k → ∃ y, f x = some y ∧ needs' y k)
    (hgives : ∀ x y k, f x = some y → gives' y k → gives x k) : Precedes gives needs xs := by
  rintro k pre x post rfl hx
  obtain ⟨y, hf, hy⟩ := hneeds x k hx
  have hsplit : (pre ++ x :: post).filterMap f = pre.filterMap f ++ y :: post.filterMap f := by
    rw [List.filterMap_append, List.filterMap_cons_some hf]
  obtain ⟨z, hz, hzk⟩ := h k _ y _ hsplit hy
  obtain ⟨w, hw, hfw⟩ := List.mem_filterMap.mp hz
  exact ⟨w, hw, hgives w z k hfw hzk⟩

end Precedes

end RobotMoney.Lib
