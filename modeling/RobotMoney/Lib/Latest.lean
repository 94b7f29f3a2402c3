import Mathlib.Data.List.Basic

/-!
# The last element with a key

A log assigns values to keys, and what it says of a key is its last element with that key.  Where the log is
ordered, this is the newest one (`newest_iff`).
-/

namespace RobotMoney.Lib

variable {α β κ : Type} [DecidableEq κ] {key : α → κ} {k : κ} {xs ys : List α} {x : α}

/-- The last element with a key. -/
def latest (key : α → κ) (k : κ) (xs : List α) : Option α := (xs.filter fun x => key x = k).getLast?

theorem latest_append : latest key k (xs ++ ys) = (latest key k ys).or (latest key k xs) := by
  unfold latest
  rw [List.filter_append, List.getLast?_append]

theorem latest_singleton : latest key k [x] = if key x = k then some x else none := by
  unfold latest
  by_cases h : key x = k <;> simp [h]

theorem latest_snoc_of_eq (h : key x = k) : latest key k (xs ++ [x]) = some x := by
  rw [latest_append, latest_singleton, if_pos h, Option.some_or]

theorem latest_snoc_of_ne (h : key x ≠ k) : latest key k (xs ++ [x]) = latest key k xs := by
  rw [latest_append, latest_singleton, if_neg h, Option.none_or]

theorem latest_append_ne_none (h : latest key k xs ≠ none) : latest key k (xs ++ ys) ≠ none := by
  rw [latest_append]
  intro hnone
  exact h (Option.or_eq_none_iff.mp hnone).2

theorem latest_mem (h : latest key k xs = some x) : x ∈ xs ∧ key x = k := by
  have hx := List.mem_filter.mp (List.mem_of_getLast? h)
  exact ⟨hx.1, of_decide_eq_true hx.2⟩

theorem latest_ne_none (hx : x ∈ xs) (hkey : key x = k) : latest key k xs ≠ none := by
  intro hnone
  have hmem : x ∈ xs.filter fun x => key x = k := List.mem_filter.mpr ⟨hx, decide_eq_true hkey⟩
  rw [List.getLast?_eq_none_iff.mp hnone] at hmem
  cases hmem

/-- The only element with a key is the last. -/
theorem latest_of_unique (hx : x ∈ xs) (hkey : key x = k) (h : ∀ y ∈ xs, key y = k → y = x) :
    latest key k xs = some x := by
  cases hlast : latest key k xs with
  | none => exact absurd hlast (latest_ne_none hx hkey)
  | some y =>
    obtain ⟨hy, hky⟩ := latest_mem hlast
    rw [h y hy hky]

theorem latest_congr {κ' : Type} [DecidableEq κ'] {key' : α → κ'} {k' : κ'}
    (h : ∀ x ∈ xs, key x = k ↔ key' x = k') : latest key k xs = latest key' k' xs := by
  unfold latest
  rw [List.filter_congr fun x hx => decide_eq_decide.mpr (h x hx)]

theorem latest_map (f : α → β) (key : β → κ) :
    latest key k (xs.map f) = (latest (fun x => key (f x)) k xs).map f := by
  unfold latest
  rw [List.filter_map, List.getLast?_map]
  rfl

/-- The element with a key that all others with the key come before. -/
def Newest (before : α → α → Prop) (key : α → κ) (k : κ) (xs : List α) (x : α) : Prop :=
  x ∈ xs ∧ key x = k ∧ ∀ y ∈ xs, key y = k → y = x ∨ before y x

section Newest

variable {before : α → α → Prop}

/-- In an ordered list the last one is the newest. -/
theorem newest_of_latest (hxs : xs.Pairwise before) (h : latest key k xs = some x) :
    Newest before key k xs x := by
  obtain ⟨hx, hkey⟩ := latest_mem h
  refine ⟨hx, hkey, ?_⟩
  obtain ⟨zs, hzs⟩ := List.getLast?_eq_some_iff.mp h
  have hordered := hxs.filter fun x => key x = k
  rw [hzs, List.pairwise_append] at hordered
  intro y hy hky
  have hmem : y ∈ zs ++ [x] := hzs ▸ List.mem_filter.mpr ⟨hy, decide_eq_true hky⟩
  rcases List.mem_append.mp hmem with hy | hy
  · exact .inr (hordered.2.2 y hy x (List.mem_singleton_self x))
  · exact .inl (List.mem_singleton.mp hy)

theorem newest_iff (hasymm : ∀ x y, before x y → ¬ before y x) (hxs : xs.Pairwise before) :
    Newest before key k xs x ↔ latest key k xs = some x := by
  refine ⟨?_, newest_of_latest hxs⟩
  rintro ⟨hx, hkey, hall⟩
  cases hlast : latest key k xs with
  | none => exact absurd hlast (latest_ne_none hx hkey)
  | some y =>
    obtain ⟨hy, hky, hlatest⟩ := newest_of_latest hxs hlast
    rcases hall y hy hky with rfl | hyx
    · rfl
    · rcases hlatest x hx hkey with rfl | hxy
      · rfl
      · exact absurd hxy (hasymm _ _ hyx)

end Newest

end RobotMoney.Lib
