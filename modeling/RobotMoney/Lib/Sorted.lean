import Mathlib.Data.List.Sort

/-!
# What a sort returns

A list is sorted into the one arrangement of its elements that ascends strictly, if there is one.  The last
element is a greatest one, and is left out by a limit on the length if the list is longer.  The element in the
middle is the upper median, which does not depend on the arrangement.
-/

namespace RobotMoney.Lib

variable {α : Type} {le : α → α → Bool} {xs ys : List α}

/-- The sorted list is known, if it ascends strictly. -/
theorem mergeSort_eq_of_perm (htrans : ∀ a b c, le a b = true → le b c = true → le a c = true)
    (htotal : ∀ a b, (le a b || le b a) = true) (hperm : xs.Perm ys)
    (hsorted : ys.Pairwise fun a b => le b a = false) : xs.mergeSort le = ys := by
  have hle : ys.Pairwise fun a b => le a b = true := by
    refine hsorted.imp ?_
    intro a b hba
    have hor := htotal a b
    rwa [hba, Bool.or_false] at hor
  refine ((List.mergeSort_perm xs le).trans hperm).eq_of_pairwise ?_ (List.pairwise_mergeSort htrans htotal xs)
    hle
  -- of two elements one comes strictly before the other
  have hanti : ∀ a ∈ ys, ∀ b ∈ ys, le a b = true → le b a = true → a = b := by
    intro a ha b hb
    refine List.Pairwise.forall_of_forall_of_flip (R := fun a b => le a b = true → le b a = true → a = b) ?_
      (hsorted.imp ?_) (hsorted.imp ?_) ha hb
    · intro a _ _ _
      rfl
    · intro a b hba _ h
      rw [hba] at h
      cases h
    · intro a b hba h _
      rw [hba] at h
      cases h
  intro a b ha hb hab hba
  exact hanti a (hperm.mem_iff.mp (List.mem_mergeSort.mp ha)) b hb hab hba

/-! ### The greatest element -/

section Greatest

variable {x : α} {n : ℕ}

/-- No element comes after it. -/
def Greatest (le : α → α → Bool) (xs : List α) (x : α) : Prop := x ∈ xs ∧ ∀ y ∈ xs, le y x = true

theorem greatest_of_getLast (htrans : ∀ a b c, le a b = true → le b c = true → le a c = true)
    (htotal : ∀ a b, (le a b || le b a) = true) (h : (xs.mergeSort le).getLast? = some x) :
    Greatest le xs x := by
  obtain ⟨zs, hzs⟩ := List.getLast?_eq_some_iff.mp h
  have hsorted := List.pairwise_mergeSort htrans htotal xs
  rw [hzs, List.pairwise_append] at hsorted
  have hmem : ∀ y, y ∈ xs ↔ y ∈ zs ++ [x] := fun y => by rw [← hzs, List.mem_mergeSort]
  refine ⟨(hmem x).mpr (by simp), ?_⟩
  intro y hy
  rcases List.mem_append.mp ((hmem y).mp hy) with hy | hy
  · exact hsorted.2.2 y hy x (List.mem_singleton_self x)
  · rw [List.mem_singleton.mp hy]
    simpa using htotal x x

/-- The last of a list with a limit, if the list is longer. -/
theorem getLast?_take_of_lt (h : n < xs.length) : (xs.take (n + 1)).getLast? = xs[n]? := by
  rw [List.getLast?_take, if_neg (Nat.succ_ne_zero n), Nat.add_sub_cancel, List.getElem?_eq_getElem h, Option.some_or]

/-- Where the sorted list ascends strictly, only the last element is greatest. -/
theorem not_greatest_of_lt (hsorted : (xs.mergeSort le).Pairwise fun a b => le b a = false)
    (hn : n + 1 < xs.length) (h : (xs.mergeSort le)[n]? = some x) : ¬ Greatest le xs x := by
  rintro ⟨-, hall⟩
  have hlen : n + 1 < (xs.mergeSort le).length := by rwa [List.length_mergeSort]
  obtain ⟨hlt, hget⟩ := List.getElem?_eq_some_iff.mp h
  have hafter := List.pairwise_iff_getElem.mp hsorted n (n + 1) hlt hlen (Nat.lt_succ_self n)
  have hle := hall _ (List.mem_mergeSort.mp (List.getElem_mem hlen))
  rw [hget] at hafter
  rw [hafter] at hle
  cases hle

end Greatest

/-! ### The upper median -/

section Median

variable {β : Type} [LinearOrder β] {l l' : List β} {m m' : β}

/-- At most half of the list is below it, and more than half is up to it. -/
structure IsUpperMedian (l : List β) (m : β) : Prop where
  mem : m ∈ l
  below : l.countP (fun a => a < m) ≤ l.length / 2
  upTo : l.length / 2 < l.countP fun a => a ≤ m

theorem IsUpperMedian.perm (h : IsUpperMedian l m) (hperm : l.Perm l') : IsUpperMedian l' m where
  mem := hperm.mem_iff.mp h.mem
  below := by
    rw [← hperm.countP_eq, ← hperm.length_eq]
    exact h.below
  upTo := by
    rw [← hperm.countP_eq, ← hperm.length_eq]
    exact h.upTo

theorem IsUpperMedian.ge (h : IsUpperMedian l m) (h' : IsUpperMedian l m') : m' ≤ m := by
  by_contra hlt
  have hcount : l.countP (fun a => a ≤ m) ≤ l.countP fun a => a < m' := by
    refine List.countP_mono_left ?_
    intro a _ ha
    simp only [decide_eq_true_eq] at ha ⊢
    exact lt_of_le_of_lt ha (not_le.mp hlt)
  exact absurd (h.upTo.trans_le (hcount.trans h'.below)) (lt_irrefl _)

/-- A list has one upper median at most. -/
theorem IsUpperMedian.unique (h : IsUpperMedian l m) (h' : IsUpperMedian l m') : m = m' :=
  le_antisymm (h'.ge h) (h.ge h')

/-- In a sorted list it is in the middle. -/
theorem isUpperMedian_of_sorted (hsorted : l.Pairwise (· ≤ ·)) (h : l[l.length / 2]? = some m) :
    IsUpperMedian l m := by
  obtain ⟨hlt, hget⟩ := List.getElem?_eq_some_iff.mp h
  have hsplit : l = l.take (l.length / 2) ++ m :: l.drop (l.length / 2 + 1) := by
    rw [← hget, List.getElem_cons_drop, List.take_append_drop]
  have hlen : (l.take (l.length / 2)).length = l.length / 2 := List.length_take_of_le hlt.le
  -- the first half is up to the middle, and the rest from it on
  rw [hsplit, List.pairwise_append, List.pairwise_cons] at hsorted
  obtain ⟨-, ⟨hafter, -⟩, hbefore⟩ := hsorted
  have hbefore' : ∀ a ∈ l.take (l.length / 2), a ≤ m := fun a ha => hbefore a ha m List.mem_cons_self
  refine ⟨List.mem_of_getElem? h, ?_, ?_⟩
  · have hrest : (m :: l.drop (l.length / 2 + 1)).countP (fun a => a < m) = 0 := by
      refine List.countP_eq_zero.mpr ?_
      intro a ha
      simp only [decide_eq_true_eq, not_lt]
      rcases List.mem_cons.mp ha with rfl | ha
      · exact le_rfl
      · exact hafter a ha
    calc l.countP (fun a => a < m)
        = (l.take (l.length / 2)).countP (fun a => a < m) := by
          conv_lhs => rw [hsplit]
          rw [List.countP_append, hrest, Nat.add_zero]
      _ ≤ (l.take (l.length / 2)).length := List.countP_le_length
      _ = l.length / 2 := hlen
  · have hfirst : (l.take (l.length / 2)).countP (fun a => a ≤ m) = l.length / 2 := by
      rw [List.countP_eq_length.mpr fun a ha => decide_eq_true (hbefore' a ha), hlen]
    have hmid : 0 < (m :: l.drop (l.length / 2 + 1)).countP fun a => a ≤ m :=
      List.countP_pos_iff.mpr ⟨m, List.mem_cons_self, decide_eq_true le_rfl⟩
    conv_rhs => rw [hsplit]
    rw [List.countP_append, hfirst]
    omega

end Median

end RobotMoney.Lib
