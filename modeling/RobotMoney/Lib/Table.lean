import Mathlib.Tactic

/-!
# Tables with a primary key

A table of a database is the list of its rows; its primary key is a function of the row.  An insert
that does nothing on a conflict (`insertNew`) adds its row unless the key is taken; `lookup` finds the
row of a key.  While keys are unique, a table is what its lookups find (`Unique.same_iff`).
-/

namespace RobotMoney.Lib

namespace Table

variable {ρ κ : Type} [DecidableEq κ] (key : ρ → κ)

/-- Whether a row has the key. -/
def taken (t : List ρ) (k : κ) : Bool := t.any fun r => key r = k

/-- `INSERT ... ON CONFLICT (key) DO NOTHING` -/
def insertNew (t : List ρ) (r : ρ) : List ρ :=
  if taken key t (key r) then t else t ++ [r]

/-- The number of rows that insert affects. -/
def affected (t : List ρ) (r : ρ) : ℕ := if taken key t (key r) then 0 else 1

/-- `SELECT ... WHERE key = k` -/
def lookup (t : List ρ) (k : κ) : Option ρ := t.find? fun r => key r = k

variable {key} {t : List ρ} {r x : ρ} {k : κ}

theorem taken_iff : taken key t k = true ↔ ∃ y ∈ t, key y = k := by
  simp [taken]

theorem exists_of_taken (h : taken key t k = true) : ∃ y ∈ t, key y = k := by
  rwa [taken_iff] at h

theorem taken_of_mem (hx : x ∈ t) (hk : key x = k) : taken key t k = true := by
  rw [taken_iff]
  exact ⟨x, hx, hk⟩

theorem mem_insertNew : x ∈ insertNew key t r ↔ x ∈ t ∨ (x = r ∧ ∀ y ∈ t, key y ≠ key r) := by
  unfold insertNew
  by_cases h : taken key t (key r) = true
  · rw [if_pos h]
    obtain ⟨y, hy, hk⟩ := exists_of_taken h
    constructor
    · exact .inl
    · rintro (hx | ⟨-, hfree⟩)
      · exact hx
      · exact absurd hk (hfree y hy)
  · rw [if_neg h]
    have hfree : ∀ y ∈ t, key y ≠ key r := by
      intro y hy hk
      exact h (taken_of_mem hy hk)
    simp only [List.mem_append, List.mem_singleton]
    constructor
    · rintro (hx | hx)
      · exact .inl hx
      · exact .inr ⟨hx, hfree⟩
    · rintro (hx | ⟨hx, -⟩)
      · exact .inl hx
      · exact .inr hx

theorem subset_insertNew (hx : x ∈ t) : x ∈ insertNew key t r := by
  rw [mem_insertNew]
  exact .inl hx

theorem forall_insertNew {P : ρ → Prop} (h : ∀ x ∈ t, P x) (hr : P r) : ∀ x ∈ insertNew key t r, P x := by
  intro x hx
  rw [mem_insertNew] at hx
  rcases hx with hx | ⟨rfl, -⟩
  · exact h x hx
  · exact hr

/-- After an insert its key is taken. -/
theorem exists_key_insertNew : ∃ y ∈ insertNew key t r, key y = key r := by
  by_cases h : ∃ y ∈ t, key y = key r
  · obtain ⟨y, hy, hk⟩ := h
    exact ⟨y, subset_insertNew hy, hk⟩
  · have hr : r ∈ insertNew key t r := by
      rw [mem_insertNew]
      exact .inr ⟨rfl, fun y hy hk => h ⟨y, hy, hk⟩⟩
    exact ⟨r, hr, rfl⟩

theorem taken_insertNew (h : taken key t k = true) : taken key (insertNew key t r) k = true := by
  obtain ⟨y, hy, hk⟩ := exists_of_taken h
  exact taken_of_mem (subset_insertNew hy) hk

theorem taken_insertNew_self : taken key (insertNew key t r) (key r) = true := by
  rw [taken_iff]
  exact exists_key_insertNew

theorem insertNew_of_taken (h : taken key t (key r) = true) : insertNew key t r = t := if_pos h

/-- Rows with distinct keys are all inserted, one behind the other. -/
theorem foldl_insertNew {rs : List ρ} (h : ((t ++ rs).map key).Nodup) :
    rs.foldl (insertNew key) t = t ++ rs := by
  induction rs generalizing t with
  | nil => exact (List.append_nil t).symm
  | cons r rs ih =>
    have hfree : ¬ taken key t (key r) = true := by
      rw [taken_iff]
      rintro ⟨y, hy, hk⟩
      rw [List.map_append, List.nodup_append] at h
      exact h.2.2 _ (List.mem_map_of_mem hy) _ (List.mem_map_of_mem List.mem_cons_self) hk
    have hnew : insertNew key t r = t ++ [r] := if_neg hfree
    rw [List.append_cons] at h
    rw [List.foldl_cons, hnew, ih h, List.append_assoc, List.singleton_append]

/-- An update of rows that keeps their keys. -/
theorem taken_map {f : ρ → ρ} (hf : ∀ y, key (f y) = key y) (h : taken key t k = true) :
    taken key (t.map f) k = true := by
  obtain ⟨y, hy, hk⟩ := exists_of_taken h
  exact taken_of_mem (List.mem_map_of_mem hy) ((hf y).trans hk)

theorem lookup_eq_none : lookup key t k = none ↔ ∀ y ∈ t, key y ≠ k := by
  simp [lookup, List.find?_eq_none]

theorem lookup_isNone (h : ∀ y ∈ t, key y ≠ k) : lookup key t k = none := by
  rwa [lookup_eq_none]

theorem key_ne_of_lookup (h : lookup key t k = none) (hx : x ∈ t) : key x ≠ k := by
  rw [lookup_eq_none] at h
  exact h x hx

/-- The row a lookup finds after an insert: the one it found before, or else the new one. -/
theorem lookup_insertNew :
    lookup key (insertNew key t r) k = (lookup key t k).or (if key r = k then some r else none) := by
  unfold insertNew
  by_cases h : taken key t (key r) = true
  · rw [if_pos h]
    split
    · rename_i hk
      subst hk
      obtain ⟨y, hy, hk⟩ := exists_of_taken h
      cases hl : lookup key t (key r) with
      | none => exact absurd hk (key_ne_of_lookup hl hy)
      | some z => rfl
    · rw [Option.or_none]
  · rw [if_neg h]
    unfold lookup
    rw [List.find?_append]
    by_cases hk : key r = k <;> simp [hk]

/-- A lookup after rows were deleted that do not have the key, or all that have it. -/
theorem lookup_filter {p : ρ → Bool} (h : (∀ y ∈ t, key y = k → p y = true)) :
    lookup key (t.filter p) k = lookup key t k := by
  unfold lookup
  rw [List.find?_filter]
  refine List.find?_congr ?_
  intro y hy
  by_cases hk : key y = k
  · simp [hk, h y hy hk]
  · simp [hk]

theorem lookup_filter_none {p : ρ → Bool} (h : ∀ y ∈ t, key y = k → p y = false) :
    lookup key (t.filter p) k = none := by
  refine lookup_isNone ?_
  intro y hy hk
  obtain ⟨hy, hp⟩ := List.mem_filter.mp hy
  rw [h y hy hk] at hp
  cases hp

/-- A lookup after an update of rows that keeps their keys. -/
theorem lookup_map {f : ρ → ρ} (hf : ∀ y, key (f y) = key y) :
    lookup key (t.map f) k = (lookup key t k).map f := by
  unfold lookup
  rw [List.find?_map]
  congr 2
  funext y
  simp [hf y]

/-! ### Unique keys -/

variable (key) in
/-- No two rows have one key. -/
def Unique (t : List ρ) : Prop := (t.map key).Nodup

omit [DecidableEq κ] in
theorem unique_nil : Unique key ([] : List ρ) := List.nodup_nil

theorem Unique.insertNew (h : Unique key t) : Unique key (insertNew key t r) := by
  unfold Table.insertNew
  split
  · exact h
  · rename_i hfree
    unfold Unique
    rw [List.map_append, List.nodup_append]
    refine ⟨h, List.nodup_singleton _, ?_⟩
    intro k hk k' hk' heq
    obtain ⟨y, hy, rfl⟩ := List.mem_map.mp hk
    rw [List.map_singleton, List.mem_singleton] at hk'
    exact hfree (taken_of_mem hy (heq.trans hk'))

omit [DecidableEq κ] in
theorem Unique.map (h : Unique key t) {f : ρ → ρ} (hf : ∀ y, key (f y) = key y) :
    Unique key (t.map f) := by
  have hkeys : key ∘ f = key := funext hf
  unfold Unique
  rw [List.map_map, hkeys]
  exact h

omit [DecidableEq κ] in
theorem Unique.sublist (h : Unique key t) {t' : List ρ} (hsub : t'.Sublist t) : Unique key t' :=
  List.Nodup.sublist (hsub.map key) h

theorem key_of_lookup (h : lookup key t k = some x) : key x = k := by
  simpa using List.find?_some h

/-- With unique keys a row is found by its key. -/
theorem Unique.mem_iff (h : Unique key t) : x ∈ t ↔ lookup key t (key x) = some x := by
  constructor
  · intro hx
    cases hl : lookup key t (key x) with
    | none => exact absurd rfl (key_ne_of_lookup hl hx)
    | some y =>
      have hy := List.mem_of_find?_eq_some hl
      rw [List.inj_on_of_nodup_map h hy hx (key_of_lookup hl)]
  · intro hl
    exact List.mem_of_find?_eq_some hl

theorem Unique.lookup_filter (h : Unique key t) {p : ρ → Bool} :
    lookup key (t.filter p) k = (lookup key t k).filter p := by
  cases hl : lookup key t k with
  | none =>
    refine lookup_isNone ?_
    intro y hy
    exact key_ne_of_lookup hl (List.mem_filter.mp hy).1
  | some x =>
    have hkey := key_of_lookup hl
    have hx := List.mem_of_find?_eq_some hl
    have honly : ∀ y ∈ t, key y = k → y = x := by
      intro y hy hk
      exact List.inj_on_of_nodup_map h hy hx (hk.trans hkey.symm)
    cases hp : p x with
    | true =>
      rw [Table.lookup_filter fun y hy hk => (honly y hy hk) ▸ hp, hl]
      exact (if_pos hp).symm
    | false =>
      rw [lookup_filter_none fun y hy hk => (honly y hy hk) ▸ hp]
      exact (if_neg (by simp [hp])).symm

end Table

end RobotMoney.Lib
