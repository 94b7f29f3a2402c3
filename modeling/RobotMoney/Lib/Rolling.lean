import Mathlib.Tactic

/-!
# Files that are rolled

A log that is rolled is a list of chunks, the newest first: an entry goes to the newest chunk, and a new
chunk pushes the oldest one out when there are enough (`push`, `roll`).  What is left is a suffix of the
entries, and only the oldest chunk is ever lost, as a whole.

On disk the chunks are files of one directory, `name 0`, `name 1`, and so on, and a roll is a chain of
renames from the oldest to the newest.  `roll_files` says that the chain does to the files what `roll` does
to the chunks, whatever is in them and whichever are missing.
-/

namespace RobotMoney.Lib

/-! ### Chunks -/

namespace Rolling

variable {α : Type} {k : ℕ} {chunks : List (List α)} {a : α}

/-- An entry at the end of the newest chunk. -/
def push (a : α) : List (List α) → List (List α)
  | [] => [[a]]
  | c :: cs => (c ++ [a]) :: cs

/-- A new chunk, beside at most `k` older ones. -/
def roll (k : ℕ) (chunks : List (List α)) : List (List α) := ([] :: chunks).take (k + 1)

/-- The entries in the order they came. -/
def entries (chunks : List (List α)) : List α := chunks.reverse.flatten

theorem entries_push : entries (push a chunks) = entries chunks ++ [a] := by
  cases chunks with
  | nil => rfl
  | cons c cs => simp [entries, push]

theorem length_push_le (h : chunks.length ≤ k + 1) : (push a chunks).length ≤ k + 1 := by
  cases chunks with
  | nil => exact Nat.succ_le_succ (Nat.zero_le k)
  | cons c cs => exact h

theorem length_push (h : chunks ≠ []) : (push a chunks).length = chunks.length := by
  cases chunks with
  | nil => exact absurd rfl h
  | cons c cs => rfl

/-- A push leaves the older chunks. -/
theorem getLast?_push (h : 2 ≤ chunks.length) : (push a chunks).getLast? = chunks.getLast? := by
  match chunks, h with
  | c :: d :: cs, _ => simp [push, List.getLast?_cons_cons]

theorem length_roll_le : (roll k chunks).length ≤ k + 1 := List.length_take_le _ _

theorem entries_roll (h : chunks.length ≤ k) : entries (roll k chunks) = entries chunks := by
  have hall : roll k chunks = [] :: chunks := List.take_of_length_le (by simpa using h)
  rw [hall]
  simp [entries]

/-- The chunk that is pushed out is the oldest. -/
theorem entries_roll_full (h : chunks.length = k + 1) :
    ∃ oldest, chunks.getLast? = some oldest ∧ oldest ++ entries (roll k chunks) = entries chunks := by
  rcases List.eq_nil_or_concat chunks with rfl | ⟨cs, oldest, rfl⟩
  · cases h
  · have hlen : cs.length = k := by simpa using h
    have hroll : roll k (cs ++ [oldest]) = [] :: cs := by
      show ([] :: (cs ++ [oldest])).take (k + 1) = _
      rw [List.take_succ_cons, ← hlen, List.take_left]
    exact ⟨oldest, by simp, by simp [hroll, entries]⟩

/-- A new entry is kept, when there is an older chunk beside the newest. -/
theorem mem_entries_roll (hk : 1 ≤ k) : a ∈ entries (roll k (push a chunks)) := by
  obtain ⟨m, rfl⟩ : ∃ m, k = m + 1 := ⟨k - 1, by omega⟩
  cases chunks with
  | nil => simp [roll, push, entries]
  | cons c cs => simp [roll, push, entries]

theorem getElem?_push_zero (h : chunks ≠ []) :
    (push a chunks)[0]? = chunks[0]?.map (· ++ [a]) := by
  cases chunks with
  | nil => exact absurd rfl h
  | cons c cs => rfl

theorem getElem?_push_succ {i : ℕ} (h : chunks ≠ []) : (push a chunks)[i + 1]? = chunks[i + 1]? := by
  cases chunks with
  | nil => exact absurd rfl h
  | cons c cs => rfl

theorem getElem?_roll_succ {i : ℕ} (h : i < k) : (roll k chunks)[i + 1]? = chunks[i]? := by
  show (([] :: chunks).take (k + 1))[i + 1]? = _
  rw [List.getElem?_take_of_lt (Nat.succ_lt_succ h), List.getElem?_cons_succ]

end Rolling

/-! ### Directories -/

/-- The files of a directory, by name: what each holds. -/
abbrev Directory (ν κ : Type) : Type := ν → Option κ

namespace Directory

variable {ν κ : Type} [DecidableEq ν]

/-- A file opened to be appended to is made when it is missing. -/
def create (empty : κ) (n : ν) (d : Directory ν κ) : Directory ν κ :=
  Function.update d n (some ((d n).getD empty))

/-- What is there is changed. -/
def modify (f : κ → κ) (n : ν) (d : Directory ν κ) : Directory ν κ :=
  Function.update d n ((d n).map f)

def remove (n : ν) (d : Directory ν κ) : Directory ν κ := Function.update d n none

/-- A rename replaces what has the new name. -/
def rename (src dst : ν) (d : Directory ν κ) : Directory ν κ :=
  match d src with
  | none => d
  | some content => Function.update (Function.update d src none) dst (some content)

variable {d : Directory ν κ} {src dst n : ν} {empty : κ}

@[simp] theorem create_self : create empty n d n = some ((d n).getD empty) := Function.update_self ..

theorem create_of_ne {m : ν} (h : m ≠ n) : create empty n d m = d m := Function.update_of_ne h ..

@[simp] theorem modify_self {f : κ → κ} : modify f n d n = (d n).map f := Function.update_self ..

theorem modify_of_ne {f : κ → κ} {m : ν} (h : m ≠ n) : modify f n d m = d m :=
  Function.update_of_ne h ..

@[simp] theorem remove_self : remove n d n = none := Function.update_self ..

theorem remove_of_ne {m : ν} (h : m ≠ n) : remove n d m = d m := Function.update_of_ne h ..

theorem rename_eq_self (h : d src = none) : rename src dst d = d := by rw [rename, h]

theorem rename_eq_update {content : κ} (h : d src = some content) :
    rename src dst d = Function.update (Function.update d src none) dst (some content) := by
  rw [rename, h]

theorem rename_src (h : src ≠ dst) : rename src dst d src = none := by
  cases hsrc : d src with
  | none => rw [rename_eq_self hsrc, hsrc]
  | some content => rw [rename_eq_update hsrc, Function.update_of_ne h, Function.update_self]

/-- The new name holds what the old one did, when nothing is lost by the rename. -/
theorem rename_dst (h : d dst = none) : rename src dst d dst = d src := by
  cases hsrc : d src with
  | none => rw [rename_eq_self hsrc, h]
  | some content => rw [rename_eq_update hsrc, Function.update_self]

theorem rename_of_ne (hs : n ≠ src) (hd : n ≠ dst) : rename src dst d n = d n := by
  cases hsrc : d src with
  | none => rw [rename_eq_self hsrc]
  | some content =>
    rw [rename_eq_update hsrc, Function.update_of_ne hd, Function.update_of_ne hs]

/-! ### The chain of renames -/

variable (name : ℕ → ν)

/-- `name i` becomes `name (i + 1)`, for `i` from `k` down to `1`. -/
def shift : ℕ → Directory ν κ → Directory ν κ
  | 0, d => d
  | k + 1, d => shift k (rename (name (k + 1)) (name (k + 2)) d)

/-- The oldest of `k` files is removed, the others are renamed, then the newest, and a new one is made. -/
def rollFiles (empty : κ) (k : ℕ) (d : Directory ν κ) : Directory ν κ :=
  create empty (name 0) (rename (name 0) (name 1) (shift name (k - 1) (remove (name k) d)))

variable {name}

theorem shift_of_ne : ∀ {k : ℕ} {d : Directory ν κ}, (∀ i, 1 ≤ i → i ≤ k + 1 → n ≠ name i) →
    shift name k d n = d n
  | 0, _, _ => rfl
  | k + 1, d, h => by
    show shift name k _ n = d n
    rw [shift_of_ne fun i hi hik => h i hi (by omega),
      rename_of_ne (h (k + 1) (by omega) (by omega)) (h (k + 2) (by omega) (by omega))]

variable (hname : Function.Injective name)

include hname

/-- Every file moves up by one, when the last name is free. -/
theorem shift_spec : ∀ {k : ℕ} {d : Directory ν κ}, d (name (k + 1)) = none →
    shift name k d (name 1) = none ∧ ∀ i, 1 ≤ i → i ≤ k → shift name k d (name (i + 1)) = d (name i)
  | 0, d, hfree => ⟨hfree, fun i hi hik => by omega⟩
  | k + 1, d, hfree => by
    have hne : name (k + 1) ≠ name (k + 2) := fun h => by have := hname h; omega
    obtain ⟨hfirst, hmoved⟩ := shift_spec (k := k) (rename_src (d := d) hne)
    refine ⟨hfirst, ?_⟩
    intro i hi hik
    by_cases hlast : i = k + 1
    · subst hlast
      -- the rename made first is not touched by the rest of the chain
      have hkept : shift name k (rename (name (k + 1)) (name (k + 2)) d) (name (k + 2)) =
          rename (name (k + 1)) (name (k + 2)) d (name (k + 2)) :=
        shift_of_ne fun j hj hjk h => by have := hname h; omega
      exact hkept.trans (rename_dst hfree)
    · have hbelow : i ≤ k := by omega
      refine (hmoved i hi hbelow).trans (rename_of_ne ?_ ?_)
      · exact fun h => by have := hname h; omega
      · exact fun h => by have := hname h; omega

/-- What each name holds after a roll. -/
theorem rollFiles_spec (empty : κ) (d : Directory ν κ) {k : ℕ} (hk : 1 ≤ k) :
    rollFiles name empty k d (name 0) = some empty ∧
      (∀ i, i < k → rollFiles name empty k d (name (i + 1)) = d (name i)) ∧
      ∀ i, k < i → rollFiles name empty k d (name i) = d (name i) := by
  have hne : ∀ {i j : ℕ}, i ≠ j → name i ≠ name j := fun hij h => hij (hname h)
  obtain ⟨m, rfl⟩ : ∃ m, k = m + 1 := ⟨k - 1, by omega⟩
  set d₁ := remove (name (m + 1)) d with hd₁
  set d₂ := shift name m d₁ with hd₂
  obtain ⟨hfirst, hmoved⟩ := shift_spec hname (k := m) (d := d₁) remove_self
  have hzero : d₂ (name 0) = d (name 0) :=
    (shift_of_ne fun i hi _ => hne (by omega)).trans (remove_of_ne (hne (by omega)))
  have hroll : rollFiles name empty (m + 1) d =
      create empty (name 0) (rename (name 0) (name 1) d₂) := rfl
  rw [hroll]
  refine ⟨?_, ?_, ?_⟩
  · rw [create_self, rename_src (hne (by omega))]
    rfl
  · intro i hi
    rw [create_of_ne (hne (by omega))]
    cases i with
    | zero => exact (rename_dst hfirst).trans hzero
    | succ i =>
      rw [rename_of_ne (hne (by omega)) (hne (by omega))]
      exact (hmoved (i + 1) (by omega) (by omega)).trans (remove_of_ne (hne (by omega)))
  · intro i hi
    rw [create_of_ne (hne (by omega)), rename_of_ne (hne (by omega)) (hne (by omega))]
    exact (shift_of_ne fun j hj hjm => hne (by omega)).trans (remove_of_ne (hne (by omega)))

/-! ### The files of the chunks -/

omit hname

/-- The files hold the chunks, the newest first, and no more. -/
def Holds (name : ℕ → ν) {α : Type} (text : List α → κ) (d : Directory ν κ) (chunks : List (List α)) :
    Prop :=
  ∀ i, d (name i) = chunks[i]?.map text

omit [DecidableEq ν] in
/-- The files read from the oldest to the newest. -/
theorem Holds.files {α : Type} {text : List α → κ} {chunks : List (List α)} {k : ℕ}
    (h : Holds name text d chunks) (hlen : chunks.length ≤ k + 1) :
    (List.range (k + 1)).reverse.filterMap (fun i => d (name i)) = chunks.reverse.map text := by
  have htake : ∀ n, (List.range n).filterMap (fun i => d (name i)) = (chunks.take n).map text := by
    intro n
    induction n with
    | zero => rfl
    | succ n ih =>
      rw [List.range_succ, List.filterMap_append, ih, List.take_add_one, List.map_append]
      simp only [h n, List.filterMap_cons, List.filterMap_nil]
      cases chunks[n]? <;> rfl
  rw [List.filterMap_reverse, htake, List.take_of_length_le hlen, List.map_reverse]

include hname

/-- An entry is written at the end of the newest file. -/
theorem push_files {α : Type} {text : List α → κ} {chunks : List (List α)} {a : α} {f : κ → κ}
    (hf : ∀ c, text (c ++ [a]) = f (text c)) (hne : chunks ≠ []) (h : Holds name text d chunks) :
    Holds name text (modify f (name 0) d) (Rolling.push a chunks) := by
  intro i
  cases i with
  | zero =>
    rw [modify_self, h 0, Rolling.getElem?_push_zero hne]
    cases chunks[0]? with
    | none => rfl
    | some c => exact congrArg some (hf c).symm
  | succ i =>
    have hname : name (i + 1) ≠ name 0 := fun he => absurd (hname he) (Nat.succ_ne_zero i)
    rw [modify_of_ne hname, h (i + 1), Rolling.getElem?_push_succ hne]

/-- **The chain of renames rolls the chunks.** -/
theorem roll_files {α : Type} {text : List α → κ} {chunks : List (List α)} {k : ℕ} (hk : 1 ≤ k)
    (hlen : chunks.length ≤ k + 1) (h : Holds name text d chunks) :
    Holds name text (rollFiles name (text []) k d) (Rolling.roll k chunks) := by
  obtain ⟨hnew, hmoved, hrest⟩ := rollFiles_spec hname (text []) d hk
  intro i
  cases i with
  | zero => exact hnew
  | succ i =>
    by_cases hi : i < k
    · rw [hmoved i hi, h i, Rolling.getElem?_roll_succ hi]
    · have hgone : (Rolling.roll k chunks)[i + 1]? = none :=
        List.getElem?_eq_none (Rolling.length_roll_le.trans (by omega))
      have hpast : chunks[i + 1]? = none := List.getElem?_eq_none (by omega)
      rw [hrest (i + 1) (by omega), h (i + 1), hgone, hpast]

end Directory

end RobotMoney.Lib
