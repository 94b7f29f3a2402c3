import RobotMoney.Client.ReadOutput

/-!
# Honest output

A read of the chain gives the true value or fails.  An envelope is honest about a field when what it shows
there is true, or an error that is recorded has the name of the field.  A builder stays honest through every
read: a field that is filled is filled with the truth, and one that is not is named (`honest_read`); a read does
not touch the other fields (`Honest.read`).
-/

namespace RobotMoney.Client

variable {ε T α β : Type}

/-- What is answered, if anything is, is the value. -/
def Tells (x : Except ε α) (a : α) : Prop := ∀ v, x = .ok v → v = a

/-- Nothing is answered. -/
def Fails (x : Except ε α) : Prop := ∃ e, x = .error e

@[simp] theorem not_fails_ok {v : α} : ¬ Fails (.ok v : Except ε α) := by simp [Fails]

@[simp] theorem fails_error {e : ε} : Fails (.error e : Except ε α) := ⟨e, rfl⟩

theorem tells_ok {a : α} : Tells (.ok a : Except ε α) a := by
  intro v hv
  cases hv
  rfl

theorem Tells.cases {x : Except ε α} {a : α} (h : Tells x a) : x = .ok a ∨ Fails x := by
  cases hx : x with
  | ok v => exact .inl (congrArg Except.ok (h v hx))
  | error e => exact .inr ⟨e, rfl⟩

theorem Tells.mapError {ε' : Type} {x : Except ε α} {a : α} (h : Tells x a) (f : ε → ε') :
    Tells (x.mapError f) a := by
  rcases h.cases with rfl | ⟨e, rfl⟩ <;> rintro v hv <;> cases hv
  rfl

/-- What is shown is true, or is named among the errors. -/
def Envelope.Honest (out : Envelope T) (view : T → β) (a : β) (names : List String) : Prop :=
  view out.data = a ∨ ∃ e ∈ out.errors, e.field ∈ names

namespace PartialBuilder

variable {b : PartialBuilder T} {field : String} {x : Except String α} {fill : α → T → T} {view : T → β} {a : β}
  {v : α} {names : List String}

/-- An error is recorded under one of the names. -/
def Named (b : PartialBuilder T) (names : List String) : Prop := ∃ e ∈ b.errors, e.field ∈ names

/-- What is shown so far is true, or is named. -/
def Honest (b : PartialBuilder T) (view : T → β) (a : β) (names : List String) : Prop :=
  view b.data = a ∨ b.Named names

@[simp] theorem named_new {chainId blockNumber : ℕ} {data : T} : ¬ (new chainId blockNumber data).Named names := by
  simp [Named, new]

theorem not_named_nil : ¬ b.Named [] := by simp [Named]

@[simp] theorem named_dataMut {f : T → T} : (b.dataMut f).Named names ↔ b.Named names := Iff.rfl

@[simp] theorem named_read : (b.read field x fill).Named names ↔ b.Named names ∨ field ∈ names ∧ Fails x := by
  unfold Named Fails read
  cases x with
  | ok v => simp [dataMut]
  | error e => simp [recordErr, or_and_right, exists_or]

@[simp] theorem read_blockNumber : (b.read field x fill).blockNumber = b.blockNumber := by
  unfold read
  cases x <;> rfl

@[simp] theorem dataMut_blockNumber {f : T → T} : (b.dataMut f).blockNumber = b.blockNumber := rfl

@[simp] theorem finish_blockNumber : b.finish.blockNumber = b.blockNumber := rfl

@[simp] theorem new_blockNumber {chainId blockNumber : ℕ} {data : T} :
    (new chainId blockNumber data).blockNumber = blockNumber := rfl

/-- What the field that is read shows. -/
theorem data_read {view : T → α} {d : α} (h : view b.data = d)
    (hfill : ∀ v t, view (fill v t) = v := by exact fun _ _ => rfl) :
    view (b.read field x fill).data = x.toOption.getD d := by
  cases x with
  | ok v => exact hfill v b.data
  | error e => exact h

/-- And the other fields. -/
theorem data_keeps (h : view b.data = a) (hkeeps : ∀ v t, view (fill v t) = view t := by exact fun _ _ => rfl) :
    view (b.read field x fill).data = a := (read_data_of_keeps view hkeeps).trans h

/-- The field that is read. -/
theorem honest_read (hx : Tells x v) (hfill : view (fill v b.data) = a := by exact rfl)
    (hfield : field ∈ names := by exact List.mem_singleton_self _) :
    (b.read field x fill).Honest view a names := by
  rcases hx.cases with rfl | hfails
  · exact .inl hfill
  · exact .inr (named_read.mpr (.inr ⟨hfield, hfails⟩))

/-- The other fields; that they are others is seen by looking at the two. -/
theorem Honest.read (h : b.Honest view a names)
    (hkeeps : ∀ v t, view (fill v t) = view t := by exact fun _ _ => rfl) : (b.read field x fill).Honest view a names := by
  rcases h with htrue | hnamed
  · exact .inl ((read_data_of_keeps view hkeeps).trans htrue)
  · exact .inr (named_read.mpr (.inl hnamed))

theorem Honest.dataMut {f : T → T} (h : b.Honest view a names) (hkeeps : ∀ t, view (f t) = view t) :
    (b.dataMut f).Honest view a names := by
  rcases h with htrue | hnamed
  · exact .inl ((hkeeps b.data).trans htrue)
  · exact .inr hnamed

/-- **An envelope that is not partial** is exact, where it is honest. -/
theorem exact_of_honest (h : b.finish.Honest view a names) (hp : b.finish.isPartial = false) :
    view b.finish.data = a := by
  rcases h with htrue | ⟨e, he, -⟩
  · exact htrue
  · have hnil : b.errors = [] := finish_isPartial.mp hp
    have he' : e ∈ b.errors := he
    rw [hnil] at he'
    cases he'

end PartialBuilder

end RobotMoney.Client
