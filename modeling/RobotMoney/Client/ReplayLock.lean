import RobotMoney.Client.ReplayFile

/-!
# The lock of the replay cache

Any number of lookups and inserts, each through a handle of its own, run on the file of one directory in any
order of their steps.  Nothing fails and no process is killed.  The lock is advisory: the calls that look for the
file and open it go on beside it, and between the truncation and the write of an insert the file is empty.

An operation takes effect when it gets the lock: from there it goes on as if it were alone, from a file that
holds the inserts that had the lock before it.  `Inv` says so of all processes, and `Inv.step` that every step
of any of them keeps it.
-/

namespace RobotMoney.Client.Replay

open RobotMoney.Lib

/-! ### The file and its lock -/

inductive Lock where
  | none
  | shared
  | exclusive
  deriving DecidableEq

structure Disk where
  content : Option (List UInt8)
  /-- the position of the handle of each process -/
  cursor : ℕ → ℕ
  /-- the lock that each process has -/
  locks : ℕ → Lock
  /-- the processes in the order in which they got the lock, or found that there is no file -/
  order : List ℕ

namespace Disk

/-- A directory without the file. -/
def fresh : Disk := ⟨none, fun _ => 0, fun _ => .none, []⟩

def handle (s : Disk) (i : ℕ) : Handle := ⟨s.content, s.cursor i⟩

/-- Several processes have the lock shared, or one exclusively. -/
def Grants (s : Disk) : Io → Prop
  | .lockShared => ∀ j, s.locks j ≠ .exclusive
  | .lockExclusive => ∀ j, s.locks j = .none
  | _ => True

/-- The lock of a process after a call. -/
def lockAfter (l : Lock) : Io → Lock
  | .lockShared => .shared
  | .lockExclusive => .exclusive
  | .unlock => .none
  | _ => l

/-- Whether a call gets the lock, or finds that there is no file. -/
def Enters (s : Disk) : Io → Prop
  | .lockShared | .lockExclusive => True
  | .pathExists | .openFile false => s.content = none
  | _ => False

instance (s : Disk) : DecidablePred s.Enters := fun q => by
  unfold Enters
  split <;> infer_instance

/-- What a call of a process leaves. -/
def after (s : Disk) (i : ℕ) (q : Io) : Disk where
  content := (call q (s.handle i)).2.content
  cursor := Function.update s.cursor i (call q (s.handle i)).2.cursor
  locks := Function.update s.locks i (lockAfter (s.locks i) q)
  order := if s.Enters q then s.order ++ [i] else s.order

end Disk

def disk : World Io Io.Answer Disk where
  works _ _ _ _ := False
  answers i s q a s' := s.Grants q ∧ a = (call q (s.handle i)).1 ∧ s' = s.after i q
  ends i s := { s with locks := Function.update s.locks i .none }

/-! ### The discipline -/

/-- How far an operation is. -/
inductive Phase where
  | outside
  | opened
  | reader
  | writer
  | ended
  deriving DecidableEq

/-- The lock that it has. -/
def Phase.lock : Phase → Lock
  | .reader => .shared
  | .writer => .exclusive
  | _ => .none

def lockDiscipline : Discipline Io Io.Answer where
  Phase := Phase
  start := .outside
  allows
    | .outside, .pathExists | .outside, .openFile _ => True
    | .opened, .lockShared | .opened, .lockExclusive => True
    | .reader, .readToString | .reader, .unlock => True
    | .writer, .readToString | .writer, .setLen _ | .writer, .seek _ | .writer, .writeAll _
    | .writer, .flush | .writer, .unlock => True
    | _, _ => False
  next ph
    | .pathExists, present => if present = true then ph else .ended
    | .openFile _, .ok _ => .opened
    | .lockShared, .ok _ => .reader
    | .lockExclusive, .ok _ => .writer
    | .openFile _, .error _ | .lockShared, .error _ | .lockExclusive, .error _ | .unlock, _ => .ended
    | _, _ => ph

section Follows

variable {keccak256 : List UInt8 → B256} {sd : SerdeJson}

theorem lookup_follows (p : Payment) : (lookup keccak256 sd p).FollowsTo lockDiscipline .ended .outside := by
  refine ⟨trivial, ?_⟩
  rintro (_ | _)
  · rfl
  refine ⟨trivial, ?_⟩
  rintro (e | _)
  · rfl
  refine ⟨trivial, ?_⟩
  rintro (e | _)
  · rfl
  exact ⟨trivial, fun _ => ⟨trivial, fun _ => rfl⟩⟩

theorem writeBack_follows {map : EntryMap} {k : Except RmpcError Unit → Operation}
    (hk : ∀ r, (k r).FollowsTo lockDiscipline .ended .writer) :
    (writeBack sd map k).FollowsTo lockDiscipline .ended .writer := by
  unfold writeBack
  split
  · exact hk _
  refine ⟨trivial, ?_⟩
  rintro (e | _)
  · exact hk _
  refine ⟨trivial, ?_⟩
  rintro (e | _)
  · exact hk _
  refine ⟨trivial, ?_⟩
  rintro (e | _)
  · exact hk _
  refine ⟨trivial, ?_⟩
  rintro (e | _)
  · exact hk _
  · exact hk _

theorem insert_follows (x : PaymentIdInputs) : (insert keccak256 sd x).FollowsTo lockDiscipline .ended .outside := by
  refine ⟨trivial, ?_⟩
  rintro (e | _)
  · rfl
  refine ⟨trivial, ?_⟩
  rintro (e | _)
  · rfl
  refine ⟨trivial, ?_⟩
  intro r
  dsimp only
  split
  · exact ⟨trivial, fun _ => rfl⟩
  · exact writeBack_follows fun _ => ⟨trivial, fun _ => rfl⟩

theorem program_follows (op : Op) : (op.program keccak256 sd).FollowsTo lockDiscipline .ended .outside := by
  cases op with
  | lookup p => exact lookup_follows p
  | insert x => exact insert_follows x

end Follows

/-! ### Calls -/

section Calls

variable {s : Disk} {i j : ℕ} {q : Io} {f : Handle} {p : Operation}

/-- The process sees what its call has left. -/
theorem after_handle (s : Disk) (i : ℕ) (q : Io) : (s.after i q).handle i = (call q (s.handle i)).2 :=
  congrArg (Handle.mk (call q (s.handle i)).2.content) (Function.update_self ..)

theorem after_order (h : ¬ s.Enters q) : (s.after i q).order = s.order := if_neg h

theorem call_openFile_missing (h : f.content = none) :
    call (.openFile false) f = (.error "No such file or directory (os error 2)", f) := by
  obtain ⟨content, cursor⟩ := f
  subst h
  rfl

/-- The file is opened if it is there, or made. -/
theorem call_openFile_there {create : Bool} (h : ¬ (create = false ∧ f.content = none)) :
    call (.openFile create) f = (.ok (), ⟨some (f.content.getD []), 0⟩) := by
  obtain ⟨_ | bytes, cursor⟩ := f
  · cases create with
    | true => rfl
    | false => exact absurd ⟨rfl, rfl⟩ h
  · rfl

/-- No call takes the file away. -/
theorem call_isSome (h : f.content.isSome) : (call q f).2.content.isSome := by
  obtain ⟨_ | content, cursor⟩ := f
  · cases h
  · cases q <;> rfl

/-- A reader leaves the file as it is. -/
theorem call_reader (h : lockDiscipline.allows .reader q) : (call q f).2.content = f.content := by
  cases q with
  | readToString => rfl
  | unlock => rfl
  | _ => exact h.elim

theorem exec_ended (h : p.FollowsTo lockDiscipline .ended .ended) : ∃ e, p = .done e := by
  cases p with
  | done e => exact ⟨e, rfl⟩
  | ask q k => exact h.1.elim

theorem exec_reader (h : p.FollowsTo lockDiscipline .ended .reader) : (p.exec call f).2.content = f.content := by
  induction p generalizing f with
  | done e => rfl
  | ask q k ih =>
    have hcall := call_reader (f := f) h.1
    cases q with
    | readToString => exact (ih _ (h.2 _)).trans hcall
    | unlock =>
      obtain ⟨e, he⟩ := exec_ended (h.2 (.ok ()))
      show ((k (.ok ())).exec call f).2.content = f.content
      rw [he]
      rfl
    | _ => exact h.1.elim

end Calls

/-! ### The invariant -/

section Invariant

variable {keccak256 : List UInt8 → B256} {sd : SerdeJson} {ops : ℕ → Op} {programs : ℕ → Operation}
  {φ : ℕ → Phase} {s s' : Disk} {i j : ℕ} {q : Io} {k : q.Answer → Operation} {p : Operation} {ph : Phase}
  {order : List ℕ}

/-- The inserts of some processes, in their order. -/
def insertsOf (ops : ℕ → Op) (order : List ℕ) : List PaymentIdInputs := order.flatMap fun i => (ops i).inserts

/-- The processes that came before one. -/
def before (i : ℕ) (order : List ℕ) : List ℕ := order.takeWhile (· ≠ i)

/-- Run alone from here, an operation returns and leaves what it should after these inserts. -/
def Serves (keccak256 : List UInt8 → B256) (sd : SerdeJson) (op : Op) (log : List PaymentIdInputs)
    (p : Operation) (f : Handle) : Prop :=
  (p.exec call f).1 = op.outcome keccak256 log ∧
    Holds keccak256 sd (log ++ op.inserts) (p.exec call f).2.content

/-- It does from any file that it may find, once it has looked at this one. -/
def Prepared (keccak256 : List UInt8 → B256) (sd : SerdeJson) (op : Op) (p : Operation) (f : Handle) : Prop :=
  ∀ log content, (f.content.isSome → content.isSome) → Holds keccak256 sd log content →
    Serves keccak256 sd op log p ⟨content, f.cursor⟩

/-- What is known of a process in each phase. -/
def Stage (keccak256 : List UInt8 → B256) (sd : SerdeJson) (ops : ℕ → Op) (s : Disk) (i : ℕ) (p : Operation) :
    Phase → Prop
  | .outside => i ∉ s.order ∧ Prepared keccak256 sd (ops i) p (s.handle i)
  | .opened => i ∉ s.order ∧ s.content.isSome ∧ Prepared keccak256 sd (ops i) p (s.handle i)
  | .reader | .writer => i ∈ s.order ∧ s.content.isSome ∧
      Serves keccak256 sd (ops i) (insertsOf ops (before i s.order)) p (s.handle i)
  | .ended => i ∈ s.order ∧ p = .done ((ops i).outcome keccak256 (insertsOf ops (before i s.order)))

/-- What holds of the operations and the file: each is at its stage and has the lock of its phase, a writer is
the only one with a lock and the last in the order, and while there is none the file holds all inserts. -/
structure Inv (keccak256 : List UInt8 → B256) (sd : SerdeJson) (ops : ℕ → Op) (programs : ℕ → Operation)
    (φ : ℕ → Phase) (s : Disk) : Prop where
  follows : ∀ i, (programs i).FollowsTo lockDiscipline .ended (φ i)
  stage : ∀ i, Stage keccak256 sd ops s i (programs i) (φ i)
  locks : ∀ i, s.locks i = (φ i).lock
  alone : ∀ i j, φ i = .writer → φ j = .reader ∨ φ j = .writer → j = i
  last : ∀ i, φ i = .writer → s.order = before i s.order ++ [i]
  file : (∀ i, φ i ≠ .writer) → Holds keccak256 sd (insertsOf ops s.order) s.content

theorem insertsOf_snoc (order : List ℕ) (i : ℕ) :
    insertsOf ops (order ++ [i]) = insertsOf ops order ++ (ops i).inserts := by
  simp [insertsOf]

theorem before_append (h : i ∈ order) (l : List ℕ) : before i (order ++ l) = before i order := by
  induction order with
  | nil => cases h
  | cons a order ih =>
    by_cases ha : a = i
    · simp [before, ha]
    · have hmem : i ∈ order := (List.mem_cons.mp h).resolve_left (Ne.symm ha)
      unfold before at ih ⊢
      rw [List.cons_append, List.takeWhile_cons_of_pos (by simpa using ha),
        List.takeWhile_cons_of_pos (by simpa using ha), ih hmem]

theorem before_snoc (h : i ∉ order) : before i (order ++ [i]) = order := by
  have hall : ∀ a ∈ order, decide (a ≠ i) = true := by
    intro a ha
    exact decide_eq_true fun heq => h (heq ▸ ha)
  unfold before
  rw [List.takeWhile_append_of_pos hall]
  simp

/-! ### The others -/

/-- What a step of a process does to the others. -/
structure Beside (i : ℕ) (φ : ℕ → Phase) (s s' : Disk) : Prop where
  cursor : ∀ j, j ≠ i → s'.cursor j = s.cursor j
  locks : ∀ j, j ≠ i → s'.locks j = s.locks j
  isSome : s.content.isSome → s'.content.isSome
  content : ∀ j, j ≠ i → φ j = .reader ∨ φ j = .writer → s'.content = s.content
  order : s'.order = s.order ∨ s'.order = s.order ++ [i]
  last : ∀ j, j ≠ i → φ j = .writer → s'.order = s.order

theorem Beside.before_eq (h : Beside i φ s s') (hj : j ∈ s.order) : before j s'.order = before j s.order := by
  rcases h.order with ho | ho
  · rw [ho]
  · rw [ho, before_append hj]

theorem Beside.mem_order (h : Beside i φ s s') (hj : j ∈ s.order) : j ∈ s'.order := by
  rcases h.order with ho | ho
  · rwa [ho]
  · rw [ho]
    exact List.mem_append_left _ hj

theorem Beside.not_mem_order (h : Beside i φ s s') (hne : j ≠ i) (hj : j ∉ s.order) : j ∉ s'.order := by
  rcases h.order with ho | ho
  · rwa [ho]
  · rw [ho]
    simpa [hne] using hj

theorem Beside.prepared {op : Op} (h : Beside i φ s s') (hne : j ≠ i)
    (hp : Prepared keccak256 sd op p (s.handle j)) : Prepared keccak256 sd op p (s'.handle j) := by
  intro log content hsome hholds
  have hserves := hp log content (fun hs => hsome (h.isSome hs)) hholds
  have hcursor : (s'.handle j).cursor = (s.handle j).cursor := h.cursor j hne
  rwa [hcursor]

theorem Beside.handle (h : Beside i φ s s') (hne : j ≠ i) (hlocked : φ j = .reader ∨ φ j = .writer) :
    s'.handle j = s.handle j := by
  unfold Disk.handle
  rw [h.cursor j hne, h.content j hne hlocked]

/-- The others stay at their stages. -/
theorem Beside.stage (h : Beside i φ s s') (hne : j ≠ i) (hj : Stage keccak256 sd ops s j p (φ j)) :
    Stage keccak256 sd ops s' j p (φ j) := by
  cases hph : φ j with
  | outside =>
    rw [hph] at hj
    exact ⟨h.not_mem_order hne hj.1, h.prepared hne hj.2⟩
  | opened =>
    rw [hph] at hj
    exact ⟨h.not_mem_order hne hj.1, h.isSome hj.2.1, h.prepared hne hj.2.2⟩
  | reader =>
    rw [hph] at hj
    obtain ⟨hmem, hsome, hserves⟩ := hj
    refine ⟨h.mem_order hmem, h.isSome hsome, ?_⟩
    rwa [h.before_eq hmem, h.handle hne (.inl hph)]
  | writer =>
    rw [hph] at hj
    obtain ⟨hmem, hsome, hserves⟩ := hj
    refine ⟨h.mem_order hmem, h.isSome hsome, ?_⟩
    rwa [h.before_eq hmem, h.handle hne (.inr hph)]
  | ended =>
    rw [hph] at hj
    refine ⟨h.mem_order hj.1, ?_⟩
    rw [h.before_eq hj.1]
    exact hj.2

/-- What one step has to show of the process that makes it. -/
structure Moves (keccak256 : List UInt8 → B256) (sd : SerdeJson) (ops : ℕ → Op) (i : ℕ) (φ : ℕ → Phase)
    (p : Operation) (ph : Phase) (s' : Disk) : Prop where
  follows : p.FollowsTo lockDiscipline .ended ph
  stage : Stage keccak256 sd ops s' i p ph
  locks : s'.locks i = ph.lock
  alone : ∀ j, j ≠ i → ph = .writer → φ j ≠ .reader ∧ φ j ≠ .writer
  shared : ∀ j, j ≠ i → ph = .reader → φ j ≠ .writer
  last : ph = .writer → s'.order = before i s'.order ++ [i]
  file : (∀ j, j ≠ i → φ j ≠ .writer) → ph ≠ .writer → Holds keccak256 sd (insertsOf ops s'.order) s'.content

/-- One program and its phase change. -/
theorem update_both {P : ℕ → Operation → Phase → Prop} (hi : P i p ph)
    (hothers : ∀ j, j ≠ i → P j (programs j) (φ j)) (j : ℕ) :
    P j (Function.update programs i p j) (Function.update φ i ph j) := by
  by_cases hj : j = i
  · subst hj
    rw [Function.update_self, Function.update_self]
    exact hi
  · rw [Function.update_of_ne hj, Function.update_of_ne hj]
    exact hothers j hj

theorem Inv.move (h : Inv keccak256 sd ops programs φ s) (hbeside : Beside i φ s s')
    (hmoves : Moves keccak256 sd ops i φ p ph s') :
    Inv keccak256 sd ops (Function.update programs i p) (Function.update φ i ph) s' where
  follows := update_both (P := fun _ p ph => p.FollowsTo lockDiscipline .ended ph) hmoves.follows
    fun j _ => h.follows j
  stage := update_both (P := Stage keccak256 sd ops s') hmoves.stage fun j hj => hbeside.stage hj (h.stage j)
  locks := (Function.forall_update_iff φ fun j ph => s'.locks j = ph.lock).mpr
    ⟨hmoves.locks, fun j hj => (hbeside.locks j hj).trans (h.locks j)⟩
  alone := by
    intro j l hj hl
    by_cases hji : j = i
    · subst hji
      rw [Function.update_self] at hj
      by_contra hne
      rw [Function.update_of_ne hne] at hl
      exact hl.elim (hmoves.alone l hne hj).1 (hmoves.alone l hne hj).2
    · rw [Function.update_of_ne hji] at hj
      by_cases hli : l = i
      · subst hli
        rw [Function.update_self] at hl
        rcases hl with hl | hl
        · exact absurd hj (hmoves.shared j hji hl)
        · exact absurd hj (hmoves.alone j hji hl).2
      · rw [Function.update_of_ne hli] at hl
        exact h.alone j l hj hl
  last := by
    refine (Function.forall_update_iff φ fun j ph => ph = .writer → s'.order = before j s'.order ++ [j]).mpr
      ⟨hmoves.last, ?_⟩
    intro j hji hj
    rw [hbeside.last j hji hj]
    exact h.last j hj
  file := by
    intro hnone
    obtain ⟨hwriter, hothers⟩ := (Function.forall_update_iff φ fun _ ph => ph ≠ .writer).mp hnone
    exact hmoves.file hothers hwriter

theorem Inv.isSome (h : Inv keccak256 sd ops programs φ s) (hj : φ j = .reader ∨ φ j = .writer) :
    s.content.isSome := by
  have hstage := h.stage j
  rcases hj with hj | hj
  · rw [hj] at hstage
    exact hstage.2.1
  · rw [hj] at hstage
    exact hstage.2.1

/-- What the lock grants says of the others. -/
theorem Inv.granted (h : Inv keccak256 sd ops programs φ s) (hgrants : s.Grants q) :
    (q = .lockShared → ∀ j, φ j ≠ .writer) ∧
      (q = .lockExclusive → ∀ j, φ j ≠ .reader ∧ φ j ≠ .writer) := by
  constructor
  · rintro rfl j hj
    have hlock := h.locks j
    rw [hj] at hlock
    exact hgrants j hlock
  · rintro rfl j
    have hlock := (hgrants j).symm.trans (h.locks j)
    constructor
    · intro hj
      rw [hj] at hlock
      cases hlock
    · intro hj
      rw [hj] at hlock
      cases hlock

/-- A call that is made outside the lock leaves a file that is there. -/
theorem call_outside {f : Handle} (hallows : lockDiscipline.allows ph q) (hph : ph ≠ .writer)
    (hsome : f.content.isSome) : (call q f).2.content = f.content := by
  obtain ⟨_ | content, cursor⟩ := f
  · cases hsome
  · cases ph with
    | writer => exact absurd rfl hph
    | _ =>
      cases q with
      | setLen _ => exact hallows.elim
      | writeAll _ => exact hallows.elim
      | _ => rfl

theorem Inv.beside (h : Inv keccak256 sd ops programs φ s) (hallows : lockDiscipline.allows (φ i) q)
    (hgrants : s.Grants q) : Beside i φ s (s.after i q) where
  cursor j hj := Function.update_of_ne hj _ _
  locks j hj := Function.update_of_ne hj _ _
  isSome hsome := call_isSome hsome
  content := by
    intro j hj hlocked
    refine call_outside hallows ?_ (h.isSome hlocked)
    intro hi
    exact hj (h.alone i j hi hlocked)
  order := by
    unfold Disk.after
    dsimp only
    split
    · exact .inr rfl
    · exact .inl rfl
  last := by
    intro j hj hwriter
    have hsome := h.isSome (.inr hwriter)
    have hfree : ¬ s.Enters q := by
      intro henters
      cases q with
      | lockShared => exact (h.granted hgrants).1 rfl j hwriter
      | lockExclusive => exact ((h.granted hgrants).2 rfl j).2 hwriter
      | pathExists => exact absurd hsome (by rw [show s.content = none from henters]; simp)
      | openFile create =>
        cases create with
        | true => exact henters
        | false => exact absurd hsome (by rw [show s.content = none from henters]; simp)
      | _ => exact henters
    exact after_order hfree

/-! ### One step -/

/-- An operation that has nothing left to ask has returned. -/
theorem Serves.ended {op : Op} {log : List PaymentIdInputs} {f : Handle}
    (h : Serves keccak256 sd op log p f) (hp : p.FollowsTo lockDiscipline .ended .ended) :
    p = .done (op.outcome keccak256 log) ∧ Holds keccak256 sd (log ++ op.inserts) f.content := by
  obtain ⟨e, rfl⟩ := exec_ended hp
  exact ⟨congrArg Program.done h.1, h.2⟩

/-- The follower's side of a step. -/
theorem Inv.next_follows (h : Inv keccak256 sd ops programs φ s) (hask : programs i = .ask q k) (a : q.Answer) :
    lockDiscipline.allows (φ i) q ∧ (k a).FollowsTo lockDiscipline .ended (lockDiscipline.next (φ i) q a) := by
  have hi := h.follows i
  rw [hask] at hi
  exact ⟨hi.1, hi.2 a⟩

theorem Inv.stage_ask (h : Inv keccak256 sd ops programs φ s) (hask : programs i = .ask q k) (hi : φ i = ph) :
    Stage keccak256 sd ops s i (.ask q k) ph := by
  rw [← hask, ← hi]
  exact h.stage i

theorem Inv.no_writer (h : Inv keccak256 sd ops programs φ s) (hi : φ i ≠ .writer)
    (hnone : ∀ j, j ≠ i → φ j ≠ .writer) : Holds keccak256 sd (insertsOf ops s.order) s.content := by
  refine h.file ?_
  intro j
  by_cases hj : j = i
  · rwa [hj]
  · exact hnone j hj

/-- There is no file: the operation returns without the lock. -/
theorem Inv.misses {a : q.Answer} (h : Inv keccak256 sd ops programs φ s) (hask : programs i = .ask q k)
    (hi : φ i = .outside) (hnone : s.content = none) (henters : s.Enters q)
    (hcall : call q (s.handle i) = (a, s.handle i)) (hended : lockDiscipline.next .outside q a = .ended)
    (hkeep : Disk.lockAfter (s.locks i) q = s.locks i) :
    Moves keccak256 sd ops i φ (k a) .ended (s.after i q) := by
  obtain ⟨hmem, hprep⟩ := h.stage_ask hask hi
  have hfollows := (h.next_follows hask a).2
  rw [hi, hended] at hfollows
  have hfile : Holds keccak256 sd (insertsOf ops s.order) s.content := by
    refine h.file fun j hj => ?_
    have hsome := h.isSome (.inr hj)
    rw [hnone] at hsome
    cases hsome
  have hserves : Serves keccak256 sd (ops i) (insertsOf ops s.order) (k (call q (s.handle i)).1)
      (call q (s.handle i)).2 := hprep _ s.content id hfile
  rw [hcall] at hserves
  obtain ⟨hdone, hholds⟩ := hserves.ended hfollows
  have horder : (s.after i q).order = s.order ++ [i] := if_pos henters
  refine
    { follows := hfollows
      stage := ?_
      locks := ?_
      alone := fun _ _ => by rintro ⟨⟩
      shared := fun _ _ => by rintro ⟨⟩
      last := by rintro ⟨⟩
      file := fun _ _ => ?_ }
  · refine ⟨by rw [horder]; simp, ?_⟩
    rw [horder, before_snoc hmem]
    exact hdone
  · have hown : (s.after i q).locks i = Disk.lockAfter (s.locks i) q := Function.update_self ..
    rw [hown, hkeep, h.locks i, hi]
    rfl
  · have hcontent : (s.after i q).content = (s.handle i).content := congrArg (fun r => r.2.content) hcall
    rw [horder, insertsOf_snoc, hcontent]
    exact hholds

/-- A call outside the lock after which the operation goes on. -/
theorem Inv.goes_on {a : q.Answer} {f : Handle} (h : Inv keccak256 sd ops programs φ s) (hi : φ i = .outside)
    (hmem : i ∉ s.order) (hph : ph = .outside ∨ ph = .opened) (hfollows : p.FollowsTo lockDiscipline .ended ph)
    (hfree : ¬ s.Enters q) (hkeep : Disk.lockAfter (s.locks i) q = s.locks i)
    (hcall : call q (s.handle i) = (a, f)) (hsome : ph = .opened → f.content.isSome)
    (hprep : Prepared keccak256 sd (ops i) p f)
    (hfile : ∀ log, Holds keccak256 sd log s.content → Holds keccak256 sd log f.content) :
    Moves keccak256 sd ops i φ p ph (s.after i q) := by
  have horder : (s.after i q).order = s.order := after_order hfree
  have hown : (s.after i q).locks i = Disk.lockAfter (s.locks i) q := Function.update_self ..
  have hcontent : (s.after i q).content = f.content := congrArg (fun r => r.2.content) hcall
  have hhandle : (s.after i q).handle i = f := (after_handle s i q).trans (congrArg Prod.snd hcall)
  refine
    { follows := hfollows
      stage := ?_
      locks := ?_
      alone := ?_
      shared := ?_
      last := ?_
      file := ?_ }
  · rcases hph with rfl | rfl
    · exact ⟨by rwa [horder], by rwa [hhandle]⟩
    · exact ⟨by rwa [horder], hcontent ▸ hsome rfl, by rwa [hhandle]⟩
  · rw [hown, hkeep, h.locks i, hi]
    rcases hph with rfl | rfl <;> rfl
  · rintro j - rfl
    rcases hph with hph | hph <;> cases hph
  · rintro j - rfl
    rcases hph with hph | hph <;> cases hph
  · rintro rfl
    rcases hph with hph | hph <;> cases hph
  · intro hnone _
    rw [horder, hcontent]
    exact hfile _ (h.no_writer (by rw [hi]; simp) hnone)

theorem Prepared.sees {op : Op} {f : Handle} {k : Bool → Operation}
    (h : Prepared keccak256 sd op (.ask .pathExists k) f) (hsome : f.content.isSome) :
    Prepared keccak256 sd op (k true) f := by
  intro log content hthere hholds
  have hserves : Serves keccak256 sd op log (k content.isSome) ⟨content, f.cursor⟩ := h log content hthere hholds
  rwa [hthere hsome] at hserves

theorem Prepared.opens {op : Op} {f : Handle} {create : Bool} {k : Except String Unit → Operation}
    (h : Prepared keccak256 sd op (.ask (.openFile create) k) f) (bytes : List UInt8) :
    Prepared keccak256 sd op (k (.ok ())) ⟨some bytes, 0⟩ := by
  intro log content hthere hholds
  obtain ⟨found, rfl⟩ := Option.isSome_iff_exists.mp (hthere rfl)
  exact h log (some found) (fun _ => rfl) hholds

/-- The operation looks for the file. -/
theorem Inv.looks {k : Bool → Operation} (h : Inv keccak256 sd ops programs φ s)
    (hask : programs i = .ask .pathExists k) (hi : φ i = .outside) :
    Moves keccak256 sd ops i φ (k s.content.isSome) (lockDiscipline.next .outside .pathExists s.content.isSome)
      (s.after i .pathExists) := by
  obtain ⟨hmem, hprep⟩ := h.stage_ask hask hi
  have hcall : call .pathExists (s.handle i) = (s.content.isSome, s.handle i) := rfl
  cases hcontent : s.content with
  | none =>
    rw [hcontent] at hcall
    exact h.misses hask hi hcontent hcontent hcall rfl rfl
  | some bytes =>
    rw [hcontent] at hcall
    have hfollows := (h.next_follows hask true).2
    rw [hi] at hfollows
    have hfree : ¬ s.Enters .pathExists := fun hnone => by cases hcontent.symm.trans hnone
    have hsome : (s.handle i).content.isSome := Option.isSome_iff_exists.mpr ⟨bytes, hcontent⟩
    exact h.goes_on hi hmem (.inl rfl) hfollows hfree rfl hcall (by rintro ⟨⟩) (Prepared.sees hprep hsome)
      fun _ hholds => hholds

/-- The operation opens the file. -/
theorem Inv.opens {create : Bool} {k : Except String Unit → Operation} (h : Inv keccak256 sd ops programs φ s)
    (hask : programs i = .ask (.openFile create) k) (hi : φ i = .outside) :
    Moves keccak256 sd ops i φ (k (call (.openFile create) (s.handle i)).1)
      (lockDiscipline.next .outside (.openFile create) (call (.openFile create) (s.handle i)).1)
      (s.after i (.openFile create)) := by
  obtain ⟨hmem, hprep⟩ := h.stage_ask hask hi
  by_cases hmiss : create = false ∧ s.content = none
  · obtain ⟨rfl, hnone⟩ := hmiss
    have hcall : call (.openFile false) (s.handle i) =
        (.error "No such file or directory (os error 2)", s.handle i) := call_openFile_missing hnone
    rw [hcall]
    exact h.misses hask hi hnone hnone hcall rfl rfl
  · have hcall : call (.openFile create) (s.handle i) = (.ok (), ⟨some (s.content.getD []), 0⟩) :=
      call_openFile_there hmiss
    have hfollows := (h.next_follows hask (.ok ())).2
    rw [hi] at hfollows
    have hfree : ¬ s.Enters (.openFile create) := by
      intro henters
      cases create with
      | true => exact henters
      | false => exact hmiss ⟨rfl, henters⟩
    rw [hcall]
    exact h.goes_on hi hmem (.inr rfl) hfollows hfree rfl hcall (fun _ => rfl) (Prepared.opens hprep _)
      fun _ => holds_getD.mpr

theorem Inv.outside_moves (h : Inv keccak256 sd ops programs φ s) (hask : programs i = .ask q k)
    (hi : φ i = .outside) :
    Moves keccak256 sd ops i φ (k (call q (s.handle i)).1)
      (lockDiscipline.next .outside q (call q (s.handle i)).1) (s.after i q) := by
  have hallows := (h.next_follows hask (call q (s.handle i)).1).1
  rw [hi] at hallows
  cases q with
  | pathExists => exact h.looks hask hi
  | openFile create => exact h.opens hask hi
  | _ => exact hallows.elim

/-- From here a process goes on as if it were alone. -/
theorem Inv.serves_next (h : Inv keccak256 sd ops programs φ s) (hmem : i ∉ s.order)
    (hprep : Prepared keccak256 sd (ops i) p (s.handle i)) (hnone : ∀ j, φ j ≠ .writer) :
    Serves keccak256 sd (ops i) (insertsOf ops (before i (s.order ++ [i]))) p (s.handle i) := by
  rw [before_snoc hmem]
  exact hprep _ s.content id (h.file hnone)

/-- The process gets the lock, and runs alone from there. -/
theorem Inv.opened_moves (h : Inv keccak256 sd ops programs φ s) (hask : programs i = .ask q k)
    (hi : φ i = .opened) (hgrants : s.Grants q) :
    Moves keccak256 sd ops i φ (k (call q (s.handle i)).1)
      (lockDiscipline.next .opened q (call q (s.handle i)).1) (s.after i q) := by
  obtain ⟨hmem, hsome, hprep⟩ := h.stage_ask hask hi
  have hnext := h.next_follows hask (call q (s.handle i)).1
  rw [hi] at hnext
  obtain ⟨hallows, hfollows⟩ := hnext
  obtain ⟨hshared, hexclusive⟩ := h.granted hgrants
  have hbefore : before i (s.order ++ [i]) = s.order := before_snoc hmem
  have hlast : s.order ++ [i] = before i (s.order ++ [i]) ++ [i] := by rw [hbefore]
  have hin : i ∈ s.order ++ [i] := by simp
  cases q with
  | lockShared =>
    have hserves : Serves keccak256 sd (ops i) (insertsOf ops (before i (s.order ++ [i]))) (k (.ok ()))
        (s.handle i) := h.serves_next hmem hprep (hshared rfl)
    refine
      { follows := hfollows
        stage := ⟨hin, hsome, ?_⟩
        locks := Function.update_self ..
        alone := fun _ _ => by rintro ⟨⟩
        shared := fun j _ _ => hshared rfl j
        last := by rintro ⟨⟩
        file := fun _ _ => ?_ }
    · rw [after_handle]
      exact hserves
    · -- a reader leaves what the log of its operation says, and that is what it has found
      have hreader : (k (.ok ())).FollowsTo lockDiscipline .ended .reader := hfollows
      have hholds := hserves.2
      rw [exec_reader hreader, hbefore, ← insertsOf_snoc] at hholds
      exact hholds
  | lockExclusive =>
    have hserves : Serves keccak256 sd (ops i) (insertsOf ops (before i (s.order ++ [i]))) (k (.ok ()))
        (s.handle i) := h.serves_next hmem hprep fun j => (hexclusive rfl j).2
    refine
      { follows := hfollows
        stage := ⟨hin, hsome, ?_⟩
        locks := Function.update_self ..
        alone := fun j _ _ => hexclusive rfl j
        shared := fun _ _ => by rintro ⟨⟩
        last := fun _ => hlast
        file := fun _ hne => absurd rfl hne }
    rw [after_handle]
    exact hserves
  | _ => exact hallows.elim

theorem Inv.stage_locked (h : Inv keccak256 sd ops programs φ s) (hi : φ i = .reader ∨ φ i = .writer) :
    i ∈ s.order ∧ Serves keccak256 sd (ops i) (insertsOf ops (before i s.order)) (programs i) (s.handle i) := by
  have hstage := h.stage i
  rcases hi with hi | hi
  · rw [hi] at hstage
    exact ⟨hstage.1, hstage.2.2⟩
  · rw [hi] at hstage
    exact ⟨hstage.1, hstage.2.2⟩

/-- A call under the lock: what is left to do is the same. -/
theorem Inv.stays (h : Inv keccak256 sd ops programs φ s) (hask : programs i = .ask q k)
    (hi : φ i = .reader ∨ φ i = .writer) (hq : q ≠ .unlock) :
    Moves keccak256 sd ops i φ (k (call q (s.handle i)).1)
      (lockDiscipline.next (φ i) q (call q (s.handle i)).1) (s.after i q) := by
  obtain ⟨hallows, hfollows⟩ := h.next_follows hask (call q (s.handle i)).1
  obtain ⟨hmem, hserves⟩ := h.stage_locked hi
  have hsame : lockDiscipline.next (φ i) q (call q (s.handle i)).1 = φ i ∧ ¬ s.Enters q ∧
      Disk.lockAfter (s.locks i) q = s.locks i := by
    rcases hi with hi | hi
    · rw [hi] at hallows ⊢
      cases q with
      | readToString => exact ⟨rfl, id, rfl⟩
      | unlock => exact absurd rfl hq
      | _ => exact hallows.elim
    · rw [hi] at hallows ⊢
      cases q with
      | unlock => exact absurd rfl hq
      | readToString | setLen _ | seek _ | writeAll _ | flush => exact ⟨rfl, id, rfl⟩
      | _ => exact hallows.elim
  obtain ⟨hnext, hfree, hkeep⟩ := hsame
  rw [hnext] at hfollows ⊢
  have horder : (s.after i q).order = s.order := after_order hfree
  have hgoes : Serves keccak256 sd (ops i) (insertsOf ops (before i s.order)) (k (call q (s.handle i)).1)
      ((s.after i q).handle i) := by
    rw [after_handle]
    rw [hask] at hserves
    exact hserves
  have hsome : (s.after i q).content.isSome := call_isSome (h.isSome hi)
  refine
    { follows := hfollows
      stage := ?_
      locks := ?_
      alone := ?_
      shared := ?_
      last := ?_
      file := ?_ }
  · rw [← horder] at hmem hgoes
    rcases hi with hi | hi
    · rw [hi]
      exact ⟨hmem, hsome, hgoes⟩
    · rw [hi]
      exact ⟨hmem, hsome, hgoes⟩
  · have hown : (s.after i q).locks i = Disk.lockAfter (s.locks i) q := Function.update_self ..
    rw [hown, hkeep, h.locks i]
  · intro j hj hwriter
    exact ⟨fun hr => hj (h.alone i j hwriter (.inl hr)), fun hw => hj (h.alone i j hwriter (.inr hw))⟩
  · intro j hj hreader hw
    exact hj (h.alone j i hw (.inl hreader)).symm
  · intro hwriter
    rw [horder]
    exact h.last i hwriter
  · intro hnone hne
    have hcontent : (s.after i q).content = s.content := call_outside hallows hne (h.isSome hi)
    rw [horder, hcontent]
    exact h.no_writer hne hnone

/-- The process gives the lock back, and has returned. -/
theorem Inv.leaves {k : Except String Unit → Operation} (h : Inv keccak256 sd ops programs φ s)
    (hask : programs i = .ask .unlock k) (hi : φ i = .reader ∨ φ i = .writer) :
    Moves keccak256 sd ops i φ (k (.ok ())) .ended (s.after i .unlock) := by
  obtain ⟨hallows, hfollows⟩ := h.next_follows hask (.ok ())
  have hended : (k (.ok ())).FollowsTo lockDiscipline .ended .ended := by
    rcases hi with hi | hi <;> rwa [hi] at hfollows
  obtain ⟨hmem, hserves⟩ := h.stage_locked hi
  rw [hask] at hserves
  have hreturns : Serves keccak256 sd (ops i) (insertsOf ops (before i s.order)) (k (.ok ())) (s.handle i) :=
    hserves
  obtain ⟨hdone, hholds⟩ := hreturns.ended hended
  have horder : (s.after i .unlock).order = s.order := after_order id
  refine
    { follows := hended
      stage := ?_
      locks := Function.update_self ..
      alone := fun _ _ => by rintro ⟨⟩
      shared := fun _ _ => by rintro ⟨⟩
      last := by rintro ⟨⟩
      file := ?_ }
  · rw [← horder] at hmem hdone
    exact ⟨hmem, hdone⟩
  · intro hnone _
    rw [horder]
    show Holds keccak256 sd (insertsOf ops s.order) s.content
    by_cases hwriter : φ i = .writer
    · rw [h.last i hwriter, insertsOf_snoc]
      exact hholds
    · exact h.no_writer hwriter hnone

/-- **One step** of any process. -/
theorem Inv.step (h : Inv keccak256 sd ops programs φ s) (hask : programs i = .ask q k) (hgrants : s.Grants q) :
    Inv keccak256 sd ops (Function.update programs i (k (call q (s.handle i)).1))
      (Function.update φ i (lockDiscipline.next (φ i) q (call q (s.handle i)).1)) (s.after i q) := by
  have hallows := (h.next_follows hask (call q (s.handle i)).1).1
  refine h.move (h.beside hallows hgrants) ?_
  cases hi : φ i with
  | outside => exact h.outside_moves hask hi
  | opened => exact h.opened_moves hask hi hgrants
  | reader | writer =>
    rw [← hi]
    by_cases hq : q = .unlock
    · subst hq
      exact h.leaves hask (by simp [hi])
    · exact h.stays hask (by simp [hi]) hq
  | ended =>
    rw [hi] at hallows
    cases q <;> exact hallows.elim

end Invariant

end RobotMoney.Client.Replay
