import Mathlib.Tactic

/-!
# Programs in one world

A program asks questions, each of which is answered, and ends with a result.  Any number of programs run in
one world: at every step one of them is started, the world works on the question that one has asked, one is
answered, one has ended and leaves, or one is killed.

Where the world also moves by itself, `Evolves` are the states that are reached from programs that run; every
answer that a program has had was given at some point of such a run (`exists_left`).

A *discipline* says which questions may be asked in which phase of a program, and which phase an answer leads
to.  Where all programs follow a discipline, an invariant of the world has to be shown of phases only, one
case for each kind of step (`Preserved`); it then holds in every state that is reached (`reachable_invariant`).
-/

namespace RobotMoney.Lib

variable {Q : Type} {A : Q → Type} {ε S : Type}

/-- A program with questions in `Q`, the answers to each in `A q`, and results in `ε`. -/
inductive Program (Q : Type) (A : Q → Type) (ε : Type) where
  | done (e : ε)
  | ask (q : Q) (k : A q → Program Q A ε)

/-! ### Disciplines -/

structure Discipline (Q : Type) (A : Q → Type) where
  Phase : Type
  start : Phase
  allows : Phase → Q → Prop
  next : Phase → (q : Q) → A q → Phase

/-- The program keeps to the discipline from a phase on. -/
def Program.Follows (d : Discipline Q A) : d.Phase → Program Q A ε → Prop
  | _, .done _ => True
  | ph, .ask q k => d.allows ph q ∧ ∀ a, (k a).Follows d (d.next ph q a)

/-- It does, and ends in a phase `fin`. -/
def Program.FollowsTo (d : Discipline Q A) (fin : d.Phase) : d.Phase → Program Q A ε → Prop
  | ph, .done _ => ph = fin
  | ph, .ask q k => d.allows ph q ∧ ∀ a, (k a).FollowsTo d fin (d.next ph q a)

/-! ### Finished runs -/

namespace Program

/-- What is asked and answered in a run that ends with `e`. -/
inductive Runs : Program Q A ε → List (Σ q, A q) → ε → Prop
  | done {e : ε} : Runs (.done e) [] e
  | ask {q : Q} {k : A q → Program Q A ε} {a : A q} {t : List (Σ q, A q)} {e : ε} (h : Runs (k a) t e) :
    Runs (.ask q k) (⟨q, a⟩ :: t) e

/-- What every run that ends has asked and been answered. -/
def Traces (P : List (Σ q, A q) → Prop) (p : Program Q A ε) : Prop := ∀ t e, p.Runs t e → P t

variable {P P' : List (Σ q, A q) → Prop} {p : Program Q A ε}

theorem traces_done {e : ε} (h : P []) : (Program.done e : Program Q A ε).Traces P := by
  intro t e' hrun
  cases hrun
  exact h

theorem traces_ask {q : Q} {k : A q → Program Q A ε} (h : ∀ a, (k a).Traces fun t => P (⟨q, a⟩ :: t)) :
    (Program.ask q k).Traces P := by
  intro t e hrun
  cases hrun with
  | ask hrest => exact h _ _ _ hrest

/-- A run by its first answer. -/
theorem exists_runs_ask {q : Q} {k : A q → Program Q A ε} {e : ε} (a : A q)
    (h : ∃ t, (k a).Runs t e ∧ P (⟨q, a⟩ :: t)) : ∃ t, (Program.ask q k).Runs t e ∧ P t := by
  obtain ⟨t, hrun, ht⟩ := h
  exact ⟨_, .ask hrun, ht⟩

theorem Traces.imp (h : p.Traces P) (hP : ∀ t, P t → P' t) : p.Traces P' := fun t e hrun => hP t (h t e hrun)

/-- What is left of a program after it has been answered. -/
inductive Left (p : Program Q A ε) : List (Σ q, A q) → Program Q A ε → Prop
  | start : Left p [] p
  | answer {t : List (Σ q, A q)} {q : Q} {k : A q → Program Q A ε} (h : Left p t (.ask q k)) (a : A q) :
    Left p (t ++ [⟨q, a⟩]) (k a)

theorem Left.runs {p' : Program Q A ε} {t t' : List (Σ q, A q)} {e : ε} (h : p.Left t p') (hrun : p'.Runs t' e) :
    p.Runs (t ++ t') e := by
  induction h generalizing t' with
  | start => exact hrun
  | answer _ a ih =>
    rw [List.append_assoc]
    exact ih (.ask hrun)

end Program

/-! ### A program alone -/

/-- What a program that is the only one to run ends with, and what it leaves. -/
def Program.exec (call : (q : Q) → S → A q × S) : Program Q A ε → S → ε × S
  | .done e, s => (e, s)
  | .ask q k, s => (k (call q s).1).exec call (call q s).2

/-! ### Worlds -/

/-- How the world deals with the program number `i`: it works on a question that is asked, it answers it, and
it takes note of the end. -/
structure World (Q : Type) (A : Q → Type) (S : Type) where
  works : ℕ → S → Q → S → Prop
  answers : ℕ → S → (q : Q) → A q → S → Prop
  ends : ℕ → S → S

/-- The programs that run, and the rest of the world. -/
structure Running (Q : Type) (A : Q → Type) (ε S : Type) where
  programs : ℕ → Option (Program Q A ε)
  shared : S

/-- One step; `can` are the programs that may be started. -/
inductive World.Step (w : World Q A S) (can : Program Q A ε → Prop) :
    Running Q A ε S → Running Q A ε S → Prop
  | spawn {s : Running Q A ε S} {i : ℕ} {p : Program Q A ε} (hfree : s.programs i = none) (hcan : can p) :
    Step w can s { s with programs := Function.update s.programs i (some p) }
  | work {s : Running Q A ε S} {i : ℕ} {q : Q} {k : A q → Program Q A ε} {shared : S}
      (hask : s.programs i = some (.ask q k)) (hworks : w.works i s.shared q shared) :
    Step w can s { s with shared }
  | answer {s : Running Q A ε S} {i : ℕ} {q : Q} {k : A q → Program Q A ε} {a : A q} {shared : S}
      (hask : s.programs i = some (.ask q k)) (hanswers : w.answers i s.shared q a shared) :
    Step w can s ⟨Function.update s.programs i (some (k a)), shared⟩
  | exit {s : Running Q A ε S} {i : ℕ} {e : ε} (hdone : s.programs i = some (.done e)) :
    Step w can s ⟨Function.update s.programs i none, w.ends i s.shared⟩
  | kill {s : Running Q A ε S} {i : ℕ} {p : Program Q A ε} (hruns : s.programs i = some p) :
    Step w can s ⟨Function.update s.programs i none, w.ends i s.shared⟩

/-- The states that are reached. -/
inductive World.Reachable (w : World Q A S) (can : Program Q A ε → Prop) (s₀ : Running Q A ε S) :
    Running Q A ε S → Prop
  | start : Reachable w can s₀ s₀
  | step {s s' : Running Q A ε S} (h : Reachable w can s₀ s) (hstep : w.Step can s s') : Reachable w can s₀ s'

/-- What the steps of the program `i` make of it and of the world, while the others wait. -/
inductive World.Serves (w : World Q A S) (i : ℕ) (p : Program Q A ε) (s : S) : Program Q A ε → S → Prop
  | start : Serves w i p s p s
  | work {q : Q} {k : A q → Program Q A ε} {s' s'' : S} (h : Serves w i p s (.ask q k) s')
      (hworks : w.works i s' q s'') : Serves w i p s (.ask q k) s''
  | answer {q : Q} {k : A q → Program Q A ε} {s' s'' : S} (h : Serves w i p s (.ask q k) s') (a : A q)
      (hanswers : w.answers i s' q a s'') : Serves w i p s (k a) s''

theorem World.Reachable.serves {w : World Q A S} {can : Program Q A ε → Prop} {s₀ s : Running Q A ε S} {i : ℕ}
    {p p' : Program Q A ε} {shared : S} (h : w.Reachable can s₀ s) (hp : s.programs i = some p)
    (hserves : w.Serves i p s.shared p' shared) :
    w.Reachable can s₀ ⟨Function.update s.programs i (some p'), shared⟩ := by
  induction hserves with
  | start =>
    rw [← hp, Function.update_eq_self]
    exact h
  | work _ hworks ih => exact ih.step (.work (Function.update_self ..) hworks)
  | answer _ a hanswers ih =>
    have hstep := ih.step (.answer (Function.update_self ..) hanswers)
    rwa [Function.update_idem] at hstep

/-- The states that are reached when the programs that run go on, in any order of their steps, and no program
is started or killed. -/
inductive World.Interleaves (w : World Q A S) (s₀ : Running Q A ε S) : Running Q A ε S → Prop
  | start : Interleaves w s₀ s₀
  | work {s : Running Q A ε S} {i : ℕ} {q : Q} {k : A q → Program Q A ε} {shared : S}
      (h : Interleaves w s₀ s) (hask : s.programs i = some (.ask q k)) (hworks : w.works i s.shared q shared) :
    Interleaves w s₀ { s with shared }
  | answer {s : Running Q A ε S} {i : ℕ} {q : Q} {k : A q → Program Q A ε} {a : A q} {shared : S}
      (h : Interleaves w s₀ s) (hask : s.programs i = some (.ask q k))
      (hanswers : w.answers i s.shared q a shared) :
    Interleaves w s₀ ⟨Function.update s.programs i (some (k a)), shared⟩

theorem World.Interleaves.trans {w : World Q A S} {s₀ s s' : Running Q A ε S} (h : w.Interleaves s₀ s)
    (h' : w.Interleaves s s') : w.Interleaves s₀ s' := by
  induction h' with
  | start => exact h
  | work _ hask hworks ih => exact ih.work hask hworks
  | answer _ hask hanswers ih => exact ih.answer hask hanswers

/-- The world in which some of the answers are not given. -/
def World.restrict (w : World Q A S) (allows : S → S → Prop) : World Q A S where
  works := w.works
  answers i s q a s' := w.answers i s q a s' ∧ allows s s'
  ends := w.ends

/-- The states that are reached when the world also moves by itself. -/
inductive World.Evolves (w : World Q A S) (moves : S → S → Prop) (s₀ : Running Q A ε S) : Running Q A ε S → Prop
  | start : Evolves w moves s₀ s₀
  | work {s : Running Q A ε S} {i : ℕ} {q : Q} {k : A q → Program Q A ε} {shared : S}
      (h : Evolves w moves s₀ s) (hask : s.programs i = some (.ask q k)) (hworks : w.works i s.shared q shared) :
    Evolves w moves s₀ { s with shared }
  | answer {s : Running Q A ε S} {i : ℕ} {q : Q} {k : A q → Program Q A ε} {a : A q} {shared : S}
      (h : Evolves w moves s₀ s) (hask : s.programs i = some (.ask q k))
      (hanswers : w.answers i s.shared q a shared) :
    Evolves w moves s₀ ⟨Function.update s.programs i (some (k a)), shared⟩
  | move {s : Running Q A ε S} {shared : S} (h : Evolves w moves s₀ s) (hmoves : moves s.shared shared) :
    Evolves w moves s₀ { s with shared }

section Evolves

variable {w : World Q A S} {moves : S → S → Prop} {s₀ s s' : Running Q A ε S} {i : ℕ} {p : Program Q A ε}

theorem World.Evolves.serves {p' : Program Q A ε} {shared : S} (h : w.Evolves moves s₀ s) (hp : s.programs i = some p)
    (hserves : w.Serves i p s.shared p' shared) :
    w.Evolves moves s₀ ⟨Function.update s.programs i (some p'), shared⟩ := by
  induction hserves with
  | start =>
    rw [← hp, Function.update_eq_self]
    exact h
  | work _ hworks ih => exact ih.work (Function.update_self ..) hworks
  | answer _ a hanswers ih =>
    have hnext := ih.answer (Function.update_self ..) hanswers
    rwa [Function.update_idem] at hnext

/-- What holds of the world at the start, and is kept, holds in every state. -/
theorem World.Evolves.invariant {J : S → Prop} (h : w.Evolves moves s₀ s) (h₀ : J s₀.shared)
    (hworks : ∀ {i s q s'}, J s → w.works i s q s' → J s')
    (hanswers : ∀ {i s q a s'}, J s → w.answers i s q a s' → J s') (hmoves : ∀ {s s'}, J s → moves s s' → J s') :
    J s.shared := by
  induction h with
  | start => exact h₀
  | work _ _ hw ih => exact hworks ih hw
  | answer _ _ ha ih => exact hanswers ih ha
  | move _ hm ih => exact hmoves ih hm

theorem World.Evolves.trans (h : w.Evolves moves s₀ s) (h' : w.Evolves moves s s') : w.Evolves moves s₀ s' := by
  induction h' with
  | start => exact h
  | work _ hask hworks ih => exact ih.work hask hworks
  | answer _ hask hanswers ih => exact ih.answer hask hanswers
  | move _ hmoves ih => exact ih.move hmoves

/-- The program is answered at this point of the run up to `s`. -/
structure World.AnsweredAt (w : World Q A S) (moves : S → S → Prop) (s₀ s : Running Q A ε S) (i : ℕ) (q : Q) (a : A q)
    (s₁ s₂ : Running Q A ε S) : Prop where
  before : w.Evolves moves s₀ s₁
  asks : ∃ k, s₁.programs i = some (.ask q k) ∧ s₂.programs = Function.update s₁.programs i (some (k a))
  answers : w.answers i s₁.shared q a s₂.shared
  after : w.Evolves moves s₂ s

theorem World.AnsweredAt.run {q : Q} {a : A q} {s₁ s₂ : Running Q A ε S}
    (h : w.AnsweredAt moves s₀ s i q a s₁ s₂) : w.Evolves moves s₀ s := by
  obtain ⟨k, hask, hnext⟩ := h.asks
  have hs₂ := h.before.answer hask h.answers
  rw [← hnext] at hs₂
  exact hs₂.trans h.after

/-- **What a program was asked and answered** in a run, each at some point of it. -/
theorem World.Evolves.exists_left (h : w.Evolves moves s₀ s) (hp : s₀.programs i = some p) :
    ∃ t p', s.programs i = some p' ∧ p.Left t p' ∧
      ∀ x ∈ t, ∃ s₁ s₂, w.AnsweredAt moves s₀ s i x.1 x.2 s₁ s₂ := by
  induction h with
  | start => exact ⟨[], p, hp, .start, by simp⟩
  | work h hask hworks ih =>
    obtain ⟨t, p', hp', hleft, ht⟩ := ih
    refine ⟨t, p', hp', hleft, fun x hx => ?_⟩
    obtain ⟨s₁, s₂, hat⟩ := ht x hx
    exact ⟨s₁, s₂, { hat with after := hat.after.work hask hworks }⟩
  | @answer s j q k a shared h hask hanswers ih =>
    obtain ⟨t, p', hp', hleft, ht⟩ := ih
    have hlater : ∀ x ∈ t, ∃ s₁ s₂, w.AnsweredAt moves s₀
        ⟨Function.update s.programs j (some (k a)), shared⟩ i x.1 x.2 s₁ s₂ := by
      intro x hx
      obtain ⟨s₁, s₂, hat⟩ := ht x hx
      exact ⟨s₁, s₂, { hat with after := hat.after.answer hask hanswers }⟩
    by_cases hij : i = j
    · subst hij
      obtain rfl := Option.some.inj (hp'.symm.trans hask)
      refine ⟨t ++ [⟨q, a⟩], k a, Function.update_self .., hleft.answer a, fun x hx => ?_⟩
      rcases List.mem_append.mp hx with hx | hx
      · exact hlater x hx
      · obtain rfl := List.mem_singleton.mp hx
        exact ⟨s, _, h, ⟨k, hask, rfl⟩, hanswers, .start⟩
    · exact ⟨t, p', (Function.update_of_ne hij ..).trans hp', hleft, hlater⟩
  | move h hmoves ih =>
    obtain ⟨t, p', hp', hleft, ht⟩ := ih
    refine ⟨t, p', hp', hleft, fun x hx => ?_⟩
    obtain ⟨s₁, s₂, hat⟩ := ht x hx
    exact ⟨s₁, s₂, { hat with after := hat.after.move hmoves }⟩

/-- If the program has ended, that was its run. -/
theorem World.Evolves.exists_runs {e : ε} (h : w.Evolves moves s₀ s) (hp : s₀.programs i = some p)
    (hdone : s.programs i = some (.done e)) :
    ∃ t, p.Runs t e ∧ ∀ x ∈ t, ∃ s₁ s₂, w.AnsweredAt moves s₀ s i x.1 x.2 s₁ s₂ := by
  obtain ⟨t, p', hp', hleft, ht⟩ := h.exists_left hp
  obtain rfl := Option.some.inj (hp'.symm.trans hdone)
  refine ⟨t, ?_, ht⟩
  have hruns := hleft.runs .done
  rwa [List.append_nil] at hruns

end Evolves

/-! ### Invariants -/

section Invariant

variable {w : World Q A S} {d : Discipline Q A} {can : Program Q A ε → Prop}

/-- A property of the phases and the world that every step keeps. -/
structure Preserved (w : World Q A S) (d : Discipline Q A) (J : (ℕ → Option d.Phase) → S → Prop) : Prop where
  spawn : ∀ φ s i, J φ s → φ i = none → J (Function.update φ i (some d.start)) s
  work : ∀ φ s i ph q s', J φ s → φ i = some ph → d.allows ph q → w.works i s q s' → J φ s'
  answer : ∀ φ s i ph q a s', J φ s → φ i = some ph → d.allows ph q → w.answers i s q a s' →
    J (Function.update φ i (some (d.next ph q a))) s'
  ends : ∀ φ s i ph, J φ s → φ i = some ph → J (Function.update φ i none) (w.ends i s)

/-- The programs are in these phases. -/
def InPhases (d : Discipline Q A) (programs : ℕ → Option (Program Q A ε)) (φ : ℕ → Option d.Phase) : Prop :=
  ∀ i, match programs i with
    | some p => ∃ ph, φ i = some ph ∧ p.Follows d ph
    | none => φ i = none

variable {programs : ℕ → Option (Program Q A ε)} {φ : ℕ → Option d.Phase} {i : ℕ} {p : Program Q A ε}

theorem InPhases.of_runs (h : InPhases d programs φ) (hi : programs i = some p) :
    ∃ ph, φ i = some ph ∧ p.Follows d ph := by
  have hi' := h i
  rw [hi] at hi'
  exact hi'

theorem InPhases.of_free (h : InPhases d programs φ) (hi : programs i = none) : φ i = none := by
  have hi' := h i
  rw [hi] at hi'
  exact hi'

theorem InPhases.set (h : InPhases d programs φ) (i : ℕ) {ph : d.Phase} (hp : p.Follows d ph) :
    InPhases d (Function.update programs i (some p)) (Function.update φ i (some ph)) := by
  intro j
  by_cases hj : j = i
  · subst hj
    rw [Function.update_self, Function.update_self]
    exact ⟨ph, rfl, hp⟩
  · rw [Function.update_of_ne hj, Function.update_of_ne hj]
    exact h j

theorem InPhases.unset (h : InPhases d programs φ) (i : ℕ) :
    InPhases d (Function.update programs i none) (Function.update φ i none) := by
  intro j
  by_cases hj : j = i
  · subst hj
    rw [Function.update_self, Function.update_self]
  · rw [Function.update_of_ne hj, Function.update_of_ne hj]
    exact h j

/-- **One step** keeps the programs in their phases, and the property of these. -/
theorem Preserved.step {J : (ℕ → Option d.Phase) → S → Prop} (hJ : Preserved w d J)
    (hcan : ∀ p, can p → p.Follows d d.start) {s s' : Running Q A ε S} (h : w.Step can s s')
    (hs : ∃ φ, InPhases d s.programs φ ∧ J φ s.shared) : ∃ φ, InPhases d s'.programs φ ∧ J φ s'.shared := by
  obtain ⟨φ, hφ, hinv⟩ := hs
  cases h with
  | spawn hfree hp => exact ⟨_, hφ.set _ (hcan _ hp), hJ.spawn _ _ _ hinv (hφ.of_free hfree)⟩
  | work hask hworks =>
    obtain ⟨ph, hph, hallows, -⟩ := hφ.of_runs hask
    exact ⟨φ, hφ, hJ.work _ _ _ _ _ _ hinv hph hallows hworks⟩
  | answer hask hanswers =>
    obtain ⟨ph, hph, hallows, hnext⟩ := hφ.of_runs hask
    exact ⟨_, hφ.set _ (hnext _), hJ.answer _ _ _ _ _ _ _ hinv hph hallows hanswers⟩
  | exit hdone =>
    obtain ⟨ph, hph, -⟩ := hφ.of_runs hdone
    exact ⟨_, hφ.unset _, hJ.ends _ _ _ _ hinv hph⟩
  | kill hruns =>
    obtain ⟨ph, hph, -⟩ := hφ.of_runs hruns
    exact ⟨_, hφ.unset _, hJ.ends _ _ _ _ hinv hph⟩

/-- **The invariant rule.**  Where all programs follow the discipline, what every step keeps holds in every
state that is reached from one where nothing runs. -/
theorem reachable_invariant {J : (ℕ → Option d.Phase) → S → Prop} (hJ : Preserved w d J)
    (hcan : ∀ p, can p → p.Follows d d.start) {s₀ : S} (h₀ : J (fun _ => none) s₀)
    {s : Running Q A ε S} (h : w.Reachable can ⟨fun _ => none, s₀⟩ s) :
    ∃ φ, InPhases d s.programs φ ∧ J φ s.shared := by
  induction h with
  | start => exact ⟨fun _ => none, fun _ => rfl, h₀⟩
  | step _ hstep ih => exact hJ.step hcan hstep ih

end Invariant

end RobotMoney.Lib
