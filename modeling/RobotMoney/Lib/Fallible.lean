import Mathlib.Tactic

/-!
# Computations that may fail and keep what they did

A service that works on a store fails in the middle: the step that failed did nothing, those before it
are done.  `Fallible σ ε α` is such a computation on the state `σ`.  `Triple P m Q E` says: started where
`P` holds, `m` ends with a value `a` where `Q a` holds, or fails where `E` holds.  Both are needed: what
a failed computation leaves behind is what the next one starts from.
-/

namespace RobotMoney.Lib

/-- A computation: a value or an error, and the state it leaves. -/
def Fallible (σ ε α : Type) : Type := σ → Except ε α × σ

namespace Fallible

variable {σ ε α β ι : Type}

instance : Monad (Fallible σ ε) where
  pure a := fun s => (.ok a, s)
  bind m f := fun s =>
    match m s with
    | (.ok a, s') => f a s'
    | (.error e, s') => (.error e, s')

instance : LawfulMonad (Fallible σ ε) := by
  refine LawfulMonad.mk' (Fallible σ ε) ?_ ?_ ?_
  · intro α m
    funext s
    show (match m s with | (.ok a, s') => (.ok a, s') | (.error e, s') => (.error e, s')) = m s
    rcases m s with ⟨e | a, s'⟩ <;> rfl
  · intro α β a f
    rfl
  · intro α β γ m f g
    funext s
    show (match (match m s with
        | (.ok a, s') => f a s'
        | (.error e, s') => (.error e, s')) with
      | (.ok b, s') => g b s'
      | (.error e, s') => (.error e, s')) = match m s with
        | (.ok a, s') => (f a >>= g) s'
        | (.error e, s') => (.error e, s')
    rcases m s with ⟨e | a, s'⟩ <;> rfl

/-- Fail with an error. -/
def fail (e : ε) : Fallible σ ε α := fun s => (.error e, s)

/-- A value in place of a failure, `unwrap_or`. -/
def unwrapOr (m : Fallible σ ε α) (a : α) : Fallible σ ε α := fun s =>
  match m s with
  | (.ok b, s') => (.ok b, s')
  | (.error _, s') => (.ok a, s')

/-- What a computation ends with, a value or a failure, as a value. -/
def attempt (m : Fallible σ ε α) : Fallible σ ε (Except ε α) := fun s => (.ok (m s).1, (m s).2)

/-- A loop that adds up what its steps return. -/
def total (f : ι → Fallible σ ε ℕ) : List ι → Fallible σ ε ℕ
  | [] => pure 0
  | i :: is => do
    let n ← f i
    let m ← total f is
    pure (n + m)

theorem bind_of_ok {m : Fallible σ ε α} {f : α → Fallible σ ε β} {a : α} {s s' : σ}
    (h : m s = (.ok a, s')) : (m >>= f) s = f a s' := by
  show (match m s with
    | (.ok a, s') => f a s'
    | (.error e, s') => (.error e, s')) = _
  rw [h]

theorem bind_of_error {m : Fallible σ ε α} {f : α → Fallible σ ε β} {e : ε} {s s' : σ}
    (h : m s = (.error e, s')) : (m >>= f) s = (.error e, s') := by
  show (match m s with
    | (.ok a, s') => f a s'
    | (.error e, s') => (.error e, s')) = _
  rw [h]

theorem bind_ok_iff {m : Fallible σ ε α} {f : α → Fallible σ ε β} {b : β} {s t : σ} :
    (m >>= f) s = (.ok b, t) ↔ ∃ a s', m s = (.ok a, s') ∧ f a s' = (.ok b, t) := by
  constructor
  · intro h
    rcases hm : m s with ⟨e | a, s'⟩
    · rw [bind_of_error hm] at h
      cases h
    · rw [bind_of_ok hm] at h
      exact ⟨a, s', rfl, h⟩
  · rintro ⟨a, s', hm, hf⟩
    rw [bind_of_ok hm, hf]

/-! ### Triples -/

/-- Where `P` holds, `m` ends where `Q` holds of its value, or fails where `E` holds. -/
def Triple (P : σ → Prop) (m : Fallible σ ε α) (Q : α → σ → Prop) (E : σ → Prop) : Prop :=
  ∀ s, P s → match m s with
    | (.ok a, s') => Q a s'
    | (.error _, s') => E s'

variable {P P' : σ → Prop} {Q Q' : α → σ → Prop} {E E' : σ → Prop} {m : Fallible σ ε α}

theorem triple_pure {a : α} (h : ∀ s, P s → Q a s) : Triple P (pure a : Fallible σ ε α) Q E := h

theorem triple_fail {e : ε} (h : ∀ s, P s → E s) : Triple P (fail e : Fallible σ ε α) Q E := h

theorem triple_bind {f : α → Fallible σ ε β} {R : β → σ → Prop} (hm : Triple P m Q E)
    (hf : ∀ a, Triple (Q a) (f a) R E) : Triple P (m >>= f) R E := by
  intro s hs
  have h := hm s hs
  show match (match m s with
    | (.ok a, s') => f a s'
    | (.error e, s') => (.error e, s')) with
    | (.ok b, s') => R b s'
    | (.error _, s') => E s'
  rcases hr : m s with ⟨e | a, s'⟩
  · rw [hr] at h
    exact h
  · rw [hr] at h
    exact hf a s' h

/-- The first part is known to end with a value. -/
theorem triple_bind_ok {f : α → Fallible σ ε β} {R : β → σ → Prop} {a : α} {s s' : σ}
    (hm : m s = (.ok a, s')) (hf : Triple (· = s') (f a) R E) : Triple (· = s) (m >>= f) R E := by
  rintro t rfl
  rw [bind_of_ok hm]
  exact hf s' rfl

/-- The first part is known to fail. -/
theorem triple_bind_error {f : α → Fallible σ ε β} {R : β → σ → Prop} {e : ε} {s s' : σ}
    (hm : m s = (.error e, s')) (hE : E s') : Triple (· = s) (m >>= f) R E := by
  rintro t rfl
  rw [bind_of_error hm]
  exact hE

theorem triple_conseq (h : Triple P m Q E) (hP : ∀ s, P' s → P s) (hQ : ∀ a s, Q a s → Q' a s)
    (hE : ∀ s, E s → E' s) : Triple P' m Q' E' := by
  intro s hs
  have h := h s (hP s hs)
  rcases hr : m s with ⟨e | a, s'⟩
  · rw [hr] at h
    exact hE s' h
  · rw [hr] at h
    exact hQ a s' h

/-- A weaker conclusion. -/
theorem triple_post (h : Triple P m Q E) (hQ : ∀ a s, Q a s → Q' a s) : Triple P m Q' E :=
  triple_conseq h (fun _ hs => hs) hQ (fun _ hs => hs)

/-- A stronger assumption. -/
theorem triple_pre (h : Triple P m Q E) (hP : ∀ s, P' s → P s) : Triple P' m Q E :=
  triple_conseq h hP (fun _ _ hs => hs) (fun _ hs => hs)

/-- A weaker account of failures. -/
theorem triple_error (h : Triple P m Q E) (hE : ∀ s, E s → E' s) : Triple P m Q E' :=
  triple_conseq h (fun _ hs => hs) (fun _ _ hs => hs) hE

/-- Two accounts of one computation. -/
theorem triple_and (h : Triple P m Q E) (h' : Triple P m Q' E') :
    Triple P m (fun a s => Q a s ∧ Q' a s) (fun s => E s ∧ E' s) := by
  intro s hs
  have h := h s hs
  have h' := h' s hs
  rcases hr : m s with ⟨e | a, s'⟩
  · rw [hr] at h h'
    exact ⟨h, h'⟩
  · rw [hr] at h h'
    exact ⟨h, h'⟩

/-- A fact that does not depend on the state is known throughout. -/
theorem triple_of_fact {p : Prop} (hp : ∀ s, P s → p) (h : p → Triple P m Q E) : Triple P m Q E := by
  intro s hs
  exact h (hp s hs) s hs

theorem triple_unwrapOr {a : α} (h : Triple P m (fun _ => P') P') :
    Triple P (m.unwrapOr a) (fun _ => P') E := by
  intro s hs
  have h := h s hs
  unfold unwrapOr
  rcases hr : m s with ⟨e | b, s'⟩
  · rw [hr] at h
    exact h
  · rw [hr] at h
    exact h

theorem triple_attempt {R : Except ε α → σ → Prop} (h : Triple P m Q E')
    (hok : ∀ a s, Q a s → R (.ok a) s) (herr : ∀ e s, E' s → R (.error e) s) :
    Triple P m.attempt R E := by
  intro s hs
  have h := h s hs
  show R (m s).1 (m s).2
  rcases hr : m s with ⟨e | a, s'⟩
  · rw [hr] at h
    exact herr e s' h
  · rw [hr] at h
    exact hok a s' h

/-- **The loop rule.**  What holds of the steps done so far, `I pre`, holds of all at the end. -/
theorem triple_total {f : ι → Fallible σ ε ℕ} {I : List ι → σ → Prop} {is : List ι}
    (h : ∀ pre i post, is = pre ++ i :: post → Triple (I pre) (f i) (fun _ => I (pre ++ [i])) E) :
    Triple (I []) (total f is) (fun _ => I is) E := by
  have key : ∀ post pre, is = pre ++ post → Triple (I pre) (total f post) (fun _ => I is) E := by
    intro post
    induction post with
    | nil =>
      intro pre hpre
      refine triple_pure ?_
      intro s hs
      rw [hpre, List.append_nil]
      exact hs
    | cons i post ih =>
      intro pre hpre
      refine triple_bind (h pre i post hpre) ?_
      intro n
      refine triple_bind (ih (pre ++ [i]) (by simpa using hpre)) ?_
      intro k
      exact triple_pure fun s hs => hs
  exact key is [] rfl

/-- A loop whose steps keep an invariant. -/
theorem triple_total_keeps {f : ι → Fallible σ ε ℕ} {is : List ι}
    (h : ∀ i ∈ is, Triple P (f i) (fun _ => P) E) : Triple P (total f is) (fun _ => P) E := by
  refine triple_total (I := fun _ => P) ?_
  intro pre i post hsplit
  refine h i ?_
  rw [hsplit]
  simp

/-- What a computation is started on, one state at a time. -/
theorem triple_of_each (h : ∀ s, P s → Triple (· = s) m Q E) : Triple P m Q E :=
  fun s hs => h s hs s rfl

/-- Where it ends is where it ends. -/
theorem triple_self {s : σ} (h : Triple P m Q E) (hs : P s) :
    Triple (· = s) m (fun a t => m s = (.ok a, t) ∧ Q a t) E := by
  rintro t rfl
  have hm := h t hs
  rcases hr : m t with ⟨e | a, u⟩
  · rw [hr] at hm
    exact hm
  · rw [hr] at hm
    exact ⟨rfl, hm⟩

/-- The loop over `is` from `s` comes to `i` at `t`. -/
def Visits (f : ι → Fallible σ ε ℕ) (is : List ι) (s : σ) (i : ι) (t : σ) : Prop :=
  ∃ pre post n, is = pre ++ i :: post ∧ total f pre s = (.ok n, t)

theorem total_snoc {f : ι → Fallible σ ε ℕ} {pre : List ι} {i : ι} {n n' : ℕ} {s t u : σ}
    (hpre : total f pre s = (.ok n, t)) (hi : f i t = (.ok n', u)) :
    ∃ k, total f (pre ++ [i]) s = (.ok k, u) := by
  induction pre generalizing s n with
  | nil =>
    cases hpre
    exact ⟨n' + 0, bind_ok_iff.mpr ⟨n', u, hi, rfl⟩⟩
  | cons j pre ih =>
    obtain ⟨m, v, hj, hrest⟩ := bind_ok_iff.mp hpre
    obtain ⟨m', v', hrest, hlast⟩ := bind_ok_iff.mp hrest
    cases hlast
    obtain ⟨k, hk⟩ := ih hrest
    exact ⟨m + k, bind_ok_iff.mpr ⟨m, v, hj, bind_ok_iff.mpr ⟨k, u, hk, rfl⟩⟩⟩

/-- A loop whose steps keep an invariant where the loop comes to them. -/
theorem triple_visits {f : ι → Fallible σ ε ℕ} {is : List ι} {s : σ} (hs : P s)
    (h : ∀ i t, Visits f is s i t → P t → Triple (· = t) (f i) (fun _ => P) E) :
    Triple (· = s) (total f is) (fun _ => P) E := by
  refine triple_conseq (triple_total (I := fun pre t => (∃ n, total f pre s = (.ok n, t)) ∧ P t) ?_)
    ?_ (fun _ _ ht => ht.2) fun _ ht => ht
  · intro pre i post hsplit
    refine triple_of_each ?_
    rintro t ⟨⟨n, hpre⟩, ht⟩
    refine triple_post (triple_self (h i t ⟨pre, post, n, hsplit, hpre⟩ ht) rfl) ?_
    rintro n' u ⟨hi, hu⟩
    exact ⟨total_snoc hpre hi, hu⟩
  · rintro t rfl
    exact ⟨⟨0, rfl⟩, hs⟩

/-! ### Exact failures -/

/-- Where `P` holds, `m` fails if `C` is false, and if `C` is true it ends where `Q` holds of its value. -/
def Decides (P : σ → Prop) (m : Fallible σ ε α) (C : Prop) (Q : α → σ → Prop) : Prop :=
  Triple P m (fun a s => Q a s ∧ C) fun _ => ¬ C

variable {C C' : Prop}

/-- A computation that does not fail decides nothing. -/
theorem decides_of_ok (h : Triple P m Q fun _ => False) : Decides P m True Q :=
  triple_conseq h (fun _ hs => hs) (fun _ _ hs => ⟨hs, trivial⟩) fun _ hs => hs.elim

theorem decides_pure {a : α} (h : ∀ s, P s → Q a s) : Decides P (pure a : Fallible σ ε α) True Q :=
  decides_of_ok (triple_pure h)

theorem Decides.congr (h : Decides P m C Q) (hC : C ↔ C') : Decides P m C' Q :=
  triple_conseq h (fun _ hs => hs) (fun _ _ hs => ⟨hs.1, hC.mp hs.2⟩) fun _ hs => mt hC.mpr hs

theorem Decides.pre (h : Decides P m C Q) (hP : ∀ s, P' s → P s) : Decides P' m C Q := triple_pre h hP

theorem Decides.post (h : Decides P m C Q) (hQ : C → ∀ a s, Q a s → Q' a s) : Decides P m C Q' :=
  triple_post h fun a s hs => ⟨hQ hs.2 a s hs.1, hs.2⟩

theorem Decides.of_fact {p : Prop} (hp : ∀ s, P s → p) (h : p → Decides P m C Q) : Decides P m C Q :=
  triple_of_fact hp h

/-- A computation whose condition is known to hold does not fail. -/
theorem Decides.triple (h : Decides P m C Q) (hC : C) : Triple P m Q fun _ => False :=
  triple_conseq h (fun _ hs => hs) (fun _ _ hs => hs.1) fun _ hs => hs hC

/-- One after the other. -/
theorem Decides.bind {f : α → Fallible σ ε β} {R : β → σ → Prop} (hm : Decides P m C Q)
    (hf : C → ∀ a, Decides (Q a) (f a) C' R) : Decides P (m >>= f) (C ∧ C') R := by
  refine triple_bind (triple_error hm fun _ hC => fun h => hC h.1) ?_
  intro a
  refine triple_of_fact (fun _ hs => hs.2) ?_
  intro hC
  exact triple_conseq (hf hC a) (fun _ hs => hs.1) (fun _ _ hs => ⟨hs.1, hC, hs.2⟩)
    fun _ hC' => fun h => hC' h.2

/-- What decides how a computation goes on is a part of what decides how it ends. -/
theorem Decides.bind_ok {f : α → Fallible σ ε β} {R : β → σ → Prop} (hm : Triple P m Q fun _ => False)
    (hf : ∀ a, Decides (Q a) (f a) C R) : Decides P (m >>= f) C R :=
  ((decides_of_ok hm).bind fun _ => hf).congr (iff_of_eq (true_and C))

/-- **The loop.**  Each step decides on what is before it. -/
theorem decides_total {f : ι → Fallible σ ε ℕ} {I : List ι → σ → Prop} {D : List ι → ι → Prop}
    {is : List ι}
    (h : ∀ pre i post, is = pre ++ i :: post → Decides (I pre) (f i) (D pre i) fun _ => I (pre ++ [i])) :
    Decides (I []) (total f is) (∀ pre i post, is = pre ++ i :: post → D pre i) fun _ => I is := by
  have key : ∀ post pre, is = pre ++ post → Decides (I pre) (total f post)
      (∀ mid i rest, post = mid ++ i :: rest → D (pre ++ mid) i) fun _ => I is := by
    intro post
    induction post with
    | nil =>
      intro pre hpre
      rw [List.append_nil] at hpre
      refine (decides_pure fun s hs => hpre ▸ hs).congr (iff_of_true trivial ?_)
      intro mid i rest hsplit
      cases mid <;> cases hsplit
    | cons i post ih =>
      intro pre hpre
      refine ((h pre i post hpre).bind (R := fun _ => I is) fun _ n =>
        (ih (pre ++ [i]) (by simpa using hpre)).bind (R := fun _ => I is) fun _ k =>
          decides_pure fun s hs => hs).congr ?_
      constructor
      · rintro ⟨hi, hpost, -⟩ mid j rest hsplit
        rcases mid with _ | ⟨j', mid⟩
        · cases hsplit
          simpa using hi
        · cases hsplit
          simpa using hpost mid j rest rfl
      · intro hall
        refine ⟨by simpa using hall [] i post rfl, ?_, trivial⟩
        intro mid j rest hsplit
        simpa using hall (i :: mid) j rest (by rw [hsplit, List.cons_append])
  simpa using key is [] rfl

end Fallible

end RobotMoney.Lib
