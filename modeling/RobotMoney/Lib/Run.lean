import RobotMoney.Lib.Revert

/-!
# Runs of a contract

A contract is a function `exec` from a state and a call to a new state and a receipt, or a revert.  A
*run* feeds it a list of calls; a call that reverts leaves the state as it was.  The *history* of a run
is the list of the calls that succeeded, with their receipts, in order.

`run_invariant` is the one induction about runs: a property of the state and the history that holds at
the start and is kept by every successful call holds at the end, and so at every point, of every run.
-/

namespace RobotMoney.Lib

variable {σ ι ρ ε : Type} (exec : σ → ι → Call ε (σ × ρ))

/-- The state after one call: the new state, or the old one when the call reverts. -/
def next (s : σ) (i : ι) : σ :=
  match exec s i with
  | .ok (s', _) => s'
  | .error _ => s

/-- The state after a list of calls. -/
def run (s : σ) : List ι → σ
  | [] => s
  | i :: is => run (next exec s i) is

/-- The calls of a list that succeed, with their receipts. -/
def history (s : σ) : List ι → List (ι × ρ)
  | [] => []
  | i :: is =>
    match exec s i with
    | .ok (s', r) => (i, r) :: history s' is
    | .error _ => history s is

variable {exec} {s s' s₀ : σ} {i : ι} {r : ρ} {e : Revert ε} {is js : List ι}

theorem next_of_ok (h : exec s i = .ok (s', r)) : next exec s i = s' := by
  simp [next, h]

theorem next_of_error (h : exec s i = .error e) : next exec s i = s := by
  simp [next, h]

theorem run_append : run exec s (is ++ js) = run exec (run exec s is) js := by
  induction is generalizing s with
  | nil => rfl
  | cons i is ih => exact ih

theorem history_append :
    history exec s (is ++ js) = history exec s is ++ history exec (run exec s is) js := by
  induction is generalizing s with
  | nil => rfl
  | cons i is ih =>
    rcases hx : exec s i with e | ⟨s', r⟩
    · simpa [history, run, hx, next_of_error hx] using ih
    · simpa [history, run, hx, next_of_ok hx] using ih

theorem run_snoc_of_ok (h : exec (run exec s is) i = .ok (s', r)) :
    run exec s (is ++ [i]) = s' := by
  rw [run_append]
  exact next_of_ok h

theorem run_snoc_of_error (h : exec (run exec s is) i = .error e) :
    run exec s (is ++ [i]) = run exec s is := by
  rw [run_append]
  exact next_of_error h

theorem history_snoc_of_ok (h : exec (run exec s is) i = .ok (s', r)) :
    history exec s (is ++ [i]) = history exec s is ++ [(i, r)] := by
  rw [history_append]
  simp [history, h]

theorem history_snoc_of_error (h : exec (run exec s is) i = .error e) :
    history exec s (is ++ [i]) = history exec s is := by
  rw [history_append]
  simp [history, h]

/-- **The invariant rule.**  A property of state and history that holds at the start and is kept by
every successful call of the run holds at its end. -/
theorem run_invariant {P : σ → List (ι × ρ) → Prop} (h₀ : P s₀ [])
    (hstep : ∀ pre i post s' r, is = pre ++ i :: post → P (run exec s₀ pre) (history exec s₀ pre) →
      exec (run exec s₀ pre) i = .ok (s', r) → P s' (history exec s₀ pre ++ [(i, r)])) :
    P (run exec s₀ is) (history exec s₀ is) := by
  have key : ∀ pre post, is = pre ++ post → P (run exec s₀ pre) (history exec s₀ pre) := by
    intro pre
    induction pre using List.reverseRecOn with
    | nil =>
      intro post _
      exact h₀
    | append_singleton pre i ih =>
      intro post hpost
      have hsplit : is = pre ++ i :: post := by simpa using hpost
      have hpre := ih (i :: post) hsplit
      rcases hx : exec (run exec s₀ pre) i with e | ⟨s', r⟩
      · rw [run_snoc_of_error hx, history_snoc_of_error hx]
        exact hpre
      · rw [run_snoc_of_ok hx, history_snoc_of_ok hx]
        exact hstep pre i post s' r hsplit hpre hx
  exact key is [] (by simp)

/-! ### The steps of a list

A condition on the steps of a run is a condition `P pre i` on every call `i` of the list and the calls
`pre` before it. -/

theorem forall_step_nil {P : List ι → ι → Prop} :
    ∀ pre i post, ([] : List ι) = pre ++ i :: post → P pre i := by
  intro pre i post h
  cases pre <;> cases h

theorem forall_step_cons {P : List ι → ι → Prop} (h₀ : P [] i)
    (h : ∀ pre j post, is = pre ++ j :: post → P (i :: pre) j) :
    ∀ pre j post, i :: is = pre ++ j :: post → P pre j := by
  intro pre j post hsplit
  cases pre with
  | nil =>
    obtain ⟨rfl, -⟩ := List.cons.inj hsplit
    exact h₀
  | cons i' pre =>
    obtain ⟨rfl, hrest⟩ := List.cons.inj hsplit
    exact h pre j post hrest

/-- Each call of the history succeeded in the state that the calls before it led to. -/
theorem history_eq_append {pre post : List (ι × ρ)} {x : ι × ρ}
    (h : history exec s is = pre ++ x :: post) :
    ∃ is₁ is₂ s', is = is₁ ++ x.1 :: is₂ ∧ history exec s is₁ = pre ∧
      exec (run exec s is₁) x.1 = .ok (s', x.2) := by
  induction is generalizing s pre with
  | nil =>
    have hlen := congrArg List.length h
    simp [history] at hlen
  | cons i is ih =>
    rcases hx : exec s i with e | ⟨s', r⟩
    · simp only [history, hx] at h
      obtain ⟨is₁, is₂, s₁, hsplit, hpre, hok⟩ := ih h
      refine ⟨i :: is₁, is₂, s₁, ?_, ?_, ?_⟩
      · rw [hsplit, List.cons_append]
      · simpa [history, hx] using hpre
      · rw [run, next_of_error hx]
        exact hok
    · simp only [history, hx] at h
      cases pre with
      | nil =>
        obtain ⟨rfl, -⟩ := List.cons.inj h
        exact ⟨[], is, s', rfl, rfl, hx⟩
      | cons y pre =>
        obtain ⟨rfl, htail⟩ := List.cons.inj h
        obtain ⟨is₁, is₂, s₁, hsplit, hpre, hok⟩ := ih htail
        refine ⟨i :: is₁, is₂, s₁, ?_, ?_, ?_⟩
        · rw [hsplit, List.cons_append]
        · simpa [history, hx] using hpre
        · rw [run, next_of_ok hx]
          exact hok

/-- The calls of the history are calls of the run, in its order. -/
theorem history_sublist : ((history exec s is).map Prod.fst).Sublist is := by
  induction is generalizing s with
  | nil => simp [history]
  | cons i is ih =>
    unfold history
    split
    · simpa using ih
    · exact ih.trans (List.sublist_cons_self i is)

end RobotMoney.Lib
