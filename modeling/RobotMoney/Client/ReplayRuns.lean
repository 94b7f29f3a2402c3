import RobotMoney.Client.ReplayJson
import RobotMoney.Client.ReplayLock

/-!
# The replay cache as a map

The runs of any number of lookups and inserts on one directory that starts without the file.  A lookup returns
the transaction of the latest insert with its six inputs that had the lock before it, if there is one
(`lookup_latest`), and wherever the others stand, every operation can be run to its end (`can_end`).
-/

namespace RobotMoney.Client.Replay

open RobotMoney.Lib
open RobotMoney.Gateway (Bytes32)

section Runs

variable {keccak256 : List UInt8 → B256} {sd : SerdeJson} {ops : ℕ → Op} {programs : ℕ → Operation}
  {φ : ℕ → Phase} {s : Disk} {i j : ℕ} {p : Operation}

/-- All processes run. -/
def running (programs : ℕ → Operation) (s : Disk) : Running Io Io.Answer Outcome Disk :=
  ⟨fun i => some (programs i), s⟩

/-- All operations at their start. -/
def started (keccak256 : List UInt8 → B256) (sd : SerdeJson) (ops : ℕ → Op) :
    Running Io Io.Answer Outcome Disk :=
  running (fun i => (ops i).program keccak256 sd) .fresh

theorem running_update (programs : ℕ → Operation) (i : ℕ) (p : Operation) (s s' : Disk) :
    (⟨Function.update (running programs s).programs i (some p), s'⟩ : Running Io Io.Answer Outcome Disk) =
      running (Function.update programs i p) s' :=
  congrArg (Running.mk · s') (Function.comp_update some programs i p).symm

/-! ### Every state -/

theorem inv_started (hsd : sd.RoundTrips) :
    Inv keccak256 sd ops (fun i => (ops i).program keccak256 sd) (fun _ => .outside) .fresh where
  follows i := program_follows (ops i)
  stage i := ⟨List.not_mem_nil, fun _ _ _ hholds => op_exec hsd (ops i) hholds⟩
  locks _ := rfl
  alone _ _ := by rintro ⟨⟩
  last _ := by rintro ⟨⟩
  file _ := holds_none

/-- The invariant holds in every state that is reached. -/
theorem reachable_inv (hsd : sd.RoundTrips) {r : Running Io Io.Answer Outcome Disk}
    (h : disk.Interleaves (started keccak256 sd ops) r) :
    ∃ programs φ, r = running programs r.shared ∧ Inv keccak256 sd ops programs φ r.shared := by
  induction h with
  | start => exact ⟨_, _, rfl, inv_started hsd⟩
  | work _ _ hworks => exact hworks.elim
  | answer _ hask hanswers ih =>
    obtain ⟨programs, φ, hr, hinv⟩ := ih
    obtain ⟨hgrants, rfl, rfl⟩ := hanswers
    rw [hr] at hask
    refine ⟨_, _, ?_, hinv.step (Option.some.inj hask) hgrants⟩
    rw [hr]
    exact running_update _ _ _ _ _

/-! ### Every operation can end -/

/-- It has the lock, or is done with it. -/
def Phase.Inside : Phase → Prop
  | .outside | .opened => False
  | .reader | .writer | .ended => True

/-- A process that has the lock is granted every call, and the others are when nobody else has it. -/
theorem Inv.grants {q : Io} {k : q.Answer → Operation} (h : Inv keccak256 sd ops programs φ s)
    (hask : programs i = .ask q k) (hi : (φ i).Inside ∨ ∀ j, j ≠ i → s.locks j = .none) : s.Grants q := by
  have hfollows := h.follows i
  rw [hask] at hfollows
  have hallows := hfollows.1
  have hlock : q = .lockShared ∨ q = .lockExclusive → ∀ j, s.locks j = .none := by
    intro hq
    have hopened : φ i = .opened := by
      cases hph : φ i with
      | opened => rfl
      | _ =>
        rw [hph] at hallows
        rcases hq with rfl | rfl <;> exact hallows.elim
    rw [hopened] at hi
    intro j
    by_cases hj : j = i
    · rw [hj, h.locks i, hopened]
      rfl
    · exact hi.resolve_left id j hj
  cases q with
  | lockShared =>
    intro j
    rw [hlock (.inl rfl) j]
    simp
  | lockExclusive => exact hlock (.inr rfl)
  | _ => trivial

theorem Phase.Inside.next {ph : Phase} {q : Io} {a : q.Answer} (h : ph.Inside)
    (hallows : lockDiscipline.allows ph q) : Phase.Inside (lockDiscipline.next ph q a) := by
  cases ph with
  | outside => exact h.elim
  | opened => exact h.elim
  | ended => exact hallows.elim
  | reader =>
    cases q with
    | readToString => trivial
    | unlock => trivial
    | _ => exact hallows.elim
  | writer =>
    cases q with
    | readToString | setLen _ | seek _ | writeAll _ | flush | unlock => trivial
    | _ => exact hallows.elim

/-- A process takes its place in the order once. -/
theorem Inv.order_step {q : Io} {k : q.Answer → Operation} (h : Inv keccak256 sd ops programs φ s)
    (hask : programs i = .ask q k) :
    (s.after i q).order = s.order ∨ i ∉ s.order ∧ (s.after i q).order = s.order ++ [i] := by
  by_cases henters : s.Enters q
  · refine .inr ⟨?_, if_pos henters⟩
    have hallows := h.follows i
    rw [hask] at hallows
    have hstage := h.stage i
    cases hph : φ i with
    | outside =>
      rw [hph] at hstage
      exact hstage.1
    | opened =>
      rw [hph] at hstage
      exact hstage.1
    | _ =>
      rw [hph] at hallows
      cases q with
      | pathExists | openFile _ | lockShared | lockExclusive => exact hallows.1.elim
      | _ => exact henters.elim
  · exact .inl (after_order henters)

/-- What is reached when one process goes on until it has returned. -/
theorem Inv.runs_on (h : Inv keccak256 sd ops programs φ s)
    (hi : (φ i).Inside ∨ ∀ j, j ≠ i → s.locks j = .none) :
    ∃ e s', disk.Interleaves (running programs s) (running (Function.update programs i (.done e)) s') ∧
      Inv keccak256 sd ops (Function.update programs i (.done e)) (Function.update φ i .ended) s' ∧
      s'.order = if i ∈ s.order then s.order else s.order ++ [i] := by
  induction hp : programs i generalizing programs φ s with
  | done e =>
    have hended := h.follows i
    rw [hp] at hended
    have hph : φ i = .ended := hended
    have hstage := h.stage i
    rw [hph] at hstage
    refine ⟨e, s, ?_, ?_, (if_pos hstage.1).symm⟩
    · rw [← hp, Function.update_eq_self]
      exact .start
    · rw [← hp, ← hph, Function.update_eq_self, Function.update_eq_self]
      exact h
  | ask q k ih =>
    have hgrants := h.grants hp hi
    have hallows := (h.next_follows hp (call q (s.handle i)).1).1
    obtain ⟨ph, hstep, hin⟩ : ∃ ph : Phase,
        Inv keccak256 sd ops (Function.update programs i (k (call q (s.handle i)).1)) (Function.update φ i ph)
          (s.after i q) ∧ ((φ i).Inside → ph.Inside) :=
      ⟨_, h.step hp hgrants, fun hin => hin.next hallows⟩
    have hi' : (Function.update φ i ph i).Inside ∨ ∀ j, j ≠ i → (s.after i q).locks j = .none := by
      rw [Function.update_self]
      refine hi.imp hin ?_
      intro hothers j hj
      exact (Function.update_of_ne hj _ _).trans (hothers j hj)
    obtain ⟨e, s', hruns, hinv, horder⟩ := ih _ hstep hi' (Function.update_self ..)
    rw [Function.update_idem] at hruns
    rw [Function.update_idem, Function.update_idem] at hinv
    refine ⟨e, s', .trans ?_ hruns, hinv, ?_⟩
    · rw [← running_update programs i _ s]
      exact World.Interleaves.start.answer (congrArg some hp) ⟨hgrants, rfl, rfl⟩
    · rw [horder]
      rcases h.order_step hp with ho | ⟨hmem, ho⟩
      · rw [ho]
      · rw [ho, if_pos (by simp), if_neg hmem]

/-- The processes of a list, if they have the lock, can give it back. -/
theorem Inv.drains (h : Inv keccak256 sd ops programs φ s) (l : List ℕ) :
    ∃ programs' φ' s', disk.Interleaves (running programs s) (running programs' s') ∧
      Inv keccak256 sd ops programs' φ' s' ∧ (∀ j ∈ l, s'.locks j = .none) ∧
      ∀ j, s.locks j = .none → s'.locks j = .none := by
  induction l with
  | nil => exact ⟨programs, φ, s, .start, h, fun j hj => by simp at hj, fun _ hj => hj⟩
  | cons a l ih =>
    obtain ⟨programs', φ', s', hruns, hinv, hl, hkeep⟩ := ih
    by_cases hfree : s'.locks a = .none
    · refine ⟨programs', φ', s', hruns, hinv, ?_, hkeep⟩
      intro j hj
      rcases List.mem_cons.mp hj with rfl | hj
      · exact hfree
      · exact hl j hj
    · have hin : (φ' a).Inside := by
        have hlock := hinv.locks a
        cases hph : φ' a with
        | outside | opened =>
          rw [hph] at hlock
          exact absurd hlock hfree
        | _ => trivial
      obtain ⟨e, s'', hruns', hinv', -⟩ := hinv.runs_on (.inl hin)
      have hlocks : ∀ j, s''.locks j = if j = a then .none else s'.locks j := by
        intro j
        rw [hinv'.locks j]
        by_cases hj : j = a
        · subst hj
          rw [Function.update_self, if_pos rfl]
          rfl
        · rw [Function.update_of_ne hj, if_neg hj, hinv.locks j]
      refine ⟨_, _, s'', hruns.trans hruns', hinv', ?_, ?_⟩
      · intro j hj
        rw [hlocks]
        rcases List.mem_cons.mp hj with rfl | hj
        · rw [if_pos rfl]
        · split
          · rfl
          · exact hl j hj
      · intro j hj
        rw [hlocks]
        split
        · rfl
        · exact hkeep j hj

/-- **No operation waits for ever**: those that have the lock can give it back, and then it runs to its end. -/
theorem Inv.can_end (h : Inv keccak256 sd ops programs φ s) (i : ℕ) :
    ∃ programs' s' e, disk.Interleaves (running programs s) (running programs' s') ∧
      programs' i = .done e := by
  obtain ⟨programs', φ', s', hruns, hinv, hl, hkeep⟩ := h.drains s.order
  have hfree : ∀ j, s'.locks j = .none := by
    intro j
    by_cases hj : j ∈ s.order
    · exact hl j hj
    · refine hkeep j ?_
      have hstage := h.stage j
      rw [h.locks j]
      cases hph : φ j with
      | reader | writer =>
        rw [hph] at hstage
        exact absurd hstage.1 hj
      | _ => rfl
  obtain ⟨e, s'', hruns', -, -⟩ := hinv.runs_on (i := i) (.inr fun j _ => hfree j)
  exact ⟨_, s'', e, hruns.trans hruns', Function.update_self ..⟩

/-- Operations run one after the other. -/
theorem Inv.runs_all (h : Inv keccak256 sd ops programs φ s) (hfree : ∀ j, s.locks j = .none) {l : List ℕ}
    (hl : (s.order ++ l).Nodup) :
    ∃ programs' s', disk.Interleaves (running programs s) (running programs' s') ∧ s'.order = s.order ++ l ∧
      (∀ j, programs j ≠ programs' j → j ∈ l) ∧ ∀ j ∈ l, ∃ e, programs' j = .done e := by
  induction l generalizing programs φ s with
  | nil => exact ⟨programs, s, .start, by simp, fun j hj => absurd rfl hj, fun j hj => by simp at hj⟩
  | cons i l ih =>
    obtain ⟨e, s', hruns, hinv, horder⟩ := h.runs_on (i := i) (.inr fun j _ => hfree j)
    have hi : i ∉ s.order := by
      intro hmem
      exact (List.nodup_append.mp hl).2.2 i hmem i (by simp) rfl
    rw [if_neg hi] at horder
    have hfree' : ∀ j, s'.locks j = .none := by
      intro j
      rw [hinv.locks j]
      by_cases hj : j = i
      · rw [hj, Function.update_self]
        rfl
      · rw [Function.update_of_ne hj, ← h.locks j]
        exact hfree j
    have hl' : (s'.order ++ l).Nodup := by
      rw [horder, List.append_assoc]
      exact hl
    obtain ⟨programs', s'', hruns', horder', hothers, hdone⟩ := ih hinv hfree' hl'
    refine ⟨programs', s'', hruns.trans hruns', ?_, ?_, ?_⟩
    · rw [horder', horder, List.append_assoc]
      rfl
    · intro j hj
      by_cases hji : j = i
      · rw [hji]
        exact List.mem_cons_self
      · refine List.mem_cons_of_mem _ (hothers j ?_)
        rwa [Function.update_of_ne hji]
    · intro j hj
      by_cases hjl : j ∈ l
      · exact hdone j hjl
      · have hji : j = i := (List.mem_cons.mp hj).resolve_right hjl
        by_contra hne
        refine hjl (hothers j ?_)
        rw [hji, Function.update_self]
        intro heq
        exact hne ⟨e, by rw [hji, ← heq]⟩

/-! ### The latest insert -/

/-- Different payments of these operations have different ids. -/
def NoCollision (keccak256 : List UInt8 → B256) (ops : ℕ → Op) : Prop :=
  ∀ i j, keccak256 (ops i).payment.abiEncodeSequence = keccak256 (ops j).payment.abiEncodeSequence →
    (ops i).payment.abiEncodeSequence = (ops j).payment.abiEncodeSequence

/-- The latest insert of a payment, whatever its deadline. -/
def latestInsert (p : Payment) (log : List PaymentIdInputs) : Option PaymentIdInputs :=
  latest PaymentIdInputs.toPayment p log

theorem NoCollision.key_eq_iff (h : NoCollision keccak256 ops) :
    key keccak256 (ops i).payment = key keccak256 (ops j).payment ↔ (ops i).payment = (ops j).payment := by
  refine ⟨?_, fun heq => by rw [heq]⟩
  intro heq
  exact abiEncodeSequence_injective (h i j (hex_injective heq))

theorem mem_insertsOf {x : PaymentIdInputs} {order : List ℕ} (h : x ∈ insertsOf ops order) :
    ∃ i, ops i = .insert x := by
  obtain ⟨i, -, hi⟩ := List.mem_flatMap.mp h
  refine ⟨i, ?_⟩
  cases hop : ops i with
  | lookup p =>
    rw [hop] at hi
    cases hi
  | insert y =>
    rw [hop] at hi
    rw [List.mem_singleton.mp hi]

/-- Where no ids collide, the last insert with the id is the latest of the payment. -/
theorem NoCollision.lastWith_eq (h : NoCollision keccak256 ops) {p : Payment} (hi : ops i = .lookup p)
    (order : List ℕ) :
    Op.lastWith keccak256 (key keccak256 p) (insertsOf ops order) = latestInsert p (insertsOf ops order) := by
  refine latest_congr ?_
  intro x hx
  obtain ⟨j, hj⟩ := mem_insertsOf hx
  have hiff := h.key_eq_iff (i := j) (j := i)
  rw [hi, hj] at hiff
  exact hiff

/-- An operation that has returned is after those that had the lock before it. -/
theorem reachable_done (hsd : sd.RoundTrips) {r : Running Io Io.Answer Outcome Disk}
    (h : disk.Interleaves (started keccak256 sd ops) r) {e : Outcome} (he : r.programs i = some (.done e)) :
    e = (ops i).outcome keccak256 (insertsOf ops (before i r.shared.order)) := by
  obtain ⟨programs, φ, hr, hinv⟩ := reachable_inv hsd h
  rw [hr] at he
  have hdone : programs i = .done e := Option.some.inj he
  have hstage := hinv.stage i
  have hended := hinv.follows i
  rw [hdone] at hstage hended
  have hph : φ i = .ended := hended
  rw [hph] at hstage
  exact Program.done.inj hstage.2

/-- **The last write wins.**  In every state of every run: a lookup that has returned has the transaction of the
latest insert with its six inputs, whatever the deadlines, of those that had the lock before it, or nothing if
there is none; an insert that has returned was successful; and every operation can return.  The keys are the
payment ids of the gateway. -/
theorem lookup_latest (hsd : sd.RoundTrips) (hcollision : NoCollision keccak256 ops)
    {r : Running Io Io.Answer Outcome Disk} (h : disk.Interleaves (started keccak256 sd ops) r) :
    (∀ i p e, ops i = .lookup p → r.programs i = some (.done e) →
      e = .found ((latestInsert p (insertsOf ops (before i r.shared.order))).map PaymentIdInputs.txHash)) ∧
    (∀ i x e, ops i = .insert x → r.programs i = some (.done e) → e = .inserted) ∧
    (∀ i, ∃ r' e, disk.Interleaves r r' ∧ r'.programs i = some (.done e)) ∧
    ∀ (V : Type) (env : Gateway.Env V) (agent : Address) (orderId idempotencyKey : Bytes32) (amount : ℕ),
      env.chainid < 2 ^ 64 → amount < 2 ^ 256 →
        key keccak256 (paymentOf keccak256 env agent orderId amount idempotencyKey) =
          hex (valueOf keccak256 (Gateway.State.paymentId env agent orderId amount idempotencyKey)) := by
  refine ⟨?_, ?_, ?_, ?_⟩
  · intro i p e hop he
    have hout := reachable_done hsd h he
    rw [hop] at hout
    rw [hout, ← hcollision.lastWith_eq hop]
    rfl
  · intro i x e hop he
    have hout := reachable_done hsd h he
    rwa [hop] at hout
  · intro i
    obtain ⟨programs, φ, hr, hinv⟩ := reachable_inv hsd h
    obtain ⟨programs', s', e, hruns, hdone⟩ := hinv.can_end i
    refine ⟨running programs' s', e, ?_, congrArg some hdone⟩
    rw [hr]
    exact hruns
  · intro V env agent orderId idempotencyKey amount hchain hamount
    exact congrArg hex (computePaymentId_eq hchain hamount)

end Runs

/-- A payment is inserted twice, with two deadlines; then it is looked up, and so is one of another amount. -/
def mockOps : ℕ → Op
  | 0 => .insert ⟨mockPayment 1000000, 1, "0xfirst"⟩
  | 1 => .insert ⟨mockPayment 1000000, 2, "0xsecond"⟩
  | 2 => .lookup (mockPayment 1000000)
  | _ => .lookup (mockPayment 999999)

theorem mockOps_noCollision : NoCollision mockKeccak256 mockOps := by
  have hpayment : ∀ i, (mockOps i).payment = mockPayment 1000000 ∨ (mockOps i).payment = mockPayment 999999 := by
    rintro (_ | _ | _ | i)
    · exact .inl rfl
    · exact .inl rfl
    · exact .inl rfl
    · exact .inr rfl
  intro i j h
  rcases hpayment i with hi | hi <;> rcases hpayment j with hj | hj <;> rw [hi, hj] at h ⊢
  · exact absurd h.symm mockKeccak256_ne
  · exact absurd h mockKeccak256_ne

/-- They run one after the other. -/
theorem mockOps_run : ∃ programs s, disk.Interleaves (started mockKeccak256 jsonSerde mockOps)
    (running programs s) ∧ s.order = [0, 1, 2, 3] ∧ ∀ j ∈ [0, 1, 2, 3], ∃ e, programs j = .done e := by
  have hstart : Inv mockKeccak256 jsonSerde mockOps (fun i => (mockOps i).program mockKeccak256 jsonSerde)
      (fun _ => .outside) .fresh := inv_started jsonSerde_roundTrips
  obtain ⟨programs, s, hruns, horder, -, hdone⟩ := hstart.runs_all (l := [0, 1, 2, 3]) (fun _ => rfl) (by decide)
  exact ⟨programs, s, hruns, horder, hdone⟩

/-- The second hash is found, and nothing for the other payment. -/
theorem lookup_latest_mock : ∃ r, disk.Interleaves (started mockKeccak256 jsonSerde mockOps) r ∧
    r.programs 2 = some (.done (.found (some "0xsecond"))) ∧ r.programs 3 = some (.done (.found none)) := by
  obtain ⟨programs, s, hruns, horder, hdone⟩ := mockOps_run
  obtain ⟨e₂, he₂⟩ := hdone 2 (by simp)
  obtain ⟨e₃, he₃⟩ := hdone 3 (by simp)
  have hlatest := (lookup_latest jsonSerde_roundTrips mockOps_noCollision hruns).1
  have h₂ := hlatest 2 _ e₂ rfl (congrArg some he₂)
  have h₃ := hlatest 3 _ e₃ rfl (congrArg some he₃)
  have horder' : (running programs s).shared.order = [0, 1, 2, 3] := horder
  rw [horder'] at h₂ h₃
  have hlast : latestInsert (mockPayment 1000000) (insertsOf mockOps (before 2 [0, 1, 2, 3])) =
      some ⟨mockPayment 1000000, 2, "0xsecond"⟩ := by decide
  have hnone : latestInsert (mockPayment 999999) (insertsOf mockOps (before 3 [0, 1, 2, 3])) = none := by decide
  rw [hlast] at h₂
  rw [hnone] at h₃
  refine ⟨_, hruns, ?_, ?_⟩
  · show some (programs 2) = _
    rw [he₂, h₂]
    rfl
  · show some (programs 3) = _
    rw [he₃, h₃]
    rfl

end RobotMoney.Client.Replay
