import RobotMoney.Gateway.Logs
import RobotMoney.Lib.Latest

/-!
# The policy that stands

Four entry points put a policy on the record of an agent or take it away, and each of them announces it, by
`AgentAuthorized` or by `AgentRevoked`; nothing else does either (`exec_agents`, `exec_policing`).  So the
record of an address is what the last successful one of these calls for it said (`run_agents`), and the events
of a run say the same (`policingIn_eq`).
-/

namespace RobotMoney.Gateway

open RobotMoney.Lib State

variable {V : Type} {env : Env V} {s s' s₀ : State V} {r : Receipt} {tx : Tx (GatewayCall V)} {a : Address}

/-- What a call says of the record of an agent: its policy, or `none` where it is taken away. -/
def State.GatewayCall.assignment : GatewayCall V → Option (Address × Option AgentPolicy)
  | .revealAuthorization agent _ p => some (agent, some p)
  | .authorizeAgent agent p => some (agent, some p)
  | .setPolicy agent p => some (agent, some p)
  | .revokeAgent agent => some (agent, none)
  | _ => none

/-- The records after an assignment. -/
def assigned (agents : Address → AgentPolicy) : Option (Address × Option AgentPolicy) → Address → AgentPolicy
  | some (agent, p) => Function.update agents agent (p.getD AgentPolicy.none)
  | none => agents

/-- A payment assigns nothing. -/
theorem assignment_of_payment {pay : Payment} (h : tx.call.payment = some pay) : tx.call.assignment = none := by
  obtain ⟨b, sender, call, hsender⟩ := tx
  cases call with
  | deposit | depositTo | withdraw => rfl
  | _ => cases h

theorem exec_agents (hx : exec env s tx = .ok (s', r)) :
    s'.agents = assigned s.agents tx.call.assignment := by
  cases exec_effect hx with
  | committed hc | authorized hc | revealed hc | policySet hc | revoked hc | elsewhere hc =>
    rw [hc]
    rfl
  | paused hc =>
    rcases hc with hc | hc <;> rw [hc] <;> rfl
  | paid hc hp =>
    rw [assignment_of_payment hc]
    exact hp.agents_eq
  | roles hc =>
    rcases hc with ⟨_, _, hc⟩ | ⟨_, _, hc⟩ | ⟨_, _, hc⟩ <;> rw [hc] <;> rfl

/-- A policy that is put on record is valid. -/
theorem exec_assigns_valid (hx : exec env s tx = .ok (s', r)) {agent : Address} {p : AgentPolicy}
    (h : tx.call.assignment = some (agent, some p)) : ValidPolicy p := by
  cases exec_effect hx with
  | authorized hc ha | revealed hc _ ha =>
    rw [hc] at h
    cases h
    exact validatePolicy_valid ha.valid
  | policySet hc ho hv =>
    rw [hc] at h
    cases h
    exact validatePolicy_valid hv
  | committed hc | revoked hc | elsewhere hc =>
    rw [hc] at h
    cases h
  | paused hc =>
    rcases hc with hc | hc <;> rw [hc] at h <;> cases h
  | paid hc hp =>
    rw [assignment_of_payment hc] at h
    cases h
  | roles hc =>
    rcases hc with ⟨_, _, hc⟩ | ⟨_, _, hc⟩ | ⟨_, _, hc⟩ <;> rw [hc] at h <;> cases h

/-! ### Announcements -/

/-- What an event says of a policy: whose it is, the owner, and the numbers and the address that are announced,
or `none` for a revocation. -/
def policing : GatewayEvent → Option (Address × Address × Option (ℕ × ℕ × ℕ × Address))
  | .agentAuthorized agent owner validUntil maxPerPayment maxPerWindow shareReceiver =>
    some (agent, owner, some (validUntil, maxPerPayment, maxPerWindow, shareReceiver))
  | .agentRevoked agent owner => some (agent, owner, none)
  | _ => none

/-- What is announced of a policy. -/
def AgentPolicy.announced (p : AgentPolicy) : ℕ × ℕ × ℕ × Address :=
  (p.validUntil, p.maxPerPayment, p.maxPerWindow, p.shareReceiver)

/-- The announcement of an assignment. -/
def announcement (sender : Address) (x : Address × Option AgentPolicy) :
    Address × Address × Option (ℕ × ℕ × ℕ × Address) :=
  (x.1, sender, x.2.map AgentPolicy.announced)

/-- **What a call announces** is what it does. -/
theorem exec_policing (hx : exec env s tx = .ok (s', r)) :
    r.events.filterMap policing = (tx.call.assignment.map (announcement tx.sender)).toList := by
  cases hpay : tx.call.payment with
  | none =>
    rw [exec_plainEvents hpay hx]
    obtain ⟨b, sender, call, hsender⟩ := tx
    cases call <;> rfl
  | some pay =>
    rw [assignment_of_payment hpay]
    obtain ⟨e, he, hpaid⟩ := exec_paidEvent hpay hx
    rw [he]
    cases hpaid <;> rfl

/-! ### Runs -/

/-- The assignments of a run, with their senders. -/
def assignmentsIn (log : Log V) : List (Address × Address × Option AgentPolicy) :=
  log.filterMap fun x => x.1.call.assignment.map fun y => (x.1.sender, y)

theorem assignmentsIn_snoc {log : Log V} :
    assignmentsIn (log ++ [(tx, r)]) =
      assignmentsIn log ++ (tx.call.assignment.map fun y => (tx.sender, y)).toList := by
  unfold assignmentsIn
  rw [List.filterMap_append]
  cases hcall : tx.call.assignment <;> simp [hcall]

/-- The announcements of a run are those of its assignments, in their order. -/
theorem policingIn_eq (txs : List (Tx (GatewayCall V))) :
    ((history (exec env) s₀ txs).flatMap fun x => x.2.events).filterMap policing =
      (assignmentsIn (history (exec env) s₀ txs)).map fun x => announcement x.1 x.2 := by
  refine run_invariant (P := fun (_ : State V) log =>
    (log.flatMap fun x => x.2.events).filterMap policing =
      (assignmentsIn log).map fun x => announcement x.1 x.2) rfl ?_
  rintro pre tx post s' r - ih hx
  rw [List.flatMap_append, List.filterMap_append, ih, List.flatMap_singleton, exec_policing hx,
    assignmentsIn_snoc, List.map_append]
  cases tx.call.assignment <;> rfl

/-- The last assignment of an address. -/
def lastAssignment (a : Address) (log : Log V) : Option (Address × Address × Option AgentPolicy) :=
  latest (fun x => x.2.1) a (assignmentsIn log)

/-- The policy that stands for an address: that of its last assignment. -/
def standing (a : Address) (log : Log V) : Option AgentPolicy := (lastAssignment a log).bind fun x => x.2.2

/-- Every policy of a run is valid. -/
theorem run_assigns_valid (txs : List (Tx (GatewayCall V))) :
    ∀ x ∈ assignmentsIn (history (exec env) s₀ txs), ∀ p, x.2.2 = some p → ValidPolicy p := by
  refine run_invariant (P := fun (_ : State V) log =>
    ∀ x ∈ assignmentsIn log, ∀ p, x.2.2 = some p → ValidPolicy p) (fun x hx => by cases hx) ?_
  rintro pre tx post s' r - ih hx x hmem p hp
  rw [assignmentsIn_snoc] at hmem
  rcases List.mem_append.mp hmem with hmem | hmem
  · exact ih x hmem p hp
  · obtain ⟨⟨agent, p'⟩, hcall, rfl⟩ := Option.map_eq_some_iff.mp (Option.mem_toList.mp hmem)
    cases hp
    exact exec_assigns_valid hx hcall

theorem standing_valid {txs : List (Tx (GatewayCall V))} {p : AgentPolicy}
    (h : standing a (history (exec env) s₀ txs) = some p) : ValidPolicy p := by
  obtain ⟨x, hx, hp⟩ := Option.bind_eq_some_iff.mp h
  exact run_assigns_valid txs x (latest_mem hx).1 p hp

/-- **The record of an address** is the policy that stands for it, and blank if there is none. -/
theorem run_agents (h₀ : s₀.agents = fun _ => AgentPolicy.none) (txs : List (Tx (GatewayCall V))) (a : Address) :
    (run (exec env) s₀ txs).agents a = (standing a (history (exec env) s₀ txs)).getD AgentPolicy.none := by
  refine run_invariant (P := fun (s : State V) log => s.agents a = (standing a log).getD AgentPolicy.none) ?_ ?_
  · rw [h₀]
    rfl
  · rintro pre tx post s' r - ih hx
    rw [exec_agents hx]
    unfold standing lastAssignment at ih ⊢
    rw [assignmentsIn_snoc]
    cases hcall : tx.call.assignment with
    | none =>
      rw [Option.map_none, Option.toList_none, List.append_nil]
      exact ih
    | some y =>
      obtain ⟨agent, p⟩ := y
      rw [Option.map_some, Option.toList_some]
      by_cases ha : agent = a
      · subst ha
        have hself : latest (fun x : Address × Address × Option AgentPolicy => x.2.1) agent
            (assignmentsIn (history (exec env) s₀ pre) ++ [(tx.sender, agent, p)]) =
              some (tx.sender, agent, p) := latest_snoc_of_eq rfl
        rw [hself]
        exact Function.update_self ..
      · rw [latest_snoc_of_ne ha, ← ih]
        exact Function.update_of_ne (Ne.symm ha) _ _

/-- The record of an address is active exactly if a policy stands for it. -/
theorem run_active_iff (h₀ : s₀.agents = fun _ => AgentPolicy.none) {txs : List (Tx (GatewayCall V))} :
    ((run (exec env) s₀ txs).agents a).active = true ↔ standing a (history (exec env) s₀ txs) ≠ none := by
  rw [run_agents h₀]
  cases hstands : standing a (history (exec env) s₀ txs) with
  | none => exact iff_of_false Bool.false_ne_true fun h => h rfl
  | some p => exact iff_of_true (standing_valid hstands).active (Option.some_ne_none p)

/-- What ever had a policy has an assignment. -/
theorem lastAssignment_ne_none (h₀ : s₀.agents = fun _ => AgentPolicy.none) {txs : List (Tx (GatewayCall V))}
    (h : ∃ pre, pre <+: txs ∧ ((run (exec env) s₀ pre).agents a).active = true) :
    lastAssignment a (history (exec env) s₀ txs) ≠ none := by
  obtain ⟨pre, ⟨post, rfl⟩, hactive⟩ := h
  have hstands := (run_active_iff h₀).mp hactive
  rw [history_append]
  unfold lastAssignment assignmentsIn
  rw [List.filterMap_append]
  refine latest_append_ne_none fun hnone => hstands ?_
  unfold standing lastAssignment assignmentsIn
  rw [hnone]
  rfl

end RobotMoney.Gateway
