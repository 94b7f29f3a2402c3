import RobotMoney.Gateway.Payments

/-!
# The depositor's authority

Who may spend, and how much, is told here from the calls that succeeded alone: the *mandate* of an
agent is the depositor who authorized it and has not revoked it since, with the policy this depositor
set last.  The gateway keeps a role bit, an owner record and a policy record, which different callers
change; `Agrees` ties the last two to the mandate, and every payment is within it.
-/

namespace RobotMoney.Gateway

open RobotMoney.Lib State

variable {V : Type} {env : Env V} {s s' : State V} {r : Receipt} {tx : Tx (GatewayCall V)}

/-! ### The mandate -/

/-- The mandate of agent `a` after one more call.  Only the depositor of a mandate changes it. -/
def mandateAfter (a : Address) (m : Option (Address × AgentPolicy)) (tx : Tx (GatewayCall V)) :
    Option (Address × AgentPolicy) :=
  match tx.call with
  | .authorizeAgent agent p => if agent = a then m.or (some (tx.sender, p)) else m
  | .revealAuthorization agent _ p => if agent = a then m.or (some (tx.sender, p)) else m
  | .setPolicy agent p =>
    if agent = a then m.map fun x => if x.1 = tx.sender then (x.1, p) else x else m
  | .revokeAgent agent => if agent = a then m.filter fun x => x.1 ≠ tx.sender else m
  | _ => m

/-- The mandate of agent `a`: its depositor and her policy. -/
def mandate (a : Address) (log : Log V) : Option (Address × AgentPolicy) :=
  log.foldl (fun m x => mandateAfter a m x.1) none

theorem mandate_snoc (a : Address) (log : Log V) (tx : Tx (GatewayCall V)) (r : Receipt) :
    mandate a (log ++ [(tx, r)]) = mandateAfter a (mandate a log) tx := by
  unfold mandate
  rw [List.foldl_append]
  rfl

/-- A call that authorizes `a`. -/
def State.GatewayCall.Authorizes (c : GatewayCall V) (a : Address) : Prop :=
  (∃ p, c = .authorizeAgent a p) ∨ ∃ salt p, c = .revealAuthorization a salt p

/-- An agent without a mandate gets one by an authorization only. -/
theorem mandateAfter_none {a : Address} (h : ¬ tx.call.Authorizes a) :
    mandateAfter a none tx = none := by
  unfold mandateAfter
  split
  · rename_i agent p hc
    by_cases ha : agent = a
    · subst ha
      exact absurd (.inl ⟨p, hc⟩) h
    · rw [if_neg ha]
  · rename_i agent salt p hc
    by_cases ha : agent = a
    · subst ha
      exact absurd (.inr ⟨salt, p, hc⟩) h
    · rw [if_neg ha]
  · split <;> rfl
  · split <;> rfl
  · rfl

/-! ### The records -/

/-- What the gateway has on record for `a`. -/
def record (s : State V) (a : Address) : Option (Address × AgentPolicy) :=
  if s.agentOwner a = 0 then none else some (s.agentOwner a, s.agents a)

theorem record_of_owner {a : Address} (h : s.agentOwner a ≠ 0) :
    record s a = some (s.agentOwner a, s.agents a) :=
  if_neg h

theorem record_of_unowned {a : Address} (h : s.agentOwner a = 0) : record s a = none :=
  if_pos h

theorem record_congr {a : Address} (ho : s'.agentOwner a = s.agentOwner a)
    (hp : s'.agents a = s.agents a) : record s' a = record s a := by
  unfold record
  rw [ho, hp]

/-- The records are the mandates, and an address without an owner has no policy. -/
structure Agrees (s : State V) (log : Log V) : Prop where
  record : ∀ a, record s a = mandate a log
  unowned : ∀ a, s.agentOwner a = 0 → s.agents a = AgentPolicy.none

/-- An authorization, whichever way it came. -/
theorem Agrees.authorized {log : Log V} (h : Agrees s log) {agent : Address} {p : AgentPolicy}
    (hs : s'.agentOwner = Function.update s.agentOwner agent tx.sender)
    (hp : s'.agents = Function.update s.agents agent p) (hown : s.agentOwner agent = 0)
    (hm : ∀ a m, mandateAfter a m tx = if agent = a then m.or (some (tx.sender, p)) else m) :
    Agrees s' (log ++ [(tx, r)]) := by
  refine ⟨?_, ?_⟩
  · intro a
    rw [mandate_snoc, hm, ← h.record a]
    by_cases ha : agent = a
    · subst ha
      rw [if_pos rfl, record_of_unowned hown]
      have hne : s'.agentOwner agent ≠ 0 := by
        rw [hs, Function.update_self]
        exact tx.sender_ne
      rw [record_of_owner hne, hs, hp, Function.update_self, Function.update_self]
      rfl
    · rw [if_neg ha]
      have ha' : a ≠ agent := Ne.symm ha
      refine record_congr ?_ ?_
      · rw [hs, Function.update_of_ne ha']
      · rw [hp, Function.update_of_ne ha']
  · intro a hzero
    by_cases ha : a = agent
    · subst ha
      rw [hs, Function.update_self] at hzero
      exact absurd hzero tx.sender_ne
    · rw [hs, Function.update_of_ne ha] at hzero
      rw [hp, Function.update_of_ne ha]
      exact h.unowned a hzero

/-- A call that touches neither owners nor policies. -/
theorem Agrees.kept {log : Log V} (h : Agrees s log) (hs : s'.agentOwner = s.agentOwner)
    (hp : s'.agents = s.agents) (hm : ∀ a m, mandateAfter a m tx = m) :
    Agrees s' (log ++ [(tx, r)]) := by
  refine ⟨?_, ?_⟩
  · intro a
    rw [mandate_snoc, hm, ← h.record a]
    exact record_congr (by rw [hs]) (by rw [hp])
  · rw [hs, hp]
    exact h.unowned

/-- A new policy, set by the owner. -/
theorem Agrees.policySet {log : Log V} (h : Agrees s log) {agent : Address} {p : AgentPolicy}
    (hc : tx.call = .setPolicy agent p) (ho : s.agentOwner agent = tx.sender) :
    Agrees { s with agents := Function.update s.agents agent p } (log ++ [(tx, r)]) := by
  have hne : s.agentOwner agent ≠ 0 := by
    rw [ho]
    exact tx.sender_ne
  refine ⟨?_, ?_⟩
  · intro a
    rw [mandate_snoc, ← h.record a]
    simp only [mandateAfter, hc]
    by_cases ha : agent = a
    · subst ha
      rw [if_pos rfl, record_of_owner hne, Option.map_some, if_pos ho]
      show (if s.agentOwner agent = 0 then none
        else some (s.agentOwner agent, Function.update s.agents agent p agent)) = _
      rw [if_neg hne, Function.update_self]
    · rw [if_neg ha]
      exact record_congr rfl (Function.update_of_ne (Ne.symm ha) _ _)
  · intro a hzero
    have ha : a ≠ agent := by
      rintro rfl
      exact hne hzero
    refine (Function.update_of_ne ha _ _).trans ?_
    exact h.unowned a hzero

/-- A revocation, by the owner. -/
theorem Agrees.revoked {log : Log V} (h : Agrees s log) {agent : Address} {roles : Roles Role Address}
    (hc : tx.call = .revokeAgent agent) (ho : s.agentOwner agent = tx.sender) :
    Agrees { s with
      agents := Function.update s.agents agent AgentPolicy.none
      agentOwner := Function.update s.agentOwner agent 0
      roles } (log ++ [(tx, r)]) := by
  have hne : s.agentOwner agent ≠ 0 := by
    rw [ho]
    exact tx.sender_ne
  refine ⟨?_, ?_⟩
  · intro a
    rw [mandate_snoc, ← h.record a]
    simp only [mandateAfter, hc]
    by_cases ha : agent = a
    · subst ha
      rw [if_pos rfl, record_of_owner hne, record_of_unowned (Function.update_self ..)]
      simp [Option.filter, ho]
    · rw [if_neg ha]
      exact record_congr (Function.update_of_ne (Ne.symm ha) _ _)
        (Function.update_of_ne (Ne.symm ha) _ _)
  · intro a hzero
    by_cases ha : a = agent
    · subst ha
      exact Function.update_self ..
    · refine (Function.update_of_ne ha _ _).trans ?_
      exact h.unowned a ((Function.update_of_ne ha _ _).symm.trans hzero)

/-- A payment changes no mandate. -/
theorem mandateAfter_of_payment {pay : Payment} (hpay : tx.call.payment = some pay) (a : Address)
    (m : Option (Address × AgentPolicy)) : mandateAfter a m tx = m := by
  unfold mandateAfter
  split <;> rename_i hc
  · rw [hc] at hpay
    cases hpay
  · rw [hc] at hpay
    cases hpay
  · rw [hc] at hpay
    cases hpay
  · rw [hc] at hpay
    cases hpay
  · rfl

theorem Agrees.step {log : Log V} (h : Agrees s log) (he : Effect env s tx s' r) :
    Agrees s' (log ++ [(tx, r)]) := by
  cases he with
  | committed hc => exact h.kept rfl rfl (fun a m => by simp [mandateAfter, hc])
  | authorized hc ha => exact h.authorized rfl rfl ha.unowned (fun a m => by simp [mandateAfter, hc])
  | revealed hc ho ha => exact h.authorized rfl rfl ha.unowned (fun a m => by simp [mandateAfter, hc])
  | policySet hc ho => exact h.policySet hc ho
  | revoked hc ho => exact h.revoked hc ho
  | paused hc =>
    refine h.kept rfl rfl ?_
    intro a m
    rcases hc with hc | hc <;> simp [mandateAfter, hc]
  | paid hc hp => exact h.kept hp.agentOwner_eq hp.agents_eq (mandateAfter_of_payment hc)
  | roles hc =>
    refine h.kept rfl rfl ?_
    intro a m
    rcases hc with ⟨_, _, hc⟩ | ⟨_, _, hc⟩ | ⟨_, _, hc⟩ <;> simp [mandateAfter, hc]
  | elsewhere hc => exact h.kept rfl rfl (fun a m => by simp [mandateAfter, hc])

theorem deploy_agrees {vaultAsset admin pauser : Address} {world : World V}
    (h : deploy env vaultAsset admin pauser world = .ok s) : Agrees s [] := by
  obtain ⟨_, _, t, -, -, -, rfl⟩ := deploy_ok h
  refine ⟨?_, ?_⟩
  · intro a
    exact record_of_unowned rfl
  · intro a _
    rfl

section Runs

variable {vaultAsset admin pauser : Address} {world : World V} {s₀ : State V}

theorem run_agrees (h₀ : deploy env vaultAsset admin pauser world = .ok s₀)
    (txs : List (Tx (GatewayCall V))) :
    Agrees (run (exec env) s₀ txs) (history (exec env) s₀ txs) := by
  refine run_invariant (deploy_agrees h₀) ?_
  intro pre tx post s' r _ h hx
  exact h.step (exec_effect hx)

/-- A payment is made under a mandate, and within it. -/
theorem Agrees.paid {log : Log V} (h : Agrees s log) {pay : Payment}
    (hp : Paid env s tx.block tx.sender pay s' r) :
    ∃ depositor p, mandate tx.sender log = some (depositor, p) ∧ depositor ≠ 0 ∧
      s.agentOwner tx.sender = depositor ∧ tx.block.timestamp ≤ p.validUntil ∧
      0 < pay.amount ∧ pay.amount ≤ pay.side.paymentCap p ∧
      Settles env tx.sender p s.world pay s'.world := by
  have hne : s.agentOwner tx.sender ≠ 0 := by
    intro hzero
    have hact := hp.active
    rw [h.unowned tx.sender hzero] at hact
    cases hact
  refine ⟨_, _, ?_, hne, rfl, hp.unexpired, hp.amount_pos, hp.amount_le, hp.settles⟩
  rw [← h.record tx.sender]
  exact record_of_owner hne

/-- Without an authorization, no mandate comes back. -/
theorem mandate_stays_none {a : Address} {log log' : Log V} (h : mandate a log = none)
    (hno : ∀ x ∈ log', ¬ x.1.call.Authorizes a) : mandate a (log ++ log') = none := by
  induction log' using List.reverseRecOn with
  | nil =>
    rw [List.append_nil]
    exact h
  | append_singleton log' x ih =>
    rw [← List.append_assoc, mandate_snoc, ih fun y hy => hno y (List.mem_append_left _ hy)]
    exact mandateAfter_none (hno x (List.mem_append_right _ (List.mem_singleton_self x)))

/-- **The depositor's authority.**  After any run of the deployed gateway, a payment by an agent
succeeds only under a mandate: some depositor authorized the agent and has not revoked it, and of the
policy she set last the payment respects the expiry, the cap (which is positive) and the account that
shares, or USDC, go to.  And after a revocation of the agent no payment by it succeeds until it is
authorized again, whatever else is called. -/
theorem depositor_authority (h₀ : deploy env vaultAsset admin pauser world = .ok s₀) :
    (∀ txs tx s' r pay, tx.call.payment = some pay →
      exec env (run (exec env) s₀ txs) tx = .ok (s', r) →
      ∃ depositor p, mandate tx.sender (history (exec env) s₀ txs) = some (depositor, p) ∧
        depositor ≠ 0 ∧ (run (exec env) s₀ txs).agentOwner tx.sender = depositor ∧
        tx.block.timestamp ≤ p.validUntil ∧ 0 < pay.amount ∧ pay.amount ≤ pay.side.paymentCap p ∧
        Settles env tx.sender p (run (exec env) s₀ txs).world pay s'.world) ∧
    (∀ txs a revocation s₁ r₁ txs' tx, revocation.call = .revokeAgent a →
      exec env (run (exec env) s₀ txs) revocation = .ok (s₁, r₁) →
      (∀ x ∈ history (exec env) s₁ txs', ¬ x.1.call.Authorizes a) →
      tx.sender = a → tx.call.payment ≠ none →
      ∃ e, exec env (run (exec env) s₁ txs') tx = .error e) := by
  refine ⟨?_, ?_⟩
  · intro txs tx s' r pay hpay hx
    exact (run_agrees h₀ txs).paid ((exec_effect hx).paid_of_payment hpay)
  · intro txs a revocation s₁ r₁ txs' tx hrev hx hno hsender hpay
    have hs₁ : run (exec env) s₀ (txs ++ [revocation]) = s₁ := run_snoc_of_ok hx
    rcases hout : exec env (run (exec env) s₁ txs') tx with e | ⟨s', r⟩
    · exact ⟨e, rfl⟩
    · exfalso
      obtain ⟨pay, hpay⟩ := Option.ne_none_iff_exists'.mp hpay
      -- the whole run, from the deployed gateway
      have hrun : run (exec env) s₀ (txs ++ [revocation] ++ txs') = run (exec env) s₁ txs' := by
        rw [run_append, hs₁]
      rw [← hrun] at hout
      obtain ⟨depositor, p, hm, -⟩ := (run_agrees h₀ _).paid ((exec_effect hout).paid_of_payment hpay)
      -- the revocation ended the mandate, and nothing brought it back
      have hgone : mandate a (history (exec env) s₀ (txs ++ [revocation])) = none := by
        have hagree := run_agrees h₀ (txs ++ [revocation])
        rw [← hagree.record a, hs₁]
        exact record_of_unowned (exec_revokeAgent hrev hx)
      rw [history_append, hs₁, hsender, mandate_stays_none hgone hno] at hm
      cases hm

end Runs

/-! ### A revoked agent with a role -/

/-- The depositor `5` authorizes the agent `7`. -/
def authorization : Tx (GatewayCall Unit) :=
  .of 5 (.of 10 1000) (.authorizeAgent 7 upTo100)

/-- The agent deposits 30 units. -/
def payment : Tx (GatewayCall Unit) :=
  .of 7 (.of 13 1036) (.deposit (.word 1) 30 1100 (.word 2))

/-- The depositor revokes the agent. -/
def revocation : Tx (GatewayCall Unit) :=
  .of 5 (.of 11 1012) (.revokeAgent 7)

/-- The admin gives the revoked agent its role back. -/
def grant : Tx (GatewayCall Unit) :=
  .of 20 (.of 12 1024) (.grantRole .agentRole 7)

/-- The payment goes through under the authorization; and it does not once the agent is revoked, though
the admin granted it the role. -/
theorem depositor_authority_sample :
    (∃ depositor p, mandate 7 (history (exec mockVault) deployed [authorization]) = some (depositor, p) ∧
      30 ≤ p.maxPerPayment) ∧
    ∃ s₁ r₁, exec mockVault (run (exec mockVault) deployed [authorization]) revocation = .ok (s₁, r₁) ∧
      (run (exec mockVault) s₁ [grant]).roles .agentRole 7 = true ∧
      ∃ e, exec mockVault (run (exec mockVault) s₁ [grant]) payment = .error e := by
  obtain ⟨⟨s', r⟩, hpaid⟩ := succeeds_iff.mp
    (show succeeds (exec mockVault (run (exec mockVault) deployed [authorization]) payment) = true by
      decide)
  obtain ⟨⟨s₁, r₁⟩, hrev⟩ := succeeds_iff.mp
    (show succeeds (exec mockVault (run (exec mockVault) deployed [authorization]) revocation) = true by
      decide)
  have hs₁ := run_snoc_of_ok hrev
  refine ⟨?_, s₁, r₁, hrev, ?_, ?_⟩
  · obtain ⟨depositor, p, hm, -, -, -, -, hle, -⟩ :=
      (depositor_authority deploy_deployed).1 [authorization] payment s' r _ rfl hpaid
    exact ⟨depositor, p, hm, hle⟩
  · rw [← hs₁]
    decide
  · refine (depositor_authority deploy_deployed).2 [authorization] 7 revocation s₁ r₁ [grant] payment rfl
      hrev ?_ rfl (by decide)
    intro x hx
    have hmem := history_sublist.subset (List.mem_map_of_mem (f := Prod.fst) hx)
    rw [List.mem_singleton.mp hmem]
    rintro (⟨p, h⟩ | ⟨salt, p, h⟩) <;> cases h

end RobotMoney.Gateway
