import RobotMoney.Gateway.Policies

/-!
# Roles

The gateway grants and revokes `AGENT_ROLE` itself, when a depositor authorizes or revokes an agent; and
it inherits the public entry points of access control, by which holders of `DEFAULT_ADMIN_ROLE` grant
and revoke any role, and anybody renounces her own.

* No address ever holds two of the three roles `ADMIN_ROLE`, `PAUSER_ROLE` and `AGENT_ROLE`: every
  grant, whichever way it comes, asks for the other two first.
* The role, the owner and the policy of an agent agree, and only the owner changes them, exactly as long
  as nobody uses an inherited entry point on `AGENT_ROLE` (`Meddles`).
-/

namespace RobotMoney.Gateway

open RobotMoney.Lib State

variable {V : Type} {env : Env V} {s s' : State V} {r : Receipt} {tx : Tx (GatewayCall V)}

/-! ### The inherited entry points -/

/-- What a successful `grantRole`, `revokeRole` or `renounceRole` makes of the role table. -/
inductive Inherited (s : State V) (tx : Tx (GatewayCall V)) : Roles Role Address → Prop
  | granted {role : Role} {a : Address} {t : Roles Role Address} (hc : tx.call = .grantRole role a)
      (hadmin : s.roles .defaultAdminRole tx.sender = true) (hg : grantRole s.roles role a = .ok t) :
      Inherited s tx t
  | revoked {role : Role} {a : Address} (hc : tx.call = .revokeRole role a)
      (hadmin : s.roles .defaultAdminRole tx.sender = true) : Inherited s tx (s.roles.set role a false)
  | renounced {role : Role} (hc : tx.call = .renounceRole role tx.sender) :
      Inherited s tx (s.roles.set role tx.sender false)

theorem onRoles_roles {x : Call GatewayError (Roles Role Address)}
    (h : s.onRoles x = .ok (s', r)) : x = .ok s'.roles := by
  unfold State.onRoles at h
  obtain ⟨roles, hx, h⟩ := bind_eq_ok.mp h
  obtain ⟨rfl, -⟩ := Prod.mk.injEq .. ▸ pure_eq_ok.mp h
  exact hx

theorem exec_inherited (h : exec env s tx = .ok (s', r))
    (hc : (∃ role a, tx.call = .grantRole role a) ∨ (∃ role a, tx.call = .revokeRole role a) ∨
      ∃ role a, tx.call = .renounceRole role a) : Inherited s tx s'.roles := by
  unfold State.exec at h
  rcases hc with ⟨role, a, hc⟩ | ⟨role, a, hc⟩ | ⟨role, a, hc⟩
  · rw [hc] at h
    obtain ⟨_, hadmin, hg⟩ := bind_eq_ok.mp (onRoles_roles h)
    exact .granted hc (Roles.check_eq_ok.mp hadmin) hg
  · rw [hc] at h
    obtain ⟨_, hadmin, hset⟩ := bind_eq_ok.mp (onRoles_roles h)
    rw [← pure_eq_ok.mp hset]
    exact .revoked hc (Roles.check_eq_ok.mp hadmin)
  · rw [hc] at h
    have hroles := onRoles_roles h
    unfold Roles.renounceRole at hroles
    split at hroles
    · cases hroles
    · rename_i hsender
      rw [not_not] at hsender
      subst hsender
      rw [← Except.ok.inj hroles]
      exact .renounced hc

/-- A table whose entry is set to what it has is the same. -/
theorem set_of_eq {t : Roles Role Address} {role : Role} {a : Address} {v : Bool} (h : t role a = v) :
    t.set role a v = t := by
  funext r x
  by_cases hrx : r = role ∧ x = a
  · obtain ⟨rfl, rfl⟩ := hrx
    rw [Roles.set_same, h]
  · rw [not_and_or] at hrx
    exact Roles.set_of_ne t v hrx

/-- A revocation by the owner takes the role. -/
theorem exec_revokeAgent_roles {agent : Address} (hc : tx.call = .revokeAgent agent)
    (h : exec env s tx = .ok (s', r)) : s'.roles = s.roles.set .agentRole agent false := by
  unfold State.exec at h
  rw [hc] at h
  simp only [State.revokeAgent, bind_eq_ok] at h
  obtain ⟨_, -, _, -, h⟩ := h
  cases h
  show (if s.roles .agentRole agent = true then _ else _) = _
  split
  · rfl
  · rename_i hno
    exact (set_of_eq (Bool.not_eq_true _ ▸ hno)).symm

/-! ### Separation -/

/-- The three roles that exclude each other. -/
def privileged : List Role := [.adminRole, .pauserRole, .agentRole]

/-- No address holds two of them. -/
def Separated (t : Roles Role Address) : Prop :=
  ∀ a, ∀ r₁ ∈ privileged, ∀ r₂ ∈ privileged, t r₁ a = true → t r₂ a = true → r₁ = r₂

theorem Separated.set_false {t : Roles Role Address} (h : Separated t) (role : Role) (a : Address) :
    Separated (t.set role a false) := by
  have hback : ∀ r x, t.set role a false r x = true → t r x = true := by
    intro r x hset
    by_cases hrx : r = role ∧ x = a
    · obtain ⟨rfl, rfl⟩ := hrx
      rw [Roles.set_same] at hset
      cases hset
    · rw [not_and_or] at hrx
      rwa [Roles.set_of_ne t false hrx] at hset
  intro x r₁ h₁ r₂ h₂ ht₁ ht₂
  exact h x r₁ h₁ r₂ h₂ (hback r₁ x ht₁) (hback r₂ x ht₂)

/-- A grant to an address that holds none of the others. -/
theorem Separated.set_true {t : Roles Role Address} (h : Separated t) {role : Role} {a : Address}
    (hfree : role ∈ privileged → ∀ r ∈ privileged, r ≠ role → t r a = false) :
    Separated (t.set role a true) := by
  intro x r₁ h₁ r₂ h₂ ht₁ ht₂
  by_cases hx : x = a
  · subst hx
    by_contra hne
    -- one of the two is another role than the granted one, which the address does not hold
    by_cases hr₁ : r₁ = role
    · subst hr₁
      have hr₂ : r₂ ≠ r₁ := Ne.symm hne
      rw [Roles.set_of_ne t true (.inl hr₂), hfree h₁ r₂ h₂ hr₂] at ht₂
      cases ht₂
    · rw [Roles.set_of_ne t true (.inl hr₁)] at ht₁
      by_cases hr₂ : r₂ = role
      · subst hr₂
        rw [hfree h₂ r₁ h₁ hr₁] at ht₁
        cases ht₁
      · rw [Roles.set_of_ne t true (.inl hr₂)] at ht₂
        exact hne (h x r₁ h₁ r₂ h₂ ht₁ ht₂)
  · rw [Roles.set_of_ne t true (.inr hx)] at ht₁ ht₂
    exact h x r₁ h₁ r₂ h₂ ht₁ ht₂

/-- What the overridden grant asks for. -/
theorem grantRole_eq_ok {t t' : Roles Role Address} {role : Role} {a : Address}
    (h : grantRole t role a = .ok t') :
    (role ∈ privileged → ∀ r ∈ privileged, r ≠ role → t r a = false) ∧ t' = t.set role a true := by
  unfold grantRole at h
  cases role <;>
    simp only [bind_eq_ok, revertIf_eq_ok, exists_const, pure_eq_ok, not_or, Bool.not_eq_true] at h
  case defaultAdminRole | other => exact ⟨by simp [privileged], h.symm⟩
  all_goals
    obtain ⟨⟨h₁, h₂⟩, rfl⟩ := h
    refine ⟨?_, rfl⟩
    simp [privileged, h₁, h₂]

theorem Separated.grant {t t' : Roles Role Address} (h : Separated t) {role : Role} {a : Address}
    (hg : grantRole t role a = .ok t') : Separated t' := by
  obtain ⟨hfree, rfl⟩ := grantRole_eq_ok hg
  exact h.set_true hfree

theorem Separated.authorize {t : Roles Role Address} (h : Separated t) {a : Address}
    (hadmin : t .adminRole a = false) (hpauser : t .pauserRole a = false) :
    Separated (t.set .agentRole a true) :=
  h.grant (grantRole_agent_eq_ok.mpr ⟨⟨hadmin, hpauser⟩, rfl⟩)

theorem Separated.step (h : Separated s.roles) (hx : exec env s tx = .ok (s', r)) :
    Separated s'.roles := by
  cases exec_effect hx with
  | authorized hc ha => exact h.authorize ha.not_admin ha.not_pauser
  | revealed hc ho ha => exact h.authorize ha.not_admin ha.not_pauser
  | revoked hc ho hr =>
    rw [exec_revokeAgent_roles hc hx]
    exact h.set_false _ _
  | paid hc hp =>
    rw [hp.roles_eq]
    exact h
  | roles hc =>
    cases exec_inherited hx hc with
    | granted hc hadmin hg => exact h.grant hg
    | revoked hc hadmin => exact h.set_false _ _
    | renounced hc => exact h.set_false _ _
  | committed | policySet | paused | elsewhere => exact h

theorem deploy_separated {vaultAsset admin pauser : Address} {world : World V}
    (h : deploy env vaultAsset admin pauser world = .ok s) : Separated s.roles := by
  obtain ⟨t₁, t₂, t₃, h₁, h₂, h₃, rfl⟩ := deploy_ok h
  have hnone : Separated (fun _ _ => false) := by
    intro a r₁ _ r₂ _ h
    cases h
  exact ((hnone.grant h₁).grant h₂).grant h₃

/-- **Separation of roles.**  In every state the deployed gateway can reach, whoever called what, no
address holds two of `ADMIN_ROLE`, `PAUSER_ROLE` and `AGENT_ROLE`. -/
theorem roles_separated {vaultAsset admin pauser : Address} {world : World V} {s₀ : State V}
    (h₀ : deploy env vaultAsset admin pauser world = .ok s₀) (txs : List (Tx (GatewayCall V))) :
    Separated (run (exec env) s₀ txs).roles := by
  refine run_invariant (P := fun (s : State V) _ => Separated s.roles) (deploy_separated h₀) ?_
  intro pre tx post s' r _ h hx
  exact h.step hx

/-- The admin cannot be made an agent, by the agent's depositor or by herself. -/
theorem roles_separated_sample :
    let txs : List (Tx (GatewayCall Unit)) :=
      [.of 5 (.of 10 1000) (.authorizeAgent 20 upTo100), .of 20 (.of 11 1012) (.grantRole .agentRole 20),
       .of 20 (.of 12 1024) (.renounceRole .adminRole 20), .of 5 (.of 13 1036) (.authorizeAgent 20 upTo100)]
    (run (exec mockVault) deployed txs).roles .agentRole 20 = true ∧
      (history (exec mockVault) deployed txs).length = 2 ∧
      Separated (run (exec mockVault) deployed txs).roles := by
  intro txs
  exact ⟨by decide, by decide, roles_separated deploy_deployed txs⟩

/-! ### Role, owner and policy -/

/-- For every address, the role, the owner and the active policy come together. -/
def Coherent (s : State V) : Prop :=
  ∀ a, (s.roles .agentRole a = true ↔ s.agentOwner a ≠ 0) ∧
    ((s.agents a).active = true ↔ s.agentOwner a ≠ 0)

/-- Of an agent that is owned, a call by another than the owner changes none of the three. -/
def Sovereign (s : State V) (tx : Tx (GatewayCall V)) (s' : State V) : Prop :=
  ∀ a, s.agentOwner a ≠ 0 → s.agentOwner a ≠ tx.sender →
    s'.roles .agentRole a = s.roles .agentRole a ∧ s'.agentOwner a = s.agentOwner a ∧
      (s'.agents a).active = (s.agents a).active

/-- The call uses an inherited entry point to change who holds `AGENT_ROLE`, and passes its checks. -/
def Meddles (s : State V) (tx : Tx (GatewayCall V)) : Prop :=
  (∃ a, tx.call = .grantRole .agentRole a ∧ s.roles .defaultAdminRole tx.sender = true ∧
    s.roles .adminRole a = false ∧ s.roles .pauserRole a = false ∧ s.roles .agentRole a = false) ∨
  (∃ a, tx.call = .revokeRole .agentRole a ∧ s.roles .defaultAdminRole tx.sender = true ∧
    s.roles .agentRole a = true) ∨
  (tx.call = .renounceRole .agentRole tx.sender ∧ s.roles .agentRole tx.sender = true)

/-- An inherited entry point that does not meddle leaves the holders of `AGENT_ROLE`. -/
theorem Inherited.agentRole {t : Roles Role Address} (h : Inherited s tx t) (hno : ¬ Meddles s tx)
    (a : Address) : t .agentRole a = s.roles .agentRole a := by
  cases h with
  | @granted role x _ hc hadmin hg =>
    obtain ⟨hfree, rfl⟩ := grantRole_eq_ok hg
    by_cases hrole : role = .agentRole
    · subst hrole
      have hfree := hfree (by decide)
      have hheld : s.roles .agentRole x = true := by
        by_contra hnot
        exact hno (.inl ⟨x, hc, hadmin, hfree _ (by decide) (by decide), hfree _ (by decide) (by decide),
          Bool.not_eq_true _ ▸ hnot⟩)
      rw [set_of_eq hheld]
    · exact Roles.set_of_ne _ _ (.inl (Ne.symm hrole))
  | @revoked role x hc hadmin =>
    by_cases hrole : role = .agentRole
    · subst hrole
      have hnone : s.roles .agentRole x = false := by
        by_contra hnot
        exact hno (.inr (.inl ⟨x, hc, hadmin, Bool.not_eq_false _ ▸ hnot⟩))
      rw [set_of_eq hnone]
    · exact Roles.set_of_ne _ _ (.inl (Ne.symm hrole))
  | @renounced role hc =>
    by_cases hrole : role = .agentRole
    · subst hrole
      have hnone : s.roles .agentRole tx.sender = false := by
        by_contra hnot
        exact hno (.inr (.inr ⟨hc, Bool.not_eq_false _ ▸ hnot⟩))
      rw [set_of_eq hnone]
    · exact Roles.set_of_ne _ _ (.inl (Ne.symm hrole))

/-- The agent that a call of the gateway's own changes, if any: its role, owner and policy move
together, and it was without an owner, or is the caller's. -/
structure Moved (s : State V) (sender agent : Address) (s' : State V) : Prop where
  role : s'.roles .agentRole agent = true ↔ s'.agentOwner agent ≠ 0
  active : (s'.agents agent).active = true ↔ s'.agentOwner agent ≠ 0
  mine : s.agentOwner agent = 0 ∨ s.agentOwner agent = sender
  others : ∀ a, a ≠ agent → s'.roles .agentRole a = s.roles .agentRole a ∧
    s'.agentOwner a = s.agentOwner a ∧ s'.agents a = s.agents a

theorem Moved.coherent {agent sender : Address} (h : Moved s sender agent s') (hs : Coherent s) :
    Coherent s' := by
  intro a
  by_cases ha : a = agent
  · subst ha
    exact ⟨h.role, h.active⟩
  · obtain ⟨hrole, howner, hpolicy⟩ := h.others a ha
    rw [hrole, howner, hpolicy]
    exact hs a

theorem Moved.sovereign {agent : Address} (h : Moved s tx.sender agent s') : Sovereign s tx s' := by
  intro a howned hother
  by_cases ha : a = agent
  · subst ha
    exact absurd h.mine (not_or.mpr ⟨howned, hother⟩)
  · obtain ⟨hrole, howner, hpolicy⟩ := h.others a ha
    rw [hpolicy]
    exact ⟨hrole, howner, rfl⟩

/-- A call that changes none of the three. -/
theorem coherent_of_kept (hs : Coherent s) (hrole : ∀ a, s'.roles .agentRole a = s.roles .agentRole a)
    (howner : s'.agentOwner = s.agentOwner) (hpolicy : s'.agents = s.agents) :
    Coherent s' ∧ Sovereign s tx s' := by
  refine ⟨?_, ?_⟩
  · intro a
    rw [hrole, howner, hpolicy]
    exact hs a
  · intro a _ _
    rw [hrole, howner, hpolicy]
    exact ⟨rfl, rfl, rfl⟩

theorem authorized_moved {b : Block} {sender agent : Address} {p : AgentPolicy}
    (ha : Admitted s b agent p) (hsender : sender ≠ 0) :
    Moved s sender agent (authorized s sender agent p) := by
  have howner : (authorized s sender agent p).agentOwner agent ≠ 0 := by
    simpa [authorized] using hsender
  refine ⟨iff_of_true (Roles.set_same ..) howner, iff_of_true ?_ howner, .inl ha.unowned, ?_⟩
  · simpa [authorized] using (validatePolicy_valid ha.valid).active
  · intro a hne
    exact ⟨Roles.set_of_ne _ _ (.inr hne), Function.update_of_ne hne _ _, Function.update_of_ne hne _ _⟩

/-- One step: a call that does not meddle keeps the three together, and to the owner. -/
theorem Coherent.step (hs : Coherent s) (hx : exec env s tx = .ok (s', r)) (hno : ¬ Meddles s tx) :
    Coherent s' ∧ Sovereign s tx s' := by
  cases exec_effect hx with
  | authorized hc ha =>
    have hm := authorized_moved ha tx.sender_ne
    exact ⟨hm.coherent hs, hm.sovereign⟩
  | @revealed agent salt p _ hc ho ha =>
    obtain ⟨hrole, hactive, hmine, hothers⟩ := authorized_moved ha tx.sender_ne
    have hm : Moved s tx.sender agent (Gateway.authorized
        (withCommitment s (.commitHash agent tx.sender salt) ⟨0, 0⟩) tx.sender agent p) :=
      ⟨hrole, hactive, hmine, hothers⟩
    exact ⟨hm.coherent hs, hm.sovereign⟩
  | @policySet agent p _ hc ho hv =>
    have howned : s.agentOwner agent ≠ 0 := by
      rw [ho]
      exact tx.sender_ne
    have hm : Moved s tx.sender agent { s with agents := Function.update s.agents agent p } := by
      refine ⟨(hs agent).1, iff_of_true ?_ howned, .inr ho, ?_⟩
      · simpa using (validatePolicy_valid hv).active
      · intro a hne
        exact ⟨rfl, rfl, Function.update_of_ne hne _ _⟩
    exact ⟨hm.coherent hs, hm.sovereign⟩
  | @revoked agent roles _ hc ho hr =>
    have hroles : roles = s.roles.set .agentRole agent false := exec_revokeAgent_roles hc hx
    subst hroles
    have hm : Moved s tx.sender agent { s with
        agents := Function.update s.agents agent AgentPolicy.none
        agentOwner := Function.update s.agentOwner agent 0
        roles := s.roles.set .agentRole agent false } := by
      refine ⟨?_, ?_, .inr ho, ?_⟩
      · simp
      · simp [AgentPolicy.none]
      · intro a hne
        exact ⟨Roles.set_of_ne _ _ (.inr hne), Function.update_of_ne hne _ _,
          Function.update_of_ne hne _ _⟩
    exact ⟨hm.coherent hs, hm.sovereign⟩
  | paid hc hp =>
    exact coherent_of_kept hs (fun a => by rw [hp.roles_eq]) hp.agentOwner_eq hp.agents_eq
  | roles hc => exact coherent_of_kept hs (fun a => (exec_inherited hx hc).agentRole hno a) rfl rfl
  | committed | paused | elsewhere => exact coherent_of_kept hs (fun _ => rfl) rfl rfl

/-- A call that meddles goes through, and tears role and owner apart. -/
theorem Meddles.incoherent (hm : Meddles s tx) (hs : Coherent s) : ¬ Coherent (next (exec env) s tx) := by
  have key : ∀ (a : Address) (v : Bool), s.roles .agentRole a = !v →
      exec env s tx = .ok ({ s with roles := s.roles.set .agentRole a v }, { events := [] }) →
      ¬ Coherent (next (exec env) s tx) := by
    intro a v hold hx hcoherent
    rw [next_of_ok hx] at hcoherent
    have hnew := (hcoherent a).1
    have hbefore := (hs a).1
    simp only [Roles.set_same] at hnew
    rw [hold, ← hnew] at hbefore
    cases v <;> simp at hbefore
  rcases hm with ⟨a, hc, hadmin, hna, hnp, hnone⟩ | ⟨a, hc, hadmin, hheld⟩ | ⟨hc, hheld⟩
  · refine key a true hnone ?_
    unfold State.exec
    rw [hc]
    have hg := grantRole_agent_eq_ok.mpr ⟨⟨hna, hnp⟩, rfl⟩
    simp only [Roles.grantRole, State.onRoles, Roles.check, hadmin, if_true, ok_bind, hg]
    rfl
  · refine key a false hheld ?_
    unfold State.exec
    rw [hc]
    simp only [Roles.revokeRole, State.onRoles, Roles.check, hadmin, if_true, ok_bind]
    rfl
  · refine key tx.sender false hheld ?_
    unfold State.exec
    rw [hc]
    simp only [Roles.renounceRole, State.onRoles, ne_eq, not_true_eq_false, if_false, ok_bind]
    rfl

section Runs

variable {vaultAsset admin pauser : Address} {world : World V} {s₀ : State V}

theorem deploy_coherent (h : deploy env vaultAsset admin pauser world = .ok s) : Coherent s := by
  obtain ⟨t₁, t₂, t₃, h₁, h₂, h₃, rfl⟩ := deploy_ok h
  obtain ⟨-, rfl⟩ := grantRole_eq_ok h₁
  obtain ⟨-, rfl⟩ := grantRole_eq_ok h₂
  obtain ⟨-, rfl⟩ := grantRole_eq_ok h₃
  intro a
  simp [fresh, Roles.set, AgentPolicy.none]

/-- A run without meddling keeps role, owner and policy together. -/
theorem run_coherent (h₀ : deploy env vaultAsset admin pauser world = .ok s₀)
    {txs : List (Tx (GatewayCall V))}
    (hno : ∀ pre tx post, txs = pre ++ tx :: post → ¬ Meddles (run (exec env) s₀ pre) tx) :
    Coherent (run (exec env) s₀ txs) := by
  refine run_invariant (P := fun (s : State V) _ => Coherent s) (deploy_coherent h₀) ?_
  intro pre tx post s' r hsplit hs hx
  exact (hs.step hx (hno pre tx post hsplit)).1

/-- **The life of an agent.**  In a run of the deployed gateway, role, owner and active policy of every
address agree after every call, and no call by another than the owner of an agent changes them, exactly
when no call of the run uses an inherited entry point on `AGENT_ROLE`. -/
theorem lifecycle_agrees_iff (h₀ : deploy env vaultAsset admin pauser world = .ok s₀)
    (txs : List (Tx (GatewayCall V))) :
    ((∀ pre post, txs = pre ++ post → Coherent (run (exec env) s₀ pre)) ∧
      ∀ pre tx post, txs = pre ++ tx :: post →
        Sovereign (run (exec env) s₀ pre) tx (run (exec env) s₀ (pre ++ [tx]))) ↔
    ∀ pre tx post, txs = pre ++ tx :: post → ¬ Meddles (run (exec env) s₀ pre) tx := by
  constructor
  · rintro ⟨hcoherent, -⟩ pre tx post hsplit hm
    have hbefore := hcoherent pre (tx :: post) hsplit
    have hafter := hcoherent (pre ++ [tx]) post (by rw [hsplit, List.append_assoc]; rfl)
    rw [run_append] at hafter
    exact hm.incoherent hbefore hafter
  · intro hno
    have hcoherent : ∀ pre post, txs = pre ++ post → Coherent (run (exec env) s₀ pre) := by
      intro pre post hsplit
      refine run_coherent h₀ ?_
      intro pre₁ tx post₁ hsplit₁
      refine hno pre₁ tx (post₁ ++ post) ?_
      rw [hsplit, hsplit₁, List.append_assoc, List.cons_append]
    refine ⟨hcoherent, ?_⟩
    intro pre tx post hsplit
    have hs := hcoherent pre (tx :: post) hsplit
    rcases hx : exec env (run (exec env) s₀ pre) tx with e | ⟨s', r⟩
    · rw [run_snoc_of_error hx]
      intro a _ _
      exact ⟨rfl, rfl, rfl⟩
    · rw [run_snoc_of_ok hx]
      exact (hs.step hx (hno pre tx post hsplit)).2

end Runs

/-- The admin takes the role from the depositor's agent. -/
def dismissal : Tx (GatewayCall Unit) := .of 20 (.of 11 1012) (.revokeRole .agentRole 7)

/-- The agent is owned by the depositor `5` and has an active policy; the admin, who is not its owner,
takes its role, and its payments fail. -/
theorem admin_dismisses_agent :
    let s := run (exec mockVault) deployed [authorization]
    let s' := run (exec mockVault) deployed [authorization, dismissal]
    s.agentOwner 7 = 5 ∧ dismissal.sender = 20 ∧ s.roles .agentRole 7 = true ∧
      s'.roles .agentRole 7 = false ∧ s'.agentOwner 7 = 5 ∧ (s'.agents 7).active = true ∧
      succeeds (exec mockVault s payment) = true ∧
      reason (exec mockVault s' payment) = some .unauthorizedAccount := by
  decide

/-- The depositor's own calls keep the three together. -/
theorem lifecycle_agrees_iff_sample :
    (run (exec mockVault) deployed [authorization]).agentOwner 7 = 5 ∧
      Coherent (run (exec mockVault) deployed [authorization, revocation]) := by
  refine ⟨by decide, ?_⟩
  refine ((lifecycle_agrees_iff deploy_deployed [authorization, revocation]).mpr ?_).1 _ [] rfl
  refine forall_step_cons ?_ (forall_step_cons ?_ forall_step_nil)
  · rintro (⟨a, hc, -⟩ | ⟨a, hc, -⟩ | ⟨hc, -⟩) <;> cases hc
  · rintro (⟨a, hc, -⟩ | ⟨a, hc, -⟩ | ⟨hc, -⟩) <;> cases hc

end RobotMoney.Gateway
