import RobotMoney.Gateway.Payments

/-!
# Committing to an agent, and revealing it

A depositor commits to the hash of an agent, herself and a salt; some blocks later she reveals them and
becomes the agent's owner.  The question is what others can do in between, having seen the commitment,
and later the reveal, before it is mined.

They can do two things.  The table of commitments is keyed by the hash alone, so whoever commits the
same hash takes the commitment over (`reveal_passes_iff`); and a commitment does not bind
`authorizeAgent`, so whoever calls it first owns the agent (`commit_reserves_iff`).  Both results say
exactly when the depositor's reveal goes through.
-/

namespace RobotMoney.Gateway

open RobotMoney.Lib State

variable {V : Type} {env : Env V} {s s' : State V} {r : Receipt} {tx : Tx (GatewayCall V)}
  {others : List (Tx (GatewayCall V))} {a depositor : Address} {salt : Bytes32}

/-! ### One commitment among other people's calls -/

/-- A call by somebody else that does not commit the hash leaves the depositor's commitment alone. -/
theorem Effect.commitment_kept (h : Effect env s tx s' r) (hs : tx.sender ≠ depositor)
    (hno : tx.call ≠ .commitAuthorization (.commitHash a depositor salt)) :
    s'.commitments (.commitHash a depositor salt) = s.commitments (.commitHash a depositor salt) := by
  cases h with
  | committed hc =>
    refine Function.update_of_ne ?_ _ _
    rintro rfl
    exact hno hc
  | @revealed agent salt' p _ hc ho ha =>
    refine Function.update_of_ne ?_ _ _
    -- the hash of somebody else's reveal names somebody else
    intro heq
    injection heq with _ hd _
    exact hs hd.symm
  | paid hc hp =>
    rw [hp.commitments_eq]
  | _ => rfl

theorem run_commitment_kept (hs : ∀ tx ∈ others, tx.sender ≠ depositor)
    (hno : ∀ tx ∈ others, tx.call ≠ .commitAuthorization (.commitHash a depositor salt)) :
    (run (exec env) s others).commitments (.commitHash a depositor salt) =
      s.commitments (.commitHash a depositor salt) := by
  induction others generalizing s with
  | nil => rfl
  | cons tx others ih =>
    have hrest := ih (s := next (exec env) s tx) (fun t ht => hs t (List.mem_cons_of_mem _ ht))
      (fun t ht => hno t (List.mem_cons_of_mem _ ht))
    rw [run, hrest]
    rcases hx : exec env s tx with e | ⟨s', r⟩
    · rw [next_of_error hx]
    · rw [next_of_ok hx]
      exact (exec_effect hx).commitment_kept (hs tx List.mem_cons_self) (hno tx List.mem_cons_self)

/-- The commitment is there, and it is somebody else's. -/
def Usurped (s : State V) (h : Bytes32) (depositor : Address) : Prop :=
  (s.commitments h).committer ≠ 0 ∧ (s.commitments h).committer ≠ depositor

theorem next_commit (hc : tx.call = .commitAuthorization (.commitHash a depositor salt)) :
    (next (exec env) s tx).commitments (.commitHash a depositor salt) =
      ⟨tx.sender, tx.block.number⟩ := by
  have hx : exec env s tx = s.commitAuthorization tx.block tx.sender (.commitHash a depositor salt) := by
    unfold State.exec
    rw [hc]
  unfold next
  rw [hx]
  exact Function.update_self ..

theorem next_usurped (hs : tx.sender ≠ depositor)
    (h : Usurped s (.commitHash a depositor salt) depositor ∨
      tx.call = .commitAuthorization (.commitHash a depositor salt)) :
    Usurped (next (exec env) s tx) (.commitHash a depositor salt) depositor := by
  by_cases hc : tx.call = .commitAuthorization (.commitHash a depositor salt)
  · unfold Usurped
    rw [next_commit hc]
    exact ⟨tx.sender_ne, hs⟩
  · have hu := h.resolve_right hc
    rcases hx : exec env s tx with e | ⟨s', r⟩
    · rw [next_of_error hx]
      exact hu
    · rw [next_of_ok hx]
      unfold Usurped
      rw [(exec_effect hx).commitment_kept hs hc]
      exact hu

/-- Once somebody else has committed the hash, it stays with somebody else. -/
theorem run_usurped (hs : ∀ tx ∈ others, tx.sender ≠ depositor)
    (h : Usurped s (.commitHash a depositor salt) depositor ∨
      ∃ tx ∈ others, tx.call = .commitAuthorization (.commitHash a depositor salt)) :
    Usurped (run (exec env) s others) (.commitHash a depositor salt) depositor := by
  induction others generalizing s with
  | nil =>
    rcases h with h | ⟨tx, hmem, -⟩
    · exact h
    · cases hmem
  | cons tx others ih =>
    have hsx := hs tx List.mem_cons_self
    refine ih (fun t ht => hs t (List.mem_cons_of_mem _ ht)) ?_
    rcases h with h | ⟨t, hmem, hc⟩
    · exact .inl (next_usurped hsx (.inl h))
    · rcases List.mem_cons.mp hmem with rfl | hmem
      · exact .inl (next_usurped hsx (.inr hc))
      · exact .inr ⟨t, hmem, hc⟩

/-! ### The four checks of a reveal -/

/-- The errors of `revealAuthorization` about the commitment. -/
def commitmentErrors : List GatewayError :=
  [.commitmentNotFound, .commitmentOwnerMismatch, .commitmentTooRecent, .commitmentExpired]

theorem validatePolicy_error {b : Block} {p : AgentPolicy} {e : GatewayError}
    (h : validatePolicy b p = .error (.custom e)) : e ∉ commitmentErrors := by
  unfold validatePolicy at h
  split at h
  · simp only [bind_eq_error, revertIf_eq_error, revertIf_eq_ok, exists_const, Revert.custom.injEq] at h
    rcases h with ⟨_, rfl⟩ | ⟨_, ⟨_, rfl⟩ | ⟨_, ⟨_, rfl⟩ | ⟨_, ⟨_, rfl⟩ | ⟨_, ⟨_, rfl⟩ | ⟨_, ⟨_, rfl⟩ |
      ⟨_, ⟨_, rfl⟩ | ⟨_, _, rfl⟩⟩⟩⟩⟩⟩⟩ <;> decide
  · simp only [bind_eq_error, revertIf_eq_error, revertIf_eq_ok, exists_const, Revert.custom.injEq] at h
    rcases h with ⟨_, rfl⟩ | ⟨_, ⟨_, rfl⟩ | ⟨_, ⟨_, rfl⟩ | ⟨_, ⟨_, rfl⟩ | ⟨_, ⟨_, rfl⟩ | ⟨_, h⟩⟩⟩⟩⟩
    · decide
    · decide
    · decide
    · decide
    · decide
    · cases h

theorem authorizeAgentInternal_error {b : Block} {sender agent : Address} {p : AgentPolicy}
    {e : GatewayError} (h : s.authorizeAgentInternal b sender agent p = .error (.custom e)) :
    e ∉ commitmentErrors := by
  unfold State.authorizeAgentInternal at h
  simp only [bind_eq_error, revertIf_eq_error, revertIf_eq_ok, exists_const, Revert.custom.injEq] at h
  rcases h with ⟨_, rfl⟩ | ⟨_, ⟨_, rfl⟩ | ⟨_, h | ⟨_, _, h | ⟨_, _, h | ⟨_, _, h⟩⟩⟩⟩⟩
  · decide
  · decide
  · exact validatePolicy_error h
  · simp only [grantRole, bind_eq_error, revertIf_eq_error, Revert.custom.injEq] at h
    rcases h with ⟨_, rfl⟩ | ⟨_, _, h⟩
    · decide
    · cases h
  · simp only [assertRoleSeparation, revertIf_eq_error, Revert.custom.injEq] at h
    obtain ⟨_, rfl⟩ := h
    decide
  · cases h

/-- A reveal whose commitment is in order fails, if at all, for another reason. -/
theorem reveal_of_opens {b : Block} {sender : Address} {p : AgentPolicy}
    (ho : Opens s b sender (.commitHash a sender salt)) {e : GatewayError} (he : e ∈ commitmentErrors) :
    s.revealAuthorization b sender a salt p ≠ .error (.custom e) := by
  intro h
  unfold State.revealAuthorization at h
  simp only [bind_eq_error, revertIf_eq_error, revertIf_eq_ok, exists_const, Revert.custom.injEq,
    not_not] at h
  rcases h with ⟨hf, -⟩ | ⟨_, ⟨hown, -⟩ | ⟨_, ⟨hage, -⟩ | ⟨_, ⟨hexp, -⟩ | ⟨_, h | ⟨_, _, h⟩⟩⟩⟩⟩
  · exact ho.found hf
  · exact hown ho.own
  · exact absurd ho.aged (Nat.not_lt.mpr hage)
  · exact absurd ho.unexpired (Nat.not_le.mpr hexp)
  · exact authorizeAgentInternal_error h he
  · cases h

/-- A reveal whose commitment somebody else took over. -/
theorem reveal_of_usurped {b : Block} {sender : Address} {p : AgentPolicy}
    (h : Usurped s (.commitHash a sender salt) sender) :
    s.revealAuthorization b sender a salt p = .error (.custom .commitmentOwnerMismatch) := by
  unfold State.revealAuthorization
  dsimp only
  rw [revertIf_neg h.1, ok_bind, revertIf_pos h.2, error_bind]

/-! ### The two phases -/

/-- A depositor's commitment to an agent, and her reveal of it: between one and
`COMMIT_EXPIRY_BLOCKS` blocks later. -/
structure CommitReveal (V : Type) where
  agent : Address
  salt : Bytes32
  policy : AgentPolicy
  depositor : Address
  depositor_ne : depositor ≠ 0
  commitBlock : Block
  revealBlock : Block
  later : commitBlock.number < revealBlock.number
  in_time : revealBlock.number ≤ commitBlock.number + commitExpiryBlocks

namespace CommitReveal

variable (c : CommitReveal V)

/-- The hash committed to. -/
def hash : Bytes32 := .commitHash c.agent c.depositor c.salt

def commit : Tx (GatewayCall V) :=
  { block := c.commitBlock, sender := c.depositor, call := .commitAuthorization c.hash
    sender_ne := c.depositor_ne }

def reveal : Tx (GatewayCall V) :=
  { block := c.revealBlock, sender := c.depositor
    call := .revealAuthorization c.agent c.salt c.policy, sender_ne := c.depositor_ne }

/-- The state after the commitment and other people's calls. -/
def after (env : Env V) (s : State V) (others : List (Tx (GatewayCall V))) : State V :=
  run (exec env) (next (exec env) s c.commit) others

variable {c}

/-- The commitment is in order when nobody else committed the hash. -/
theorem opens_of_kept (hs : ∀ tx ∈ others, tx.sender ≠ c.depositor)
    (hno : ∀ tx ∈ others, tx.call ≠ .commitAuthorization c.hash) :
    Opens (c.after env s others) c.revealBlock c.depositor c.hash := by
  have hc : (c.after env s others).commitments c.hash = ⟨c.depositor, c.commitBlock.number⟩ := by
    unfold after hash
    rw [run_commitment_kept hs hno]
    exact next_commit rfl
  refine ⟨?_, ?_, ?_, ?_⟩
  · rw [hc]
    exact c.depositor_ne
  · rw [hc]
  · rw [hc]
    exact c.later
  · rw [hc]
    exact c.in_time

theorem usurped_of_committed (hs : ∀ tx ∈ others, tx.sender ≠ c.depositor)
    (h : ∃ tx ∈ others, tx.call = .commitAuthorization c.hash) :
    Usurped (c.after env s others) c.hash c.depositor :=
  run_usurped hs (.inr h)

/-- **When a reveal passes the checks of its commitment.**  From any state, whatever others call
between a depositor's commitment and her reveal: the reveal does not fail for a reason of the
commitment if and only if none of them committed the same hash. -/
theorem reveal_passes_iff (env : Env V) (s : State V) (hs : ∀ tx ∈ others, tx.sender ≠ c.depositor) :
    (∀ e ∈ commitmentErrors, exec env (c.after env s others) c.reveal ≠ .error (.custom e)) ↔
      ∀ tx ∈ others, tx.call ≠ .commitAuthorization c.hash := by
  constructor
  · intro h tx hmem hc
    refine h .commitmentOwnerMismatch (by decide) ?_
    exact reveal_of_usurped (usurped_of_committed hs ⟨tx, hmem, hc⟩)
  · intro hno e he
    exact reveal_of_opens (opens_of_kept hs hno) he

/-- The depositor `5` commits to the agent `7` in block 10 and reveals it in block 12. -/
def twoPhases : CommitReveal Unit where
  agent := 7
  salt := .word 3
  policy := upTo100
  depositor := 5
  depositor_ne := by decide
  commitBlock := .of 10 1000
  revealBlock := .of 12 1024
  later := by decide
  in_time := by decide

/-- Somebody else commits a hash of her own in between. -/
def bystander : Tx (GatewayCall Unit) :=
  .of 6 (.of 11 1012) (.commitAuthorization (.commitHash 7 6 (.word 3)))

theorem reveal_passes_iff_sample : bystander.sender ≠ twoPhases.depositor ∧
    ∀ e ∈ commitmentErrors,
      exec mockVault (twoPhases.after mockVault deployed [bystander]) twoPhases.reveal ≠
        .error (.custom e) := by
  refine ⟨by decide, (reveal_passes_iff mockVault deployed (by decide)).mpr ?_⟩
  intro tx htx
  rw [List.mem_singleton.mp htx]
  intro h
  injection h with h
  exact absurd h (by decide)

/-- Somebody else commits the depositor's hash, which is public since block 10. -/
def griefing : Tx (GatewayCall Unit) :=
  .of 6 (.of 11 1012) (.commitAuthorization twoPhases.hash)

/-- The depositor's reveal then fails, in a branch noted as unreachable. -/
theorem reveal_griefed : griefing.sender ≠ twoPhases.depositor ∧ deployed.agentOwner 7 = 0 ∧
    exec mockVault (twoPhases.after mockVault deployed [griefing]) twoPhases.reveal =
      .error (.custom .commitmentOwnerMismatch) :=
  ⟨by decide, rfl, rfl⟩

end CommitReveal

/-! ### Taking an agent -/

/-- The call is an authorization of `a` that the gateway admits: directly, or by a reveal of a
commitment of the caller's own. -/
def Takes (s : State V) (a : Address) (tx : Tx (GatewayCall V)) : Prop :=
  ∃ p, Admitted s tx.block a p ∧ (tx.call = .authorizeAgent a p ∨ ∃ salt,
    tx.call = .revealAuthorization a salt p ∧
      Opens s tx.block tx.sender (.commitHash a tx.sender salt))

/-- A call that takes `a` succeeds, and its sender owns `a`. -/
theorem exec_of_takes (env : Env V) (h : Takes s a tx) :
    ∃ s' r, exec env s tx = .ok (s', r) ∧ s'.agentOwner a = tx.sender := by
  obtain ⟨p, hadm, hc | ⟨salt, hc, ho⟩⟩ := h
  · refine ⟨authorized s tx.sender a p, { events := [authorizedEvent a tx.sender p] }, ?_, ?_⟩
    · unfold State.exec
      rw [hc]
      refine bind_eq_ok.mpr ⟨(_, _), authorizeAgentInternal_eq_ok.mpr ⟨hadm, rfl, rfl⟩, rfl⟩
    · exact Function.update_self ..
  · have hx : exec env s tx = s.revealAuthorization tx.block tx.sender a salt p := by
      unfold State.exec
      rw [hc]
    have hok := revealAuthorization_eq_ok.mpr ⟨ho, hadm, rfl, rfl⟩
    exact ⟨_, _, hx.trans hok, Function.update_self ..⟩

/-- An address without an owner stays so, unless the call takes it. -/
theorem next_unowned (hown : s.agentOwner a = 0) (h : ¬ Takes s a tx) :
    (next (exec env) s tx).agentOwner a = 0 := by
  rcases hx : exec env s tx with e | ⟨s', r⟩
  · rw [next_of_error hx]
    exact hown
  · rw [next_of_ok hx]
    cases exec_effect hx with
    | @authorized agent p _ hc ha =>
      have hne : a ≠ agent := by
        rintro rfl
        exact h ⟨p, ha, .inl hc⟩
      exact (Function.update_of_ne hne _ _).trans hown
    | @revealed agent salt p _ hc ho ha =>
      have hne : a ≠ agent := by
        rintro rfl
        exact h ⟨p, ha, .inr ⟨salt, hc, ho⟩⟩
      exact (Function.update_of_ne hne _ _).trans hown
    | @revoked agent roles _ hc ho hr =>
      by_cases ha : a = agent
      · subst ha
        exact Function.update_self ..
      · exact (Function.update_of_ne ha _ _).trans hown
    | paid hc hp =>
      rw [hp.agentOwner_eq]
      exact hown
    | _ => exact hown

/-- Over a run: the address stays without an owner if and only if no call takes it. -/
theorem run_unowned_iff (env : Env V) (others : List (Tx (GatewayCall V)))
    (hown : s.agentOwner a = 0) :
    (∀ pre, pre <+: others → (run (exec env) s pre).agentOwner a = 0) ↔
      ∀ pre tx post, others = pre ++ tx :: post → ¬ Takes (run (exec env) s pre) a tx := by
  constructor
  · rintro h pre tx post rfl htakes
    obtain ⟨s', r, hx, howner⟩ := exec_of_takes env htakes
    have hzero := h (pre ++ [tx]) ⟨post, by simp⟩
    rw [run_snoc_of_ok hx, howner] at hzero
    exact tx.sender_ne hzero
  · intro h pre
    induction pre using List.reverseRecOn with
    | nil =>
      intro _
      exact hown
    | append_singleton pre tx ih =>
      rintro ⟨post, hpost⟩
      have hsplit : others = pre ++ tx :: post := by
        rw [← hpost]
        simp
      have hpre := ih ⟨tx :: post, hsplit.symm⟩
      rw [run_append]
      exact next_unowned hpre (h pre tx post hsplit)

namespace CommitReveal

variable {c : CommitReveal V}

/-- **When a commitment reserves the agent.**  A depositor commits to an agent without an owner, and
later reveals it with a valid policy; others call what they like in between.  None of them becomes the
agent's owner and the reveal makes the depositor its owner, if and only if: nobody else committed the
same hash; none of their calls was an authorization of the agent that the gateway admits; and the agent
holds neither `ADMIN_ROLE` nor `PAUSER_ROLE` when it is revealed. -/
theorem commit_reserves_iff (env : Env V) (s : State V) (hs : ∀ tx ∈ others, tx.sender ≠ c.depositor)
    (hown : s.agentOwner c.agent = 0) (hagent : c.agent ≠ 0)
    (hvalid : validatePolicy c.revealBlock c.policy = .ok ()) :
    ((∀ pre, pre <+: others → (c.after env s pre).agentOwner c.agent = 0) ∧
      ∃ s' r, exec env (c.after env s others) c.reveal = .ok (s', r) ∧
        s'.agentOwner c.agent = c.depositor) ↔
    (∀ tx ∈ others, tx.call ≠ .commitAuthorization c.hash) ∧
      (∀ pre tx post, others = pre ++ tx :: post → ¬ Takes (c.after env s pre) c.agent tx) ∧
      (c.after env s others).roles .adminRole c.agent = false ∧
      (c.after env s others).roles .pauserRole c.agent = false := by
  have hown' : (next (exec env) s c.commit).agentOwner c.agent = 0 := by
    refine next_unowned hown ?_
    rintro ⟨p, -, hc | ⟨salt, hc, -⟩⟩ <;> cases hc
  have hrun := run_unowned_iff env others hown'
  constructor
  · rintro ⟨hnone, s', r, hx, -⟩
    obtain ⟨-, hadm, -, -⟩ := revealAuthorization_eq_ok.mp hx
    refine ⟨?_, hrun.mp hnone, hadm.not_admin, hadm.not_pauser⟩
    intro tx hmem hc
    have herr : exec env (c.after env s others) c.reveal = .error (.custom .commitmentOwnerMismatch) :=
      reveal_of_usurped (usurped_of_committed hs ⟨tx, hmem, hc⟩)
    rw [herr] at hx
    cases hx
  · rintro ⟨hno, htakes, hadm, hpau⟩
    have hnone := hrun.mpr htakes
    refine ⟨hnone, ?_⟩
    have hadmitted : Admitted (c.after env s others) c.revealBlock c.agent c.policy :=
      ⟨hagent, hnone others List.prefix_rfl, hvalid, hadm, hpau⟩
    exact exec_of_takes env ⟨c.policy, hadmitted, .inr ⟨c.salt, rfl, opens_of_kept hs hno⟩⟩

theorem commit_reserves_iff_sample : ∃ s' r,
    exec mockVault (twoPhases.after mockVault deployed [bystander]) twoPhases.reveal = .ok (s', r) ∧
      s'.agentOwner 7 = 5 := by
  refine ((commit_reserves_iff mockVault deployed (by decide) rfl (by decide) rfl).mpr
    ⟨?_, ?_, by decide, by decide⟩).2
  · intro tx htx
    rw [List.mem_singleton.mp htx]
    intro h
    injection h with h
    exact absurd h (by decide)
  · intro pre tx post hsplit
    have htx : tx ∈ [bystander] := by
      rw [hsplit]
      simp
    rw [List.mem_singleton.mp htx]
    rintro ⟨p, -, h | ⟨salt, h, -⟩⟩ <;> cases h

/-- Somebody else sees the reveal and authorizes the agent directly, in the same block. -/
def frontRunning : Tx (GatewayCall Unit) :=
  .of 6 (.of 12 1024) (.authorizeAgent 7 upTo100)

/-- She owns the agent, and the depositor's reveal fails. -/
theorem commit_front_run : frontRunning.sender ≠ twoPhases.depositor ∧ deployed.agentOwner 7 = 0 ∧
    (twoPhases.after mockVault deployed [frontRunning]).agentOwner 7 = 6 ∧
    exec mockVault (twoPhases.after mockVault deployed [frontRunning]) twoPhases.reveal =
      .error (.custom .agentAlreadyOwned) :=
  ⟨by decide, rfl, by decide, reason_eq_some.mp (by decide)⟩

end CommitReveal

end RobotMoney.Gateway
