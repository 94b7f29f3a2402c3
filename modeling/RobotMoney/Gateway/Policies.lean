import RobotMoney.Gateway.Authority

/-!
# Policies

What the gateway has on record for an address is the blank policy or one that passed
`_validatePolicy`.  A caller whose policy is blank is stopped by its caps, which are zero, before the
gateway looks at `active`; so the error `AgentNotAuthorized` is never seen, whoever holds the role.

The second half is about the list of allowed destinations: `depositTo` keeps to it, `deposit` does not
look at it, and where the list lets the pinned vault pass the two are one function.
-/

namespace RobotMoney.Gateway

open RobotMoney.Lib State

variable {V : Type} {env : Env V} {s s' : State V} {r : Receipt} {tx : Tx (GatewayCall V)} {b : Block}
  {p : AgentPolicy}

/-! ### Stored policies -/

/-- What a stored policy satisfies, its expiry apart. -/
structure ValidPolicy (p : AgentPolicy) : Prop where
  active : p.active = true
  shareReceiver : p.shareReceiver ≠ 0
  maxPerPayment : 0 < p.maxPerPayment
  maxPerWindow : p.maxPerPayment ≤ p.maxPerWindow
  withdrawal : 0 < p.maxWithdrawPerPayment →
    p.assetRecipient ≠ 0 ∧ p.maxWithdrawPerPayment ≤ p.maxWithdrawPerWindow

theorem validatePolicy_valid {u : Unit} (h : validatePolicy b p = .ok u) : ValidPolicy p := by
  unfold validatePolicy at h
  simp only [bind_eq_ok, revertIf_eq_ok, exists_const, not_or, Bool.not_eq_false, Nat.not_lt] at h
  obtain ⟨hrecv, hact, -, ⟨hpay, -⟩, hwindow, h⟩ := h
  refine ⟨hact, hrecv, Nat.pos_of_ne_zero hpay, hwindow, ?_⟩
  intro hpos
  rw [if_pos hpos] at h
  simp only [bind_eq_ok, revertIf_eq_ok, exists_const, Nat.not_lt] at h
  exact ⟨h.1, h.2.2⟩

/-- Every record is blank or valid. -/
def PoliciesValid (s : State V) : Prop :=
  ∀ a, s.agents a = AgentPolicy.none ∨ ValidPolicy (s.agents a)

/-- One record replaced. -/
theorem PoliciesValid.update (h : PoliciesValid s) {agent : Address}
    (hp : p = AgentPolicy.none ∨ ValidPolicy p)
    (hs : s'.agents = Function.update s.agents agent p) : PoliciesValid s' := by
  intro a
  rw [hs]
  by_cases ha : a = agent
  · subst ha
    rw [Function.update_self]
    exact hp
  · rw [Function.update_of_ne ha]
    exact h a

theorem PoliciesValid.step (h : PoliciesValid s) (he : Effect env s tx s' r) : PoliciesValid s' := by
  cases he with
  | authorized hc ha => exact h.update (.inr (validatePolicy_valid ha.valid)) rfl
  | revealed hc ho ha => exact h.update (.inr (validatePolicy_valid ha.valid)) rfl
  | policySet hc ho hv => exact h.update (.inr (validatePolicy_valid hv)) rfl
  | revoked hc ho hr => exact h.update (.inl rfl) rfl
  | paid hc hp =>
    intro a
    rw [hp.agents_eq]
    exact h a
  | committed | paused | roles | elsewhere => exact h

theorem deploy_agents {vaultAsset admin pauser : Address} {world : World V}
    (h : deploy env vaultAsset admin pauser world = .ok s) : s.agents = fun _ => AgentPolicy.none := by
  obtain ⟨_, _, t, -, -, -, rfl⟩ := deploy_ok h
  rfl

theorem run_policiesValid {vaultAsset admin pauser : Address} {world : World V} {s₀ : State V}
    (h₀ : deploy env vaultAsset admin pauser world = .ok s₀) (txs : List (Tx (GatewayCall V))) :
    PoliciesValid (run (exec env) s₀ txs) := by
  refine run_invariant (P := fun s _ => PoliciesValid s) ?_ ?_
  · intro a
    rw [deploy_agents h₀]
    exact .inl rfl
  · intro pre tx post s' r _ h hx
    exact h.step (exec_effect hx)

/-! ### An error that is never seen -/

section Avoids

variable {w : World V} {amount : ℕ} {e : GatewayError}

theorem checkDeadline_avoids {deadline : ℕ} (h₁ : e ≠ .deadlineExpired) (h₂ : e ≠ .deadlineTooFar) :
    Avoids e (checkDeadline b deadline) := by
  unfold checkDeadline
  exact .bind (.of_revertIf h₁.symm) fun _ _ => .of_revertIf h₂.symm

/-- An active policy passes the check of `active`. -/
theorem checkPolicy_avoids (h : p.active = true) : Avoids .agentNotAuthorized (checkPolicy b p) := by
  unfold checkPolicy
  rw [revertIf_neg (by simp [h])]
  exact .of_revertIf (by decide)

theorem accrue_avoids {window : RollingWindow} {exceeded : GatewayError} {cap : ℕ} (h : exceeded ≠ e) :
    Avoids e (window.accrue exceeded b amount cap) := by
  unfold RollingWindow.accrue
  exact .bind addU_avoids fun _ _ => .bind (.of_revertIf h) fun _ _ => .of_ok

theorem forceApprove_avoids {spender : Address} : Avoids e (forceApprove env w spender amount) := by
  unfold forceApprove
  exact .bind Token.approve_avoids fun _ _ => .of_ok

theorem pullUsdc_avoids {agent : Address} (h : e ≠ .feeOnTransferDetected) :
    Avoids e (pullUsdc env w agent amount) := by
  unfold pullUsdc
  refine .bind Token.transferFrom_avoids fun _ _ => .bind subU_avoids fun _ _ => ?_
  exact .bind (.of_revertIf h.symm) fun _ _ => .of_ok

theorem vaultLeg_avoids {receiver : Address} : Avoids e (vaultLeg env w amount receiver) := by
  unfold vaultLeg
  refine .bind forceApprove_avoids fun _ _ => .bind .of_inner fun _ _ => ?_
  exact .bind forceApprove_avoids fun _ _ => .of_ok

theorem checkNoShares_avoids (h : e ≠ .shareCustodyInvariantViolated) :
    Avoids e (checkNoShares env w) :=
  .of_revertIf h.symm

theorem checkUsdc_avoids {balBefore : ℕ} (h : e ≠ .shareCustodyInvariantViolated) :
    Avoids e (checkUsdc env w balBefore) :=
  .of_revertIf h.symm

theorem executeDeposit_avoids {isRouter : Bool} {sender receiver : Address} {id orderId : Bytes32}
    {balBefore : ℕ} {mins : List ℕ} (h : e ≠ .shareCustodyInvariantViolated) :
    Avoids e (executeDeposit env isRouter w b sender id orderId receiver amount balBefore mins) := by
  unfold executeDeposit
  split
  · unfold executeRouterDeposit
    refine .bind forceApprove_avoids fun _ _ => .bind .of_inner fun _ _ => ?_
    exact .bind forceApprove_avoids fun _ _ => .bind (checkUsdc_avoids h) fun _ _ => .of_ok
  · unfold executeVaultDeposit
    refine .bind (checkNoShares_avoids h) fun _ _ => .bind vaultLeg_avoids fun _ _ => ?_
    exact .bind (checkNoShares_avoids h) fun _ _ => .bind (checkUsdc_avoids h) fun _ _ => .of_ok

end Avoids

section Unreachable

variable {sender : Address} {orderId key : Bytes32} {amount deadline : ℕ}

/-- A positive payment cap is that of an active policy. -/
theorem active_of_cap (h : p = AgentPolicy.none ∨ ValidPolicy p) {side : Side}
    (hpos : 0 < side.paymentCap p) : p.active = true := by
  rcases h with rfl | h
  · cases side <;> exact absurd hpos (Nat.lt_irrefl 0)
  · exact h.active

/-- What has passed the checks of the amount is positive and within the cap, so the cap is positive. -/
theorem active_of_amount {e e' : GatewayError} {u u' : Unit} (h : p = AgentPolicy.none ∨ ValidPolicy p)
    (hamount : revertIf (amount = 0) e = .ok u) (hcap : revertIf (p.maxPerPayment < amount) e' = .ok u') :
    p.active = true := by
  have hne := revertIf_eq_ok.mp hamount
  have hle := revertIf_eq_ok.mp hcap
  have hpos : 0 < Side.deposit.paymentCap p := by
    simp only [Side.paymentCap]
    omega
  exact active_of_cap h hpos

theorem deposit_avoids (h : s.agents sender = AgentPolicy.none ∨ ValidPolicy (s.agents sender)) :
    Avoids .agentNotAuthorized (s.deposit env b sender orderId amount deadline key) := by
  unfold State.deposit
  refine .bind Roles.check_avoids fun _ _ => .bind (.of_revertIf (by decide)) fun _ _ => ?_
  refine .bind (.of_revertIf (by decide)) fun _ hamount => ?_
  refine .bind (.of_revertIf (by decide)) fun _ hcap => ?_
  refine .bind (checkDeadline_avoids (by decide) (by decide)) fun _ _ => ?_
  refine .bind (checkPolicy_avoids (active_of_amount h hamount hcap)) fun _ _ => ?_
  refine .bind (.of_revertIf (by decide)) fun _ _ => .bind (checkNoShares_avoids (by decide)) fun _ _ => ?_
  refine .bind (.bind (accrue_avoids (by decide)) fun _ _ => .of_ok) fun _ _ => ?_
  refine .bind (pullUsdc_avoids (by decide)) fun _ _ => .bind vaultLeg_avoids fun _ _ => ?_
  refine .bind (checkNoShares_avoids (by decide)) fun _ _ => ?_
  exact .bind (checkUsdc_avoids (by decide)) fun _ _ => .of_ok

theorem depositTo_avoids (h : s.agents sender = AgentPolicy.none ∨ ValidPolicy (s.agents sender))
    {destination : Address} {mins : List ℕ} :
    Avoids .agentNotAuthorized
      (s.depositTo env b sender orderId amount deadline key destination mins) := by
  unfold State.depositTo
  refine .bind Roles.check_avoids fun _ _ => .bind (.of_revertIf (by decide)) fun _ _ => ?_
  refine .bind (.of_revertIf (by decide)) fun _ hamount => ?_
  refine .bind (.of_revertIf (by decide)) fun _ hcap => ?_
  refine .bind (checkDeadline_avoids (by decide) (by decide)) fun _ _ => ?_
  refine .bind (checkPolicy_avoids (active_of_amount h hamount hcap)) fun _ _ => ?_
  refine .bind ?_ fun _ _ => .bind (.of_revertIf (by decide)) fun _ _ => ?_
  · exact .bind (.of_revertIf (by decide)) fun _ _ => .bind (.of_revertIf (by decide)) fun _ _ => .of_ok
  refine .bind (.bind (accrue_avoids (by decide)) fun _ _ => .of_ok) fun _ _ => ?_
  refine .bind (pullUsdc_avoids (by decide)) fun _ _ => ?_
  exact .bind (executeDeposit_avoids (by decide)) fun _ _ => .of_ok

theorem withdraw_avoids (h : s.agents sender = AgentPolicy.none ∨ ValidPolicy (s.agents sender))
    {sourceVault : Address} :
    Avoids .agentNotAuthorized (s.withdraw env b sender orderId amount sourceVault deadline key) := by
  unfold State.withdraw
  refine .bind Roles.check_avoids fun _ _ => .bind (.of_revertIf (by decide)) fun _ _ => ?_
  refine .bind (.of_revertIf (by decide)) fun _ hcap => ?_
  refine .bind (.of_revertIf (by decide)) fun _ _ => .bind (.of_revertIf (by decide)) fun _ _ => ?_
  refine .bind (checkDeadline_avoids (by decide) (by decide)) fun _ _ => ?_
  have hpos : 0 < Side.withdraw.paymentCap (s.agents sender) :=
    Nat.pos_of_ne_zero (revertIf_eq_ok.mp hcap)
  refine .bind (checkPolicy_avoids (active_of_cap h hpos)) fun _ _ => ?_
  refine .bind (.of_revertIf (by decide)) fun _ _ => .bind (.of_revertIf (by decide)) fun _ _ => ?_
  refine .bind (.bind (accrue_avoids (by decide)) fun _ _ => .of_ok) fun _ _ => ?_
  refine .bind (.of_revertIf (by decide)) fun _ _ => .bind Token.transferFrom_avoids fun _ _ => ?_
  refine .bind .of_inner fun _ _ => .bind (.of_revertIf (by decide)) fun _ _ => ?_
  exact .bind (checkNoShares_avoids (by decide)) fun _ _ => .of_ok

end Unreachable

/-- **Stored policies.**  In every state the deployed gateway can reach, each address has the blank
policy or a valid one; and no call of `deposit`, `depositTo` or `withdraw`, by whomever, reverts with
`AgentNotAuthorized`. -/
theorem policies_valid {vaultAsset admin pauser : Address} {world : World V} {s₀ : State V}
    (h₀ : deploy env vaultAsset admin pauser world = .ok s₀) (txs : List (Tx (GatewayCall V))) :
    (∀ a, (run (exec env) s₀ txs).agents a = AgentPolicy.none ∨
      ValidPolicy ((run (exec env) s₀ txs).agents a)) ∧
    ∀ tx : Tx (GatewayCall V), tx.call.payment ≠ none →
      exec env (run (exec env) s₀ txs) tx ≠ .error (.custom .agentNotAuthorized) := by
  have hvalid := run_policiesValid h₀ txs
  refine ⟨hvalid, ?_⟩
  rintro ⟨b, sender, call, hsender⟩ hpay
  cases call with
  | deposit orderId amount deadline key => exact deposit_avoids (hvalid sender)
  | depositTo orderId amount deadline key destination mins => exact depositTo_avoids (hvalid sender)
  | withdraw orderId shares sourceVault deadline key => exact withdraw_avoids (hvalid sender)
  | _ => exact absurd rfl hpay

/-- An address that got the role from the admin, without a policy, is stopped by the cap of zero. -/
theorem policies_valid_sample :
    (run (exec mockVault) deployed [grant]).roles .agentRole 7 = true ∧
      exec mockVault (run (exec mockVault) deployed [grant]) payment ≠
        .error (.custom .agentNotAuthorized) ∧
      reason (exec mockVault (run (exec mockVault) deployed [grant]) payment) =
        some (.custom .amountExceedsPerPaymentCap) :=
  ⟨by decide, (policies_valid deploy_deployed [grant]).2 payment (by decide), by decide⟩

/-! ### Two ways to deposit -/

section TwoWays

variable {sender : Address} {orderId key : Bytes32} {amount deadline : ℕ}

theorem validateDestination_eq_ok {destination : Address} {allowed : List Address} {isRouter : Bool} :
    validateDestination env destination allowed = .ok isRouter ↔
      (destination = env.vaultContract ∨ env.routerContract ≠ 0 ∧ destination = env.routerContract) ∧
      (allowed = [] ∨ destination ∈ allowed) ∧
      isRouter = decide (env.routerContract ≠ 0 ∧ destination = env.routerContract) := by
  unfold validateDestination
  simp only [bind_eq_ok, revertIf_eq_ok, exists_const, pure_eq_ok, decide_eq_false_iff_not]
  constructor
  · rintro ⟨hknown, hlisted, rfl⟩
    refine ⟨?_, ?_, rfl⟩
    · by_contra hno
      obtain ⟨hvault, hrouter⟩ := not_or.mp hno
      exact hknown ⟨hvault, hrouter⟩
    · by_contra hno
      exact hlisted (not_or.mp hno)
  · rintro ⟨hknown, hlisted, rfl⟩
    refine ⟨?_, ?_, rfl⟩
    · rintro ⟨hvault, hrouter⟩
      exact hknown.elim hvault hrouter
    · rintro ⟨hne, hnot⟩
      exact hlisted.elim hne hnot

/-- The pull of USDC does not touch the shares. -/
theorem pullUsdc_shares {w w' : World V} {agent : Address} (h : pullUsdc env w agent amount = .ok w') :
    w'.shares = w.shares := by
  obtain ⟨_, -, rfl⟩ := pullUsdc_ok h
  rfl

/-- The check of the shares gives the same before and after the pull. -/
theorem checkNoShares_pull {w w' : World V} {agent : Address}
    (h : pullUsdc env w agent amount = .ok w') : checkNoShares env w' = checkNoShares env w := by
  unfold checkNoShares
  rw [pullUsdc_shares h]

/-- **The two ways agree.**  Where the router is not the pinned vault and the caller's list lets the
vault pass, `deposit` succeeds exactly when `depositTo` the vault does, with the same state, balances,
payment id and event. -/
theorem deposit_iff_depositTo (hrouter : env.routerContract = 0 ∨ env.routerContract ≠ env.vaultContract)
    (hlist : (s.agents sender).allowedDestinations = [] ∨
      env.vaultContract ∈ (s.agents sender).allowedDestinations) :
    s.deposit env b sender orderId amount deadline key = .ok (s', r) ↔
      s.depositTo env b sender orderId amount deadline key env.vaultContract [] = .ok (s', r) := by
  have hdest : validateDestination env env.vaultContract (s.agents sender).allowedDestinations =
      .ok false := by
    refine validateDestination_eq_ok.mpr ⟨.inl rfl, hlist, ?_⟩
    rw [eq_comm, decide_eq_false_iff_not]
    rintro ⟨hne, heq⟩
    exact hrouter.elim hne fun h => h heq.symm
  unfold State.deposit State.depositTo
  simp only [hdest, ok_bind, executeDeposit, Bool.false_eq_true, if_false, executeVaultDeposit,
    bind_eq_ok, pure_eq_ok, Prod.exists, Prod.mk.injEq]
  constructor
  · rintro ⟨_, h₁, _, h₂, _, h₃, _, h₄, _, h₅, _, h₆, _, h₇, _, hshares, s₁, hacc, w₁, hpull, w₂, minted,
      hleg, _, h₈, _, h₉, rfl, rfl⟩
    have hworld : s₁.world = s.world := by
      obtain ⟨_, -, rfl⟩ := accrueRollingDeposit_eq_ok.mp hacc
      exact Side.setWindow_world
    have hshares' : checkNoShares env w₁ = .ok () := by
      rw [checkNoShares_pull hpull]
      show checkNoShares env s₁.world = .ok ()
      rw [hworld]
      exact hshares
    exact ⟨_, h₁, _, h₂, _, h₃, _, h₄, _, h₅, _, h₆, _, h₇, s₁, hacc, w₁, hpull, w₂, _,
      ⟨_, hshares', w₂, minted, hleg, _, h₈, _, h₉, rfl, rfl⟩, rfl, rfl⟩
  · rintro ⟨_, h₁, _, h₂, _, h₃, _, h₄, _, h₅, _, h₆, _, h₇, s₁, hacc, w₁, hpull, w₂, _,
      ⟨_, hshares, w₃, minted, hleg, _, h₈, _, h₉, rfl, rfl⟩, rfl, rfl⟩
    have hworld : s₁.world = s.world := by
      obtain ⟨_, -, rfl⟩ := accrueRollingDeposit_eq_ok.mp hacc
      exact Side.setWindow_world
    have hshares' : checkNoShares env s.world = .ok () := by
      rw [checkNoShares_pull hpull] at hshares
      rw [← hworld]
      exact hshares
    exact ⟨_, h₁, _, h₂, _, h₃, _, h₄, _, h₅, _, h₆, _, h₇, _, hshares', s₁, hacc, w₁, hpull, w₃, minted,
      hleg, _, h₈, _, h₉, rfl, rfl⟩

end TwoWays

/-- The payment of the agent `7`, made in both ways. -/
theorem deposit_iff_depositTo_sample : ∃ s' r,
    (run (exec mockVault) deployed [authorization]).deposit mockVault (.of 13 1036) 7 (.word 1) 30 1100
      (.word 2) = .ok (s', r) ∧
    (run (exec mockVault) deployed [authorization]).depositTo mockVault (.of 13 1036) 7 (.word 1) 30 1100
      (.word 2) 3 [] = .ok (s', r) := by
  obtain ⟨⟨s', r⟩, h⟩ := succeeds_iff.mp
    (show succeeds ((run (exec mockVault) deployed [authorization]).deposit mockVault (.of 13 1036) 7
      (.word 1) 30 1100 (.word 2)) = true by decide)
  exact ⟨s', r, h, (deposit_iff_depositTo (.inl rfl) (.inl (by decide))).mp h⟩

/-! ### Allowed destinations -/

/-- The destination of a deposit: the pinned vault, or the one `depositTo` names. -/
def State.GatewayCall.destination (env : Env V) : GatewayCall V → Option Address
  | .deposit _ _ _ _ => some env.vaultContract
  | .depositTo _ _ _ _ destination _ => some destination
  | _ => none

/-- How USDC of an agent moves into a destination, under the policy `p`. -/
inductive MovesInto (env : Env V) (agent : Address) (p : AgentPolicy) (amount : ℕ) (w : World V) :
    World V → Address → Prop
  | vault {w₁ w' : World V} {minted : ℕ} (hpull : pullUsdc env w agent amount = .ok w₁)
      (hleg : vaultLeg env w₁ amount p.shareReceiver = .ok (w', minted)) :
      MovesInto env agent p amount w w' env.vaultContract
  | router {w₁ w₂ w₃ w' : World V} {mins minted : List ℕ}
      (hpull : pullUsdc env w agent amount = .ok w₁)
      (happrove : forceApprove env w₁ env.routerContract amount = .ok w₂)
      (hdeposit : env.routerDepositFor w₂ p.shareReceiver amount mins = .ok (w₃, minted))
      (hclear : forceApprove env w₃ env.routerContract 0 = .ok w') :
      MovesInto env agent p amount w w' env.routerContract

/-- The second half of a `depositTo` moves the funds into the destination. -/
theorem executeDeposit_movesInto {sender destination : Address} {w w₁ w' : World V} {id orderId : Bytes32}
    {amount balBefore : ℕ} {mins : List ℕ} {isRouter : Bool} {allowed : List Address}
    (hdest : validateDestination env destination allowed = .ok isRouter)
    (hpull : pullUsdc env w sender amount = .ok w₁)
    (h : executeDeposit env isRouter w₁ b sender id orderId p.shareReceiver amount balBefore mins =
      .ok (w', r)) : MovesInto env sender p amount w w' destination := by
  obtain ⟨hknown, -, hrouter⟩ := validateDestination_eq_ok.mp hdest
  unfold executeDeposit at h
  split at h
  · rename_i htrue
    rw [htrue, eq_comm, decide_eq_true_iff] at hrouter
    obtain ⟨w₂, w₃, minted, happrove, hdeposit, hclear, -⟩ := executeRouterDeposit_ok h
    rw [hrouter.2]
    exact .router hpull happrove hdeposit hclear
  · rename_i hfalse
    rw [Bool.not_eq_true] at hfalse
    rw [hfalse, eq_comm, decide_eq_false_iff_not] at hrouter
    obtain ⟨⟨minted, hleg⟩, -, -⟩ := executeVaultDeposit_ok h
    rw [hknown.resolve_right hrouter]
    exact .vault hpull hleg

/-- What the success of a `depositTo` says of its destination. -/
theorem depositTo_destination {sender destination : Address} {orderId key : Bytes32}
    {amount deadline : ℕ} {mins : List ℕ}
    (h : s.depositTo env b sender orderId amount deadline key destination mins = .ok (s', r)) :
    ((s.agents sender).allowedDestinations = [] ∨ destination ∈ (s.agents sender).allowedDestinations) ∧
      MovesInto env sender (s.agents sender) amount s.world s'.world destination := by
  unfold State.depositTo at h
  simp only [bind_eq_ok, Prod.exists, accrueRollingDeposit_eq_ok] at h
  obtain ⟨_, -, _, -, _, -, _, -, _, -, _, -, isRouter, hdest, _, -, _, ⟨w, -, rfl⟩, w₁, hpull, w₂, receipt,
    hdep, h⟩ := h
  obtain ⟨rfl, rfl⟩ := Prod.mk.injEq .. ▸ pure_eq_ok.mp h
  exact ⟨(validateDestination_eq_ok.mp hdest).2.1, executeDeposit_movesInto hdest hpull hdep⟩

theorem deposit_destination {sender : Address} {orderId key : Bytes32} {amount deadline : ℕ}
    (h : s.deposit env b sender orderId amount deadline key = .ok (s', r)) :
    MovesInto env sender (s.agents sender) amount s.world s'.world env.vaultContract := by
  unfold State.deposit at h
  simp only [bind_eq_ok, Prod.exists, accrueRollingDeposit_eq_ok] at h
  obtain ⟨_, -, _, -, _, -, _, -, _, -, _, -, _, -, _, -, _, ⟨w, -, rfl⟩, w₁, hpull, w₂, minted, hleg, _, -,
    _, -, h⟩ := h
  obtain ⟨rfl, rfl⟩ := Prod.mk.injEq .. ▸ pure_eq_ok.mp h
  exact .vault hpull hleg

/-- The call is no `deposit`, or one whose caller's list lets the pinned vault pass. -/
def PassesVault (env : Env V) (s : State V) (tx : Tx (GatewayCall V)) : Prop :=
  ∀ orderId amount deadline key, tx.call = .deposit orderId amount deadline key →
    (s.agents tx.sender).allowedDestinations = [] ∨
      env.vaultContract ∈ (s.agents tx.sender).allowedDestinations

/-- A successful `deposit` or `depositTo` moves the USDC into the destination of the call. -/
theorem exec_movesInto {pay : Payment} {d : Address} (hpay : tx.call.payment = some pay)
    (hd : tx.call.destination env = some d) (hx : exec env s tx = .ok (s', r)) :
    MovesInto env tx.sender (s.agents tx.sender) pay.amount s.world s'.world d := by
  obtain ⟨b, sender, call, hsender⟩ := tx
  cases call with
  | deposit orderId amount deadline key =>
    cases hd
    cases hpay
    exact deposit_destination hx
  | depositTo orderId amount deadline key destination mins =>
    cases hd
    cases hpay
    exact (depositTo_destination hx).2
  | _ => cases hd

/-- A successful call that passes keeps to the list. -/
theorem exec_allowed {d : Address} (hd : tx.call.destination env = some d)
    (hx : exec env s tx = .ok (s', r)) (hpass : PassesVault env s tx)
    (hlist : (s.agents tx.sender).allowedDestinations ≠ []) :
    d ∈ (s.agents tx.sender).allowedDestinations := by
  obtain ⟨b, sender, call, hsender⟩ := tx
  cases call with
  | deposit orderId amount deadline key =>
    cases hd
    exact (hpass _ _ _ _ rfl).resolve_left hlist
  | depositTo orderId amount deadline key destination mins =>
    cases hd
    exact (depositTo_destination hx).1.resolve_left hlist
  | _ => cases hd

/-- **Allowed destinations.**  In every run whose calls of `deposit` all come from agents whose list, if
there is one, has the pinned vault on it: each successful `deposit` or `depositTo` of an agent with a list
moves its USDC into a destination that is on the list at the time of the call.  And each successful call
of `deposit` by another agent moves its USDC into a destination that is not. -/
theorem destination_allowed (s₀ : State V) (txs : List (Tx (GatewayCall V))) :
    ((∀ pre tx post, txs = pre ++ tx :: post → PassesVault env (run (exec env) s₀ pre) tx) →
      ∀ pre tx post s' r pay d, txs = pre ++ tx :: post →
        exec env (run (exec env) s₀ pre) tx = .ok (s', r) →
        tx.call.payment = some pay → tx.call.destination env = some d →
        ((run (exec env) s₀ pre).agents tx.sender).allowedDestinations ≠ [] →
        MovesInto env tx.sender ((run (exec env) s₀ pre).agents tx.sender) pay.amount
            (run (exec env) s₀ pre).world s'.world d ∧
          d ∈ ((run (exec env) s₀ pre).agents tx.sender).allowedDestinations) ∧
    ∀ pre tx post s' r, txs = pre ++ tx :: post →
      exec env (run (exec env) s₀ pre) tx = .ok (s', r) →
      ¬ PassesVault env (run (exec env) s₀ pre) tx →
      ∃ pay, tx.call.payment = some pay ∧ tx.call.destination env = some env.vaultContract ∧
        ((run (exec env) s₀ pre).agents tx.sender).allowedDestinations ≠ [] ∧
        MovesInto env tx.sender ((run (exec env) s₀ pre).agents tx.sender) pay.amount
          (run (exec env) s₀ pre).world s'.world env.vaultContract ∧
        env.vaultContract ∉ ((run (exec env) s₀ pre).agents tx.sender).allowedDestinations := by
  refine ⟨?_, ?_⟩
  · intro hpass pre tx post s' r pay d hsplit hx hpay hd hlist
    exact ⟨exec_movesInto hpay hd hx, exec_allowed hd hx (hpass pre tx post hsplit) hlist⟩
  · intro pre tx post s' r _ hx hnot
    simp only [PassesVault, not_forall, not_or] at hnot
    obtain ⟨orderId, amount, deadline, key, hc, hlist, hvault⟩ := hnot
    have hpay : tx.call.payment = some ⟨.deposit, orderId, amount, key⟩ := by
      rw [hc]
      rfl
    have hd : tx.call.destination env = some env.vaultContract := by
      rw [hc]
      rfl
    exact ⟨_, hpay, hd, hlist, exec_movesInto hpay hd hx, hvault⟩

/-- The gateway of `mockVault` with a router at the account `4`. -/
def routedVault : Env Unit := { mockVault with routerContract := 4 }

/-- As `upTo100`, but for deposits through the router only. -/
def routerOnly : AgentPolicy := { upTo100 with allowedDestinations := [4] }

/-- As `upTo100`, but for deposits into the vault only. -/
def vaultOnly : AgentPolicy := { upTo100 with allowedDestinations := [3] }

/-- The agent may deposit through the router only, and deposits 30 units into the vault. -/
theorem deposit_off_list :
    let s := run (exec routedVault) deployed [.of 5 (.of 10 1000) (.authorizeAgent 7 routerOnly)]
    deploy routedVault 2 20 21 agentWorld = .ok deployed ∧
      (s.agents 7).allowedDestinations = [4] ∧ payment.call.destination routedVault = some 3 ∧
      ∃ s' r, exec routedVault s payment = .ok (s', r) ∧ s.world.usdc.balanceOf 7 = 1000 ∧
        s'.world.usdc.balanceOf 7 = 970 ∧ s'.world.usdc.balanceOf 3 = 30 := by
  intro s
  refine ⟨rfl, by decide, rfl, ?_⟩
  rcases hx : exec routedVault s payment with e | ⟨s', r⟩
  · have hok : succeeds (exec routedVault s payment) = true := by decide
    rw [hx] at hok
    cases hok
  · have hs' : next (exec routedVault) s payment = s' := next_of_ok hx
    refine ⟨s', r, rfl, by decide, ?_, ?_⟩
    · rw [← hs']
      decide
    · rw [← hs']
      decide

/-- With the vault on the list, the same payment keeps to it. -/
theorem destination_allowed_sample :
    let s := run (exec routedVault) deployed [.of 5 (.of 10 1000) (.authorizeAgent 7 vaultOnly)]
    ∃ s' r, exec routedVault s payment = .ok (s', r) ∧ 3 ∈ (s.agents 7).allowedDestinations := by
  intro s
  obtain ⟨⟨s', r⟩, hx⟩ := succeeds_iff.mp (show succeeds (exec routedVault s payment) = true by decide)
  refine ⟨s', r, hx, ?_⟩
  have hall := (@destination_allowed Unit routedVault s [payment]).1 ?_ [] payment [] s' r _ 3 rfl hx
    rfl rfl (by decide)
  · exact hall.2
  · refine forall_step_cons ?_ forall_step_nil
    intro _ _ _ _ _
    exact .inr (by decide)

end RobotMoney.Gateway
