import RobotMoney.Gateway.Basic

/-!
# What a call of the gateway does

Everything a successful call can do is said once here, as the relation `Effect` between the state
before, the call, and the state after, and `exec_effect` shows that the code does nothing else.  The
three entry points that move funds share one clause, `Paid`: they are *payments*, on the deposit or the
withdraw side.
-/

namespace RobotMoney.Gateway

open RobotMoney.Lib State

variable {V : Type} {env : Env V} {s s' : State V} {b : Block} {sender agent : Address}
  {p : AgentPolicy} {r : Receipt}

/-! ### Deployment -/

/-- The state a constructor leaves: nothing committed, nobody authorized, nothing paid. -/
def fresh (roles : Roles Role Address) (world : World V) : State V where
  commitments _ := ⟨0, 0⟩
  agents _ := AgentPolicy.none
  agentOwner _ := 0
  agentDepositWindow _ := ⟨0, 0⟩
  agentWithdrawWindow _ := ⟨0, 0⟩
  usedPaymentIds _ := false
  paused := false
  roles := roles
  world := world

/-- A deployed gateway is fresh, and its role table comes from three grants. -/
theorem deploy_ok {vaultAsset admin pauser : Address} {world : World V}
    (h : deploy env vaultAsset admin pauser world = .ok s) :
    ∃ t₁ t₂ t₃, grantRole (fun _ _ => false) .defaultAdminRole admin = .ok t₁ ∧
      grantRole t₁ .adminRole admin = .ok t₂ ∧ grantRole t₂ .pauserRole pauser = .ok t₃ ∧
      s = fresh t₃ world := by
  unfold deploy at h
  simp only [bind_eq_ok] at h
  obtain ⟨_, -, _, -, _, -, _, -, _, -, t₁, h₁, t₂, h₂, t₃, h₃, h⟩ := h
  cases h
  exact ⟨t₁, t₂, t₃, h₁, h₂, h₃, rfl⟩

/-! ### Authorization -/

/-- The checks of `_authorizeAgentInternal` all pass. -/
structure Admitted (s : State V) (b : Block) (agent : Address) (p : AgentPolicy) : Prop where
  agent_ne : agent ≠ 0
  unowned : s.agentOwner agent = 0
  valid : validatePolicy b p = .ok ()
  not_admin : s.roles .adminRole agent = false
  not_pauser : s.roles .pauserRole agent = false

/-- The state after an authorization. -/
def authorized (s : State V) (owner agent : Address) (p : AgentPolicy) : State V :=
  { s with
    agentOwner := Function.update s.agentOwner agent owner
    agents := Function.update s.agents agent p
    roles := s.roles.set .agentRole agent true }

theorem grantRole_agent_eq_ok {t t' : Roles Role Address} :
    grantRole t .agentRole agent = .ok t' ↔
      (t .adminRole agent = false ∧ t .pauserRole agent = false) ∧ t' = t.set .agentRole agent true := by
  unfold grantRole
  simp only [bind_eq_ok, revertIf_eq_ok, exists_const, pure_eq_ok, not_or, Bool.not_eq_true]
  constructor
  · rintro ⟨h, rfl⟩
    exact ⟨h, rfl⟩
  · rintro ⟨h, rfl⟩
    exact ⟨h, rfl⟩

theorem assertRoleSeparation_agent {t : Roles Role Address} (ha : t .adminRole agent = false)
    (hp : t .pauserRole agent = false) :
    assertRoleSeparation (t.set .agentRole agent true) agent = .ok () := by
  unfold assertRoleSeparation
  rw [Roles.set_of_ne _ _ (.inl (by decide)), Roles.set_of_ne _ _ (.inl (by decide)), Roles.set_same,
    ha, hp]
  rfl

theorem authorizeAgentInternal_eq_ok {events : List GatewayEvent} :
    s.authorizeAgentInternal b sender agent p = .ok (s', events) ↔
      Admitted s b agent p ∧ s' = authorized s sender agent p ∧
        events = [authorizedEvent agent sender p] := by
  unfold State.authorizeAgentInternal
  simp only [bind_eq_ok, revertIf_eq_ok, exists_const, not_not, pure_eq_ok, Prod.mk.injEq,
    grantRole_agent_eq_ok]
  constructor
  · rintro ⟨hne, hown, _, hval, _, ⟨⟨hadm, hpau⟩, rfl⟩, _, _, rfl, rfl⟩
    exact ⟨⟨hne, hown, hval, hadm, hpau⟩, rfl, rfl⟩
  · rintro ⟨⟨hne, hown, hval, hadm, hpau⟩, rfl, rfl⟩
    exact ⟨hne, hown, (), hval, _, ⟨⟨hadm, hpau⟩, rfl⟩, (), assertRoleSeparation_agent hadm hpau,
      rfl, rfl⟩

/-- The first four checks of `revealAuthorization` pass: the commitment is there, it is the caller's
own, and its age is right. -/
structure Opens (s : State V) (b : Block) (sender : Address) (h : Bytes32) : Prop where
  found : (s.commitments h).committer ≠ 0
  own : (s.commitments h).committer = sender
  aged : (s.commitments h).blockNumber < b.number
  unexpired : b.number ≤ (s.commitments h).blockNumber + commitExpiryBlocks

/-- The state with one commitment replaced. -/
def withCommitment (s : State V) (h : Bytes32) (c : Commitment) : State V :=
  { s with commitments := Function.update s.commitments h c }

theorem revealAuthorization_eq_ok {salt : Bytes32} :
    s.revealAuthorization b sender agent salt p = .ok (s', r) ↔
      Opens s b sender (.commitHash agent sender salt) ∧ Admitted s b agent p ∧
        s' = authorized (withCommitment s (.commitHash agent sender salt) ⟨0, 0⟩) sender agent p ∧
        r = { events := [.commitRevealed sender (.commitHash agent sender salt) agent,
          authorizedEvent agent sender p] } := by
  unfold State.revealAuthorization
  simp only [bind_eq_ok, revertIf_eq_ok, exists_const, not_not, Nat.not_le, Nat.not_lt, Prod.exists,
    authorizeAgentInternal_eq_ok, pure_eq_ok, Prod.mk.injEq]
  constructor
  · rintro ⟨hf, ho, ha, hu, _, _, ⟨hadm, rfl, rfl⟩, rfl, rfl⟩
    exact ⟨⟨hf, ho, ha, hu⟩, ⟨hadm.agent_ne, hadm.unowned, hadm.valid, hadm.not_admin,
      hadm.not_pauser⟩, rfl, rfl⟩
  · rintro ⟨⟨hf, ho, ha, hu⟩, hadm, rfl, rfl⟩
    exact ⟨hf, ho, ha, hu, _, _, ⟨⟨hadm.agent_ne, hadm.unowned, hadm.valid, hadm.not_admin,
      hadm.not_pauser⟩, rfl, rfl⟩, rfl, rfl⟩

/-! ### Payments -/

/-- The two directions of a payment. -/
inductive Side where
  | deposit
  | withdraw
  deriving DecidableEq

namespace Side

/-- The windows of a side. -/
def window : Side → State V → Address → RollingWindow
  | .deposit, s => s.agentDepositWindow
  | .withdraw, s => s.agentWithdrawWindow

/-- The window cap of a side: `maxPerWindow`, `maxWithdrawPerWindow`. -/
def windowCap : Side → AgentPolicy → ℕ
  | .deposit, p => p.maxPerWindow
  | .withdraw, p => p.maxWithdrawPerWindow

/-- The payment cap of a side: `maxPerPayment`, `maxWithdrawPerPayment`. -/
def paymentCap : Side → AgentPolicy → ℕ
  | .deposit, p => p.maxPerPayment
  | .withdraw, p => p.maxWithdrawPerPayment

/-- The error of a side's window. -/
def exceeded : Side → GatewayError
  | .deposit => .windowCapExceeded
  | .withdraw => .withdrawWindowCapExceeded

/-- The state with one window of a side replaced. -/
def setWindow (side : Side) (s : State V) (agent : Address) (w : RollingWindow) : State V :=
  match side with
  | .deposit => { s with agentDepositWindow := Function.update s.agentDepositWindow agent w }
  | .withdraw => { s with agentWithdrawWindow := Function.update s.agentWithdrawWindow agent w }

variable {side : Side} {w : RollingWindow}

theorem window_setWindow (o : Side) (a : Address) :
    o.window (side.setWindow s agent w) a =
      if o = side ∧ a = agent then w else o.window s a := by
  cases o <;> cases side <;> by_cases ha : a = agent <;> simp [window, setWindow, ha]

@[simp] theorem setWindow_agents : (side.setWindow s agent w).agents = s.agents := by
  cases side <;> rfl

@[simp] theorem setWindow_agentOwner : (side.setWindow s agent w).agentOwner = s.agentOwner := by
  cases side <;> rfl

@[simp] theorem setWindow_commitments : (side.setWindow s agent w).commitments = s.commitments := by
  cases side <;> rfl

@[simp] theorem setWindow_usedPaymentIds :
    (side.setWindow s agent w).usedPaymentIds = s.usedPaymentIds := by
  cases side <;> rfl

@[simp] theorem setWindow_roles : (side.setWindow s agent w).roles = s.roles := by
  cases side <;> rfl

@[simp] theorem setWindow_world : (side.setWindow s agent w).world = s.world := by
  cases side <;> rfl

end Side

/-- A payment: what the three entry points have in common. -/
structure Payment where
  side : Side
  orderId : Bytes32
  amount : ℕ
  key : Bytes32

/-- The payment a call makes, if it is one of the three entry points that pay. -/
def State.GatewayCall.payment : GatewayCall V → Option Payment
  | .deposit orderId amount _ key => some ⟨.deposit, orderId, amount, key⟩
  | .depositTo orderId amount _ key _ _ => some ⟨.deposit, orderId, amount, key⟩
  | .withdraw orderId shares _ _ key => some ⟨.withdraw, orderId, shares, key⟩
  | _ => none

/-- How the funds of a payment move, under the policy `p`. -/
inductive Settles (env : Env V) (agent : Address) (p : AgentPolicy) (w : World V) :
    Payment → World V → Prop
  /-- USDC of the agent goes into the vault, whose shares go to the policy's receiver -/
  | vault {orderId key : Bytes32} {amount minted : ℕ} {w₁ w' : World V}
      (hpull : pullUsdc env w agent amount = .ok w₁)
      (hleg : vaultLeg env w₁ amount p.shareReceiver = .ok (w', minted)) :
      Settles env agent p w ⟨.deposit, orderId, amount, key⟩ w'
  /-- USDC of the agent goes through the router, and the shares to the policy's receiver -/
  | router {orderId key : Bytes32} {amount : ℕ} {mins minted : List ℕ} {w₁ w₂ w₃ w' : World V}
      (hpull : pullUsdc env w agent amount = .ok w₁)
      (happrove : forceApprove env w₁ env.routerContract amount = .ok w₂)
      (hdeposit : env.routerDepositFor w₂ p.shareReceiver amount mins = .ok (w₃, minted))
      (hclear : forceApprove env w₃ env.routerContract 0 = .ok w') :
      Settles env agent p w ⟨.deposit, orderId, amount, key⟩ w'
  /-- shares of the agent are redeemed, and the USDC goes to the policy's recipient -/
  | redeem {orderId key : Bytes32} {shares assetsOut : ℕ} {token : Token Address} {w' : World V}
      (hpull : (w.shares.transferFrom env.self agent env.self shares : Call GatewayError _) = .ok token)
      (hredeem : env.vaultRedeem { w with shares := token } shares p.assetRecipient env.self =
        .ok (w', assetsOut)) :
      Settles env agent p w ⟨.withdraw, orderId, shares, key⟩ w'

/-- What the success of a payment says. -/
structure Paid (env : Env V) (s : State V) (b : Block) (agent : Address) (pay : Payment)
    (s' : State V) (r : Receipt) : Prop where
  role : s.roles .agentRole agent = true
  active : (s.agents agent).active = true
  unexpired : b.timestamp ≤ (s.agents agent).validUntil
  amount_pos : 0 < pay.amount
  amount_le : pay.amount ≤ pay.side.paymentCap (s.agents agent)
  unused : s.usedPaymentIds (paymentId env agent pay.orderId pay.amount pay.key) = false
  paymentId_eq : r.paymentId = some (paymentId env agent pay.orderId pay.amount pay.key)
  settles : Settles env agent (s.agents agent) s.world pay s'.world
  state : ∃ w, (pay.side.window s agent).accrue pay.side.exceeded b pay.amount
      (pay.side.windowCap (s.agents agent)) = .ok w ∧
    s' = { (pay.side.setWindow s agent w).markUsed
      (paymentId env agent pay.orderId pay.amount pay.key) with world := s'.world }

/-! A payment touches windows, used ids and the world; the rest of the storage stays. -/

section Frame

variable {pay : Payment}

theorem Paid.agents_eq (h : Paid env s b agent pay s' r) : s'.agents = s.agents := by
  obtain ⟨w, -, hs'⟩ := h.state
  rw [hs']
  exact Side.setWindow_agents

theorem Paid.agentOwner_eq (h : Paid env s b agent pay s' r) : s'.agentOwner = s.agentOwner := by
  obtain ⟨w, -, hs'⟩ := h.state
  rw [hs']
  exact Side.setWindow_agentOwner

theorem Paid.roles_eq (h : Paid env s b agent pay s' r) : s'.roles = s.roles := by
  obtain ⟨w, -, hs'⟩ := h.state
  rw [hs']
  exact Side.setWindow_roles

theorem Paid.commitments_eq (h : Paid env s b agent pay s' r) : s'.commitments = s.commitments := by
  obtain ⟨w, -, hs'⟩ := h.state
  rw [hs']
  exact Side.setWindow_commitments

end Frame

theorem checkPolicy_eq_ok {u : Unit} :
    checkPolicy b p = .ok u ↔ p.active = true ∧ b.timestamp ≤ p.validUntil := by
  unfold checkPolicy
  simp only [bind_eq_ok, revertIf_eq_ok, exists_const, Bool.not_eq_false, Nat.not_lt]

theorem accrueRollingDeposit_eq_ok {amount cap : ℕ} :
    s.accrueRollingDeposit b agent amount cap = .ok s' ↔
      ∃ w, (Side.deposit.window s agent).accrue Side.deposit.exceeded b amount cap = .ok w ∧
        Side.deposit.setWindow s agent w = s' := by
  unfold State.accrueRollingDeposit
  simp only [bind_eq_ok, pure_eq_ok, Side.window, Side.exceeded, Side.setWindow]

theorem accrueRollingWithdraw_eq_ok {amount cap : ℕ} :
    s.accrueRollingWithdraw b agent amount cap = .ok s' ↔
      ∃ w, (Side.withdraw.window s agent).accrue Side.withdraw.exceeded b amount cap = .ok w ∧
        Side.withdraw.setWindow s agent w = s' := by
  unfold State.accrueRollingWithdraw
  simp only [bind_eq_ok, pure_eq_ok, Side.window, Side.exceeded, Side.setWindow]

theorem pullUsdc_ok {w w' : World V} {amount : ℕ} (h : pullUsdc env w agent amount = .ok w') :
    ∃ usdc, (w.usdc.transferFrom env.self agent env.self amount : Call GatewayError _) = .ok usdc ∧
      w' = { w with usdc } := by
  unfold pullUsdc at h
  simp only [bind_eq_ok, pure_eq_ok] at h
  obtain ⟨usdc, htake, _, -, _, -, rfl⟩ := h
  exact ⟨usdc, htake, rfl⟩

theorem forceApprove_eq_ok {w w' : World V} {spender : Address} {v : ℕ} :
    forceApprove env w spender v = .ok w' ↔
      env.self ≠ 0 ∧ spender ≠ 0 ∧ w' = { w with usdc := w.usdc.setAllowance env.self spender v } := by
  unfold forceApprove
  simp only [bind_eq_ok, pure_eq_ok, Token.approve_eq_ok]
  constructor
  · rintro ⟨t, ⟨hself, hspender, rfl⟩, rfl⟩
    exact ⟨hself, hspender, rfl⟩
  · rintro ⟨hself, hspender, rfl⟩
    exact ⟨_, ⟨hself, hspender, rfl⟩, rfl⟩

theorem deposit_paid {orderId key : Bytes32} {amount deadline : ℕ}
    (h : s.deposit env b sender orderId amount deadline key = .ok (s', r)) :
    Paid env s b sender ⟨.deposit, orderId, amount, key⟩ s' r := by
  unfold State.deposit at h
  simp only [bind_eq_ok, revertIf_eq_ok, Roles.check_eq_ok, exists_const, Nat.not_lt,
    checkPolicy_eq_ok, accrueRollingDeposit_eq_ok, Prod.exists, Bool.not_eq_true] at h
  obtain ⟨hrole, -, hpos, hle, _, -, ⟨hact, hval⟩, hused, _, -, _, ⟨w, hacc, rfl⟩, world₁, hpull,
    world₂, minted, hleg, _, -, _, -, h⟩ := h
  obtain ⟨rfl, rfl⟩ := Prod.mk.injEq .. ▸ pure_eq_ok.mp h
  exact
    { role := hrole
      active := hact
      unexpired := hval
      amount_pos := Nat.pos_of_ne_zero hpos
      amount_le := hle
      unused := hused
      paymentId_eq := rfl
      settles := .vault hpull hleg
      state := ⟨w, hacc, rfl⟩ }

/-- The router's path of a `depositTo`. -/
theorem executeRouterDeposit_ok {w w' : World V} {id orderId : Bytes32} {receiver : Address}
    {amount balBefore : ℕ} {mins : List ℕ}
    (h : executeRouterDeposit env w b sender id orderId receiver amount balBefore mins = .ok (w', r)) :
    ∃ w₁ w₂ minted, forceApprove env w env.routerContract amount = .ok w₁ ∧
      env.routerDepositFor w₁ receiver amount mins = .ok (w₂, minted) ∧
      forceApprove env w₂ env.routerContract 0 = .ok w' ∧ r.paymentId = some id := by
  unfold executeRouterDeposit at h
  simp only [bind_eq_ok, inner_eq_ok, Prod.exists] at h
  obtain ⟨w₁, happrove, w₂, minted, hdeposit, w₃, hclear, _, -, h⟩ := h
  obtain ⟨rfl, rfl⟩ := Prod.mk.injEq .. ▸ pure_eq_ok.mp h
  exact ⟨w₁, w₂, minted, happrove, hdeposit, hclear, rfl⟩

/-- The vault's path of a `depositTo`, which ends without shares in the gateway. -/
theorem executeVaultDeposit_ok {w w' : World V} {id orderId : Bytes32} {receiver : Address}
    {amount balBefore : ℕ}
    (h : executeVaultDeposit env w b sender id orderId receiver amount balBefore = .ok (w', r)) :
    (∃ minted, vaultLeg env w amount receiver = .ok (w', minted)) ∧
      w'.shares.balanceOf env.self = 0 ∧ r.paymentId = some id := by
  unfold executeVaultDeposit at h
  simp only [bind_eq_ok, Prod.exists, checkNoShares, revertIf_eq_ok, exists_const, not_not] at h
  obtain ⟨-, w₁, minted, hleg, hshares, _, -, h⟩ := h
  obtain ⟨rfl, rfl⟩ := Prod.mk.injEq .. ▸ pure_eq_ok.mp h
  exact ⟨⟨minted, hleg⟩, hshares, rfl⟩

/-- How the second half of a `depositTo` moves the funds. -/
theorem executeDeposit_settles (key : Bytes32) {isRouter : Bool} {w w₁ w' : World V}
    {id orderId : Bytes32} {amount balBefore : ℕ} {mins : List ℕ} (hpull : pullUsdc env w sender amount = .ok w₁)
    (h : executeDeposit env isRouter w₁ b sender id orderId p.shareReceiver amount balBefore mins =
      .ok (w', r)) :
    Settles env sender p w ⟨.deposit, orderId, amount, key⟩ w' ∧ r.paymentId = some id := by
  unfold executeDeposit at h
  split at h
  · obtain ⟨w₂, w₃, minted, happrove, hdeposit, hclear, hid⟩ := executeRouterDeposit_ok h
    exact ⟨.router hpull happrove hdeposit hclear, hid⟩
  · obtain ⟨⟨minted, hleg⟩, -, hid⟩ := executeVaultDeposit_ok h
    exact ⟨.vault hpull hleg, hid⟩

theorem depositTo_paid {orderId key : Bytes32} {amount deadline : ℕ} {destination : Address}
    {mins : List ℕ}
    (h : s.depositTo env b sender orderId amount deadline key destination mins = .ok (s', r)) :
    Paid env s b sender ⟨.deposit, orderId, amount, key⟩ s' r := by
  unfold State.depositTo at h
  simp only [bind_eq_ok, revertIf_eq_ok, Roles.check_eq_ok, exists_const, Nat.not_lt,
    checkPolicy_eq_ok, accrueRollingDeposit_eq_ok, Prod.exists, Bool.not_eq_true] at h
  obtain ⟨hrole, -, hpos, hle, _, -, ⟨hact, hval⟩, isRouter, -, hused, _, ⟨w, hacc, rfl⟩, world₁,
    hpull, world₂, receipt, hdep, h⟩ := h
  obtain ⟨rfl, rfl⟩ := Prod.mk.injEq .. ▸ pure_eq_ok.mp h
  obtain ⟨hsettles, hid⟩ := executeDeposit_settles key hpull hdep
  exact
    { role := hrole
      active := hact
      unexpired := hval
      amount_pos := Nat.pos_of_ne_zero hpos
      amount_le := hle
      unused := hused
      paymentId_eq := hid
      settles := hsettles
      state := ⟨w, hacc, rfl⟩ }

theorem withdraw_paid {orderId key : Bytes32} {shares deadline : ℕ} {sourceVault : Address}
    (h : s.withdraw env b sender orderId shares sourceVault deadline key = .ok (s', r)) :
    Paid env s b sender ⟨.withdraw, orderId, shares, key⟩ s' r := by
  unfold State.withdraw at h
  simp only [bind_eq_ok, revertIf_eq_ok, Roles.check_eq_ok, exists_const, Nat.not_lt, inner_eq_ok,
    checkPolicy_eq_ok, accrueRollingWithdraw_eq_ok, Prod.exists, Bool.not_eq_true] at h
  obtain ⟨hrole, -, -, hpos, hle, _, -, ⟨hact, hval⟩, -, -, _, ⟨w, hacc, rfl⟩, hused, token, hpull,
    world', out, hredeem, -, _, -, h⟩ := h
  obtain ⟨rfl, rfl⟩ := Prod.mk.injEq .. ▸ pure_eq_ok.mp h
  exact
    { role := hrole
      active := hact
      unexpired := hval
      amount_pos := Nat.pos_of_ne_zero hpos
      amount_le := hle
      unused := hused
      paymentId_eq := rfl
      settles := .redeem hpull hredeem
      state := ⟨w, hacc, rfl⟩ }

/-! ### Every call -/

/-- What a successful call does. -/
inductive Effect (env : Env V) (s : State V) (tx : Tx (GatewayCall V)) : State V → Receipt → Prop
  | committed {h : Bytes32} {events : List GatewayEvent} (hc : tx.call = .commitAuthorization h) :
      Effect env s tx (withCommitment s h ⟨tx.sender, tx.block.number⟩) { events }
  | authorized {agent : Address} {p : AgentPolicy} {events : List GatewayEvent}
      (hc : tx.call = .authorizeAgent agent p) (ha : Admitted s tx.block agent p) :
      Effect env s tx (authorized s tx.sender agent p) { events }
  | revealed {agent : Address} {salt : Bytes32} {p : AgentPolicy} {events : List GatewayEvent}
      (hc : tx.call = .revealAuthorization agent salt p)
      (ho : Opens s tx.block tx.sender (.commitHash agent tx.sender salt))
      (ha : Admitted s tx.block agent p) :
      Effect env s tx
        (Gateway.authorized (withCommitment s (.commitHash agent tx.sender salt) ⟨0, 0⟩) tx.sender
          agent p) { events }
  | policySet {agent : Address} {p : AgentPolicy} {events : List GatewayEvent}
      (hc : tx.call = .setPolicy agent p) (ho : s.agentOwner agent = tx.sender)
      (hv : validatePolicy tx.block p = .ok ()) :
      Effect env s tx { s with agents := Function.update s.agents agent p } { events }
  | revoked {agent : Address} {roles : Roles Role Address} {events : List GatewayEvent}
      (hc : tx.call = .revokeAgent agent) (ho : s.agentOwner agent = tx.sender)
      (hr : ∀ role a, role ≠ .agentRole → roles role a = s.roles role a) :
      Effect env s tx
        { s with
          agents := Function.update s.agents agent AgentPolicy.none
          agentOwner := Function.update s.agentOwner agent 0
          roles } { events }
  | paused {paused : Bool} {events : List GatewayEvent} (hc : tx.call = .pause ∨ tx.call = .unpause) :
      Effect env s tx { s with paused } { events }
  | paid {pay : Payment} {s' : State V} {r : Receipt} (hc : tx.call.payment = some pay)
      (hp : Paid env s tx.block tx.sender pay s' r) : Effect env s tx s' r
  | roles {roles : Roles Role Address} {events : List GatewayEvent}
      (hc : (∃ role a, tx.call = .grantRole role a) ∨ (∃ role a, tx.call = .revokeRole role a) ∨
        ∃ role a, tx.call = .renounceRole role a) : Effect env s tx { s with roles } { events }
  | elsewhere {world : World V} {events : List GatewayEvent} (hc : tx.call = .elsewhere world) :
      Effect env s tx { s with world } { events }

theorem onRoles_eq_ok {x : Call GatewayError (Roles Role Address)}
    (h : s.onRoles x = .ok (s', r)) : ∃ roles, s' = { s with roles } ∧ r = { events := [] } := by
  unfold State.onRoles at h
  obtain ⟨roles, -, h⟩ := bind_eq_ok.mp h
  obtain ⟨rfl, rfl⟩ := Prod.mk.injEq .. ▸ pure_eq_ok.mp h
  exact ⟨roles, rfl, rfl⟩

/-- The roles a revocation leaves: only holders of `AGENT_ROLE` may differ. -/
theorem revoked_roles (t : Roles Role Address) (agent : Address) (role : Role) (a : Address)
    (h : role ≠ .agentRole) :
    (if t .agentRole agent then t.set .agentRole agent false else t) role a = t role a := by
  split
  · exact Roles.set_of_ne _ _ (.inl h)
  · rfl

/-- A successful call has one of the effects. -/
theorem exec_effect {tx : Tx (GatewayCall V)} (h : s.exec env tx = .ok (s', r)) :
    Effect env s tx s' r := by
  obtain ⟨b, sender, call, hsender⟩ := tx
  unfold State.exec at h
  cases call with
  | commitAuthorization commitHash =>
    obtain ⟨rfl, rfl⟩ := Prod.mk.injEq .. ▸ pure_eq_ok.mp h
    exact .committed rfl
  | revealAuthorization agent salt p =>
    obtain ⟨ho, ha, rfl, rfl⟩ := revealAuthorization_eq_ok.mp h
    exact .revealed rfl ho ha
  | authorizeAgent agent p =>
    obtain ⟨⟨s₁, events⟩, h₁, h⟩ := bind_eq_ok.mp h
    obtain ⟨ha, rfl, -⟩ := authorizeAgentInternal_eq_ok.mp h₁
    obtain ⟨rfl, rfl⟩ := Prod.mk.injEq .. ▸ pure_eq_ok.mp h
    exact .authorized rfl ha
  | setPolicy agent p =>
    simp only [State.setPolicy, bind_eq_ok, revertIf_eq_ok, exists_const, not_not] at h
    obtain ⟨-, ho, _, hv, h⟩ := h
    obtain ⟨rfl, rfl⟩ := Prod.mk.injEq .. ▸ pure_eq_ok.mp h
    exact .policySet rfl ho hv
  | revokeAgent agent =>
    simp only [State.revokeAgent, bind_eq_ok, revertIf_eq_ok, exists_const, not_not] at h
    obtain ⟨-, ho, h⟩ := h
    obtain ⟨rfl, rfl⟩ := Prod.mk.injEq .. ▸ pure_eq_ok.mp h
    exact .revoked rfl ho (revoked_roles s.roles agent)
  | pause =>
    simp only [State.pause, bind_eq_ok] at h
    obtain ⟨-, -, -, -, h⟩ := h
    obtain ⟨rfl, rfl⟩ := Prod.mk.injEq .. ▸ pure_eq_ok.mp h
    exact .paused (.inl rfl)
  | unpause =>
    simp only [State.unpause, bind_eq_ok] at h
    obtain ⟨-, -, -, -, h⟩ := h
    obtain ⟨rfl, rfl⟩ := Prod.mk.injEq .. ▸ pure_eq_ok.mp h
    exact .paused (.inr rfl)
  | deposit orderId amount deadline key => exact .paid rfl (deposit_paid h)
  | depositTo orderId amount deadline key destination mins => exact .paid rfl (depositTo_paid h)
  | withdraw orderId shares sourceVault deadline key => exact .paid rfl (withdraw_paid h)
  | grantRole role account =>
    obtain ⟨roles, rfl, rfl⟩ := onRoles_eq_ok h
    exact .roles (.inl ⟨role, account, rfl⟩)
  | revokeRole role account =>
    obtain ⟨roles, rfl, rfl⟩ := onRoles_eq_ok h
    exact .roles (.inr (.inl ⟨role, account, rfl⟩))
  | renounceRole role confirmation =>
    obtain ⟨roles, rfl, rfl⟩ := onRoles_eq_ok h
    exact .roles (.inr (.inr ⟨role, confirmation, rfl⟩))
  | elsewhere world =>
    cases h
    exact .elsewhere rfl

/-- Every call but the three that pay has no payment id. -/
theorem Effect.paymentId_none {tx : Tx (GatewayCall V)} (h : Effect env s tx s' r)
    (hc : tx.call.payment = none) : r.paymentId = none := by
  cases h with
  | paid hpay =>
    rw [hc] at hpay
    cases hpay
  | _ => rfl

/-- A call that pays has the effect of its payment. -/
theorem Effect.paid_of_payment {tx : Tx (GatewayCall V)} {pay : Payment} (h : Effect env s tx s' r)
    (hpay : tx.call.payment = some pay) : Paid env s tx.block tx.sender pay s' r := by
  cases h with
  | paid hc hp =>
    rw [hpay] at hc
    cases hc
    exact hp
  | committed hc | authorized hc | revealed hc | policySet hc | revoked hc | elsewhere hc =>
    rw [hc] at hpay
    cases hpay
  | paused hc =>
    rcases hc with hc | hc <;> rw [hc] at hpay <;> cases hpay
  | roles hc =>
    rcases hc with ⟨_, _, hc⟩ | ⟨_, _, hc⟩ | ⟨_, _, hc⟩ <;> rw [hc] at hpay <;> cases hpay

/-- A call of the gateway that is no payment leaves the world. -/
theorem Effect.world_eq {tx : Tx (GatewayCall V)} (h : Effect env s tx s' r)
    (hpay : tx.call.payment = none) (helse : ∀ world, tx.call ≠ .elsewhere world) :
    s'.world = s.world := by
  cases h with
  | paid hc =>
    rw [hpay] at hc
    cases hc
  | elsewhere hc => exact absurd hc (helse _)
  | _ => rfl

/-- After a revocation the agent has no owner. -/
theorem exec_revokeAgent {tx : Tx (GatewayCall V)} (hc : tx.call = .revokeAgent agent)
    (h : s.exec env tx = .ok (s', r)) : s'.agentOwner agent = 0 := by
  unfold State.exec at h
  rw [hc] at h
  simp only [State.revokeAgent, bind_eq_ok] at h
  obtain ⟨_, -, _, -, h⟩ := h
  cases h
  exact Function.update_self ..

end RobotMoney.Gateway
