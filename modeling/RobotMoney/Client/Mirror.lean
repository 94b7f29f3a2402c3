import RobotMoney.Client.Preflight
import RobotMoney.Gateway.Funds

/-!
# The preflight and the gateway

Two checkers for one payment: the client's preflight, and the gateway's own checks up to the pull of the
funds (`admitDeposit`, `admitWithdraw`).  Both are read off as conditions on the same state, in the same
block, and compared.

* The preflight does not ask for all that the gateway asks for: not for the role, not for an amount, not
  for a gateway without shares, and it adds where it saturates and the gateway reverts.  What is missing
  is exactly `deposit_admitted_iff` and `withdraw_admitted_iff`.
* It asks for nothing that the gateway does not ask for: `preflight_never_refuses`.
-/

namespace RobotMoney.Client

open RobotMoney.Lib
open RobotMoney.Gateway

variable {V : Type}

/-! ### The gateway up to the pull -/

/-- `deposit` up to the pull of USDC, and with it: the storage written, and the world after it. -/
def admitDeposit (env : Env V) (s : State V) (b : Block) (sender : Address) (orderId : Bytes32)
    (amount deadline : ℕ) (key : Bytes32) : Call GatewayError (State V × World V) := do
  s.roles.check .agentRole sender
  revertIf (s.paused = true) GatewayError.pausedError
  let p := s.agents sender
  revertIf (amount = 0) GatewayError.invalidAmount
  revertIf (p.maxPerPayment < amount) GatewayError.amountExceedsPerPaymentCap
  State.checkDeadline b deadline
  State.checkPolicy b p
  let id := State.paymentId env sender orderId amount key
  revertIf (s.usedPaymentIds id = true) GatewayError.paymentIdAlreadyUsed
  State.checkNoShares env s.world
  let s ← s.accrueRollingDeposit b sender amount p.maxPerWindow
  let s := s.markUsed id
  let world ← State.pullUsdc env s.world sender amount
  pure (s, world)

/-- The rest of `deposit`. -/
def settleDeposit (env : Env V) (p : AgentPolicy) (b : Block) (sender : Address) (orderId : Bytes32)
    (amount : ℕ) (key : Bytes32) (r : State V × World V) : Call GatewayError (State V × Receipt) := do
  let (world, sharesMinted) ← State.vaultLeg env r.2 amount p.shareReceiver
  State.checkNoShares env world
  State.checkUsdc env world (r.1.world.usdc.balanceOf env.self)
  pure
    ({ r.1 with world },
      { paymentId := some (State.paymentId env sender orderId amount key)
        out := [sharesMinted]
        events := [.agentDeposit (State.paymentId env sender orderId amount key) orderId sender
          p.shareReceiver amount sharesMinted (b.timestamp / windowSeconds)] })

/-- `withdraw` up to the pull of the shares, and with it. -/
def admitWithdraw (env : Env V) (s : State V) (b : Block) (sender : Address) (orderId : Bytes32)
    (shares : ℕ) (sourceVault : Address) (deadline : ℕ) (key : Bytes32) :
    Call GatewayError (State V × Token Address) := do
  s.roles.check .agentRole sender
  revertIf (s.paused = true) GatewayError.pausedError
  let p := s.agents sender
  revertIf (p.maxWithdrawPerPayment = 0) GatewayError.withdrawalNotEnabled
  revertIf (shares = 0) GatewayError.invalidAmount
  revertIf (p.maxWithdrawPerPayment < shares) GatewayError.sharesExceedWithdrawPerPaymentCap
  State.checkDeadline b deadline
  State.checkPolicy b p
  revertIf (sourceVault ≠ env.vaultContract) GatewayError.invalidSourceVault
  revertIf (p.allowedSourceVaults ≠ [] ∧ sourceVault ∉ p.allowedSourceVaults)
    GatewayError.invalidSourceVault
  let s ← s.accrueRollingWithdraw b sender shares p.maxWithdrawPerWindow
  let id := State.paymentId env sender orderId shares key
  revertIf (s.usedPaymentIds id = true) GatewayError.paymentIdAlreadyUsed
  let s := s.markUsed id
  let token ← s.world.shares.transferFrom env.self sender env.self shares
  pure (s, token)

/-- The rest of `withdraw`. -/
def settleWithdraw (env : Env V) (p : AgentPolicy) (b : Block) (sender : Address) (orderId : Bytes32)
    (shares : ℕ) (sourceVault : Address) (key : Bytes32) (r : State V × Token Address) :
    Call GatewayError (State V × Receipt) := do
  let usdcBefore := r.1.world.usdc.balanceOf env.self
  let (world, assetsOut) ←
    inner (env.vaultRedeem { r.1.world with shares := r.2 } shares p.assetRecipient env.self)
  revertIf (world.usdc.balanceOf env.self ≠ usdcBefore) GatewayError.unexpectedAssetsReceived
  State.checkNoShares env world
  pure
    ({ r.1 with world },
      { paymentId := some (State.paymentId env sender orderId shares key)
        out := [assetsOut]
        events := [.agentWithdrawal (State.paymentId env sender orderId shares key) orderId sender
          sourceVault shares assetsOut p.assetRecipient (b.timestamp / windowSeconds)] })

section Gateway

variable {env : Env V} {s : State V} {b : Block} {sender sourceVault : Address} {orderId key : Bytes32}
  {amount shares deadline : ℕ}

theorem deposit_eq : s.deposit env b sender orderId amount deadline key =
    admitDeposit env s b sender orderId amount deadline key >>=
      settleDeposit env (s.agents sender) b sender orderId amount key := by
  unfold State.deposit admitDeposit settleDeposit
  simp only [bind_assoc, pure_bind]

theorem withdraw_eq : s.withdraw env b sender orderId shares sourceVault deadline key =
    admitWithdraw env s b sender orderId shares sourceVault deadline key >>=
      settleWithdraw env (s.agents sender) b sender orderId shares sourceVault key := by
  unfold State.withdraw admitWithdraw settleWithdraw
  simp only [bind_assoc, pure_bind]

theorem checkDeadline_eq_ok {u : Unit} : State.checkDeadline b deadline = .ok u ↔
    b.timestamp ≤ deadline ∧ deadline ≤ b.timestamp + maxDeadlineSkew := by
  unfold State.checkDeadline
  simp only [bind_eq_ok, revertIf_eq_ok, exists_const, Nat.not_lt]

/-- A window takes an amount if its view and the amount fit a word and the cap. -/
theorem accrue_ok_iff {e : GatewayError} {w : RollingWindow} {cap : ℕ} :
    (∃ w', w.accrue e b amount cap = .ok w') ↔
      w.effectiveGross b + amount < wordSize ∧ w.effectiveGross b + amount ≤ cap := by
  unfold RollingWindow.accrue RollingWindow.effectiveGross
  simp only [bind_eq_ok, addU_eq_ok, revertIf_eq_ok, exists_const, pure_eq_ok, Nat.not_lt]
  constructor
  · rintro ⟨w', projected, ⟨hword, rfl⟩, hcap, -⟩
    exact ⟨hword, hcap⟩
  · rintro ⟨hword, hcap⟩
    exact ⟨_, _, ⟨hword, rfl⟩, hcap, rfl⟩

/-- A pull of something succeeds if the funds are there, and are not the gateway's own: of those it would
receive nothing. -/
theorem pullUsdc_ok_iff {w : World V} (hself : env.self ≠ 0) (hamount : amount ≠ 0) :
    (∃ w', State.pullUsdc env w sender amount = .ok w') ↔
      sender ≠ 0 ∧ sender ≠ env.self ∧ amount ≤ w.usdc.allowance sender env.self ∧
        amount ≤ w.usdc.balanceOf sender := by
  have htake : (∃ t', (w.usdc.transferFrom env.self sender env.self amount : Call GatewayError _) =
      .ok t') ↔ _ := Token.transferFrom_ok_iff hself
  unfold State.pullUsdc
  simp only [bind_eq_ok, subU_eq_ok, revertIf_eq_ok, exists_const, pure_eq_ok, not_not]
  constructor
  · rintro ⟨w', t, ht, delta, ⟨hle, rfl⟩, hdelta, -⟩
    obtain ⟨hsender, -, hallow, hbal⟩ := htake.mp ⟨t, ht⟩
    refine ⟨hsender, ?_, hallow, hbal⟩
    rintro rfl
    have hmoved := (Token.transferFrom_balances ht).2.1
    rw [Token.moved_self hbal] at hmoved
    rw [hmoved, Nat.sub_self] at hdelta
    exact hamount hdelta.symm
  · rintro ⟨hsender, hne, hallow, hbal⟩
    obtain ⟨t, ht⟩ := htake.mpr ⟨hsender, hself, hallow, hbal⟩
    have hmoved := (Token.transferFrom_balances ht).2.1
    have hgot : t.balanceOf env.self = w.usdc.balanceOf env.self + amount := by
      rw [hmoved, Token.moved_dst hne]
    refine ⟨_, t, ht, _, ⟨?_, rfl⟩, ?_, rfl⟩
    · omega
    · omega

/-- What the gateway asks for, of a deposit. -/
structure DepositAdmitted (env : Env V) (s : State V) (b : Block) (sender : Address) (amount : ℕ) :
    Prop where
  role : s.roles .agentRole sender = true
  authorized : Authorized s b.timestamp sender
  amount_ne : amount ≠ 0
  payment : amount ≤ (s.agents sender).maxPerPayment
  noShares : s.world.shares.balanceOf env.self = 0
  word : s.effectiveDepositWindowGross b sender + amount < wordSize
  window : s.effectiveDepositWindowGross b sender + amount ≤ (s.agents sender).maxPerWindow
  sender_ne : sender ≠ 0
  other : sender ≠ env.self
  allowance : amount ≤ s.world.usdc.allowance sender env.self
  balance : amount ≤ s.world.usdc.balanceOf sender

theorem admitDeposit_ok_iff (hself : env.self ≠ 0)
    (hfresh : s.usedPaymentIds (State.paymentId env sender orderId amount key) = false)
    (hdue : b.timestamp ≤ deadline ∧ deadline ≤ b.timestamp + maxDeadlineSkew) :
    (∃ r, admitDeposit env s b sender orderId amount deadline key = .ok r) ↔
      DepositAdmitted env s b sender amount := by
  unfold admitDeposit State.checkNoShares
  simp only [bind_eq_ok, revertIf_eq_ok, Roles.check_eq_ok, exists_const, Nat.not_lt, checkPolicy_eq_ok,
    checkDeadline_eq_ok, accrueRollingDeposit_eq_ok, Bool.not_eq_true, not_not, pure_eq_ok]
  constructor
  · rintro ⟨r, hrole, hunpaused, hamount, hpay, -, ⟨hactive, huntil⟩, -, hshares, _, ⟨w, hacc, rfl⟩, world,
      hpull, -⟩
    obtain ⟨hword, hwindow⟩ := accrue_ok_iff.mp ⟨w, hacc⟩
    obtain ⟨hsender, hne, hallow, hbal⟩ := (pullUsdc_ok_iff hself hamount).mp ⟨world, hpull⟩
    exact ⟨hrole, ⟨hunpaused, hactive, huntil⟩, hamount, hpay, hshares, hword, hwindow, hsender, hne, hallow,
      hbal⟩
  · intro h
    obtain ⟨w, hacc⟩ := accrue_ok_iff.mpr ⟨h.word, h.window⟩
    obtain ⟨world, hpull⟩ := (pullUsdc_ok_iff hself h.amount_ne).mpr
      ⟨h.sender_ne, h.other, h.allowance, h.balance⟩
    exact ⟨_, h.role, h.authorized.unpaused, h.amount_ne, h.payment, hdue,
      ⟨h.authorized.active, h.authorized.unexpired⟩, hfresh, h.noShares, _, ⟨w, hacc, rfl⟩, world, hpull, rfl⟩

/-- What the gateway asks for, of a withdrawal. -/
structure WithdrawAdmitted (env : Env V) (s : State V) (b : Block) (sender : Address) (shares : ℕ)
    (sourceVault : Address) : Prop where
  role : s.roles .agentRole sender = true
  authorized : Authorized s b.timestamp sender
  shares_ne : shares ≠ 0
  payment : shares ≤ (s.agents sender).maxWithdrawPerPayment
  pinned : sourceVault = env.vaultContract
  allowed : (s.agents sender).allowedSourceVaults = [] ∨
    sourceVault ∈ (s.agents sender).allowedSourceVaults
  word : s.effectiveWithdrawWindowGross b sender + shares < wordSize
  window : s.effectiveWithdrawWindowGross b sender + shares ≤ (s.agents sender).maxWithdrawPerWindow
  sender_ne : sender ≠ 0
  allowance : shares ≤ s.world.shares.allowance sender env.self
  balance : shares ≤ s.world.shares.balanceOf sender

theorem admitWithdraw_ok_iff (hself : env.self ≠ 0)
    (hfresh : s.usedPaymentIds (State.paymentId env sender orderId shares key) = false)
    (hdue : b.timestamp ≤ deadline ∧ deadline ≤ b.timestamp + maxDeadlineSkew) :
    (∃ r, admitWithdraw env s b sender orderId shares sourceVault deadline key = .ok r) ↔
      WithdrawAdmitted env s b sender shares sourceVault := by
  have htake : (∃ t', (s.world.shares.transferFrom env.self sender env.self shares : Call GatewayError _) =
      .ok t') ↔ _ := Token.transferFrom_ok_iff hself
  unfold admitWithdraw
  simp only [bind_eq_ok, revertIf_eq_ok, Roles.check_eq_ok, exists_const, Nat.not_lt, checkPolicy_eq_ok,
    checkDeadline_eq_ok, accrueRollingWithdraw_eq_ok, Bool.not_eq_true, not_not, pure_eq_ok, not_and]
  constructor
  · rintro ⟨r, hrole, hunpaused, -, hshares, hpay, -, ⟨hactive, huntil⟩, hpinned, hallowed, _,
      ⟨w, hacc, rfl⟩, -, token, hpull, -⟩
    obtain ⟨hword, hwindow⟩ := accrue_ok_iff.mp ⟨w, hacc⟩
    obtain ⟨hsender, -, hallow, hbal⟩ := htake.mp ⟨token, hpull⟩
    exact ⟨hrole, ⟨hunpaused, hactive, huntil⟩, hshares, hpay, hpinned, or_iff_not_imp_left.mpr hallowed,
      hword, hwindow, hsender, hallow, hbal⟩
  · intro h
    obtain ⟨w, hacc⟩ := accrue_ok_iff.mpr ⟨h.word, h.window⟩
    obtain ⟨token, hpull⟩ := htake.mpr ⟨h.sender_ne, hself, h.allowance, h.balance⟩
    have henabled : (s.agents sender).maxWithdrawPerPayment ≠ 0 := by
      have hle := h.payment
      have hne := h.shares_ne
      omega
    exact ⟨_, h.role, h.authorized.unpaused, henabled, h.shares_ne, h.payment, hdue,
      ⟨h.authorized.active, h.authorized.unexpired⟩, h.pinned, or_iff_not_imp_left.mp h.allowed, _,
      ⟨w, hacc, rfl⟩, hfresh, token, hpull, rfl⟩

end Gateway

/-! ### What the preflight leaves out -/

section Sound

variable {c : Crates} {rpc : Rpc} {cfg : Config} {env : Env V} {s : State V} {b : Block}
  {signer sourceVault : Address} {orderId key : Bytes32} {amount shares deadline : ℕ}
  {report : PreflightReport}

theorem saturatingAdd_of_lt {a a' : ℕ} (h : a + a' < wordSize) : saturatingAdd a a' = a + a' := by
  unfold saturatingAdd maxWord
  unfold wordSize at h
  omega

/-- **The preflight of a deposit and the gateway.**  A deposit that the client lets pass gets through the
checks of the gateway and the pull of USDC if and only if the signer has the role and is another account
than the gateway, the amount is not zero and does not overflow the window, and the gateway holds no
shares. -/
theorem deposit_admitted_iff (h : Shows c rpc cfg env s b)
    (hok : run c rpc cfg b.timestamp ⟨signer, amount⟩ = .ok report)
    (hfresh : s.usedPaymentIds (State.paymentId env signer orderId amount key) = false)
    (hdue : b.timestamp ≤ deadline ∧ deadline ≤ b.timestamp + maxDeadlineSkew) :
    (∃ r, admitDeposit env s b signer orderId amount deadline key = .ok r) ↔
      s.roles .agentRole signer = true ∧ amount ≠ 0 ∧ s.world.shares.balanceOf env.self = 0 ∧
        s.effectiveDepositWindowGross b signer + amount < wordSize ∧ signer ≠ 0 ∧ signer ≠ env.self := by
  obtain ⟨-, hauth, hpay, hwindow, hallow, hbal⟩ := (run_ok_iff h).mp ⟨report, hok⟩
  rw [admitDeposit_ok_iff h.self_ne hfresh hdue]
  constructor
  · intro hadm
    exact ⟨hadm.role, hadm.amount_ne, hadm.noShares, hadm.word, hadm.sender_ne, hadm.other⟩
  · rintro ⟨hrole, hamount, hshares, hword, hsigner, hother⟩
    rw [saturatingAdd_of_lt hword] at hwindow
    exact ⟨hrole, hauth, hamount, hpay, hshares, hword, hwindow, hsigner, hother, hallow, hbal⟩

/-- A gateway with one agent, the account `7`, in a block of the time 1012. -/
def authorizedAgent (p : AgentPolicy) : State (Surroundings Unit) :=
  Lib.run (State.exec mockSetting.env) mockGateway [mockAuthorization p]

theorem preflight_deposit (s : State (Surroundings Unit)) (amount : ℕ)
    (hauth : Authorized s 1012 7) (hpay : amount ≤ (s.agents 7).maxPerPayment)
    (hwindow : saturatingAdd (s.effectiveDepositWindowGross (.of 11 1012) 7) amount ≤
      (s.agents 7).maxPerWindow)
    (hallow : amount ≤ s.world.usdc.allowance 7 1) (hbal : amount ≤ s.world.usdc.balanceOf 7) :
    ∃ report, run mockCrates (nodeAt mockSetting.env s (.of 11 1012) false) mockConfig 1012 ⟨7, amount⟩ =
      .ok report :=
  (run_ok_iff (shows_nodeAt rfl)).mpr ⟨configured_nodeAt rfl rfl rfl, hauth, hpay, hwindow, hallow, hbal⟩

theorem deposit_admitted_iff_paid :
    ∃ report, run mockCrates (nodeAt mockSetting.env (authorizedAgent mockPolicy) (.of 11 1012) false)
      mockConfig 1012 ⟨7, 100⟩ = .ok report ∧
      ∃ r, admitDeposit mockSetting.env (authorizedAgent mockPolicy) (.of 11 1012) 7 (.word 1) 100 1100
        (.word 2) = .ok r := by
  obtain ⟨report, hok⟩ := preflight_deposit (authorizedAgent mockPolicy) 100
    ⟨by decide, by decide, by decide⟩ (by decide) (by decide) (by decide) (by decide)
  refine ⟨report, hok, ?_⟩
  refine (deposit_admitted_iff (shows_nodeAt rfl) hok (by decide) (by decide)).mpr ?_
  exact ⟨by decide, by decide, by decide, by decide, by decide, by decide⟩

/-- The same gateway, after its admin took the role from the agent. -/
def withoutRole : State (Surroundings Unit) :=
  Lib.run (State.exec mockSetting.env) (authorizedAgent mockPolicy)
    [.of 20 (.of 11 1011) (.revokeRole .agentRole 7)]

/-- **Two deposits that the client lets pass and the gateway does not**: one of nothing, and one by an
agent without the role, whose policy is still active. -/
theorem deposit_preflight_unsound :
    ((∃ report, run mockCrates (nodeAt mockSetting.env (authorizedAgent mockPolicy) (.of 11 1012) false)
        mockConfig 1012 ⟨7, 0⟩ = .ok report) ∧
      (authorizedAgent mockPolicy).usedPaymentIds (State.paymentId mockSetting.env 7 (.word 1) 0 (.word 2)) =
        false ∧
      admitDeposit mockSetting.env (authorizedAgent mockPolicy) (.of 11 1012) 7 (.word 1) 0 1100 (.word 2) =
        .error (.custom .invalidAmount)) ∧
    (∃ report, run mockCrates (nodeAt mockSetting.env withoutRole (.of 11 1012) false) mockConfig 1012
        ⟨7, 100⟩ = .ok report) ∧
      withoutRole.usedPaymentIds (State.paymentId mockSetting.env 7 (.word 1) 100 (.word 2)) = false ∧
      admitDeposit mockSetting.env withoutRole (.of 11 1012) 7 (.word 1) 100 1100 (.word 2) =
        .error .unauthorizedAccount := by
  refine ⟨⟨?_, by decide, reason_eq_some.mp (by decide)⟩, ?_, by decide, reason_eq_some.mp (by decide)⟩
  · exact preflight_deposit _ _ ⟨by decide, by decide, by decide⟩ (by decide) (by decide) (by decide)
      (by decide)
  · exact preflight_deposit _ _ ⟨by decide, by decide, by decide⟩ (by decide) (by decide) (by decide)
      (by decide)

/-- **The preflight of a withdrawal and the gateway.**  A withdrawal that the client lets pass gets through
the checks of the gateway and the pull of the shares if and only if the signer has the role, the shares
are not zero and do not overflow the window, and the source is the pinned vault and on the list. -/
theorem withdraw_admitted_iff (h : Shows c rpc cfg env s b)
    (hok : runWithdrawGateway c rpc cfg b.timestamp ⟨signer, shares⟩ = .ok report)
    (hvault : vaultPreflight rpc sourceVault env.self signer shares = .ok ())
    (hfresh : s.usedPaymentIds (State.paymentId env signer orderId shares key) = false)
    (hdue : b.timestamp ≤ deadline ∧ deadline ≤ b.timestamp + maxDeadlineSkew) :
    (∃ r, admitWithdraw env s b signer orderId shares sourceVault deadline key = .ok r) ↔
      s.roles .agentRole signer = true ∧ shares ≠ 0 ∧ sourceVault = env.vaultContract ∧
        ((s.agents signer).allowedSourceVaults = [] ∨
          sourceVault ∈ (s.agents signer).allowedSourceVaults) ∧
        s.effectiveWithdrawWindowGross b signer + shares < wordSize ∧ signer ≠ 0 := by
  obtain ⟨-, hauth, hpay, hwindow⟩ := (runWithdrawGateway_ok_iff h).mp ⟨report, hok⟩
  obtain ⟨-, ⟨a, ha, hallow⟩, a', ha', hbal⟩ := vaultPreflight_ok_iff.mp hvault
  rw [admitWithdraw_ok_iff h.self_ne hfresh hdue]
  constructor
  · intro hadm
    exact ⟨hadm.role, hadm.shares_ne, hadm.pinned, hadm.allowed, hadm.word, hadm.sender_ne⟩
  · rintro ⟨hrole, hshares, rfl, hallowed, hword, hsigner⟩
    rw [saturatingAdd_of_lt hword] at hwindow
    -- the ledger that the client reads is the one that the gateway pulls from
    cases (h.shareAllowance signer env.self).symm.trans ha
    cases (h.shareBalanceOf signer).symm.trans ha'
    exact ⟨hrole, hauth, hshares, hpay, rfl, hallowed, hword, hwindow, hsigner, hallow, hbal⟩

/-- The gateway after its agent deposited 100 units, for 60 shares of the pinned vault and 40 of another;
the policy has a list of source vaults. -/
def investedAgent (allowedSourceVaults : List Address) : State (Surroundings Unit) :=
  Lib.run (State.exec mockSetting.env) (authorizedAgent { mockPolicy with allowedSourceVaults })
    [routedDeposit]

theorem preflight_withdraw (s : State (Surroundings Unit)) (shares : ℕ) (hauth : Authorized s 1024 7)
    (hpay : shares ≤ (s.agents 7).maxWithdrawPerPayment)
    (hwindow : saturatingAdd (s.effectiveWithdrawWindowGross (.of 12 1024) 7) shares ≤
      (s.agents 7).maxWithdrawPerWindow)
    (hallow : shares ≤ s.world.shares.allowance 7 1) (hbal : shares ≤ s.world.shares.balanceOf 7) :
    (∃ report, runWithdrawGateway mockCrates (nodeAt mockSetting.env s (.of 12 1024) false) mockConfig 1024
        ⟨7, shares⟩ = .ok report) ∧
      vaultPreflight (nodeAt mockSetting.env s (.of 12 1024) false) 3 1 7 shares = .ok () := by
  refine ⟨?_, ?_⟩
  · exact (runWithdrawGateway_ok_iff (shows_nodeAt rfl)).mpr
      ⟨configured_nodeAt rfl rfl rfl, hauth, hpay, hwindow⟩
  · exact vaultPreflight_ok_iff.mpr ⟨rfl, ⟨_, rfl, hallow⟩, _, rfl, hbal⟩

theorem withdraw_admitted_iff_paid :
    ∃ r, admitWithdraw mockSetting.env (investedAgent []) (.of 12 1024) 7 (.word 3) 20 3 1200 (.word 4) =
      .ok r := by
  obtain ⟨⟨report, hok⟩, hvault⟩ := preflight_withdraw (investedAgent []) 20
    ⟨by decide, by decide, by decide⟩ (by decide) (by decide) (by decide) (by decide)
  refine (withdraw_admitted_iff (shows_nodeAt rfl) hok hvault (by decide) (by decide)).mpr ?_
  exact ⟨by decide, by decide, by decide, .inl (by decide), by decide, by decide⟩

/-- **A withdrawal that the client lets pass and the gateway does not**: the pinned vault is not on the
list of the policy, which the client does not read. -/
theorem withdraw_preflight_unsound :
    ((∃ report, runWithdrawGateway mockCrates
        (nodeAt mockSetting.env (investedAgent [10]) (.of 12 1024) false) mockConfig 1024 ⟨7, 20⟩ =
          .ok report) ∧
      vaultPreflight (nodeAt mockSetting.env (investedAgent [10]) (.of 12 1024) false) 3 1 7 20 = .ok ()) ∧
    (investedAgent [10]).usedPaymentIds (State.paymentId mockSetting.env 7 (.word 3) 20 (.word 4)) = false ∧
    admitWithdraw mockSetting.env (investedAgent [10]) (.of 12 1024) 7 (.word 3) 20 3 1200 (.word 4) =
      .error (.custom .invalidSourceVault) := by
  refine ⟨?_, by decide, reason_eq_some.mp (by decide)⟩
  exact preflight_withdraw _ _ ⟨by decide, by decide, by decide⟩ (by decide) (by decide) (by decide)
    (by decide)

end Sound

/-! ### What the preflight asks for -/

/-- The pinned vault as it is in the world of the gateway: its storage, with the ledgers of USDC and of its
shares that the gateway sees. -/
def vaultIn (w : World (Vault.State V)) : Vault.State V :=
  { w.ext with shares := w.shares, world := { w.ext.world with usdc := w.usdc } }

/-- The world with the vault after a call. -/
def withVault (v : Vault.State V) : World (Vault.State V) := ⟨v.world.usdc, v.shares, v⟩

/-- A gateway that is pinned to a `RobotMoneyVault`. -/
def pinnedTo (vault : Vault.Env V) (self router : Address) (chainid : ℕ)
    (routerDepositFor : World (Vault.State V) → Address → ℕ → List ℕ →
      Call Unit (World (Vault.State V) × List ℕ)) : Env (Vault.State V) where
  self := self
  usdcToken := vault.asset
  vaultContract := vault.self
  routerContract := router
  chainid := chainid
  vaultDeposit w assets receiver := do
    let (v, _, minted) ← inner ((vaultIn w).deposit vault self assets receiver)
    pure (withVault v, minted)
  vaultRedeem w shares receiver owner := do
    let (v, assets, _) ← inner ((vaultIn w).redeem vault self shares receiver owner)
    pure (withVault v, assets)
  routerDepositFor := routerDepositFor

section Complete

variable {vault : Vault.Env V} {self router : Address} {chainid : ℕ}
  {routerDepositFor : World (Vault.State V) → Address → ℕ → List ℕ →
    Call Unit (World (Vault.State V) × List ℕ)}
  {c : Crates} {rpc : Rpc} {cfg : Config} {b : Block} {signer : Address} {orderId key : Bytes32}
  {amount shares deadline : ℕ}

/-- A deposit that succeeds was admitted. -/
theorem depositAdmitted_of_ok {env : Env V} {s : State V} (hself : env.self ≠ 0)
    {r : State V × Receipt} (h : s.deposit env b signer orderId amount deadline key = .ok r) :
    DepositAdmitted env s b signer amount := by
  rw [deposit_eq] at h
  obtain ⟨a, hadmit, -⟩ := bind_eq_ok.mp h
  have hfresh : s.usedPaymentIds (State.paymentId env signer orderId amount key) = false ∧
      b.timestamp ≤ deadline ∧ deadline ≤ b.timestamp + maxDeadlineSkew := by
    unfold admitDeposit at hadmit
    simp only [bind_eq_ok, revertIf_eq_ok, exists_const, checkDeadline_eq_ok, Bool.not_eq_true] at hadmit
    obtain ⟨_, -, -, -, -, hdue, _, -, hused, -⟩ := hadmit
    exact ⟨hused, hdue⟩
  exact (admitDeposit_ok_iff hself hfresh.1 hfresh.2).mp ⟨a, hadmit⟩

/-- A withdrawal that succeeds was admitted, and redeemed from the vault. -/
theorem withdrawAdmitted_of_ok {env : Env V} {s : State V} (hself : env.self ≠ 0) {sourceVault : Address}
    {r : State V × Receipt}
    (h : s.withdraw env b signer orderId shares sourceVault deadline key = .ok r) :
    WithdrawAdmitted env s b signer shares sourceVault := by
  rw [withdraw_eq] at h
  obtain ⟨a, hadmit, -⟩ := bind_eq_ok.mp h
  have hfresh : s.usedPaymentIds (State.paymentId env signer orderId shares key) = false ∧
      b.timestamp ≤ deadline ∧ deadline ≤ b.timestamp + maxDeadlineSkew := by
    unfold admitWithdraw at hadmit
    simp only [bind_eq_ok, revertIf_eq_ok, exists_const, checkDeadline_eq_ok, Bool.not_eq_true,
      accrueRollingWithdraw_eq_ok] at hadmit
    obtain ⟨_, -, -, -, -, -, hdue, _, -, -, -, _, ⟨w, -, rfl⟩, hused, -⟩ := hadmit
    exact ⟨hused, hdue⟩
  exact (admitWithdraw_ok_iff hself hfresh.1 hfresh.2).mp ⟨a, hadmit⟩

/-- A vault that reports itself as paused redeems nothing. -/
theorem redeem_unpaused {s : Vault.State V} {caller receiver owner : Address} {r : Vault.State V × ℕ × ℕ}
    (h : s.redeem vault caller shares receiver owner = .ok r) : s.paused = false := by
  unfold Vault.State.redeem Vault.State.withdrawInternal at h
  simp only [bind_eq_ok, revertIf_eq_ok, exists_const, Bool.not_eq_true] at h
  obtain ⟨-, assets, -, _, ⟨hflag, -⟩, -⟩ := h
  unfold Vault.State.paused
  rw [hflag, Bool.and_false]

/-- **The preflight never refuses a valid payment.**  Whatever deposit, or withdrawal from the pinned
`RobotMoneyVault`, the gateway carries out in a state, the preflight lets pass in that state. -/
theorem preflight_never_refuses {s : State (Vault.State V)}
    (h : Shows c rpc cfg (pinnedTo vault self router chainid routerDepositFor) s b)
    (hpaused : rpc.callVaultPaused vault.self = .ok (vaultIn s.world).paused)
    (hconf : Configured c rpc cfg (pinnedTo vault self router chainid routerDepositFor)) :
    (∀ signer orderId amount deadline key r,
      s.deposit (pinnedTo vault self router chainid routerDepositFor) b signer orderId amount deadline key =
        .ok r → ∃ report, run c rpc cfg b.timestamp ⟨signer, amount⟩ = .ok report) ∧
    ∀ signer orderId shares deadline key r,
      s.withdraw (pinnedTo vault self router chainid routerDepositFor) b signer orderId shares vault.self
        deadline key = .ok r →
      (∃ report, runWithdrawGateway c rpc cfg b.timestamp ⟨signer, shares⟩ = .ok report) ∧
        vaultPreflight rpc vault.self self signer shares = .ok () := by
  refine ⟨?_, ?_⟩
  · intro signer orderId amount deadline key r hok
    have hadm := depositAdmitted_of_ok h.self_ne hok
    refine (run_ok_iff h).mpr ⟨hconf, hadm.authorized, hadm.payment, ?_, hadm.allowance, hadm.balance⟩
    rw [saturatingAdd_of_lt hadm.word]
    exact hadm.window
  · intro signer orderId shares deadline key r hok
    have hadm := withdrawAdmitted_of_ok h.self_ne hok
    refine ⟨?_, ?_⟩
    · refine (runWithdrawGateway_ok_iff h).mpr ⟨hconf, hadm.authorized, hadm.payment, ?_⟩
      rw [saturatingAdd_of_lt hadm.word]
      exact hadm.window
    · obtain ⟨token, assetsOut, -, hredeem, -⟩ := withdraw_ok hok
      simp only [pinnedTo, bind_eq_ok, inner_eq_ok, Prod.exists] at hredeem
      obtain ⟨v, assets, burned, hredeem, -⟩ := hredeem
      have hredeemed := redeem_unpaused hredeem
      have hflag : (vaultIn s.world).paused = false := hredeemed
      refine vaultPreflight_ok_iff.mpr ⟨?_, ⟨_, h.shareAllowance signer self, hadm.allowance⟩, _,
        h.shareBalanceOf signer, hadm.balance⟩
      rw [hpaused, hflag]

/-- A gateway at `1` that is pinned to the vault at `3`, which invests through a passthrough adapter. -/
def pinnedGateway : Env (Vault.State Unit) :=
  pinnedTo (Vault.passthrough 3 2) 1 0 8453 fun _ _ _ _ => .error .innerCall

/-- The agent `7` has 1200 units, and lets the gateway take them and any shares. -/
def pinnedWorld : World (Vault.State Unit) where
  usdc := (Token.empty.issue 7 1200 (by decide)).setAllowance 7 1 1200
  shares := Token.empty.setAllowance 7 1 maxWord
  ext :=
    { Vault.State.initial (10 ^ 12) (10 ^ 12) ⟨0, by decide⟩ ⟨6, by decide⟩ 20 ⟨Token.empty, ()⟩ with
      adapters := [⟨40, 10000, true, by decide, by decide, by decide⟩]
      adapterAllowed := fun adapter => adapter = 40
      adapterCodeHashAllowed := fun codeHash => codeHash = 1 }

/-- The agent is authorized, and has deposited 100 units for `10 ^ 20` shares of its own. -/
def pinnedAgent : State (Vault.State Unit) :=
  Lib.run (State.exec pinnedGateway) (fresh Gateway.deployed.roles pinnedWorld)
    [.of 5 (.of 10 1000)
        (.authorizeAgent 7 ⟨true, 1000000, 100, 200, 7, [], 5, 10 ^ 20, 10 ^ 20, []⟩),
      .of 7 (.of 11 1012) (.deposit (.word 1) 100 1100 (.word 2))]

theorem preflight_never_refuses_paid :
    (∃ report, run mockCrates (nodeAt pinnedGateway pinnedAgent (.of 12 1024) false) mockConfig 1024
        ⟨7, 50⟩ = .ok report) ∧
      vaultPreflight (nodeAt pinnedGateway pinnedAgent (.of 12 1024) false) 3 1 7 (10 ^ 19) = .ok () := by
  obtain ⟨r, hdeposit⟩ := succeeds_iff.mp (show succeeds (pinnedAgent.deposit pinnedGateway (.of 12 1024) 7
    (.word 3) 50 1100 (.word 4)) = true by decide +kernel)
  obtain ⟨r', hwithdraw⟩ := succeeds_iff.mp (show succeeds (pinnedAgent.withdraw pinnedGateway (.of 12 1024)
    7 (.word 5) (10 ^ 19) 3 1100 (.word 6)) = true by decide +kernel)
  have h := preflight_never_refuses
    (shows_nodeAt rfl : Shows mockCrates (nodeAt pinnedGateway pinnedAgent (.of 12 1024) false) mockConfig
      pinnedGateway pinnedAgent (.of 12 1024))
    (congrArg Except.ok (show false = (vaultIn pinnedAgent.world).paused by decide +kernel))
    (configured_nodeAt rfl rfl rfl)
  exact ⟨h.1 7 (.word 3) 50 1100 (.word 4) r hdeposit,
    (h.2 7 (.word 5) (10 ^ 19) 1100 (.word 6) r' hwithdraw).2⟩

end Complete

end RobotMoney.Client
