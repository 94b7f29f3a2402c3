import RobotMoney.Client.Errors
import RobotMoney.Vault.SharePrice

/-!
# Pausing

The vault has two flags, one for deposits and one for withdrawals.  `pause` sets both and `unpause` clears
both; the two emergency exits set the first and leave the second.  So withdrawals are never paused while
deposits are open, and `paused()`, which wants both, says whether withdrawals are paused: that is what the
payment client reads it for before a withdrawal.  Only an admin clears a flag.
-/

namespace RobotMoney.Vault

open RobotMoney.Lib State
open RobotMoney.Client (RmpcError Result)

variable {V : Type} {env : Env V} {s s' s₀ : State V} {tx : Tx (VaultCall V)}

/-! ### The client's check -/

/-- `withdraw_vault_preflight`, with what `paused()`, `allowance(agent, gateway)` and `balanceOf(agent)`
of the vault answer. -/
def withdrawVaultPreflight (callVaultPaused : Result Bool)
    (callErc20Allowance callErc20BalanceOf : Result ℕ) (shares : ℕ) : Result Unit := do
  let paused ← callVaultPaused
  if paused then .error .errVaultPaused
  else do
    let allowance ← callErc20Allowance
    if allowance < shares then .error .errShareAllowanceInsufficient
    else do
      let balance ← callErc20BalanceOf
      if balance < shares then .error .errShareBalanceInsufficient else .ok ()

/-- The check against a vault that answers. -/
def State.preflight (s : State V) (gateway agent : Address) (shares : ℕ) : Result Unit :=
  withdrawVaultPreflight (.ok s.paused) (.ok (s.shares.allowance agent gateway))
    (.ok (s.shares.balanceOf agent)) shares

theorem preflight_eq_errVaultPaused {gateway agent : Address} {shares : ℕ} :
    s.preflight gateway agent shares = .error .errVaultPaused ↔ s.paused = true := by
  unfold State.preflight withdrawVaultPreflight
  change (if s.paused then Except.error RmpcError.errVaultPaused else _) = _ ↔ _
  by_cases hpaused : s.paused = true
  · rw [if_pos hpaused]
    exact iff_of_true rfl hpaused
  · rw [if_neg hpaused]
    refine iff_of_false ?_ hpaused
    change (if s.shares.allowance agent gateway < shares then _ else _) ≠ _
    split
    · simp
    · change (if s.shares.balanceOf agent < shares then _ else _) ≠ _
      split <;> simp

/-! ### The flags -/

/-- Where withdrawals are paused, deposits are. -/
def PauseOrdered (s : State V) : Prop := s.withdrawalsPaused = true → s.depositsPaused = true

theorem PauseOrdered.step (h : PauseOrdered s) (he : Effect env s tx s') : PauseOrdered s' := by
  intro hw
  cases he with
  | quiet hq =>
    rw [hq.depositsPaused]
    rw [hq.withdrawalsPaused] at hw
    exact h hw
  | added _ _ _ _ _ _ _ => exact h hw
  | edited _ _ _ => exact h hw
  | paused _ => rfl
  | unpaused _ => cases hw
  | emergency _ _ => rfl
  | granted _ => exact h hw
  | dropped _ _ => exact h hw

theorem run_pauseOrdered (h : PauseOrdered s₀) (txs : List (Tx (VaultCall V))) :
    PauseOrdered (run (exec env) s₀ txs) := by
  refine run_invariant (P := fun s _ => PauseOrdered s) h ?_
  intro pre tx post s' r _ hpre hok
  exact hpre.step (exec_effect hok)

theorem PauseOrdered.paused_iff (h : PauseOrdered s) : s.paused = true ↔ s.withdrawalsPaused = true := by
  unfold State.paused
  rw [Bool.and_eq_true]
  exact ⟨fun hp => hp.2, fun hw => ⟨h hw, hw⟩⟩

/-! ### Who can clear them -/

/-- The account holds no role, or the emergency role only. -/
def OnlyEmergency (s : State V) (a : Address) : Prop :=
  ∀ role, s.roles role a = true → role = .emergencyRole

/-- No flag was cleared, and nobody got a role. -/
structure Held (s s' : State V) : Prop where
  deposits : s.depositsPaused = true → s'.depositsPaused = true
  withdrawals : s.withdrawalsPaused = true → s'.withdrawalsPaused = true
  roles : ∀ role a, s'.roles role a = true → s.roles role a = true

theorem Held.refl (s : State V) : Held s s := ⟨id, id, fun _ _ => id⟩

theorem Held.trans {s₁ : State V} (h₁ : Held s s₁) (h₂ : Held s₁ s') : Held s s' :=
  ⟨fun h => h₂.deposits (h₁.deposits h), fun h => h₂.withdrawals (h₁.withdrawals h),
    fun role a h => h₁.roles role a (h₂.roles role a h)⟩

/-- The emergency role administers no role. -/
theorem admin_ne_emergencyRole (role : VaultRole) : role.admin ≠ .emergencyRole := by
  cases role <;> exact VaultRole.noConfusion

theorem OnlyEmergency.held (h : OnlyEmergency s tx.sender) (he : Effect env s tx s') : Held s s' := by
  cases he with
  | quiet hq =>
    refine ⟨?_, ?_, ?_⟩
    · rw [hq.depositsPaused]
      exact id
    · rw [hq.withdrawalsPaused]
      exact id
    · rw [hq.roles]
      exact fun _ _ => id
  | added _ hadmin _ _ _ _ _ => exact VaultRole.noConfusion (h _ hadmin)
  | edited _ _ _ => exact ⟨id, id, fun _ _ => id⟩
  | paused _ => exact ⟨fun _ => rfl, fun _ => rfl, fun _ _ => id⟩
  | unpaused hadmin => exact VaultRole.noConfusion (h _ hadmin)
  | emergency _ _ => exact ⟨fun _ => rfl, id, fun _ _ => id⟩
  | @granted role _ hrole => exact absurd (h _ hrole) (admin_ne_emergencyRole role)
  | dropped role account =>
    refine ⟨id, id, ?_⟩
    intro r a hr
    change s.roles.set role account false r a = true at hr
    by_cases hsame : r = role ∧ a = account
    · obtain ⟨rfl, rfl⟩ := hsame
      rw [Roles.set_same] at hr
      cases hr
    · rwa [Roles.set_of_ne _ _ (not_and_or.mp hsame)] at hr

/-- A run of calls by such accounts: they never get the role that would let them. -/
theorem run_held {calls : List (Tx (VaultCall V))} (h : ∀ tx ∈ calls, OnlyEmergency s tx.sender) :
    Held s (run (exec env) s calls) := by
  refine run_invariant (P := fun s' _ => Held s s') (.refl s) ?_
  rintro pre tx post s' r rfl hpre hok
  have hsender : OnlyEmergency (run (exec env) s pre) tx.sender := by
    intro role hrole
    exact h tx (List.mem_append_right pre List.mem_cons_self) role (hpre.roles role tx.sender hrole)
  exact hpre.trans (hsender.held (exec_effect hok))

/-- **Pause discipline.**  In every state that the vault reaches, withdrawals are paused only while
deposits are, `paused()` says whether withdrawals are paused, the client's check refuses for that reason
exactly then, and no sequence of calls by accounts with no role but the emergency role clears a flag. -/
theorem pause_disciplined (env : Env V) {tvlCap perDepositCap exitFeeBps : ℕ}
    {feeRecipient admin : Address} {world : World V}
    (h : deploy tvlCap perDepositCap exitFeeBps feeRecipient admin world = .ok s₀)
    (txs : List (Tx (VaultCall V))) :
    let s := run (exec env) s₀ txs
    (s.withdrawalsPaused = true → s.depositsPaused = true) ∧
    (s.paused = true ↔ s.withdrawalsPaused = true) ∧
    (∀ gateway agent shares,
      s.preflight gateway agent shares = .error .errVaultPaused ↔ s.withdrawalsPaused = true) ∧
    ∀ calls : List (Tx (VaultCall V)), (∀ tx ∈ calls, OnlyEmergency s tx.sender) →
      (s.depositsPaused = true → (run (exec env) s calls).depositsPaused = true) ∧
      (s.withdrawalsPaused = true → (run (exec env) s calls).withdrawalsPaused = true) := by
  intro s
  have h₀ : PauseOrdered s₀ := by
    obtain ⟨fee, recipient, rfl⟩ := deploy_eq_ok h
    exact Bool.noConfusion
  have hs : PauseOrdered s := run_pauseOrdered h₀ txs
  refine ⟨hs, hs.paused_iff, ?_, ?_⟩
  · intro gateway agent shares
    exact preflight_eq_errVaultPaused.trans hs.paused_iff
  · intro calls hcalls
    have hheld : Held s (run (exec env) s calls) := run_held hcalls
    exact ⟨hheld.deposits, hheld.withdrawals⟩

/-- The account `30` is given the emergency role, and pauses the vault. -/
def pausing : List (Tx (VaultCall Unit)) :=
  [callBy 20 (.grantRole .emergencyRole 30), callBy 30 .pause]

/-- It tries to resume, and to become an admin, and makes the emergency exit. -/
def resuming : List (Tx (VaultCall Unit)) :=
  [callBy 30 .unpause, callBy 30 (.grantRole .adminRole 30), callBy 30 .emergencyWithdraw]

theorem pause_disciplined_sample :
    (run (exec (passthrough 1 2)) deployed pausing).withdrawalsPaused = true ∧
      (run (exec (passthrough 1 2)) (run (exec (passthrough 1 2)) deployed pausing)
        resuming).withdrawalsPaused = true := by
  have hdeploy : deploy 1000 500 100 21 20 userWorld = .ok deployed := rfl
  have hpaused : (run (exec (passthrough 1 2)) deployed pausing).withdrawalsPaused = true := by decide
  obtain ⟨-, -, -, hheld⟩ := pause_disciplined (passthrough 1 2) hdeploy pausing
  refine ⟨hpaused, (hheld resuming ?_).2 hpaused⟩
  intro tx htx role hrole
  have hsender : tx.sender = 30 := by
    simp only [resuming, List.mem_cons, List.not_mem_nil, or_false] at htx
    rcases htx with rfl | rfl | rfl
    all_goals rfl
  rw [hsender] at hrole
  cases role with
  | emergencyRole => rfl
  | _ => exact absurd hrole Bool.false_ne_true

end RobotMoney.Vault
