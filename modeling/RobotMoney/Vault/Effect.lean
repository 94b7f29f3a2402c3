import RobotMoney.Vault.Admin

/-!
# What a call does to the vault's storage

The registry of adapters, the two pause flags and the roles change in few ways: an adapter is added, an
entry is edited in place, the vault is paused, resumed or put into emergency, a role is given or taken.
`exec_effect` says that every successful call does one of these, or none of them (`Quiet`).  Deposits,
withdrawals and rebalances only move shares and USDC.
-/

namespace RobotMoney.Vault

open RobotMoney.Lib State

variable {V : Type} {env : Env V} {s s' : State V} {tx : Tx (VaultCall V)}

/-! ### Calls that move shares and USDC -/

/-- The adapters, the flags and the roles are as they were. -/
structure Quiet (s s' : State V) : Prop where
  adapters : s'.adapters = s.adapters
  depositsPaused : s'.depositsPaused = s.depositsPaused
  withdrawalsPaused : s'.withdrawalsPaused = s.withdrawalsPaused
  roles : s'.roles = s.roles

theorem Quiet.refl (s : State V) : Quiet s s := ⟨rfl, rfl, rfl, rfl⟩

/-- Pulling changes the world only. -/
theorem pullProportional_frame {gross : ℕ} (h : s.pullProportional env gross = .ok s') :
    s' = { s with world := s'.world } := by
  unfold State.pullProportional at h
  split at h
  · cases h
    rfl
  split at h
  · cases h
    rfl
  obtain ⟨total, -, h⟩ := bind_eq_ok.mp h
  split at h
  · cases h
    rfl
  · simp only [bind_eq_ok, Prod.exists, pure_eq_ok] at h
    obtain ⟨w₁, remaining, last, h₁, w₂, h₂, rfl⟩ := h
    rfl

/-- So does routing. -/
theorem routeDeposit_frame {amount : ℕ} (h : s.routeDeposit env amount = .ok s') :
    s' = { s with world := s'.world } := by
  unfold State.routeDeposit at h
  split at h
  · cases h
    rfl
  · simp only [bind_eq_ok, Prod.exists, pure_eq_ok] at h
    obtain ⟨total, -, w₁, r₁, -, w₂, r₂, -, rfl⟩ := h
    rfl

theorem depositInternal_frame {caller receiver : Address} {assets shares : ℕ}
    (h : s.depositInternal env caller receiver assets shares = .ok s') :
    s' = { s with shares := s'.shares, world := s'.world } := by
  unfold State.depositInternal at h
  simp only [bind_eq_ok] at h
  obtain ⟨_, -, _, -, _, -, _, -, _, -, _, -, _, -, usdc, -, token, -, h⟩ := h
  rw [routeDeposit_frame h]

theorem withdrawInternal_frame {caller receiver owner : Address} {assets shares : ℕ}
    (h : s.withdrawInternal env caller receiver owner assets shares = .ok s') :
    s' = { s with shares := s'.shares, world := s'.world } := by
  unfold State.withdrawInternal at h
  simp only [bind_eq_ok, pure_eq_ok] at h
  obtain ⟨_, -, token, -, gross, -, fee, -, s₁, hpull, token', -, usdc₁, -, usdc₂, -, rfl⟩ := h
  rw [pullProportional_frame hpull]

/-- A call of a user only moves shares and USDC. -/
theorem userExec_frame {sender : Address} {c : UserCall} {r : ℕ × ℕ}
    (h : s.userExec env sender c = .ok (s', r)) : s' = { s with shares := s'.shares, world := s'.world } := by
  cases c with
  | deposit assets receiver =>
    simp only [userExec, State.deposit, bind_eq_ok, pure_eq_ok, Prod.mk.injEq] at h
    obtain ⟨shares, -, s₁, hin, rfl, -⟩ := h
    exact depositInternal_frame hin
  | mint shares receiver =>
    simp only [userExec, State.mint, bind_eq_ok, pure_eq_ok, Prod.mk.injEq] at h
    obtain ⟨assets, -, s₁, hin, rfl, -⟩ := h
    exact depositInternal_frame hin
  | withdraw assets receiver owner =>
    simp only [userExec, State.withdraw, bind_eq_ok, pure_eq_ok, Prod.mk.injEq] at h
    obtain ⟨_, -, _, -, shares, -, s₁, hout, rfl, -⟩ := h
    exact withdrawInternal_frame hout
  | redeem shares receiver owner =>
    simp only [userExec, State.redeem, bind_eq_ok, pure_eq_ok, Prod.mk.injEq] at h
    obtain ⟨_, -, assets, -, s₁, hout, rfl, -⟩ := h
    exact withdrawInternal_frame hout

theorem userExec_quiet {sender : Address} {c : UserCall} {r : ℕ × ℕ}
    (h : s.userExec env sender c = .ok (s', r)) : Quiet s s' := by
  rw [userExec_frame h]
  exact ⟨rfl, rfl, rfl, rfl⟩

theorem routeIdle_frame (h : s.routeIdle env = .ok s') : s' = { s with world := s'.world } := by
  unfold State.routeIdle at h
  split at h
  · exact routeDeposit_frame h
  · cases h
    rfl

theorem rebalance_quiet {b : Block} {sender : Address} (h : s.rebalance env b sender = .ok s') :
    Quiet s s' := by
  unfold State.rebalance at h
  simp only [bind_eq_ok, Prod.exists, pure_eq_ok] at h
  obtain ⟨_, -, nextAt, -, _, -, _, -, total, -, product, -, w, moved, -, s₁, hroute, rfl⟩ := h
  rw [routeIdle_frame hroute]
  exact ⟨rfl, rfl, rfl, rfl⟩

/-! ### All calls -/

/-- What a successful call does to the adapters, the flags and the roles. -/
inductive Effect (env : Env V) (s : State V) (tx : Tx (VaultCall V)) : State V → Prop
  | quiet {s' : State V} (h : Quiet s s') : Effect env s tx s'
  | added {adapter : Address} {capBps : ℕ} (hcall : tx.call = .addAdapter adapter capBps)
      (hadmin : s.roles .adminRole tx.sender = true) (hne : adapter ≠ 0) (hpos : 0 < capBps)
      (hle : capBps ≤ maxBps) (hcount : s.activeAdapterCount < maxAdapters)
      (heligible : s.requireAdapterEligible env adapter = .ok ()) :
      Effect env s tx { s with adapters := s.adapters ++ [⟨adapter, capBps, true, hne, hpos, hle⟩] }
  | edited {index : ℕ} {i i' : AdapterInfo} (hentry : s.adapters[index]? = some i)
      (hactive : i.active = true) (hsame : i'.adapter = i.adapter) :
      Effect env s tx (s.setEntry index i')
  | paused (hrole : s.roles .emergencyRole tx.sender = true) :
      Effect env s tx ((s.setDepositsPaused true).setWithdrawalsPaused true)
  | unpaused (hrole : s.roles .adminRole tx.sender = true) :
      Effect env s tx ((s.setDepositsPaused false).setWithdrawalsPaused false)
  | emergency (world : World V) (hrole : s.roles .emergencyRole tx.sender = true) :
      Effect env s tx { s.setDepositsPaused true with world }
  | granted {role : VaultRole} {account : Address} (hrole : s.roles role.admin tx.sender = true) :
      Effect env s tx { s with roles := s.roles.set role account true }
  | dropped (role : VaultRole) (account : Address) :
      Effect env s tx { s with roles := s.roles.set role account false }

theorem activeEntry_eq_ok {index : ℕ} {i : AdapterInfo} :
    s.activeEntry index = .ok i ↔ s.adapters[index]? = some i ∧ i.active = true := by
  unfold State.activeEntry
  split
  · rename_i hnone
    simp [hnone]
  · rename_i j hsome
    rw [hsome]
    split
    · rename_i hactive
      constructor
      · rintro ⟨⟩
        exact ⟨rfl, hactive⟩
      · rintro ⟨⟨⟩, -⟩
        rfl
    · rename_i hinactive
      constructor
      · rintro ⟨⟩
      · rintro ⟨⟨⟩, hactive⟩
        exact absurd hactive hinactive

theorem silent_eq_ok {x : Call VaultError (State V)} {r : ℕ × ℕ} (h : silent x = .ok (s', r)) :
    x = .ok s' := by
  obtain ⟨s₁, hx, h⟩ := bind_eq_ok.mp h
  cases h
  exact hx

theorem addAdapter_effect {adapter : Address} {capBps : ℕ} (hcall : tx.call = .addAdapter adapter capBps)
    (h : s.addAdapter env tx.sender adapter capBps = .ok s') : Effect env s tx s' := by
  unfold State.addAdapter at h
  obtain ⟨_, hadmin, h⟩ := bind_eq_ok.mp h
  split at h
  · rename_i hne
    split at h
    · rename_i hcap
      simp only [bind_eq_ok, pure_eq_ok] at h
      obtain ⟨_, hcount, _, heligible, rfl⟩ := h
      exact .added hcall (Roles.check_eq_ok.mp hadmin) hne hcap.1 hcap.2
        (Nat.lt_of_not_le (revertIf_eq_ok.mp hcount)) heligible
    · cases h
  · cases h

theorem addAdapter_lastRebalanceAt {sender adapter : Address} {capBps : ℕ}
    (h : s.addAdapter env sender adapter capBps = .ok s') : s'.lastRebalanceAt = s.lastRebalanceAt := by
  simp only [State.addAdapter, bind_eq_ok] at h
  obtain ⟨_, -, h⟩ := h
  split at h
  · split at h
    · simp only [bind_eq_ok, pure_eq_ok] at h
      obtain ⟨_, -, _, -, rfl⟩ := h
      rfl
    · cases h
  · cases h

/-- What a call does, and that no other call than the rebalances writes the time of the last one. -/
theorem exec_step {r : ℕ × ℕ} (h : s.exec env tx = .ok (s', r)) : Effect env s tx s' ∧
    (tx.call ≠ .rebalance → (∀ targetBalances, tx.call ≠ .adminRebalance targetBalances) →
      s'.lastRebalanceAt = s.lastRebalanceAt) := by
  obtain ⟨b, sender, call, hsender⟩ := tx
  unfold State.exec at h
  cases call with
  | user call =>
    rw [userExec_frame h]
    exact ⟨.quiet ⟨rfl, rfl, rfl, rfl⟩, fun _ _ => rfl⟩
  | transfer | approve | transferFrom =>
    obtain ⟨shares, -, h⟩ := bind_eq_ok.mp h
    cases h
    exact ⟨.quiet ⟨rfl, rfl, rfl, rfl⟩, fun _ _ => rfl⟩
  | addAdapter adapter capBps =>
    have h := silent_eq_ok h
    exact ⟨addAdapter_effect rfl h, fun _ _ => addAdapter_lastRebalanceAt h⟩
  | setAdapterAllowed | setAdapterCodeHashAllowed =>
    have h := silent_eq_ok h
    simp only [State.setAdapterAllowed, State.setAdapterCodeHashAllowed, bind_eq_ok, pure_eq_ok] at h
    obtain ⟨_, -, _, -, rfl⟩ := h
    exact ⟨.quiet ⟨rfl, rfl, rfl, rfl⟩, fun _ _ => rfl⟩
  | removeAdapter index =>
    have h := silent_eq_ok h
    simp only [State.removeAdapter, bind_eq_ok, pure_eq_ok] at h
    obtain ⟨_, -, i, hi, _, -, rfl⟩ := h
    obtain ⟨hentry, hactive⟩ := activeEntry_eq_ok.mp hi
    exact ⟨.edited hentry hactive rfl, fun _ _ => rfl⟩
  | setAdapterCap index newCapBps =>
    have h := silent_eq_ok h
    simp only [State.setAdapterCap, bind_eq_ok] at h
    obtain ⟨_, -, i, hi, h⟩ := h
    obtain ⟨hentry, hactive⟩ := activeEntry_eq_ok.mp hi
    split at h
    · cases h
      exact ⟨.edited hentry hactive rfl, fun _ _ => rfl⟩
    · cases h
  | forceRemoveAdapter index =>
    have h := silent_eq_ok h
    simp only [State.forceRemoveAdapter, bind_eq_ok, pure_eq_ok] at h
    obtain ⟨_, -, i, hi, rfl⟩ := h
    obtain ⟨hentry, hactive⟩ := activeEntry_eq_ok.mp hi
    exact ⟨.edited hentry hactive rfl, fun _ _ => rfl⟩
  | rebalance => exact ⟨.quiet (rebalance_quiet (silent_eq_ok h)), fun hne => absurd rfl hne⟩
  | adminRebalance targetBalances =>
    have h := silent_eq_ok h
    simp only [State.adminRebalance, bind_eq_ok, Prod.exists, pure_eq_ok] at h
    obtain ⟨_, -, _, -, w, _, -, w', -, rfl⟩ := h
    exact ⟨.quiet ⟨rfl, rfl, rfl, rfl⟩, fun _ hne => absurd rfl (hne targetBalances)⟩
  | pause =>
    have h := silent_eq_ok h
    simp only [State.pause, bind_eq_ok, pure_eq_ok] at h
    obtain ⟨_, hrole, rfl⟩ := h
    exact ⟨.paused (Roles.check_eq_ok.mp hrole), fun _ _ => rfl⟩
  | unpause =>
    have h := silent_eq_ok h
    simp only [State.unpause, bind_eq_ok, pure_eq_ok] at h
    obtain ⟨_, hrole, rfl⟩ := h
    exact ⟨.unpaused (Roles.check_eq_ok.mp hrole), fun _ _ => rfl⟩
  | emergencyWithdraw =>
    have h := silent_eq_ok h
    simp only [State.emergencyWithdraw, bind_eq_ok, pure_eq_ok] at h
    obtain ⟨_, hrole, rfl⟩ := h
    exact ⟨.emergency _ (Roles.check_eq_ok.mp hrole), fun _ _ => rfl⟩
  | emergencyWithdrawAdapter index =>
    have h := silent_eq_ok h
    simp only [State.emergencyWithdrawAdapter, bind_eq_ok] at h
    obtain ⟨_, hrole, h⟩ := h
    split at h
    · cases h
    · cases h
      exact ⟨.emergency _ (Roles.check_eq_ok.mp hrole), fun _ _ => rfl⟩
  | shutdownVault | setTvlCap | setPerDepositCap =>
    have h := silent_eq_ok h
    simp only [State.shutdownVault, State.setTvlCap, State.setPerDepositCap, bind_eq_ok, pure_eq_ok] at h
    obtain ⟨_, -, rfl⟩ := h
    exact ⟨.quiet ⟨rfl, rfl, rfl, rfl⟩, fun _ _ => rfl⟩
  | setExitFeeBps | setFeeRecipient | setMaxRebalanceBpsPerCall | setMinRebalanceInterval =>
    -- the setters of a value with a range: outside it they revert
    have h := silent_eq_ok h
    simp only [State.setExitFeeBps, State.setFeeRecipient, State.setMaxRebalanceBpsPerCall,
      State.setMinRebalanceInterval, bind_eq_ok] at h
    obtain ⟨_, -, h⟩ := h
    split at h
    · cases h
      exact ⟨.quiet ⟨rfl, rfl, rfl, rfl⟩, fun _ _ => rfl⟩
    · cases h
  | rescueTokens token dst =>
    have h := silent_eq_ok h
    simp only [State.rescueTokens, bind_eq_ok, pure_eq_ok] at h
    obtain ⟨_, -, _, -, _, -, _, -, ext, -, rfl⟩ := h
    exact ⟨.quiet ⟨rfl, rfl, rfl, rfl⟩, fun _ _ => rfl⟩
  | grantRole role account =>
    obtain ⟨roles, hroles, h⟩ := bind_eq_ok.mp h
    cases h
    obtain ⟨_, hrole, hset⟩ := bind_eq_ok.mp hroles
    cases hset
    exact ⟨.granted (Roles.check_eq_ok.mp hrole), fun _ _ => rfl⟩
  | revokeRole role account =>
    obtain ⟨roles, hroles, h⟩ := bind_eq_ok.mp h
    cases h
    obtain ⟨_, -, hset⟩ := bind_eq_ok.mp hroles
    cases hset
    exact ⟨.dropped role account, fun _ _ => rfl⟩
  | renounceRole role confirmation =>
    obtain ⟨roles, hroles, h⟩ := bind_eq_ok.mp h
    cases h
    unfold Roles.renounceRole at hroles
    split at hroles
    · cases hroles
    · cases hroles
      exact ⟨.dropped role confirmation, fun _ _ => rfl⟩
  | elsewhere world =>
    cases h
    exact ⟨.quiet ⟨rfl, rfl, rfl, rfl⟩, fun _ _ => rfl⟩

/-- **What a call does.** -/
theorem exec_effect {r : ℕ × ℕ} (h : s.exec env tx = .ok (s', r)) : Effect env s tx s' := (exec_step h).1

/-- The constructor writes the initial storage. -/
theorem deploy_eq_ok {tvlCap perDepositCap exitFeeBps : ℕ} {feeRecipient admin : Address} {world : World V}
    (h : deploy tvlCap perDepositCap exitFeeBps feeRecipient admin world = .ok s) :
    ∃ (fee : ExitFee) (recipient : Recipient),
      s = initial tvlCap perDepositCap fee recipient admin world := by
  unfold State.deploy at h
  split at h
  · split at h
    · cases h
      exact ⟨_, _, rfl⟩
    · cases h
  · cases h

end RobotMoney.Vault
