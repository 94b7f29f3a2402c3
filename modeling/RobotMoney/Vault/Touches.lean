import RobotMoney.Vault.Internal

/-!
# What a call of the vault does to the world

A call of the vault acts on the world in four ways: it moves USDC between the vault and a registered adapter, it
pays USDC out, it takes USDC over from its caller, and it sends away another token.  `exec_touches` says that a
successful call is a path of these.  So what holds of the USDC of an account over the four holds over every run,
given what calls of other contracts do.
-/

namespace RobotMoney.Vault

open RobotMoney.Lib State

variable {V : Type} {env : Env V} {s s' : State V} {w w' : World V} {as as' : List Address}
  {tx : Tx (VaultCall V)}

/-- The adapters of all entries, active or not. -/
def State.registered (s : State V) : List Address := s.adapters.map fun i => i.adapter

/-- One step of a call on the world. -/
inductive Touch (env : Env V) (as : List Address) (w : World V) : World V → Prop
  | move {w' : World V} (h : Move env as w w') : Touch env as w w'
  | pay {dst : Address} {x : ℕ} {usdc : Token Address}
      (h : (w.usdc.transfer env.self dst x : Call VaultError _) = .ok usdc) : Touch env as w { w with usdc }
  | pull {src : Address} {x : ℕ} {usdc : Token Address}
      (h : (w.usdc.transferFrom env.self src env.self x : Call VaultError _) = .ok usdc) :
      Touch env as w { w with usdc }
  | rescue (ext : V) : Touch env as w { w with ext }

abbrev Touches (env : Env V) (as : List Address) : World V → World V → Prop :=
  Relation.ReflTransGen (Touch env as)

theorem Moves.touches (hsub : ∀ a ∈ as, a ∈ as') (h : Moves env as w w') : Touches env as' w w' := by
  refine Relation.ReflTransGen.mono (fun _ _ hmove => ?_) _ _ h
  cases hmove with
  | withdraw ha hw => exact .move (.withdraw (hsub _ ha) hw)
  | deploy ha htransfer hw => exact .move (.deploy (hsub _ ha) htransfer hw)

theorem activeAdapters_registered {a : Address} (ha : a ∈ s.activeAdapters) : a ∈ s.registered := by
  unfold State.activeAdapters at ha
  obtain ⟨i, hi, rfl⟩ := List.mem_map.mp ha
  exact List.mem_map_of_mem (List.mem_filter.mp hi).1

/-! ### Users -/

theorem depositInternal_touches {caller receiver : Address} {assets shares : ℕ}
    (h : s.depositInternal env caller receiver assets shares = .ok s') :
    Touches env s.registered s.world s'.world := by
  unfold State.depositInternal at h
  simp only [bind_eq_ok] at h
  obtain ⟨_, -, _, -, _, -, _, -, _, -, _, -, _, -, usdc, hpull, token, -, hroute⟩ := h
  refine .head (.pull hpull) ?_
  exact (routeDeposit_moves hroute).touches fun a ha => activeAdapters_registered ha

theorem withdrawInternal_touches {caller receiver owner : Address} {assets shares : ℕ}
    (h : s.withdrawInternal env caller receiver owner assets shares = .ok s') :
    Touches env s.registered s.world s'.world := by
  unfold State.withdrawInternal at h
  simp only [bind_eq_ok, pure_eq_ok] at h
  obtain ⟨_, -, token, -, gross, -, fee, -, s₁, hpull, token', -, usdc₁, hfee, usdc₂, hpay, rfl⟩ := h
  have hmoves : Touches env s.registered s.world s₁.world :=
    (pullProportional_moves hpull).touches fun a ha => activeAdapters_registered ha
  have hpaid : Touch env s.registered { s₁.world with usdc := usdc₁ } { s₁.world with usdc := usdc₂ } :=
    .pay hpay
  unfold State.payFee at hfee
  split at hfee
  · exact (hmoves.tail (.pay hfee)).tail hpaid
  · cases hfee
    exact hmoves.tail hpaid

theorem userExec_touches {sender : Address} {c : UserCall} {r : ℕ × ℕ}
    (h : s.userExec env sender c = .ok (s', r)) : Touches env s.registered s.world s'.world := by
  cases c with
  | deposit assets receiver =>
    simp only [userExec, State.deposit, bind_eq_ok, pure_eq_ok, Prod.mk.injEq] at h
    obtain ⟨shares, -, s₁, hin, rfl, -⟩ := h
    exact depositInternal_touches hin
  | mint shares receiver =>
    simp only [userExec, State.mint, bind_eq_ok, pure_eq_ok, Prod.mk.injEq] at h
    obtain ⟨assets, -, s₁, hin, rfl, -⟩ := h
    exact depositInternal_touches hin
  | withdraw assets receiver owner =>
    simp only [userExec, State.withdraw, bind_eq_ok, pure_eq_ok, Prod.mk.injEq] at h
    obtain ⟨_, -, _, -, shares, -, s₁, hout, rfl, -⟩ := h
    exact withdrawInternal_touches hout
  | redeem shares receiver owner =>
    simp only [userExec, State.redeem, bind_eq_ok, pure_eq_ok, Prod.mk.injEq] at h
    obtain ⟨_, -, assets, -, s₁, hout, rfl, -⟩ := h
    exact withdrawInternal_touches hout

/-! ### All calls -/

/-- The call is one of another contract. -/
def Elsewhere (tx : Tx (VaultCall V)) : Prop := ∃ world, tx.call = .elsewhere world

/-- The call is one on the role table. -/
def OnRoles (tx : Tx (VaultCall V)) : Prop :=
  (∃ role account, tx.call = .grantRole role account) ∨ (∃ role account, tx.call = .revokeRole role account) ∨
    ∃ role confirmation, tx.call = .renounceRole role confirmation

/-- **What a call does to the world**, and which calls leave the roles alone. -/
theorem exec_touches {r : ℕ × ℕ} (h : s.exec env tx = .ok (s', r)) :
    (¬ Elsewhere tx → Touches env s.registered s.world s'.world) ∧ (¬ OnRoles tx → s'.roles = s.roles) := by
  have hactive : ∀ a ∈ s.activeAdapters, a ∈ s.registered := fun a ha => activeAdapters_registered ha
  obtain ⟨b, sender, call, hsender⟩ := tx
  unfold State.exec at h
  cases call with
  | user call => exact ⟨fun _ => userExec_touches h, fun _ => (userExec_quiet h).roles⟩
  | rebalance =>
    have h := silent_eq_ok h
    exact ⟨fun _ => (rebalance_moves h).touches hactive, fun _ => (rebalance_quiet h).roles⟩
  | adminRebalance targetBalances =>
    obtain ⟨hframe, hmoves⟩ := adminRebalance_moves (silent_eq_ok h)
    refine ⟨fun _ => hmoves.touches hactive, fun _ => ?_⟩
    rw [hframe]
  | emergencyWithdraw =>
    rw [emergencyWithdraw_eq_ok (silent_eq_ok h)]
    exact ⟨fun _ => (foldl_moves fun _ h => h).touches hactive, fun _ => rfl⟩
  | emergencyWithdrawAdapter index =>
    have h := silent_eq_ok h
    cases hi : s.adapters[index]? with
    | none =>
      unfold State.emergencyWithdrawAdapter at h
      obtain ⟨_, -, h⟩ := bind_eq_ok.mp h
      rw [hi] at h
      cases h
    | some i =>
      rw [emergencyWithdrawAdapter_eq_ok hi h]
      have hmem : i.adapter ∈ s.registered := List.mem_map_of_mem (List.mem_of_getElem? hi)
      exact ⟨fun _ => (tryWithdrawAll_moves hmem).touches fun _ h => h, fun _ => rfl⟩
  | rescueTokens token dst =>
    have h := silent_eq_ok h
    simp only [State.rescueTokens, bind_eq_ok, pure_eq_ok] at h
    obtain ⟨_, -, _, -, _, -, _, -, ext, -, rfl⟩ := h
    exact ⟨fun _ => .single (.rescue ext), fun _ => rfl⟩
  | transfer | approve | transferFrom =>
    obtain ⟨shares, -, h⟩ := bind_eq_ok.mp h
    cases h
    exact ⟨fun _ => .refl, fun _ => rfl⟩
  | grantRole role account =>
    obtain ⟨roles, -, h⟩ := bind_eq_ok.mp h
    cases h
    exact ⟨fun _ => .refl, fun hno => absurd (.inl ⟨role, account, rfl⟩) hno⟩
  | revokeRole role account =>
    obtain ⟨roles, -, h⟩ := bind_eq_ok.mp h
    cases h
    exact ⟨fun _ => .refl, fun hno => absurd (.inr (.inl ⟨role, account, rfl⟩)) hno⟩
  | renounceRole role confirmation =>
    obtain ⟨roles, -, h⟩ := bind_eq_ok.mp h
    cases h
    exact ⟨fun _ => .refl, fun hno => absurd (.inr (.inr ⟨role, confirmation, rfl⟩)) hno⟩
  | addAdapter adapter capBps =>
    have h := silent_eq_ok h
    simp only [State.addAdapter, bind_eq_ok] at h
    obtain ⟨_, -, h⟩ := h
    split at h
    · split at h
      · simp only [bind_eq_ok, pure_eq_ok] at h
        obtain ⟨_, -, _, -, rfl⟩ := h
        exact ⟨fun _ => .refl, fun _ => rfl⟩
      · cases h
    · cases h
  | setAdapterAllowed | setAdapterCodeHashAllowed =>
    have h := silent_eq_ok h
    simp only [State.setAdapterAllowed, State.setAdapterCodeHashAllowed, bind_eq_ok, pure_eq_ok] at h
    obtain ⟨_, -, _, -, rfl⟩ := h
    exact ⟨fun _ => .refl, fun _ => rfl⟩
  | removeAdapter index =>
    have h := silent_eq_ok h
    simp only [State.removeAdapter, bind_eq_ok, pure_eq_ok] at h
    obtain ⟨_, -, i, -, _, -, rfl⟩ := h
    exact ⟨fun _ => .refl, fun _ => rfl⟩
  | setAdapterCap index newCapBps =>
    have h := silent_eq_ok h
    simp only [State.setAdapterCap, bind_eq_ok] at h
    obtain ⟨_, -, i, -, h⟩ := h
    split at h
    · cases h
      exact ⟨fun _ => .refl, fun _ => rfl⟩
    · cases h
  | forceRemoveAdapter index =>
    have h := silent_eq_ok h
    simp only [State.forceRemoveAdapter, bind_eq_ok, pure_eq_ok] at h
    obtain ⟨_, -, i, -, rfl⟩ := h
    exact ⟨fun _ => .refl, fun _ => rfl⟩
  | pause | unpause | shutdownVault | setTvlCap | setPerDepositCap =>
    have h := silent_eq_ok h
    simp only [State.pause, State.unpause, State.shutdownVault, State.setTvlCap, State.setPerDepositCap,
      bind_eq_ok, pure_eq_ok] at h
    obtain ⟨_, -, rfl⟩ := h
    exact ⟨fun _ => .refl, fun _ => rfl⟩
  | setExitFeeBps | setFeeRecipient | setMaxRebalanceBpsPerCall | setMinRebalanceInterval =>
    have h := silent_eq_ok h
    simp only [State.setExitFeeBps, State.setFeeRecipient, State.setMaxRebalanceBpsPerCall,
      State.setMinRebalanceInterval, bind_eq_ok] at h
    obtain ⟨_, -, h⟩ := h
    split at h
    · cases h
      exact ⟨fun _ => .refl, fun _ => rfl⟩
    · cases h
  | elsewhere world =>
    cases h
    exact ⟨fun hno => absurd ⟨world, rfl⟩ hno, fun _ => rfl⟩

/-- Entries come from `addAdapter` only, and stay. -/
theorem exec_registered {r : ℕ × ℕ} (h : s.exec env tx = .ok (s', r)) {a : Address} (ha : a ∈ s'.registered) :
    a ∈ s.registered ∨ ∃ capBps, tx.call = .addAdapter a capBps := by
  cases exec_effect h with
  | quiet hquiet =>
    unfold State.registered at ha
    rw [hquiet.adapters] at ha
    exact .inl ha
  | added hcall =>
    unfold State.registered at ha
    rw [List.map_append, List.mem_append] at ha
    rcases ha with ha | ha
    · exact .inl ha
    · rw [List.mem_singleton.mp ha]
      exact .inr ⟨_, hcall⟩
  | edited hentry _ hsame =>
    obtain ⟨i, hi, rfl⟩ := List.mem_map.mp ha
    rcases List.mem_or_eq_of_mem_set hi with hi | rfl
    · exact .inl (List.mem_map_of_mem hi)
    · rw [hsame]
      exact .inl (List.mem_map_of_mem (List.mem_of_getElem? hentry))
  | paused | unpaused | emergency | granted | dropped => exact .inl ha

end RobotMoney.Vault
