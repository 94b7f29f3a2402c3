import RobotMoney.Vault.Admin

/-!
# Exact adapters

What results about the vault's assets ask of its adapters.  `ExactOut`: a withdrawal brings back what
was asked, or all there is.  `Exact`: moreover, what is deployed is reported on top.  `Live`: moreover,
withdrawals do not revert.  The repository's `PassthroughAdapter`, which only holds the USDC it is
given, is all of these (`exact_passthrough`, `live_passthrough`).
-/

namespace RobotMoney.Vault

open RobotMoney.Lib State

variable {V : Type} {env : Env V} {w : World V} {ads : List Address}

/-- Withdrawals from the adapters `ads` are exact. -/
structure ExactOut (env : Env V) (ads : List Address) : Prop where
  self_not_mem : env.self ∉ ads
  /-- a withdrawal brings back what was asked, or all there is -/
  withdraw : ∀ w a x w' y, a ∈ ads → env.adapterWithdraw w a x = .ok (w', y) →
    y = min x (env.adapterAssets w a) ∧
      w'.usdc.balanceOf env.self = w.usdc.balanceOf env.self + y ∧
      env.adapterAssets w' a + y = env.adapterAssets w a ∧
      ∀ b ∈ ads, b ≠ a → env.adapterAssets w' b = env.adapterAssets w b

/-- The adapters `ads` are exact. -/
structure Exact (env : Env V) (ads : List Address) : Prop extends ExactOut env ads where
  /-- what an adapter reports depends on the USDC ledger through its own balance, if at all, and does
  not fall when that grows -/
  grows : ∀ w usdc a, a ∈ ads → w.usdc.balanceOf a ≤ Token.balanceOf usdc a →
    env.adapterAssets w a ≤ env.adapterAssets { w with usdc } a
  /-- USDC handed over and deployed leaves the vault and is reported by the adapter -/
  deploy : ∀ w usdc a x w', a ∈ ads →
    (w.usdc.transfer env.self a x : Call VaultError _) = .ok usdc →
    env.adapterDeploy { w with usdc } a x = .ok w' →
    w'.usdc.balanceOf env.self + x = w.usdc.balanceOf env.self ∧
      env.adapterAssets w' a = env.adapterAssets w a + x ∧
      ∀ b ∈ ads, b ≠ a → env.adapterAssets w' b = env.adapterAssets w b

/-- Withdrawals from the adapters `ads` are exact, and do not revert. -/
structure Live (env : Env V) (ads : List Address) : Prop extends ExactOut env ads where
  live : ∀ w a x, a ∈ ads → ∃ r, env.adapterWithdraw w a x = .ok r

theorem ExactOut.mono {ads' : List Address} (h : ExactOut env ads) (hsub : ∀ a ∈ ads', a ∈ ads) :
    ExactOut env ads' := by
  refine ⟨fun hself => h.self_not_mem (hsub _ hself), ?_⟩
  intro w a x w' y ha hw
  obtain ⟨hy, hidle, hgave, hkept⟩ := h.withdraw w a x w' y (hsub a ha) hw
  exact ⟨hy, hidle, hgave, fun b hb => hkept b (hsub b hb)⟩

/-- Some of a list of exact adapters are exact. -/
theorem Exact.mono {ads' : List Address} (h : Exact env ads) (hsub : ∀ a ∈ ads', a ∈ ads) :
    Exact env ads' := by
  refine ⟨h.toExactOut.mono hsub, fun w usdc a ha => h.grows w usdc a (hsub a ha), ?_⟩
  intro w usdc a x w' ha htransfer hdeploy
  obtain ⟨hidle, hgrow, hkept⟩ := h.deploy w usdc a x w' (hsub a ha) htransfer hdeploy
  exact ⟨hidle, hgrow, fun b hb => hkept b (hsub b hb)⟩

/-- A change of the USDC ledger that leaves an adapter's own balance leaves what it reports. -/
theorem Exact.own (hexact : Exact env ads) {usdc : Token Address} {a : Address} (ha : a ∈ ads)
    (h : usdc.balanceOf a = w.usdc.balanceOf a) :
    env.adapterAssets { w with usdc } a = env.adapterAssets w a := by
  refine Nat.le_antisymm ?_ (hexact.grows w usdc a ha (Nat.le_of_eq h.symm))
  exact hexact.grows { w with usdc } w.usdc a ha (Nat.le_of_eq h)

/-! ### The passthrough adapter -/

namespace PassthroughAdapter

inductive AdapterError where
  | onlyVault
  deriving DecidableEq

/-- `totalAssets()` -/
def totalAssets (w : World V) (adapter : Address) : ℕ := w.usdc.balanceOf adapter

/-- `deploy(amount)`: the USDC stays where it is. -/
def deploy (vault sender : Address) (w : World V) (_amount : ℕ) : Call AdapterError (World V) := do
  revertIf (sender ≠ vault) AdapterError.onlyVault
  pure w

/-- `withdraw(amount)` -/
def withdraw (vault sender : Address) (w : World V) (adapter : Address) (amount : ℕ) :
    Call AdapterError (World V × ℕ) := do
  revertIf (sender ≠ vault) AdapterError.onlyVault
  let bal := w.usdc.balanceOf adapter
  let actual := if bal < amount then bal else amount
  if 0 < actual then do
    let usdc ← w.usdc.transfer adapter vault actual
    pure ({ w with usdc }, actual)
  else pure (w, actual)

end PassthroughAdapter

/-- The vault at `self`, over the USDC at `asset`, with passthrough adapters. -/
def passthrough (self asset : Address) : Env Unit where
  self := self
  asset := asset
  codehash _ := 1
  usdcView _ := some asset
  vaultView _ := some self
  adapterAssets := PassthroughAdapter.totalAssets
  adapterDeploy w _ amount := inner (PassthroughAdapter.deploy self self w amount)
  adapterWithdraw w adapter amount :=
    inner (PassthroughAdapter.withdraw self self w adapter amount)
  rescueToken _ _ _ := .error .innerCall
  maxWithdrawNet := true

section Passthrough

variable {self asset : Address}

theorem exactOut_passthrough (hself : self ∉ ads) : ExactOut (passthrough self asset) ads := by
  refine ⟨hself, ?_⟩
  intro w a x w' y ha h
  have hne : a ≠ self := by
    rintro rfl
    exact hself ha
  unfold passthrough at h
  simp only [inner_eq_ok, PassthroughAdapter.withdraw, bind_eq_ok] at h
  obtain ⟨-, -, h⟩ := h
  have hmin : (if w.usdc.balanceOf a < x then w.usdc.balanceOf a else x) =
      min x (w.usdc.balanceOf a) := by
    split <;> omega
  rw [hmin] at h
  have hle : min x (w.usdc.balanceOf a) ≤ w.usdc.balanceOf a := Nat.min_le_right _ _
  split at h
  · simp only [bind_eq_ok, pure_eq_ok, Prod.mk.injEq] at h
    obtain ⟨usdc, htransfer, rfl, rfl⟩ := h
    obtain ⟨-, -, hv, rfl⟩ := Token.transfer_eq_ok.mp htransfer
    refine ⟨rfl, ?_, ?_, ?_⟩
    · exact Token.moved_dst hne
    · show Token.moved w.usdc.balanceOf a self _ a + _ = w.usdc.balanceOf a
      rw [Token.moved_src hne]
      omega
    · intro b hb hba
      refine Token.moved_of_ne hba ?_
      rintro rfl
      exact hself hb
  · obtain ⟨rfl, rfl⟩ := Prod.mk.injEq .. ▸ pure_eq_ok.mp h
    refine ⟨rfl, ?_, ?_, ?_⟩
    · omega
    · show w.usdc.balanceOf a + _ = w.usdc.balanceOf a
      omega
    · intro b _ _
      rfl

/-- Passthrough adapters are exact. -/
theorem exact_passthrough (hself : self ∉ ads) : Exact (passthrough self asset) ads := by
  refine ⟨exactOut_passthrough hself, ?_, ?_⟩
  · intro w usdc a _ hle
    exact hle
  · intro w usdc a x w' ha htransfer hdeploy
    have hne : self ≠ a := by
      rintro rfl
      exact hself ha
    obtain ⟨-, -, hv, rfl⟩ := Token.transfer_eq_ok.mp htransfer
    unfold passthrough at hdeploy
    simp only [inner_eq_ok, PassthroughAdapter.deploy, bind_eq_ok, pure_eq_ok] at hdeploy
    obtain ⟨-, -, rfl⟩ := hdeploy
    refine ⟨?_, ?_, ?_⟩
    · show Token.moved w.usdc.balanceOf self a x self + x = w.usdc.balanceOf self
      rw [Token.moved_src hne]
      exact Nat.sub_add_cancel hv
    · exact Token.moved_dst hne
    · intro b hb hba
      refine Token.moved_of_ne ?_ hba
      rintro rfl
      exact hself hb

/-- Passthrough adapters do not revert. -/
theorem live_passthrough (hself : self ∉ ads) (hself₀ : self ≠ 0) (hads : (0 : Address) ∉ ads) :
    Live (passthrough self asset) ads := by
  refine ⟨exactOut_passthrough hself, ?_⟩
  intro w a x ha
  have ha₀ : a ≠ 0 := by
    rintro rfl
    exact hads ha
  set actual := if w.usdc.balanceOf a < x then w.usdc.balanceOf a else x with hactual
  have hle : actual ≤ w.usdc.balanceOf a := by
    rw [hactual]
    split <;> omega
  by_cases hpos : 0 < actual
  · refine ⟨({ w with usdc := w.usdc.move a self actual hle }, actual), ?_⟩
    unfold passthrough
    simp only [inner_eq_ok, PassthroughAdapter.withdraw, bind_eq_ok, revertIf_eq_ok, exists_const,
      ← hactual, if_pos hpos, Token.transfer_eq_ok, pure_eq_ok]
    exact ⟨by simp, _, ⟨ha₀, hself₀, hle, rfl⟩, rfl⟩
  · refine ⟨(w, actual), ?_⟩
    unfold passthrough
    simp only [inner_eq_ok, PassthroughAdapter.withdraw, bind_eq_ok, revertIf_eq_ok, exists_const,
      ← hactual, if_neg hpos, pure_eq_ok]
    exact ⟨by simp, trivial⟩

end Passthrough

end RobotMoney.Vault
