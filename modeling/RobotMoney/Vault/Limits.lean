import RobotMoney.Vault.ExitFee

/-!
# The limits

The `max*` functions of ERC-4626 are the inherited ones: they read balances, and know neither the pauses, nor the
caps, nor what the exit fee loses in rounding.  The entry points do, so a call within its limit is refused exactly
when one of these stands in its way (`limits_spec`); in a vault with a fee, one that is paused, or one that is full,
that happens (`limits_ignore`).
-/

namespace RobotMoney.Vault

open RobotMoney.Lib State

variable {V : Type} {env : Env V} {s s' : State V} {w : World V} {a x g sh net A : ℕ} {e : VaultError}

/-- `maxDeposit(receiver)`, as inherited. -/
def State.maxDeposit (_ : State V) (_receiver : Address) : ℕ := maxWord

/-- The errors that say a deposit is not within a limit of the vault. -/
def VaultError.isLimit : VaultError → Bool
  | .depositsPaused => true
  | .vaultShutdown => true
  | .perDepositCapExceeded => true
  | .tvlCapExceeded => true
  | _ => false

/-! ### Deposits -/

section Deposit

variable (he : e.isLimit = true)

include he

theorem ne_of_isLimit {e' : VaultError} (h : e'.isLimit = false) : e' ≠ e := by
  rintro rfl
  rw [h] at he
  cases he

theorem requireAdapterEligible_avoids {adapter : Address} : Avoids e (s.requireAdapterEligible env adapter) := by
  unfold State.requireAdapterEligible State.requireAdapterCompatible
  refine .bind (.of_revertIf (ne_of_isLimit he rfl)) fun _ _ => ?_
  refine .bind (.of_revertIf (ne_of_isLimit he rfl)) fun _ _ => ?_
  have hcompatible : Avoids e (.error (.custom (.adapterCompatibilityCheckFailed adapter)) : Call VaultError Unit) := by
    intro h
    exact ne_of_isLimit he rfl (Revert.custom.inj (Except.error.inj h))
  split
  · exact hcompatible
  · refine .bind (.of_revertIf (ne_of_isLimit he rfl)) fun _ _ => ?_
    split
    · exact hcompatible
    · exact .of_revertIf (ne_of_isLimit he rfl)

theorem allocateTo_avoids {adapter : Address} : Avoids e (s.allocateTo env w adapter x) :=
  .bind (requireAdapterEligible_avoids he) fun _ _ => .bind Token.transfer_avoids fun _ _ => .of_inner

theorem routePass_avoids {totalAfter : ℕ} {bpsOf : AdapterInfo → ℕ} {is : List AdapterInfo} {remaining : ℕ} :
    Avoids e (s.routePass env totalAfter bpsOf w is remaining) := by
  induction is generalizing w remaining with
  | nil => exact .of_ok
  | cons i is ih =>
    unfold State.routePass
    split
    · exact .of_ok
    split
    · exact ih
    refine .bind mulU_avoids fun product _ => ?_
    dsimp only
    split
    · exact ih
    · exact .bind (allocateTo_avoids he) fun _ _ => ih

omit he in
theorem totalAssets_avoids : Avoids e (s.totalAssets env) := sumU_avoids

theorem routeDeposit_avoids : Avoids e (s.routeDeposit env x) := by
  unfold State.routeDeposit
  split
  · exact .of_ok
  refine .bind totalAssets_avoids fun _ _ => .bind (routePass_avoids he) fun _ _ => ?_
  exact .bind (routePass_avoids he) fun _ _ => .of_ok

end Deposit

/-- A deposit is refused for a limit exactly when it is not within the limits. -/
theorem depositInternal_limit {caller receiver : Address} (hA : s.totalAssets env = .ok A) :
    (∃ e : VaultError, e.isLimit = true ∧
      s.depositInternal env caller receiver x sh = .error (.custom e)) ↔
    s.depositsPaused = true ∨ s.shutdown = true ∨ s.perDepositCap < x ∨ (A + x < wordSize ∧ s.tvlCap < A + x) := by
  unfold State.depositInternal
  by_cases hpaused : s.depositsPaused = true
  · refine iff_of_true ⟨.depositsPaused, rfl, ?_⟩ (.inl hpaused)
    rw [revertIf_pos hpaused]
    rfl
  by_cases hshutdown : s.shutdown = true
  · refine iff_of_true ⟨.vaultShutdown, rfl, ?_⟩ (.inr (.inl hshutdown))
    rw [revertIf_neg hpaused, ok_bind, revertIf_pos hshutdown]
    rfl
  by_cases hcap : s.perDepositCap < x
  · refine iff_of_true ⟨.perDepositCapExceeded, rfl, ?_⟩ (.inr (.inr (.inl hcap)))
    rw [revertIf_neg hpaused, ok_bind, revertIf_neg hshutdown, ok_bind, revertIf_pos hcap]
    rfl
  rw [revertIf_neg hpaused, ok_bind, revertIf_neg hshutdown, ok_bind, revertIf_neg hcap, ok_bind, hA, ok_bind]
  have hleft : (s.depositsPaused = true ∨ s.shutdown = true ∨ s.perDepositCap < x ∨
      (A + x < wordSize ∧ s.tvlCap < A + x)) ↔ A + x < wordSize ∧ s.tvlCap < A + x := by
    simp only [hpaused, hshutdown, hcap, Bool.false_eq_true, false_or]
  rw [hleft]
  constructor
  · rintro ⟨e, he, h⟩
    by_contra hwithin
    revert h
    -- what follows the checks does not fail with an error of theirs
    refine Avoids.bind addU_avoids ?_
    intro total htotal
    obtain ⟨hlt, rfl⟩ := addU_eq_ok.mp htotal
    rw [revertIf_neg (fun h => hwithin ⟨hlt, h⟩), ok_bind]
    refine .bind (.of_revertIf (ne_of_isLimit he rfl)) fun _ _ => .bind Token.transferFrom_avoids fun _ _ => ?_
    exact .bind Token.mint_avoids fun _ _ => routeDeposit_avoids he
  · rintro ⟨hlt, htvl⟩
    refine ⟨.tvlCapExceeded, rfl, ?_⟩
    rw [addU_eq_ok.mpr ⟨hlt, rfl⟩, ok_bind, revertIf_pos htvl]
    rfl

/-! ### Withdrawals -/

theorem pullLoop_avoids {needed total : ℕ} {is : List AdapterInfo} {remaining : ℕ} {last : Option Address} :
    Avoids e (pullLoop env needed total w is remaining last) := by
  induction is generalizing w remaining last with
  | nil => exact .of_ok
  | cons i is ih =>
    unfold State.pullLoop
    split
    · exact .of_ok
    split
    · exact ih
    refine .bind mulU_avoids fun product _ => ?_
    dsimp only
    split
    · exact ih
    · exact .bind .of_inner fun _ _ => .bind subU_avoids fun _ _ => ih

theorem pullDust_avoids {remaining : ℕ} {last : Option Address} : Avoids e (pullDust env w remaining last) := by
  unfold State.pullDust
  split
  · exact .of_ok
  · split
    · exact .of_ok
    · exact .bind .of_inner fun _ _ => .of_ok

theorem pullProportional_avoids : Avoids e (s.pullProportional env g) := by
  unfold State.pullProportional
  split
  · exact .of_ok
  split
  · exact .of_ok
  refine .bind sumU_avoids fun total _ => ?_
  split
  · exact .of_ok
  · exact .bind pullLoop_avoids fun _ _ => .bind pullDust_avoids fun _ _ => .of_ok

theorem convertToAssets_avoids : Avoids e (s.convertToAssets env sh) := by
  unfold State.convertToAssets
  refine .bind totalAssets_avoids fun _ _ => .bind addU_avoids fun _ _ => ?_
  exact .bind addU_avoids fun _ _ => mulDiv_avoids

theorem payFee_avoids {usdc : Token Address} {fee : ℕ} : Avoids e (s.payFee env usdc fee) := by
  unfold State.payFee
  split
  · exact Token.transfer_avoids
  · exact .of_ok

theorem withdrawInternal_paused_iff {caller receiver owner : Address} :
    s.withdrawInternal env caller receiver owner a sh = .error (.custom .withdrawalsPaused) ↔
      s.withdrawalsPaused = true := by
  unfold State.withdrawInternal
  by_cases hpaused : s.withdrawalsPaused = true
  · rw [revertIf_pos hpaused]
    exact iff_of_true rfl hpaused
  · refine iff_of_false ?_ hpaused
    rw [revertIf_neg hpaused, ok_bind]
    have hspend : Avoids .withdrawalsPaused (s.spendShares caller owner sh) := by
      unfold State.spendShares
      split
      · exact Token.spendAllowance_avoids
      · exact .of_ok
    refine Avoids.bind hspend fun _ _ => .bind convertToAssets_avoids fun _ _ => .bind subU_avoids fun _ _ => ?_
    refine .bind pullProportional_avoids fun _ _ => .bind Token.burn_avoids fun _ _ => ?_
    exact .bind payFee_avoids fun _ _ => .bind Token.transfer_avoids fun _ _ => .of_ok

/-- A call that only adds its result to a state fails as the state does. -/
theorem bind_pure_eq_error {α β : Type} {x : Call VaultError α} {f : α → β} {r : Revert VaultError} :
    (x >>= fun a => pure (f a)) = .error r ↔ x = .error r := by
  rw [bind_eq_error]
  refine ⟨?_, .inl⟩
  rintro (h | ⟨_, _, h⟩)
  · exact h
  · cases h

/-! ### Shares for the largest withdrawal -/

theorem netToGross_le_iff {gross k : ℕ} (h : s.netToGross a = .ok gross) :
    gross ≤ k ↔ a * maxBps ≤ k * (maxBps - s.exitFeeBps.1) := by
  unfold State.netToGross at h
  split at h
  · rename_i hfee
    cases h
    rw [hfee, Nat.sub_zero]
    exact (Nat.mul_le_mul_right_iff (by decide)).symm
  · obtain ⟨rest, hrest, h⟩ := bind_eq_ok.mp h
    obtain ⟨-, rfl⟩ := subU_eq_ok.mp hrest
    exact mulDivUp_le_iff h

theorem convertToSharesUp_le_iff {k : ℕ} (hA : s.totalAssets env = .ok A) (h : s.convertToSharesUp env g = .ok sh) :
    sh ≤ k ↔ g ≤ s.grossOf A k := by
  unfold State.convertToSharesUp at h
  simp only [bind_eq_ok, addU_eq_ok, hA] at h
  obtain ⟨_, ⟨-, rfl⟩, _, ⟨⟩, _, ⟨-, rfl⟩, h⟩ := h
  rw [mulDivUp_le_iff h]
  exact (Nat.le_div_iff_mul_le (Nat.add_pos_right _ virtualShares_pos)).symm

/-- A withdrawal is priced at no more than `k` shares exactly when the net amount fits in their value. -/
theorem previewWithdraw_le_iff {k : ℕ} (hA : s.totalAssets env = .ok A) (h : s.previewWithdraw env a = .ok sh) :
    sh ≤ k ↔ a * maxBps ≤ s.grossOf A k * (maxBps - s.exitFeeBps.1) := by
  obtain ⟨gross, hgross, h⟩ := bind_eq_ok.mp h
  rw [convertToSharesUp_le_iff hA h, netToGross_le_iff hgross]

/-- The largest withdrawal, from the value of the owner's shares. -/
theorem maxWithdraw_of_convert {owner : Address} {m : ℕ}
    (hg : s.convertToAssets env (s.shares.balanceOf owner) = .ok g) (hm : s.maxWithdraw env owner = .ok m) :
    m = if env.maxWithdrawNet then g - s.feeOf g else g := by
  unfold State.maxWithdraw at hm
  cases hnet : env.maxWithdrawNet with
  | true =>
    rw [hnet, if_pos rfl, previewRedeem_of_convert hg] at hm
    exact (Except.ok.inj hm).symm
  | false =>
    rw [hnet, if_neg Bool.false_ne_true, hg] at hm
    exact (Except.ok.inj hm).symm

/-- It is priced at no more than these shares exactly when its fee is whole. -/
theorem maxWithdraw_enough {owner : Address} {m : ℕ}
    (hg : s.convertToAssets env (s.shares.balanceOf owner) = .ok g) (hm : s.maxWithdraw env owner = .ok m)
    (h : s.previewWithdraw env m = .ok sh) :
    sh ≤ s.shares.balanceOf owner ↔
      if env.maxWithdrawNet then maxBps ∣ g * s.exitFeeBps.1 else g * s.exitFeeBps.1 = 0 := by
  obtain ⟨A, hA⟩ := totalAssets_of_convert hg
  have hvalue := (convertToAssets_ok hA hg).2
  have hmax := maxWithdraw_of_convert hg hm
  rw [previewWithdraw_le_iff hA h, ← hvalue, hmax]
  cases env.maxWithdrawNet with
  | true =>
    rw [if_pos rfl, if_pos rfl]
    exact rest_mul_le_iff exitFee_le (by decide)
  | false =>
    rw [if_neg Bool.false_ne_true, if_neg Bool.false_ne_true, Nat.mul_sub]
    have hle := Nat.mul_le_mul_left g (exitFee_le (s := s))
    omega

/-- Nobody withdraws more shares than the owner has. -/
theorem withdraw_shares_le {caller receiver owner : Address} {r : State V × ℕ × ℕ}
    (h : s.previewWithdraw env a = .ok sh) (hw : s.withdraw env caller a receiver owner = .ok r) :
    sh ≤ s.shares.balanceOf owner := by
  unfold State.withdraw State.withdrawInternal at hw
  simp only [bind_eq_ok, h] at hw
  obtain ⟨_, -, _, -, _, ⟨⟩, _, ⟨_, -, token, hspend, _, -, _, -, _, -, _, hburn, -⟩, -⟩ := hw
  obtain ⟨-, hle, -⟩ := Token.burn_eq_ok.mp hburn
  unfold State.spendShares at hspend
  split at hspend
  · obtain ⟨hb, -⟩ := Token.spendAllowance_frame hspend
    rwa [hb] at hle
  · cases hspend
    exact hle

/-! ### The limits -/

/-- What a call within its limit meets. -/
structure Limits (env : Env V) (s : State V) (owner : Address) : Prop where
  /-- a deposit is refused for a limit exactly when the vault is paused, shut down, or a cap is exceeded -/
  deposit : ∀ caller x sh A, x ≤ s.maxDeposit owner → s.previewDeposit env x = .ok sh → s.totalAssets env = .ok A →
    ((∃ e : VaultError, e.isLimit = true ∧ s.deposit env caller x owner = .error (.custom e)) ↔
      s.depositsPaused = true ∨ s.shutdown = true ∨ s.perDepositCap < x ∨
        (A + x < 2 ^ 256 ∧ s.tvlCap < A + x))
  redeem : ∀ caller receiver net, s.previewRedeem env (s.maxRedeem owner) = .ok net →
    (s.redeem env caller (s.maxRedeem owner) receiver owner = .error (.custom .withdrawalsPaused) ↔
      s.withdrawalsPaused = true)
  withdraw : ∀ caller receiver m sh, s.maxWithdraw env owner = .ok m → s.previewWithdraw env m = .ok sh →
    (s.withdraw env caller m receiver owner = .error (.custom .withdrawalsPaused) ↔ s.withdrawalsPaused = true)
  /-- the owner has the shares for the largest withdrawal exactly when the fee is whole, if the library nets it, and
  when there is none, if it does not -/
  enough : ∀ m sh g, s.maxWithdraw env owner = .ok m → s.previewWithdraw env m = .ok sh →
    s.convertToAssets env (s.shares.balanceOf owner) = .ok g →
    (sh ≤ s.shares.balanceOf owner ↔
      if env.maxWithdrawNet then 10000 ∣ g * s.exitFeeBps.1 else g * s.exitFeeBps.1 = 0)
  /-- and if not, it does not go through -/
  short : ∀ m sh, s.previewWithdraw env m = .ok sh → s.shares.balanceOf owner < sh →
    ∀ caller receiver r, s.withdraw env caller m receiver owner ≠ .ok r

/-- **What the limits leave out.** -/
theorem limits_spec (env : Env V) (s : State V) (owner : Address) : Limits env s owner := by
  refine ⟨?_, ?_, ?_, ?_, ?_⟩
  · intro caller x sh A _ hsh hA
    unfold State.deposit
    rw [hsh, ok_bind]
    simp only [bind_pure_eq_error]
    exact depositInternal_limit hA
  · intro caller receiver net hnet
    unfold State.redeem
    rw [revertIf_neg (Nat.lt_irrefl _), ok_bind, hnet, ok_bind, bind_pure_eq_error]
    exact withdrawInternal_paused_iff
  · intro caller receiver m sh hm hsh
    unfold State.withdraw
    rw [hm, ok_bind, revertIf_neg (Nat.lt_irrefl _), ok_bind, hsh, ok_bind, bind_pure_eq_error]
    exact withdrawInternal_paused_iff
  · intro m sh g hm hsh hg
    exact maxWithdraw_enough hg hm hsh
  · intro m sh hsh hlt caller receiver r hw
    exact absurd (withdraw_shares_le hsh hw) (Nat.not_le.mpr hlt)

/-- The vault `inUse`, paused. -/
def halted : State Unit := run (exec (passthrough 1 2)) inUse [callBy 20 .pause]

/-- The vault `inUse`, shut down. -/
def closed : State Unit := run (exec (passthrough 1 2)) inUse [callBy 20 .shutdownVault]

/-- The vault `inUse` after a deposit of 500 units; its cap is 1000. -/
def filling : State Unit := run (exec (passthrough 1 2)) inUse [callBy 6 (.user (.deposit 500 6))]

/-- The owner's three shares are worth three units, with no fee to a whole unit; withdrawing three takes four shares.
In the paused vault neither exit goes through at its limit, and deposits within theirs are refused for each of the
four reasons. -/
theorem limits_ignore :
    (inUse.maxWithdraw (passthrough 1 2) 5 = .ok 3 ∧ inUse.shares.balanceOf 5 = 3 * 10 ^ 18 ∧
      inUse.previewWithdraw (passthrough 1 2) 3 = .ok (4 * 10 ^ 18) ∧
      inUse.withdraw (passthrough 1 2) 5 3 5 5 = .error (.token .insufficientBalance)) ∧
    (halted.maxWithdraw (passthrough 1 2) 5 = .ok 3 ∧
      halted.withdraw (passthrough 1 2) 5 3 5 5 = .error (.custom .withdrawalsPaused) ∧
      halted.redeem (passthrough 1 2) 5 (halted.maxRedeem 5) 5 5 = .error (.custom .withdrawalsPaused)) ∧
    501 ≤ inUse.maxDeposit 6 ∧
    halted.deposit (passthrough 1 2) 6 1 6 = .error (.custom .depositsPaused) ∧
    closed.deposit (passthrough 1 2) 6 1 6 = .error (.custom .vaultShutdown) ∧
    inUse.deposit (passthrough 1 2) 6 501 6 = .error (.custom .perDepositCapExceeded) ∧
    filling.deposit (passthrough 1 2) 6 498 6 = .error (.custom .tvlCapExceeded) := by
  refine ⟨⟨by decide +kernel, by decide +kernel, by decide +kernel, ?_⟩, ⟨by decide +kernel, ?_, ?_⟩, by decide,
    ?_, ?_, ?_, ?_⟩
  all_goals exact reason_eq_some.mp (by decide +kernel)

end RobotMoney.Vault
