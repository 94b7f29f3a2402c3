import RobotMoney.Lib.Token

/-!
# Accounts that make no call

What becomes of an account's units and allowances while others act: it may be given units, and it loses units to
the spenders of its allowances only, which fall by what they take.  `Passive` says that of two ledgers and an
account.  It is kept by every operation of another account, and it composes; an account without allowances
(`NoAllowances`) loses nothing.
-/

set_option linter.unusedSectionVars false

namespace RobotMoney.Lib.Token

variable {A : Type} [Fintype A] [DecidableEq A] {ε : Type} {b : A} {t t₁ t' : Token A}

/-- The account has made no call from the ledger `t` to the ledger `t'`. -/
structure Passive (b : A) (t t' : Token A) : Prop where
  allowance : ∀ s, t'.allowance b s ≤ t.allowance b s
  /-- what it lost was taken from limited allowances -/
  balance : (∀ s, t.allowance b s < maxWord) →
    t.balanceOf b + ∑ s, t'.allowance b s ≤ t'.balanceOf b + ∑ s, t.allowance b s

/-- Nobody may spend the account's units. -/
def NoAllowances (b : A) (t : Token A) : Prop := ∀ s, t.allowance b s = 0

namespace Passive

theorem refl (b : A) (t : Token A) : Passive b t t := ⟨fun _ => Nat.le_refl _, fun _ => Nat.le_refl _⟩

theorem trans (h : Passive b t t₁) (h' : Passive b t₁ t') : Passive b t t' := by
  refine ⟨fun s => (h'.allowance s).trans (h.allowance s), fun hlim => ?_⟩
  have h₁ := h.balance hlim
  have h₂ := h'.balance fun s => (h.allowance s).trans_lt (hlim s)
  omega

/-- More units and the same allowances. -/
theorem of_le (hbal : t.balanceOf b ≤ t'.balanceOf b) (hallow : ∀ s, t'.allowance b s = t.allowance b s) :
    Passive b t t' := by
  refine ⟨fun s => (hallow s).le, fun _ => ?_⟩
  have hsum : ∑ s, t'.allowance b s = ∑ s, t.allowance b s := Finset.sum_congr rfl fun s _ => hallow s
  omega

/-- Without allowances nothing is lost, and there are none afterwards. -/
theorem le_of_noAllowances (h : Passive b t t') (hno : NoAllowances b t) :
    t.balanceOf b ≤ t'.balanceOf b ∧ NoAllowances b t' := by
  have hno' : NoAllowances b t' := fun s => Nat.le_zero.mp (hno s ▸ h.allowance s)
  refine ⟨?_, hno'⟩
  have hbal := h.balance fun s => by
    rw [hno s]
    decide
  rwa [Finset.sum_congr rfl fun s _ => hno s, Finset.sum_congr rfl fun s _ => hno' s, Nat.add_le_add_iff_right]
    at hbal

/-- One allowance, and no other. -/
theorem le_of_allowance (h : Passive b t t') {spender : A} (hlim : t.allowance b spender < maxWord)
    (hother : ∀ s, s ≠ spender → t.allowance b s = 0) :
    t.balanceOf b ≤ t'.balanceOf b + t.allowance b spender ∧ ∀ s, s ≠ spender → t'.allowance b s = 0 := by
  have hsum : ∑ s, t.allowance b s = t.allowance b spender := by
    refine Finset.sum_eq_single spender (fun s _ hs => hother s hs) fun hs => ?_
    exact absurd (Finset.mem_univ spender) hs
  refine ⟨?_, fun s hs => Nat.le_zero.mp (hother s hs ▸ h.allowance s)⟩
  have hbal := h.balance fun s => by
    by_cases hs : s = spender
    · rwa [hs]
    · rw [hother s hs]
      decide
  omega

variable [Zero A] {src dst owner spender : A} {v : ℕ}

theorem of_transfer (hsrc : b ≠ src) (h : (t.transfer src dst v : Call ε (Token A)) = .ok t') : Passive b t t' := by
  obtain ⟨-, -, hv, rfl⟩ := transfer_eq_ok.mp h
  exact of_le (le_moved hsrc) fun _ => rfl

theorem of_approve (howner : b ≠ owner) (h : (t.approve owner spender v : Call ε (Token A)) = .ok t') :
    Passive b t t' := by
  obtain ⟨-, -, rfl⟩ := approve_eq_ok.mp h
  exact of_le (Nat.le_refl _) fun s => setAllowance_allowance_of_ne t v (.inl howner)

/-- A `transferFrom` of anybody's units, the account's own among them. -/
theorem of_transferFrom (h : (t.transferFrom spender src dst v : Call ε (Token A)) = .ok t') : Passive b t t' := by
  obtain ⟨hle, hbal, -⟩ := transferFrom_balances h
  by_cases hb : b = src
  · subst hb
    have hlost : t.balanceOf b ≤ t'.balanceOf b + v := by
      rw [hbal]
      by_cases hd : b = dst
      · rw [← hd, moved_self hle]
        omega
      · rw [moved_src hd]
        omega
    by_cases hlim : t.allowance b spender < maxWord
    · obtain ⟨hspent, hother⟩ := transferFrom_allowance hlim h
      refine ⟨fun s => ?_, fun _ => ?_⟩
      · by_cases hs : s = spender
        · rw [hs]
          omega
        · exact (hother s hs).le
      · have hsum : ∑ s, t'.allowance b s + t.allowance b spender =
            ∑ s, t.allowance b s + t'.allowance b spender := by
          rw [← sum_update (t.allowance b) spender (t'.allowance b spender)]
          congr 1
          refine Finset.sum_congr rfl fun s _ => ?_
          by_cases hs : s = spender
          · rw [hs, Function.update_self]
          · rw [Function.update_of_ne hs, hother s hs]
        omega
    · -- an unlimited allowance is not used up
      refine ⟨fun s => ?_, fun hall => absurd (hall spender) hlim⟩
      obtain ⟨t₁, h₁, h₂⟩ := bind_eq_ok.mp h
      obtain ⟨-, -, -, rfl⟩ := transfer_eq_ok.mp h₂
      unfold spendAllowance at h₁
      rw [if_neg hlim] at h₁
      cases h₁
      exact Nat.le_refl _
  · refine of_le ?_ fun s => transferFrom_allowance_of_ne h hb s
    rw [hbal]
    exact le_moved hb

end Passive

end RobotMoney.Lib.Token
