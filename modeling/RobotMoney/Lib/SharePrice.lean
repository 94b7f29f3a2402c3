import Mathlib.Tactic

/-!
# The price of a share

A pool with `A` assets and `S` shares, one virtual asset and `K` virtual shares, prices a share at
`(A + 1) / (S + K)`.  Prices are compared without division, by `PriceLe`.  A deposit that mints no more
shares than its assets are worth, and a withdrawal that takes no more assets than its shares are worth,
do not lower the price; and what a deposit minted is not worth more than the deposit, at the price the
deposit leaves.
-/

namespace RobotMoney.Lib

/-- The price of a share at `A` assets and `S` shares is at most the price at `A'` and `S'`. -/
def PriceLe (K A S A' S' : ℕ) : Prop := (A + 1) * (S' + K) ≤ (A' + 1) * (S + K)

namespace PriceLe

variable {K A S A' S' A'' S'' x s g : ℕ}

theorem refl : PriceLe K A S A S := Nat.le_refl _

theorem trans (hK : 0 < K) (h₁ : PriceLe K A S A' S') (h₂ : PriceLe K A' S' A'' S'') :
    PriceLe K A S A'' S'' := by
  unfold PriceLe at *
  have hpos : 0 < S' + K := by omega
  refine Nat.le_of_mul_le_mul_right ?_ hpos
  calc (A + 1) * (S'' + K) * (S' + K) = (A + 1) * (S' + K) * (S'' + K) := by ring
    _ ≤ (A' + 1) * (S + K) * (S'' + K) := Nat.mul_le_mul_right _ h₁
    _ = (A' + 1) * (S'' + K) * (S + K) := by ring
    _ ≤ (A'' + 1) * (S' + K) * (S + K) := Nat.mul_le_mul_right _ h₂
    _ = (A'' + 1) * (S + K) * (S' + K) := by ring

/-- `x` assets come in for `s` shares that are worth no more. -/
theorem deposit (h : s * (A + 1) ≤ x * (S + K)) : PriceLe K A S (A + x) (S + s) := by
  unfold PriceLe
  calc (A + 1) * (S + s + K) = (A + 1) * (S + K) + s * (A + 1) := by ring
    _ ≤ (A + 1) * (S + K) + x * (S + K) := Nat.add_le_add_left h _
    _ = (A + x + 1) * (S + K) := by ring

/-- At most `g` assets go out for `s` shares that are worth no less. -/
theorem withdraw (hs : s ≤ S) (hA : A ≤ A' + g) (h : g * (S + K) ≤ s * (A + 1)) :
    PriceLe K A S A' (S - s) := by
  unfold PriceLe
  have hsplit : (A + 1) * (S - s + K) + s * (A + 1) = (A + 1) * (S + K) := by
    obtain ⟨t, rfl⟩ := Nat.exists_eq_add_of_le hs
    rw [Nat.add_sub_cancel_left]
    ring
  have hle : (A + 1) * (S + K) ≤ (A' + 1) * (S + K) + g * (S + K) := by
    calc (A + 1) * (S + K) ≤ (A' + g + 1) * (S + K) := Nat.mul_le_mul_right _ (by omega)
      _ = (A' + 1) * (S + K) + g * (S + K) := by ring
  omega

/-- A round trip does not gain: what `s` shares are worth after they were minted for `x` assets. -/
theorem round_trip {t : ℕ} (hK : 0 < K) (hmint : s * (A + 1) ≤ x * (S + K)) (ht : t ≤ s)
    (h : g * (S + s + K) ≤ t * (A + x + 1)) : g ≤ x := by
  have hpos : 0 < S + s + K := by omega
  refine Nat.le_of_mul_le_mul_right ?_ hpos
  calc g * (S + s + K) ≤ t * (A + x + 1) := h
    _ ≤ s * (A + x + 1) := Nat.mul_le_mul_right _ ht
    _ = s * (A + 1) + x * s := by ring
    _ ≤ x * (S + K) + x * s := Nat.add_le_add_right hmint _
    _ = x * (S + s + K) := by ring

end PriceLe

end RobotMoney.Lib
