import RobotMoney.Lib.Revert

/-!
# Splitting an amount in proportion

An amount `x` is split over weights `ws` that sum to `D`: the share of `w` is `x * w / D`, rounded down.
The shares sum to at most `x`, and what the rounding leaves over (the *dust*) is smaller than the number
of weights (`shares_sum_le`, `lt_shares_sum_add_length`).  An amount *grossed up* for a weight `w` is the
least that leaves it when the share of `w` is taken (`add_share_le`, `sub_le_share_succ`).
-/

namespace RobotMoney.Lib

/-- The share of the weight `w` in the amount `x`, out of `D`. -/
def share (x D w : ℕ) : ℕ := x * w / D

/-- The shares of all weights. -/
def shares (x D : ℕ) (ws : List ℕ) : List ℕ := ws.map (share x D)

variable {x D w : ℕ} {ws : List ℕ}

@[simp] theorem shares_nil : shares x D [] = [] := rfl

@[simp] theorem shares_cons : shares x D (w :: ws) = share x D w :: shares x D ws := rfl

@[simp] theorem length_shares : (shares x D ws).length = ws.length := List.length_map _

theorem share_mul_le : share x D w * D ≤ x * w := Nat.div_mul_le_self _ _

theorem lt_share_mul_add (hD : 0 < D) : x * w < share x D w * D + D := by
  have h := Nat.div_add_mod (x * w) D
  have := Nat.mod_lt (x * w) hD
  unfold share
  rw [mul_comm (x * w / D) D]
  omega

/-- A share of at most the whole amount is at most the weight. -/
theorem share_le_weight (h : x ≤ D) : share x D w ≤ w := by
  rcases Nat.eq_zero_or_pos D with rfl | hD
  · simp [share]
  · refine Nat.div_le_of_le_mul ?_
    exact Nat.mul_le_mul_right w h

/-- What is left of an amount when a share is taken is at least the rest of the weights' part of it. -/
theorem mul_sub_le_rest_mul : x * (D - w) ≤ (x - share x D w) * D := by
  have h := share_mul_le (x := x) (D := D) (w := w)
  rw [Nat.mul_sub, Nat.sub_mul]
  exact Nat.sub_le_sub_left h (x * D)

/-- It is no more only where nothing is rounded off. -/
theorem rest_mul_le_iff (hw : w ≤ D) (hD : 0 < D) : (x - share x D w) * D ≤ x * (D - w) ↔ D ∣ x * w := by
  have h := share_mul_le (x := x) (D := D) (w := w)
  have hle : x * w ≤ x * D := Nat.mul_le_mul_left x hw
  rw [Nat.mul_sub, Nat.sub_mul]
  constructor
  · intro hrest
    refine Dvd.intro_left (share x D w) ?_
    omega
  · rintro ⟨c, hc⟩
    unfold share
    rw [hc, Nat.mul_div_cancel_left c hD, Nat.mul_comm c D]

/-- The share of the whole is the whole. -/
theorem share_whole (hD : 0 < D) : share x D D = x := Nat.mul_div_cancel x hD

/-- A share grows with the amount. -/
theorem share_le_share {y : ℕ} (h : x ≤ y) : share x D w ≤ share y D w :=
  Nat.div_le_div_right (Nat.mul_le_mul_right w h)

/-- A share grows by no more than the amount. -/
theorem share_add_le {d : ℕ} (hw : w ≤ D) : share (x + d) D w ≤ share x D w + d := by
  rcases Nat.eq_zero_or_pos D with rfl | hD
  · simp [share]
  · have hle : (x + d) * w ≤ x * w + d * D := by
      rw [Nat.add_mul]
      exact Nat.add_le_add_left (Nat.mul_le_mul_left d hw) _
    have hdiv := Nat.div_le_div_right (c := D) hle
    rwa [Nat.add_mul_div_right _ _ hD] at hdiv

/-- A part `p / P` of a share is the share of the part, up to the share of one unit and two. -/
theorem mul_share_le {p P : ℕ} (hP : 0 < P) (hD : 0 < D) :
    p * share x D w ≤ P * (share (share x P p) D w + share 1 D w + 2) := by
  have h₁ := share_mul_le (x := x) (D := D) (w := w)
  have h₂ := lt_share_mul_add (x := x) (w := p) hP
  have h₃ := lt_share_mul_add (x := share x P p) (w := w) hD
  have h₄ := lt_share_mul_add (x := 1) (w := w) hD
  refine Nat.le_of_mul_le_mul_right ?_ hD
  calc p * share x D w * D = p * (share x D w * D) := Nat.mul_assoc _ _ _
    _ ≤ p * (x * w) := Nat.mul_le_mul_left p h₁
    _ = x * p * w := by ring
    _ ≤ (share x P p * P + P) * w := Nat.mul_le_mul_right w h₂.le
    _ = P * (share x P p * w + 1 * w) := by ring
    _ ≤ P * ((share (share x P p) D w * D + D) + (share 1 D w * D + D)) :=
      Nat.mul_le_mul_left P (Nat.add_le_add h₃.le h₄.le)
    _ = P * (share (share x P p) D w + share 1 D w + 2) * D := by ring

/-- A share of a share at the reciprocal weight is at most the amount. -/
theorem share_share_le : share (share x D w) w D ≤ x := by
  refine Nat.div_le_of_le_mul ?_
  rw [Nat.mul_comm w x]
  exact share_mul_le

/-- The shares of two amounts are at most the share of their sum. -/
theorem share_add_share_le {y : ℕ} (hD : 0 < D) : share x D w + share y D w ≤ share (x + y) D w := by
  refine (Nat.le_div_iff_mul_le hD).mpr ?_
  rw [Nat.add_mul, Nat.add_mul]
  exact Nat.add_le_add share_mul_le share_mul_le

/-- What is grossed up to at least `g` has room for the amount and the share of `w` in the gross. -/
theorem add_share_le {g : ℕ} (hw : w ≤ D) (hD : 0 < D) (h : x * D ≤ g * (D - w)) : x + share g D w ≤ g := by
  have hshare := share_mul_le (x := g) (D := D) (w := w)
  have hsplit : g * (D - w) + g * w = g * D := by
    rw [← Nat.mul_add, Nat.sub_add_cancel hw]
  refine Nat.le_of_mul_le_mul_right ?_ hD
  rw [Nat.add_mul]
  omega

/-- What is grossed up to less than one more leaves over the amount and the share no more than one. -/
theorem sub_le_share_succ {g : ℕ} (hw : w ≤ D) (hD : 0 < D) (h : g * (D - w) < x * D + (D - w)) :
    g - x ≤ share g D w + 1 := by
  have hshare := lt_share_mul_add (x := g) (w := w) hD
  have hsplit : g * (D - w) + g * w = g * D := by
    rw [← Nat.mul_add, Nat.sub_add_cancel hw]
  have hlt : g * D < (x + share g D w + 2) * D := by
    rw [Nat.add_mul, Nat.add_mul]
    omega
  have := Nat.lt_of_mul_lt_mul_right hlt
  omega

theorem shares_sum_mul_le : (shares x D ws).sum * D ≤ x * ws.sum := by
  induction ws with
  | nil => simp
  | cons w ws ih =>
    have h := share_mul_le (x := x) (D := D) (w := w)
    simp only [shares_cons, List.sum_cons, Nat.add_mul, Nat.mul_add]
    omega

/-- The shares sum to at most the amount. -/
theorem shares_sum_le (hD : 0 < D) (hs : ws.sum ≤ D) : (shares x D ws).sum ≤ x := by
  have h : (shares x D ws).sum * D ≤ x * ws.sum := shares_sum_mul_le
  have h' : x * ws.sum ≤ x * D := Nat.mul_le_mul_left x hs
  exact Nat.le_of_mul_le_mul_right (h.trans h') hD

theorem lt_shares_sum_mul_add (hD : 0 < D) (hws : ws ≠ []) :
    x * ws.sum < (shares x D ws).sum * D + ws.length * D := by
  induction ws with
  | nil => exact absurd rfl hws
  | cons w ws ih =>
    have h := lt_share_mul_add (x := x) (w := w) hD
    rcases ws with _ | ⟨w', ws⟩
    · simpa using h
    · have h' := ih (by simp)
      simp only [shares_cons, List.sum_cons, List.length_cons, Nat.add_mul, Nat.mul_add] at h' ⊢
      omega

/-- The dust is smaller than the number of weights. -/
theorem lt_shares_sum_add_length (hD : 0 < D) (hws : ws ≠ []) (hs : ws.sum = D) :
    x < (shares x D ws).sum + ws.length := by
  have h := lt_shares_sum_mul_add (x := x) hD hws
  rw [hs, ← Nat.add_mul] at h
  exact Nat.lt_of_mul_lt_mul_right h

end RobotMoney.Lib
