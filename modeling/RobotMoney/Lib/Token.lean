import Mathlib.Data.Fintype.BigOperators
import RobotMoney.Lib.Revert

/-!
# A fungible-token ledger

Balances, allowances and a supply, with the operations of the ERC-20 standard as the common
implementation has them: the zero account neither sends nor receives, an allowance of `maxWord` is not
used up, a failing operation leaves nothing behind.

The ledger carries its two invariants: the balances of all accounts sum to the supply, and the supply
fits a word.  So no balance, and no sum of balances of distinct accounts, ever overflows
(`Token.sum_le_supply`), and the unchecked additions of the implementation are additions.
-/

set_option linter.unusedSectionVars false

namespace RobotMoney.Lib

/-- A token ledger over the accounts `A`. -/
structure Token (A : Type) [Fintype A] where
  balanceOf : A → ℕ
  allowance : A → A → ℕ
  totalSupply : ℕ
  sum_balanceOf : ∑ a, balanceOf a = totalSupply
  totalSupply_lt : totalSupply < wordSize

namespace Token

variable {A : Type} [Fintype A] [DecidableEq A] {ε : Type}

/-! ### Sums over an updated balance -/

theorem sum_update (f : A → ℕ) (a : A) (v : ℕ) :
    ∑ x, Function.update f a v x + f a = ∑ x, f x + v := by
  rw [Finset.sum_update_of_mem (Finset.mem_univ a), ← Finset.sum_erase_add _ f (Finset.mem_univ a),
    Finset.sdiff_singleton_eq_erase]
  omega

theorem le_sum (f : A → ℕ) (a : A) : f a ≤ ∑ x, f x :=
  Finset.single_le_sum (fun _ _ => Nat.zero_le _) (Finset.mem_univ a)

/-- Over distinct accounts a sum is at most the whole. -/
theorem sum_map_le_sum (f : A → ℕ) {l : List A} (h : l.Nodup) : (l.map f).sum ≤ ∑ x, f x := by
  rw [← List.sum_toFinset _ h]
  exact Finset.sum_le_univ_sum_of_nonneg fun _ => Nat.zero_le _

/-- A value replaced costs a sum over distinct accounts at most what it falls by. -/
theorem sum_map_update (f : A → ℕ) (a : A) (v : ℕ) {l : List A} (h : l.Nodup) :
    (l.map f).sum ≤ (l.map (Function.update f a v)).sum + (f a - v) := by
  induction l with
  | nil => exact Nat.zero_le _
  | cons x l ih =>
    obtain ⟨hx, hl⟩ := List.nodup_cons.mp h
    simp only [List.map_cons, List.sum_cons]
    by_cases ha : x = a
    · subst ha
      have hrest : l.map (Function.update f x v) = l.map f := by
        refine List.map_congr_left fun y hy => ?_
        have hne : y ≠ x := by
          rintro rfl
          exact hx hy
        exact Function.update_of_ne hne _ _
      rw [hrest, Function.update_self]
      omega
    · have hrest := ih hl
      rw [Function.update_of_ne ha]
      omega

/-- Any list of distinct accounts holds at most the supply. -/
theorem sum_le_supply (t : Token A) {l : List A} (h : l.Nodup) :
    (l.map t.balanceOf).sum ≤ t.totalSupply := by
  rw [← t.sum_balanceOf]
  exact sum_map_le_sum t.balanceOf h

theorem balanceOf_le_supply (t : Token A) (a : A) : t.balanceOf a ≤ t.totalSupply :=
  t.sum_balanceOf ▸ le_sum t.balanceOf a

theorem eq_of_entries {t t' : Token A} (hb : t.balanceOf = t'.balanceOf) (ha : t.allowance = t'.allowance)
    (hs : t.totalSupply = t'.totalSupply) : t = t' := by
  cases t
  cases t'
  cases hb
  cases ha
  cases hs
  rfl

/-- The empty ledger. -/
def empty : Token A where
  balanceOf _ := 0
  allowance _ _ := 0
  totalSupply := 0
  sum_balanceOf := by simp
  totalSupply_lt := by decide

/-! ### Moving, creating and destroying units -/

/-- The balances after `v` units went from `src` to `dst`, the debit written first. -/
def moved (f : A → ℕ) (src dst : A) (v : ℕ) : A → ℕ :=
  let g := Function.update f src (f src - v)
  Function.update g dst (g dst + v)

theorem sum_moved {f : A → ℕ} {src dst : A} {v : ℕ} (h : v ≤ f src) :
    ∑ x, moved f src dst v x = ∑ x, f x := by
  have h₁ := sum_update f src (f src - v)
  have h₂ := sum_update (Function.update f src (f src - v)) dst
    (Function.update f src (f src - v) dst + v)
  unfold moved
  omega

section Moved

variable {f : A → ℕ} {src dst a : A} {v : ℕ}

theorem moved_src (h : src ≠ dst) : moved f src dst v src = f src - v := by
  simp [moved, h]

theorem moved_dst (h : src ≠ dst) : moved f src dst v dst = f dst + v := by
  simp [moved, h.symm]

theorem moved_self (h : v ≤ f src) : moved f src src v = f := by
  funext x
  by_cases hx : x = src
  · subst hx
    simp [moved]
    omega
  · simp [moved, hx]

theorem moved_of_ne (h₁ : a ≠ src) (h₂ : a ≠ dst) : moved f src dst v a = f a := by
  simp [moved, h₁, h₂]

/-- Only the sender loses units. -/
theorem le_moved (h : a ≠ src) : f a ≤ moved f src dst v a := by
  unfold moved
  by_cases hd : a = dst
  · subst hd
    simp [h]
  · simp [h, hd]

end Moved

/-- Move `v` units from `src` to `dst`. -/
def move (t : Token A) (src dst : A) (v : ℕ) (h : v ≤ t.balanceOf src) : Token A where
  balanceOf := moved t.balanceOf src dst v
  allowance := t.allowance
  totalSupply := t.totalSupply
  sum_balanceOf := (sum_moved h).trans t.sum_balanceOf
  totalSupply_lt := t.totalSupply_lt

theorem move_zero (t : Token A) (src dst : A) (h : 0 ≤ t.balanceOf src) : t.move src dst 0 h = t := by
  refine eq_of_entries ?_ rfl rfl
  change moved t.balanceOf src dst 0 = t.balanceOf
  simp [moved]

/-- Create `v` units for `dst`. -/
def issue (t : Token A) (dst : A) (v : ℕ) (h : t.totalSupply + v < wordSize) : Token A where
  balanceOf := Function.update t.balanceOf dst (t.balanceOf dst + v)
  allowance := t.allowance
  totalSupply := t.totalSupply + v
  sum_balanceOf := by
    have h₁ := sum_update t.balanceOf dst (t.balanceOf dst + v)
    have h₂ := t.sum_balanceOf
    omega
  totalSupply_lt := h

/-- Destroy `v` units of `src`. -/
def destroy (t : Token A) (src : A) (v : ℕ) (h : v ≤ t.balanceOf src) : Token A where
  balanceOf := Function.update t.balanceOf src (t.balanceOf src - v)
  allowance := t.allowance
  totalSupply := t.totalSupply - v
  sum_balanceOf := by
    have h₁ := sum_update t.balanceOf src (t.balanceOf src - v)
    have h₂ := t.sum_balanceOf
    omega
  totalSupply_lt := lt_of_le_of_lt (Nat.sub_le _ _) t.totalSupply_lt

/-- Set the allowance of `spender` over the units of `owner`. -/
def setAllowance (t : Token A) (owner spender : A) (v : ℕ) : Token A :=
  { t with
    allowance := Function.update t.allowance owner (Function.update (t.allowance owner) spender v) }

@[simp] theorem setAllowance_balanceOf (t : Token A) (owner spender : A) (v : ℕ) :
    (t.setAllowance owner spender v).balanceOf = t.balanceOf := rfl

@[simp] theorem setAllowance_totalSupply (t : Token A) (owner spender : A) (v : ℕ) :
    (t.setAllowance owner spender v).totalSupply = t.totalSupply := rfl

@[simp] theorem setAllowance_allowance_self (t : Token A) (owner spender : A) (v : ℕ) :
    (t.setAllowance owner spender v).allowance owner spender = v := by
  simp [setAllowance]

theorem setAllowance_allowance_of_ne (t : Token A) {owner spender o s : A} (v : ℕ)
    (h : o ≠ owner ∨ s ≠ spender) :
    (t.setAllowance owner spender v).allowance o s = t.allowance o s := by
  unfold setAllowance
  by_cases ho : o = owner
  · subst ho
    have hs : s ≠ spender := h.resolve_left (by simp)
    simp [hs]
  · simp [ho]

/-- `t'` is the ledger `t` with `v` more units of `dst`, and nothing else changed. -/
structure Minted (t : Token A) (dst : A) (v : ℕ) (t' : Token A) : Prop where
  balanceOf : t'.balanceOf = Function.update t.balanceOf dst (t.balanceOf dst + v)
  allowance : t'.allowance = t.allowance

/-- `t'` is the ledger `t` with `v` units less of `src`, and nothing else changed. -/
structure Burned (t : Token A) (src : A) (v : ℕ) (t' : Token A) : Prop where
  le : v ≤ t.balanceOf src
  balanceOf : t'.balanceOf = Function.update t.balanceOf src (t.balanceOf src - v)
  allowance : t'.allowance = t.allowance

namespace Minted

variable {t t₁ t' : Token A} {dst a : A} {u v : ℕ}

theorem refl (t : Token A) (dst : A) : Minted t dst 0 t :=
  ⟨(Function.update_eq_self dst t.balanceOf).symm, rfl⟩

theorem trans (h₁ : Minted t dst u t₁) (h₂ : Minted t₁ dst v t') : Minted t dst (u + v) t' := by
  refine ⟨?_, h₂.allowance.trans h₁.allowance⟩
  rw [h₂.balanceOf, h₁.balanceOf, Function.update_self, Function.update_idem, Nat.add_assoc]

theorem dst_eq (h : Minted t dst v t') : t'.balanceOf dst = t.balanceOf dst + v := by
  rw [h.balanceOf, Function.update_self]

theorem of_ne (h : Minted t dst v t') (ha : a ≠ dst) : t'.balanceOf a = t.balanceOf a := by
  rw [h.balanceOf, Function.update_of_ne ha]

/-- The supply rises by what was minted. -/
theorem totalSupply (h : Minted t dst v t') : t'.totalSupply = t.totalSupply + v := by
  have hsum := sum_update t.balanceOf dst (t.balanceOf dst + v)
  rw [← h.balanceOf, t'.sum_balanceOf, t.sum_balanceOf] at hsum
  omega

end Minted

/-- The supply falls by what was burned. -/
theorem Burned.totalSupply {t t' : Token A} {src : A} {v : ℕ} (h : Burned t src v t') :
    t'.totalSupply + v = t.totalSupply := by
  have hsum := sum_update t.balanceOf src (t.balanceOf src - v)
  rw [← h.balanceOf, t'.sum_balanceOf, t.sum_balanceOf] at hsum
  have hle := h.le
  omega

/-! ### The operations of the standard -/

section Ops

variable [Zero A]

/-- `_transfer(src, dst, v)` -/
def transfer (t : Token A) (src dst : A) (v : ℕ) : Call ε (Token A) :=
  if src = 0 then .error (.token .invalidSender)
  else if dst = 0 then .error (.token .invalidReceiver)
  else if h : v ≤ t.balanceOf src then .ok (t.move src dst v h)
  else .error (.token .insufficientBalance)

/-- `_mint(dst, v)` -/
def mint (t : Token A) (dst : A) (v : ℕ) : Call ε (Token A) :=
  if dst = 0 then .error (.token .invalidReceiver)
  else if h : t.totalSupply + v < wordSize then .ok (t.issue dst v h)
  else .error (.panic .arithmetic)

/-- `_burn(src, v)` -/
def burn (t : Token A) (src : A) (v : ℕ) : Call ε (Token A) :=
  if src = 0 then .error (.token .invalidSender)
  else if h : v ≤ t.balanceOf src then .ok (t.destroy src v h)
  else .error (.token .insufficientBalance)

/-- `_approve(owner, spender, v)` -/
def approve (t : Token A) (owner spender : A) (v : ℕ) : Call ε (Token A) :=
  if owner = 0 then .error (.token .invalidApprover)
  else if spender = 0 then .error (.token .invalidSpender)
  else .ok (t.setAllowance owner spender v)

/-- `_spendAllowance(owner, spender, v)`: an unlimited allowance is left as it is. -/
def spendAllowance (t : Token A) (owner spender : A) (v : ℕ) : Call ε (Token A) :=
  if t.allowance owner spender < maxWord then
    if t.allowance owner spender < v then .error (.token .insufficientAllowance)
    else t.approve owner spender (t.allowance owner spender - v)
  else .ok t

/-- `transferFrom(src, dst, v)` called by `spender`. -/
def transferFrom (t : Token A) (spender src dst : A) (v : ℕ) : Call ε (Token A) := do
  let t ← t.spendAllowance src spender v
  t.transfer src dst v

variable {t t' : Token A} {src dst owner spender : A} {v : ℕ}

theorem transfer_eq_ok : (t.transfer src dst v : Call ε (Token A)) = .ok t' ↔
    src ≠ 0 ∧ dst ≠ 0 ∧ ∃ h : v ≤ t.balanceOf src, t' = t.move src dst v h := by
  unfold transfer
  split
  · simp_all
  · split
    · simp_all
    · split <;> simp_all [eq_comm]

theorem mint_eq_ok : (t.mint dst v : Call ε (Token A)) = .ok t' ↔
    dst ≠ 0 ∧ ∃ h : t.totalSupply + v < wordSize, t' = t.issue dst v h := by
  unfold mint
  split
  · simp_all
  · split <;> simp_all [eq_comm]

theorem burn_eq_ok : (t.burn src v : Call ε (Token A)) = .ok t' ↔
    src ≠ 0 ∧ ∃ h : v ≤ t.balanceOf src, t' = t.destroy src v h := by
  unfold burn
  split
  · simp_all
  · split <;> simp_all [eq_comm]

theorem approve_eq_ok : (t.approve owner spender v : Call ε (Token A)) = .ok t' ↔
    owner ≠ 0 ∧ spender ≠ 0 ∧ t' = t.setAllowance owner spender v := by
  unfold approve
  split
  · simp_all
  · split <;> simp_all [eq_comm]

/-- Spending an allowance moves no units. -/
theorem spendAllowance_frame (h : (t.spendAllowance owner spender v : Call ε (Token A)) = .ok t') :
    t'.balanceOf = t.balanceOf ∧ t'.totalSupply = t.totalSupply := by
  unfold spendAllowance at h
  split at h
  · split at h
    · cases h
    · obtain ⟨-, -, rfl⟩ := approve_eq_ok.mp h
      exact ⟨rfl, rfl⟩
  · cases h
    exact ⟨rfl, rfl⟩

/-- What a successful `transferFrom` does to the balances and the supply. -/
theorem transferFrom_balances
    (h : (t.transferFrom spender src dst v : Call ε (Token A)) = .ok t') :
    v ≤ t.balanceOf src ∧ t'.balanceOf = moved t.balanceOf src dst v ∧
      t'.totalSupply = t.totalSupply := by
  unfold transferFrom at h
  obtain ⟨t₁, h₁, h₂⟩ := bind_eq_ok.mp h
  obtain ⟨hb, hs⟩ := spendAllowance_frame h₁
  obtain ⟨-, -, hv, rfl⟩ := transfer_eq_ok.mp h₂
  rw [hb] at hv
  exact ⟨hv, by simp [move, hb], by simpa [move] using hs⟩

/-- A token's operations fail with a reason of the token, never with an error of their caller. -/
theorem approve_avoids {e : ε} : Avoids e (t.approve owner spender v) := by
  unfold approve
  repeat' split
  all_goals intro h; cases h

theorem transfer_avoids {e : ε} : Avoids e (t.transfer src dst v) := by
  unfold transfer
  repeat' split
  all_goals intro h; cases h

theorem mint_avoids {e : ε} : Avoids e (t.mint dst v) := by
  unfold mint
  repeat' split
  all_goals intro h; cases h

theorem burn_avoids {e : ε} : Avoids e (t.burn src v) := by
  unfold burn
  repeat' split
  all_goals intro h; cases h

theorem spendAllowance_avoids {e : ε} : Avoids e (t.spendAllowance owner spender v) := by
  unfold spendAllowance
  split
  · split
    · intro h
      cases h
    · exact approve_avoids
  · exact .of_ok

theorem transferFrom_avoids {e : ε} : Avoids e (t.transferFrom spender src dst v) :=
  .bind spendAllowance_avoids fun _ _ => transfer_avoids

/-- What spending a limited allowance does to the allowances. -/
theorem spendAllowance_allowance (hlim : t.allowance owner spender < maxWord)
    (h : (t.spendAllowance owner spender v : Call ε (Token A)) = .ok t') :
    t'.allowance owner spender + v = t.allowance owner spender ∧
      ∀ s, s ≠ spender → t'.allowance owner s = t.allowance owner s := by
  unfold spendAllowance at h
  rw [if_pos hlim] at h
  split at h
  · cases h
  · obtain ⟨-, -, rfl⟩ := approve_eq_ok.mp h
    refine ⟨?_, fun s hs => setAllowance_allowance_of_ne t _ (Or.inr hs)⟩
    rw [setAllowance_allowance_self]
    omega

/-- A `transferFrom` by a limited allowance uses it up by what it moves. -/
theorem transferFrom_allowance (hlim : t.allowance src spender < maxWord)
    (h : (t.transferFrom spender src dst v : Call ε (Token A)) = .ok t') :
    t'.allowance src spender + v = t.allowance src spender ∧
      ∀ s, s ≠ spender → t'.allowance src s = t.allowance src s := by
  unfold transferFrom at h
  obtain ⟨t₁, h₁, h₂⟩ := bind_eq_ok.mp h
  obtain ⟨-, -, -, rfl⟩ := transfer_eq_ok.mp h₂
  change t₁.allowance src spender + v = _ ∧ ∀ s, s ≠ spender → t₁.allowance src s = _
  exact spendAllowance_allowance hlim h₁

/-- A `transferFrom` leaves every allowance but the one it spends. -/
theorem transferFrom_allowance_frame
    (h : (t.transferFrom spender src dst v : Call ε (Token A)) = .ok t') {o s : A}
    (hne : o ≠ src ∨ s ≠ spender) : t'.allowance o s = t.allowance o s := by
  unfold transferFrom at h
  obtain ⟨t₁, h₁, h₂⟩ := bind_eq_ok.mp h
  obtain ⟨-, -, -, rfl⟩ := transfer_eq_ok.mp h₂
  change t₁.allowance o s = _
  unfold spendAllowance at h₁
  split at h₁
  · split at h₁
    · cases h₁
    · obtain ⟨-, -, rfl⟩ := approve_eq_ok.mp h₁
      exact setAllowance_allowance_of_ne t _ hne
  · cases h₁
    rfl

/-- A `transferFrom` leaves the allowances of every other owner. -/
theorem transferFrom_allowance_of_ne
    (h : (t.transferFrom spender src dst v : Call ε (Token A)) = .ok t') {o : A} (ho : o ≠ src)
    (s : A) : t'.allowance o s = t.allowance o s :=
  transferFrom_allowance_frame h (.inl ho)

/-- When units can be taken over: the allowance and the balance are enough, an unlimited allowance being
enough for every balance. -/
theorem transferFrom_ok_iff (hspender : spender ≠ 0) :
    (∃ t', (t.transferFrom spender src dst v : Call ε (Token A)) = .ok t') ↔
      src ≠ 0 ∧ dst ≠ 0 ∧ v ≤ t.allowance src spender ∧ v ≤ t.balanceOf src := by
  unfold transferFrom
  constructor
  · rintro ⟨t', h⟩
    obtain ⟨t₁, h₁, h₂⟩ := bind_eq_ok.mp h
    obtain ⟨hsrc, hdst, hv, -⟩ := transfer_eq_ok.mp h₂
    rw [(spendAllowance_frame h₁).1] at hv
    refine ⟨hsrc, hdst, ?_, hv⟩
    by_cases hlim : t.allowance src spender < maxWord
    · have hspent := (spendAllowance_allowance hlim h₁).1
      omega
    · have hword : t.balanceOf src < wordSize := lt_of_le_of_lt (t.balanceOf_le_supply src) t.totalSupply_lt
      unfold wordSize at hword
      unfold maxWord at hlim
      omega
  · rintro ⟨hsrc, hdst, hallow, hv⟩
    have hspend : ∃ t₁, (t.spendAllowance src spender v : Call ε (Token A)) = .ok t₁ := by
      unfold spendAllowance
      rw [if_neg (Nat.not_lt.mpr hallow)]
      split
      · exact ⟨_, approve_eq_ok.mpr ⟨hsrc, hspender, rfl⟩⟩
      · exact ⟨t, rfl⟩
    obtain ⟨t₁, h₁⟩ := hspend
    have hv₁ : v ≤ t₁.balanceOf src := by
      rw [(spendAllowance_frame h₁).1]
      exact hv
    exact ⟨_, bind_eq_ok.mpr ⟨t₁, h₁, transfer_eq_ok.mpr ⟨hsrc, hdst, hv₁, rfl⟩⟩⟩

/-- Units taken over and destroyed are gone from their owner, and nobody else has more or less. -/
theorem transferFrom_burned {t₁ : Token A} (hne : src ≠ dst)
    (h : (t.transferFrom spender src dst v : Call ε (Token A)) = .ok t₁) (hb : Burned t₁ dst v t') :
    v ≤ t.balanceOf src ∧ t'.balanceOf = Function.update t.balanceOf src (t.balanceOf src - v) ∧
      t'.totalSupply + v = t.totalSupply := by
  obtain ⟨hle, hbal, hsupply⟩ := transferFrom_balances h
  refine ⟨hle, ?_, hb.totalSupply.trans hsupply⟩
  funext x
  rw [hb.balanceOf, hbal]
  by_cases hd : x = dst
  · rw [hd, Function.update_self, moved_dst hne, Function.update_of_ne hne.symm]
    omega
  · rw [Function.update_of_ne hd]
    by_cases hs : x = src
    · rw [hs, moved_src hne, Function.update_self]
    · rw [moved_of_ne hs hd, Function.update_of_ne hs]

end Ops

end Token

end RobotMoney.Lib
