import RobotMoney.Lib.Positions
import RobotMoney.Vault.Adapters
import RobotMoney.Vault.Effect

/-!
# Moves between the vault and its adapters

Whatever loop of the vault touches an adapter does so in one of two ways: it withdraws from the adapter, or it
transfers USDC to it and has it deployed.  `Move` is one such step, on an active adapter, and `Moves` any number of
them; each loop is shown to be a path of moves once.  What a move keeps, a loop keeps: with exact adapters the wealth
of the vault, idle USDC and what its adapters report; what other adapters report; and the USDC of anybody else.
-/

namespace RobotMoney.Vault

open RobotMoney.Lib State

variable {V : Type} {env : Env V} {s s' : State V} {w w' : World V} {ads as : List Address}

/-! ### Assets -/

/-- Idle USDC, and what the adapters report. -/
def wealth (env : Env V) (ads : List Address) (w : World V) : ℕ :=
  w.usdc.balanceOf env.self + (ads.map (env.adapterAssets w)).sum

theorem totalAssets_eq_ok {A : ℕ} :
    s.totalAssets env = .ok A ↔
      wealth env s.activeAdapters s.world < wordSize ∧ A = wealth env s.activeAdapters s.world := by
  have hlt : s.idle env < wordSize :=
    Nat.lt_of_le_of_lt (Token.balanceOf_le_supply _ _) s.world.usdc.totalSupply_lt
  unfold State.totalAssets
  rw [sumU_eq_ok hlt]
  rfl

/-- The total is what idle USDC and the active adapters sum to. -/
theorem totalAssets_congr (hactive : s'.activeAdapters = s.activeAdapters)
    (hwealth : wealth env s.activeAdapters s'.world = wealth env s.activeAdapters s.world) (A : ℕ) :
    s'.totalAssets env = .ok A ↔ s.totalAssets env = .ok A := by
  rw [totalAssets_eq_ok, totalAssets_eq_ok, hactive, hwealth]

theorem mem_activeAdapters {i : AdapterInfo} (hi : i ∈ s.adapters) (hactive : i.active = true) :
    i.adapter ∈ s.activeAdapters := by
  unfold State.activeAdapters
  exact List.mem_map_of_mem (List.mem_filter.mpr ⟨hi, hactive⟩)

/-! ### What a move is, and what it keeps -/

/-- One move between the vault and an adapter of `as`. -/
inductive Move (env : Env V) (as : List Address) (w : World V) : World V → Prop
  | withdraw {a : Address} {x y : ℕ} {w' : World V} (ha : a ∈ as)
      (h : env.adapterWithdraw w a x = .ok (w', y)) : Move env as w w'
  | deploy {a : Address} {x : ℕ} {usdc : Token Address} {w' : World V} (ha : a ∈ as)
      (htransfer : (w.usdc.transfer env.self a x : Call VaultError _) = .ok usdc)
      (h : env.adapterDeploy { w with usdc } a x = .ok w') : Move env as w w'

/-- Moves, one after the other. -/
abbrev Moves (env : Env V) (as : List Address) : World V → World V → Prop :=
  Relation.ReflTransGen (Move env as)

theorem Moves.wealth (hexact : Exact env as) (hnodup : as.Nodup) (h : Moves env as w w') :
    wealth env as w' = wealth env as w := by
  induction h with
  | refl => rfl
  | tail _ hmove ih =>
    refine Eq.trans ?_ ih
    cases hmove with
    | withdraw ha hw =>
      obtain ⟨-, hidle, hfall, hsame⟩ := hexact.withdraw _ _ _ _ _ ha hw
      have hsum := sum_map_sub_of_mem hnodup ha hsame hfall
      unfold Vault.wealth
      omega
    | deploy ha htransfer hw =>
      obtain ⟨hidle, hgrow, hsame⟩ := hexact.deploy _ _ _ _ _ ha htransfer hw
      have hsum := sum_map_add_of_mem hnodup ha hsame hgrow
      unfold Vault.wealth
      omega

/-- Other adapters report what they did. -/
theorem Moves.others (hexact : Exact env ads) (has : ∀ a ∈ as, a ∈ ads) (h : Moves env as w w') {b : Address}
    (hb : b ∈ ads) (hout : b ∉ as) : env.adapterAssets w' b = env.adapterAssets w b := by
  induction h with
  | refl => rfl
  | tail _ hmove ih =>
    refine Eq.trans ?_ ih
    cases hmove with
    | withdraw ha hw =>
      obtain ⟨-, -, -, hsame⟩ := hexact.withdraw _ _ _ _ _ (has _ ha) hw
      exact hsame b hb (ne_of_mem_of_not_mem ha hout).symm
    | deploy ha htransfer hw =>
      obtain ⟨-, -, hsame⟩ := hexact.deploy _ _ _ _ _ (has _ ha) htransfer hw
      exact hsame b hb (ne_of_mem_of_not_mem ha hout).symm

/-- The adapters' own calls leave the USDC of the account `c` as it is. -/
structure Spares (env : Env V) (as : List Address) (c : Address) : Prop where
  withdraw : ∀ w a x w' y, a ∈ as → env.adapterWithdraw w a x = .ok (w', y) →
    w'.usdc.balanceOf c = w.usdc.balanceOf c
  deploy : ∀ w a x w', a ∈ as → env.adapterDeploy w a x = .ok w' → w'.usdc.balanceOf c = w.usdc.balanceOf c

/-- And then nobody but the vault and the adapters has USDC moved. -/
theorem Moves.usdc {c : Address} (hspares : Spares env as c) (hself : c ≠ env.self) (hout : c ∉ as)
    (h : Moves env as w w') : w'.usdc.balanceOf c = w.usdc.balanceOf c := by
  induction h with
  | refl => rfl
  | tail _ hmove ih =>
    refine Eq.trans ?_ ih
    cases hmove with
    | withdraw ha hw => exact hspares.withdraw _ _ _ _ _ ha hw
    | deploy ha htransfer hw =>
      rw [hspares.deploy _ _ _ _ ha hw]
      obtain ⟨-, -, -, rfl⟩ := Token.transfer_eq_ok.mp htransfer
      exact Token.moved_of_ne hself (ne_of_mem_of_not_mem ha hout).symm

/-! ### The loops -/

/-- What an allocation moves. -/
theorem allocateTo_move {a : Address} {x : ℕ} (ha : a ∈ as) (h : s.allocateTo env w a x = .ok w') :
    Move env as w w' := by
  unfold State.allocateTo at h
  simp only [bind_eq_ok, inner_eq_ok] at h
  obtain ⟨_, -, usdc, htransfer, hdeploy⟩ := h
  exact .deploy ha htransfer hdeploy

section Loops

variable {is : List AdapterInfo} (his : ∀ i ∈ is, i.active = true → i.adapter ∈ as)

include his

theorem routePass_moves {totalAfter : ℕ} {bpsOf : AdapterInfo → ℕ} {remaining remaining' : ℕ}
    (h : s.routePass env totalAfter bpsOf w is remaining = .ok (w', remaining')) : Moves env as w w' := by
  induction is generalizing w remaining with
  | nil =>
    cases h
    exact .refl
  | cons i is ih =>
    obtain ⟨hi, hrest⟩ := List.forall_mem_cons.mp his
    unfold State.routePass at h
    split at h
    · cases h
      exact .refl
    split at h
    · exact ih hrest h
    rename_i hactive
    obtain ⟨product, -, h⟩ := bind_eq_ok.mp h
    dsimp only at h
    split at h
    · exact ih hrest h
    · obtain ⟨w₁, halloc, h⟩ := bind_eq_ok.mp h
      exact .head (allocateTo_move (hi (by simpa using hactive)) halloc) (ih hrest h)

/-- The adapter a pull ends at is one of them. -/
theorem pullLoop_moves {needed total : ℕ} {remaining remaining' : ℕ} {last last' : Option Address}
    (hlast : ∀ a, last = some a → a ∈ as)
    (h : pullLoop env needed total w is remaining last = .ok (w', remaining', last')) :
    Moves env as w w' ∧ ∀ a, last' = some a → a ∈ as := by
  induction is generalizing w remaining last with
  | nil =>
    cases h
    exact ⟨.refl, hlast⟩
  | cons i is ih =>
    obtain ⟨hi, hrest⟩ := List.forall_mem_cons.mp his
    unfold State.pullLoop at h
    split at h
    · cases h
      exact ⟨.refl, hlast⟩
    split at h
    · exact ih hrest hlast h
    rename_i hactive
    have hi := hi (by simpa using hactive)
    have hlast' : ∀ a, some i.adapter = some a → a ∈ as := by
      rintro a ⟨⟩
      exact hi
    obtain ⟨product, -, h⟩ := bind_eq_ok.mp h
    dsimp only at h
    split at h
    · exact ih hrest hlast' h
    · simp only [bind_eq_ok, inner_eq_ok, Prod.exists] at h
      obtain ⟨w₁, actual, hw, rem, -, h⟩ := h
      obtain ⟨hmoves, hmem⟩ := ih hrest hlast' h
      exact ⟨hmoves.head (.withdraw hi hw), hmem⟩

theorem rebalanceLoop_moves {totalAssetsCached targetBps maxMovePerCall totalMoved totalMoved' : ℕ}
    (h : rebalanceLoop env totalAssetsCached targetBps maxMovePerCall w is totalMoved = .ok (w', totalMoved')) :
    Moves env as w w' := by
  induction is generalizing w totalMoved with
  | nil =>
    cases h
    exact .refl
  | cons i is ih =>
    obtain ⟨hi, hrest⟩ := List.forall_mem_cons.mp his
    unfold State.rebalanceLoop at h
    split at h
    · exact ih hrest h
    rename_i hactive
    split at h
    · cases h
      exact .refl
    obtain ⟨product, -, h⟩ := bind_eq_ok.mp h
    dsimp only at h
    split at h
    · exact ih hrest h
    obtain ⟨pull, -, h⟩ := bind_eq_ok.mp h
    split at h
    · exact ih hrest h
    · simp only [bind_eq_ok, inner_eq_ok, Prod.exists] at h
      obtain ⟨w₁, actual, hw, moved, -, h⟩ := h
      exact .head (.withdraw (hi (by simpa using hactive)) hw) (ih hrest h)

theorem adminPull_moves {targets : List ℕ} {totalMoved totalMoved' : ℕ}
    (h : adminPull env w is targets totalMoved = .ok (w', totalMoved')) : Moves env as w w' := by
  induction is generalizing w targets totalMoved with
  | nil =>
    cases h
    exact .refl
  | cons i is ih =>
    obtain ⟨hi, hrest⟩ := List.forall_mem_cons.mp his
    cases targets with
    | nil =>
      cases h
      exact .refl
    | cons target targets =>
      unfold State.adminPull at h
      split at h
      · exact ih hrest h
      rename_i hactive
      split at h
      · simp only [bind_eq_ok, inner_eq_ok, Prod.exists] at h
        obtain ⟨w₁, actual, hw, moved, -, h⟩ := h
        exact .head (.withdraw (hi (by simpa using hactive)) hw) (ih hrest h)
      · exact ih hrest h

theorem adminFill_moves {targets : List ℕ} {idle : ℕ} (h : s.adminFill env w is targets idle = .ok w') :
    Moves env as w w' := by
  induction is generalizing w targets idle with
  | nil =>
    cases h
    exact .refl
  | cons i is ih =>
    obtain ⟨hi, hrest⟩ := List.forall_mem_cons.mp his
    cases targets with
    | nil =>
      cases h
      exact .refl
    | cons target targets =>
      unfold State.adminFill at h
      split at h
      · cases h
        exact .refl
      split at h
      · exact ih hrest h
      rename_i hactive
      split at h
      · obtain ⟨w₁, halloc, h⟩ := bind_eq_ok.mp h
        exact .head (allocateTo_move (hi (by simpa using hactive)) halloc) (ih hrest h)
      · exact ih hrest h

end Loops

theorem pullDust_moves {remaining : ℕ} {last : Option Address} (hlast : ∀ a, last = some a → a ∈ as)
    (h : pullDust env w remaining last = .ok w') : Moves env as w w' := by
  unfold State.pullDust at h
  split at h
  · cases h
    exact .refl
  · rename_i a
    split at h
    · cases h
      exact .refl
    · simp only [bind_eq_ok, inner_eq_ok, Prod.exists] at h
      obtain ⟨w₁, actual, hw, h⟩ := h
      cases h
      exact .single (.withdraw (hlast a rfl) hw)

theorem tryWithdrawAll_moves {a : Address} (ha : a ∈ as) : Moves env as w (tryWithdrawAll env w a) := by
  unfold State.tryWithdrawAll
  split
  · exact .refl
  · split
    · rename_i w₁ y hw
      exact .single (.withdraw ha hw)
    · exact .refl

/-! ### The operations -/

theorem routeDeposit_moves {amount : ℕ} (h : s.routeDeposit env amount = .ok s') :
    Moves env s.activeAdapters s.world s'.world := by
  unfold State.routeDeposit at h
  split at h
  · cases h
    exact .refl
  · simp only [bind_eq_ok, Prod.exists, pure_eq_ok] at h
    obtain ⟨total, -, w₁, r₁, h₁, w₂, r₂, h₂, rfl⟩ := h
    exact (routePass_moves (fun _ => mem_activeAdapters) h₁).trans (routePass_moves (fun _ => mem_activeAdapters) h₂)

theorem pullProportional_moves {gross : ℕ} (h : s.pullProportional env gross = .ok s') :
    Moves env s.activeAdapters s.world s'.world := by
  unfold State.pullProportional at h
  split at h
  · cases h
    exact .refl
  split at h
  · cases h
    exact .refl
  obtain ⟨total, -, h⟩ := bind_eq_ok.mp h
  split at h
  · cases h
    exact .refl
  · simp only [bind_eq_ok, Prod.exists, pure_eq_ok] at h
    obtain ⟨w₁, remaining, last, h₁, w₂, h₂, rfl⟩ := h
    obtain ⟨hmoves, hlast⟩ := pullLoop_moves (fun _ => mem_activeAdapters) (by simp) h₁
    exact hmoves.trans (pullDust_moves hlast h₂)

end RobotMoney.Vault
