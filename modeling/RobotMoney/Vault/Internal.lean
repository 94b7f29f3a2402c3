import RobotMoney.Vault.Rebalance

/-!
# Internal moves

The two rebalances and the two emergency exits move USDC between the vault and its active adapters and do nothing
else with it.  Their loops are moves, so that the total and everybody else's USDC stay as they are, whichever of the
adapters revert.  In an emergency exit the adapter that is asked is emptied, or keeps what it has.
-/

namespace RobotMoney.Vault

open RobotMoney.Lib State

variable {V : Type} {env : Env V} {s s' : State V} {w w' : World V} {ads as : List Address}

/-! ### The operations are moves -/

theorem routeIdle_moves (h : s.routeIdle env = .ok s') : Moves env s.activeAdapters s.world s'.world := by
  unfold State.routeIdle at h
  split at h
  · exact routeDeposit_moves h
  · cases h
    exact .refl

theorem rebalance_moves {b : Block} {sender : Address} (h : s.rebalance env b sender = .ok s') :
    Moves env s.activeAdapters s.world s'.world := by
  obtain ⟨-, A, w, moved, s₁, -, hloop, hroute, rfl⟩ := rebalance_eq_ok h
  exact (rebalanceLoop_moves (fun _ => mem_activeAdapters) hloop).trans (routeIdle_moves hroute)

theorem adminRebalance_moves {b : Block} {sender : Address} {targets : List ℕ}
    (h : s.adminRebalance env b sender targets = .ok s') :
    s' = { s with world := s'.world, lastRebalanceAt := b.timestamp } ∧
      Moves env s.activeAdapters s.world s'.world := by
  unfold State.adminRebalance at h
  simp only [bind_eq_ok, Prod.exists, pure_eq_ok] at h
  obtain ⟨_, -, _, -, w, moved, hpull, w', hfill, rfl⟩ := h
  refine ⟨rfl, ?_⟩
  exact (adminPull_moves (fun _ => mem_activeAdapters) hpull).trans
    (adminFill_moves (fun _ => mem_activeAdapters) hfill)

theorem foldl_moves (has : ∀ a ∈ as, a ∈ ads) : Moves env ads w (as.foldl (tryWithdrawAll env) w) := by
  induction as generalizing w with
  | nil => exact .refl
  | cons a as ih =>
    obtain ⟨ha, hrest⟩ := List.forall_mem_cons.mp has
    exact (tryWithdrawAll_moves ha).trans (ih hrest)

theorem emergencyWithdraw_eq_ok {sender : Address} (h : s.emergencyWithdraw env sender = .ok s') :
    s' = { s with depositsPaused := true, world := s.activeAdapters.foldl (tryWithdrawAll env) s.world } := by
  unfold State.emergencyWithdraw at h
  simp only [bind_eq_ok, pure_eq_ok] at h
  obtain ⟨_, -, rfl⟩ := h
  rfl

theorem emergencyWithdrawAdapter_eq_ok {sender : Address} {index : ℕ} {i : AdapterInfo}
    (hi : s.adapters[index]? = some i) (h : s.emergencyWithdrawAdapter env sender index = .ok s') :
    s' = { s with depositsPaused := true, world := tryWithdrawAll env s.world i.adapter } := by
  unfold State.emergencyWithdrawAdapter at h
  obtain ⟨_, -, h⟩ := bind_eq_ok.mp h
  rw [hi] at h
  cases h
  rfl

/-! ### What an emergency exit takes -/

/-- The adapter is emptied if its withdrawal goes through, and keeps what it has if not. -/
theorem tryWithdrawAll_drains (hexact : ExactOut env ads) {a : Address} (ha : a ∈ ads) :
    ((∃ r, env.adapterWithdraw w a (env.adapterAssets w a) = .ok r) →
      env.adapterAssets (tryWithdrawAll env w a) a = 0) ∧
    ((¬ ∃ r, env.adapterWithdraw w a (env.adapterAssets w a) = .ok r) → tryWithdrawAll env w a = w) := by
  unfold State.tryWithdrawAll
  by_cases hzero : env.adapterAssets w a = 0
  · rw [if_pos hzero]
    exact ⟨fun _ => hzero, fun _ => rfl⟩
  rw [if_neg hzero]
  constructor
  · rintro ⟨⟨w', y⟩, hw⟩
    obtain ⟨hy, -, hgave, -⟩ := hexact.withdraw w a _ w' y ha hw
    rw [hw]
    dsimp only
    omega
  · intro hno
    split
    · rename_i w' y hw
      exact absurd ⟨_, hw⟩ hno
    · rfl

/-- In the loop it is asked after those before it, which leave it alone, and so do those after it. -/
theorem foldl_drains (hexact : Exact env ads) (has : ∀ a ∈ as, a ∈ ads) (hnodup : as.Nodup) {pre post : List Address}
    {a : Address} (hsplit : as = pre ++ a :: post) :
    ((∃ r, env.adapterWithdraw (pre.foldl (tryWithdrawAll env) w) a
        (env.adapterAssets (pre.foldl (tryWithdrawAll env) w) a) = .ok r) →
      env.adapterAssets (as.foldl (tryWithdrawAll env) w) a = 0) ∧
    ((¬ ∃ r, env.adapterWithdraw (pre.foldl (tryWithdrawAll env) w) a
        (env.adapterAssets (pre.foldl (tryWithdrawAll env) w) a) = .ok r) →
      env.adapterAssets (as.foldl (tryWithdrawAll env) w) a = env.adapterAssets w a) := by
  subst hsplit
  obtain ⟨-, hnodup', hdisjoint⟩ := List.nodup_append.mp hnodup
  have ha : a ∈ ads := has a (by simp)
  have hpre : a ∉ pre := fun h => hdisjoint a h a List.mem_cons_self rfl
  have hpost : a ∉ post := (List.nodup_cons.mp hnodup').1
  have hin₁ : ∀ b ∈ pre, b ∈ ads := fun b hb => has b (List.mem_append_left _ hb)
  have hin₂ : ∀ b ∈ post, b ∈ ads := fun b hb => has b (by simp [hb])
  set w₁ := pre.foldl (tryWithdrawAll env) w with hw₁
  have hbefore : env.adapterAssets w₁ a = env.adapterAssets w a :=
    (foldl_moves fun _ h => h).others hexact hin₁ ha hpre
  have hafter : env.adapterAssets ((pre ++ a :: post).foldl (tryWithdrawAll env) w) a =
      env.adapterAssets (tryWithdrawAll env w₁ a) a := by
    rw [List.foldl_append, List.foldl_cons, ← hw₁]
    exact (foldl_moves fun _ h => h).others hexact hin₂ ha hpost
  obtain ⟨hgoes, hfails⟩ := tryWithdrawAll_drains (w := w₁) hexact.toExactOut ha
  rw [hafter]
  refine ⟨hgoes, ?_⟩
  intro hno
  rw [hfails hno]
  exact hbefore

/-! ### Internal moves -/

/-- The shares, the total, the other adapters, and the USDC of everybody else are as they were. -/
structure Internal (env : Env V) (ads : List Address) (s s' : State V) : Prop where
  shares : s'.shares = s.shares
  total : ∀ A, s'.totalAssets env = .ok A ↔ s.totalAssets env = .ok A
  others : ∀ a ∈ ads, a ∉ s.activeAdapters → env.adapterAssets s'.world a = env.adapterAssets s.world a
  usdc : ∀ c, c ≠ env.self → c ∉ s.activeAdapters → Spares env s.activeAdapters c →
    s'.world.usdc.balanceOf c = s.world.usdc.balanceOf c

section Internal

variable (hexact : Exact env ads) (hads : ∀ a ∈ s.activeAdapters, a ∈ ads) (hnodup : s.activeAdapters.Nodup)

include hexact hads hnodup

theorem internal_of_moves (hmoves : Moves env s.activeAdapters s.world s'.world) (hshares : s'.shares = s.shares)
    (hadapters : s'.adapters = s.adapters) : Internal env ads s s' := by
  have hactive : s'.activeAdapters = s.activeAdapters := by
    unfold State.activeAdapters
    rw [hadapters]
  refine ⟨hshares, totalAssets_congr hactive (hmoves.wealth (hexact.mono hads) hnodup), ?_, ?_⟩
  · intro a ha hout
    exact hmoves.others hexact hads ha hout
  · intro c hself hout hspares
    exact hmoves.usdc hspares hself hout

/-- **Internal moves do not change value.**  With distinct exact adapters, any of which may revert: a rebalance of
either kind and an emergency exit, from all active adapters or from one, are internal.  After the exit from all, each
active adapter is empty if its withdrawal went through, and has what it had if not. -/
theorem internal_moves :
    (∀ b sender s', s.rebalance env b sender = .ok s' → Internal env ads s s') ∧
    (∀ b sender targets s', s.adminRebalance env b sender targets = .ok s' → Internal env ads s s') ∧
    (∀ sender s', s.emergencyWithdraw env sender = .ok s' → Internal env ads s s' ∧
      ∀ pre a post, s.activeAdapters = pre ++ a :: post →
        ((∃ r, env.adapterWithdraw (pre.foldl (tryWithdrawAll env) s.world) a
            (env.adapterAssets (pre.foldl (tryWithdrawAll env) s.world) a) = .ok r) →
          env.adapterAssets s'.world a = 0) ∧
        ((¬ ∃ r, env.adapterWithdraw (pre.foldl (tryWithdrawAll env) s.world) a
            (env.adapterAssets (pre.foldl (tryWithdrawAll env) s.world) a) = .ok r) →
          env.adapterAssets s'.world a = env.adapterAssets s.world a)) ∧
    (∀ sender index i s', s.adapters[index]? = some i → i.active = true →
      s.emergencyWithdrawAdapter env sender index = .ok s' → Internal env ads s s') := by
  refine ⟨?_, ?_, ?_, ?_⟩
  · intro b sender s' h
    obtain ⟨-, A, w, moved, s₁, -, -, hroute, rfl⟩ := rebalance_eq_ok h
    refine internal_of_moves hexact hads hnodup (rebalance_moves h) ?_ ?_
    · rw [routeIdle_frame hroute]
    · rw [routeIdle_frame hroute]
  · intro b sender targets s' h
    obtain ⟨hframe, hmoves⟩ := adminRebalance_moves h
    refine internal_of_moves hexact hads hnodup hmoves ?_ ?_
    · rw [hframe]
    · rw [hframe]
  · intro sender s' h
    obtain rfl := emergencyWithdraw_eq_ok h
    refine ⟨internal_of_moves hexact hads hnodup (foldl_moves fun _ h => h) rfl rfl, ?_⟩
    intro pre a post hsplit
    exact foldl_drains hexact hads hnodup hsplit
  · intro sender index i s' hi hactive h
    obtain rfl := emergencyWithdrawAdapter_eq_ok hi h
    have hmem : i.adapter ∈ s.activeAdapters := mem_activeAdapters (List.mem_of_getElem? hi) hactive
    exact internal_of_moves hexact hads hnodup (tryWithdrawAll_moves hmem) rfl rfl

end Internal

/-- Passthrough adapters, of which `10` reverts when it is asked for anything. -/
def jammed : Env Unit :=
  { passthrough 1 2 with
    adapterWithdraw := fun w a x => if a = 10 then .error .innerCall else (passthrough 1 2).adapterWithdraw w a x }

theorem exact_jammed : Exact jammed [10, 11] := by
  have hexact : Exact (passthrough 1 2) [10, 11] := exact_passthrough (by decide)
  refine ⟨⟨hexact.self_not_mem, ?_⟩, hexact.grows, hexact.deploy⟩
  intro w a x w' y ha h
  unfold jammed at h
  dsimp only at h
  split at h
  · cases h
  · exact hexact.withdraw w a x w' y ha h

/-- The exit then takes the unit of the other one; the first keeps its two. -/
theorem internal_moves_jammed :
    ∃ s', inUse.emergencyWithdraw jammed 20 = .ok s' ∧ Internal jammed [10, 11] inUse s' ∧
      jammed.adapterAssets s'.world 10 = 2 ∧ jammed.adapterAssets s'.world 11 = 0 := by
  have hok : succeeds (inUse.emergencyWithdraw jammed 20) = true := by decide +kernel
  obtain ⟨s', h⟩ := succeeds_iff.mp hok
  have hactive : inUse.activeAdapters = [10, 11] := by decide +kernel
  obtain ⟨-, -, hexit, -⟩ := internal_moves exact_jammed (s := inUse) (by rw [hactive]; exact fun _ h => h)
    (by rw [hactive]; decide)
  obtain ⟨hinternal, hdrained⟩ := hexit 20 s' h
  refine ⟨s', h, hinternal, ?_, ?_⟩
  · rw [(hdrained [] 10 [11] hactive).2 ?_]
    · decide +kernel
    · rintro ⟨r, hr⟩
      cases hr
  · refine (hdrained [10] 11 [] hactive).1 ?_
    exact succeeds_iff.mp (by decide +kernel)

end RobotMoney.Vault
