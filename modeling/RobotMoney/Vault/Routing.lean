import RobotMoney.Vault.Pull

/-!
# Where a deposit goes

`_routeDeposit` fills the active adapters in two passes, first toward the lower of the equal target and the
adapter's cap, then toward the cap.  One pass lifts each adapter to no more than its limit, or leaves it where
it is above, and if something remains every adapter has reached its limit (`Filled`).  The second pass has the
higher limits, so the bounds of the first are kept: no adapter passes its cap, and nothing stays idle while an
adapter has room (`routing_respects_caps`).
-/

namespace RobotMoney.Vault

open RobotMoney.Lib State

variable {V : Type} {env : Env V} {s s' : State V} {w w₁ w' : World V} {ads : List Address}
  {is : List AdapterInfo} {i : AdapterInfo} {r r' x : ℕ} {limit : AdapterInfo → ℕ}

/-! ### One pass -/

/-- What a pass does that starts with `r` to route and ends with `r'`. -/
structure Filled (env : Env V) (ads : List Address) (limit : AdapterInfo → ℕ) (is : List AdapterInfo)
    (w : World V) (r : ℕ) (w' : World V) (r' : ℕ) : Prop where
  le : r' ≤ r
  idle : w'.usdc.balanceOf env.self + r = w.usdc.balanceOf env.self + r'
  grows : ∀ a ∈ ads, env.adapterAssets w a ≤ env.adapterAssets w' a
  capped : ∀ i ∈ is, i.active = true →
    env.adapterAssets w' i.adapter ≤ max (env.adapterAssets w i.adapter) (limit i)
  kept : ∀ a ∈ ads, a ∉ active is → env.adapterAssets w' a = env.adapterAssets w a
  full : 0 < r' → ∀ i ∈ is, i.active = true → limit i ≤ env.adapterAssets w' i.adapter

/-- Nothing remains, or there is no adapter: nothing happens. -/
theorem Filled.stop (h : 0 < r → is = []) : Filled env ads limit is w r w r := by
  refine ⟨le_rfl, rfl, fun _ _ => le_rfl, fun i _ _ => le_max_left _ _, fun _ _ _ => rfl, ?_⟩
  intro hpos i hi
  rw [h hpos] at hi
  cases hi

theorem Filled.cons_of_not (hactive : i.active = false) (h : Filled env ads limit is w r w' r') :
    Filled env ads limit (i :: is) w r w' r' := by
  have hrest : ∀ j ∈ i :: is, j.active = true → j ∈ is := by
    intro j hj hjactive
    rcases List.mem_cons.mp hj with rfl | hj
    · rw [hactive] at hjactive
      cases hjactive
    · exact hj
  refine ⟨h.le, h.idle, h.grows, ?_, ?_, ?_⟩
  · intro j hj hjactive
    exact h.capped j (hrest j hj hjactive) hjactive
  · rw [active_cons_of_not hactive]
    exact h.kept
  · intro hpos j hj hjactive
    exact h.full hpos j (hrest j hj hjactive) hjactive

/-- One adapter is lifted by `x`, within its limit and up to it while something remains, then the others. -/
theorem Filled.cons (hactive : i.active = true) (hi : i.adapter ∈ ads) (hads : ∀ a ∈ active is, a ∈ ads)
    (hnew : i.adapter ∉ active is) (hx : x ≤ r)
    (hidle : w₁.usdc.balanceOf env.self + x = w.usdc.balanceOf env.self)
    (hgrow : env.adapterAssets w₁ i.adapter = env.adapterAssets w i.adapter + x)
    (hsame : ∀ b ∈ ads, b ≠ i.adapter → env.adapterAssets w₁ b = env.adapterAssets w b)
    (hwithin : env.adapterAssets w i.adapter + x ≤ max (env.adapterAssets w i.adapter) (limit i))
    (hreach : x < r → limit i ≤ env.adapterAssets w i.adapter + x)
    (h : Filled env ads limit is w₁ (r - x) w' r') : Filled env ads limit (i :: is) w r w' r' := by
  have hthen : env.adapterAssets w' i.adapter = env.adapterAssets w i.adapter + x :=
    (h.kept i.adapter hi hnew).trans hgrow
  have hother : ∀ j ∈ is, j.active = true → env.adapterAssets w₁ j.adapter = env.adapterAssets w j.adapter := by
    intro j hj hjactive
    have hin : j.adapter ∈ active is := List.mem_map_of_mem (List.mem_filter.mpr ⟨hj, hjactive⟩)
    refine hsame _ (hads _ hin) ?_
    intro heq
    exact hnew (heq ▸ hin)
  have hle := h.le
  have hrest := h.idle
  refine ⟨by omega, by omega, ?_, ?_, ?_, ?_⟩
  · intro b hb
    have hgrows := h.grows b hb
    by_cases heq : b = i.adapter
    · subst heq
      omega
    · rw [← hsame b hb heq]
      exact hgrows
  · intro j hj hjactive
    rcases List.mem_cons.mp hj with rfl | hj
    · rw [hthen]
      exact hwithin
    · rw [← hother j hj hjactive]
      exact h.capped j hj hjactive
  · intro b hb hout
    rw [active_cons hactive] at hout
    obtain ⟨hne, hout⟩ := not_or.mp (mt List.mem_cons.mpr hout)
    rw [h.kept b hb hout, hsame b hb hne]
  · intro hpos j hj hjactive
    rcases List.mem_cons.mp hj with rfl | hj
    · rw [hthen]
      refine hreach ?_
      omega
    · exact h.full hpos j hj hjactive

/-- What an allocation does. -/
theorem allocateTo_exact (hexact : Exact env ads) {a : Address} (ha : a ∈ ads)
    (h : s.allocateTo env w a x = .ok w') :
    w'.usdc.balanceOf env.self + x = w.usdc.balanceOf env.self ∧
      env.adapterAssets w' a = env.adapterAssets w a + x ∧
      ∀ b ∈ ads, b ≠ a → env.adapterAssets w' b = env.adapterAssets w b := by
  unfold State.allocateTo at h
  simp only [bind_eq_ok, inner_eq_ok] at h
  obtain ⟨_, -, usdc, htransfer, hdeploy⟩ := h
  exact hexact.deploy w usdc a x w' ha htransfer hdeploy

/-- **A pass fills.** -/
theorem routePass_filled (hexact : Exact env ads) (hads : ∀ a ∈ active is, a ∈ ads)
    (hnodup : (active is).Nodup) {totalAfter : ℕ} {bpsOf : AdapterInfo → ℕ}
    (h : s.routePass env totalAfter bpsOf w is r = .ok (w', r')) :
    Filled env ads (fun i => totalAfter * bpsOf i / maxBps) is w r w' r' := by
  induction is generalizing w r with
  | nil =>
    cases h
    exact .stop fun _ => rfl
  | cons i is ih =>
    unfold State.routePass at h
    by_cases hnone : r = 0
    · rw [if_pos hnone] at h
      cases h
      refine .stop ?_
      omega
    rw [if_neg hnone] at h
    cases hactive : i.active with
    | false =>
      rw [if_pos hactive] at h
      rw [active_cons_of_not hactive] at hads hnodup
      exact .cons_of_not hactive (ih hads hnodup h)
    | true =>
      rw [if_neg (by simp [hactive])] at h
      rw [active_cons hactive] at hads hnodup
      obtain ⟨hnew, hnodup⟩ := List.nodup_cons.mp hnodup
      have hi := hads i.adapter List.mem_cons_self
      have hrest : ∀ a ∈ active is, a ∈ ads := fun a ha => hads a (List.mem_cons_of_mem _ ha)
      obtain ⟨product, hproduct, h⟩ := bind_eq_ok.mp h
      obtain ⟨-, rfl⟩ := mulU_eq_ok.mp hproduct
      dsimp only at h
      by_cases hroom : totalAfter * bpsOf i / maxBps ≤ env.adapterAssets w i.adapter
      · -- the adapter is at its limit already
        rw [if_pos hroom] at h
        refine .cons hactive hi hrest hnew (Nat.zero_le r) rfl rfl (fun _ _ _ => rfl) (le_max_left _ _)
          (fun _ => hroom) ?_
        rw [Nat.sub_zero]
        exact ih hrest hnodup h
      · rw [if_neg hroom] at h
        obtain ⟨w₁, halloc, h⟩ := bind_eq_ok.mp h
        obtain ⟨hidle, hgrow, hsame⟩ := allocateTo_exact hexact hi halloc
        refine .cons hactive hi hrest hnew (Nat.min_le_right _ _) hidle hgrow hsame ?_ ?_ (ih hrest hnodup h)
        · omega
        · omega

/-! ### Both passes -/

/-- What `_routeDeposit(amount)` does when `unrouted` of the amount stays idle. -/
structure Routed (env : Env V) (ads : List Address) (s s' : State V) (amount unrouted : ℕ) : Prop where
  storage : s' = { s with world := s'.world }
  le : unrouted ≤ amount
  idle : s'.idle env + (amount - unrouted) = s.idle env
  grows : ∀ a ∈ ads, env.adapterAssets s.world a ≤ env.adapterAssets s'.world a
  /-- the allocations sum to the amount less what stays -/
  allocated : (s'.adapterBalances env).sum = (s.adapterBalances env).sum + (amount - unrouted)
  total : ∀ A, s'.totalAssets env = .ok A ↔ s.totalAssets env = .ok A
  capped : ∀ A, s.totalAssets env = .ok A → ∀ i ∈ s.adapters, i.active = true →
    env.adapterAssets s'.world i.adapter ≤ max (env.adapterAssets s.world i.adapter) (A * i.capBps / maxBps)
  inactive : ∀ a ∈ ads, a ∉ s.activeAdapters → env.adapterAssets s'.world a = env.adapterAssets s.world a
  full : 0 < unrouted → ∀ A, s.totalAssets env = .ok A → ∀ i ∈ s.adapters, i.active = true →
    A * i.capBps / maxBps ≤ env.adapterAssets s'.world i.adapter

/-- The two passes, one after the other. -/
theorem Filled.twice {low high : AdapterInfo → ℕ} (hle : ∀ i, low i ≤ high i) {r₁ : ℕ}
    (h₁ : Filled env ads low is w r w₁ r₁) (h₂ : Filled env ads high is w₁ r₁ w' r') :
    Filled env ads high is w r w' r' := by
  have hle₁ := h₁.le
  have hle₂ := h₂.le
  have hidle₁ := h₁.idle
  have hidle₂ := h₂.idle
  refine ⟨by omega, by omega, ?_, ?_, ?_, h₂.full⟩
  · intro a ha
    exact (h₁.grows a ha).trans (h₂.grows a ha)
  · intro i hi hactive
    have hlow := h₁.capped i hi hactive
    have hhigh := h₂.capped i hi hactive
    have hlimit := hle i
    omega
  · intro a ha hout
    exact (h₂.kept a ha hout).trans (h₁.kept a ha hout)

/-- **Routing respects the caps.**  With distinct exact adapters, whatever is idle: what is allocated and what
stays sum to the amount and the total does not change, no active adapter is lifted above its cap, no other
adapter changes, and if something stays then every active adapter has reached its cap. -/
theorem routing_respects_caps (hexact : Exact env ads) (hads : ∀ a ∈ s.activeAdapters, a ∈ ads)
    (hnodup : s.activeAdapters.Nodup) {amount : ℕ} (h : s.routeDeposit env amount = .ok s') :
    ∃ unrouted, Routed env ads s s' amount unrouted := by
  obtain ⟨hframe, hwealth⟩ := routeDeposit_wealth (hexact.mono hads) hnodup h
  have hactive : s'.activeAdapters = s.activeAdapters := by
    rw [hframe]
    rfl
  have htotal := totalAssets_congr hactive hwealth
  -- the fill toward the caps, whatever the total is
  have hfilled : ∃ unrouted, ∀ A, (amount = 0 ∨ s.totalAssets env = .ok A) →
      Filled env ads (fun i => A * i.capBps / maxBps) s.adapters s.world amount s'.world unrouted := by
    unfold State.routeDeposit at h
    by_cases hzero : amount = 0
    · rw [if_pos hzero] at h
      cases h
      refine ⟨amount, fun A _ => .stop ?_⟩
      omega
    · rw [if_neg hzero] at h
      simp only [bind_eq_ok, Prod.exists, pure_eq_ok] at h
      obtain ⟨A, htot, w₁, r₁, h₁, w₂, r₂, h₂, rfl⟩ := h
      refine ⟨r₂, ?_⟩
      rintro A' (hA | hA)
      · exact absurd hA hzero
      · obtain rfl : A = A' := Except.ok.inj (htot.symm.trans hA)
        refine .twice (fun i => ?_) (routePass_filled hexact hads hnodup h₁)
          (routePass_filled hexact hads hnodup h₂)
        exact Nat.div_le_div_right (Nat.mul_le_mul_left A (Nat.min_le_left _ _))
  obtain ⟨unrouted, hfilled⟩ := hfilled
  -- the conservation does not depend on the limits
  have hbasic : unrouted ≤ amount ∧
      s'.world.usdc.balanceOf env.self + amount = s.world.usdc.balanceOf env.self + unrouted ∧
      (∀ a ∈ ads, env.adapterAssets s.world a ≤ env.adapterAssets s'.world a) ∧
      ∀ a ∈ ads, a ∉ s.activeAdapters → env.adapterAssets s'.world a = env.adapterAssets s.world a := by
    by_cases hzero : amount = 0
    · obtain ⟨hle, hidle, hgrows, -, hkept, -⟩ := hfilled 0 (.inl hzero)
      exact ⟨hle, hidle, hgrows, hkept⟩
    · have hA : ∃ A, s.totalAssets env = .ok A := by
        unfold State.routeDeposit at h
        rw [if_neg hzero] at h
        obtain ⟨A, hA, -⟩ := bind_eq_ok.mp h
        exact ⟨A, hA⟩
      obtain ⟨A, hA⟩ := hA
      obtain ⟨hle, hidle, hgrows, -, hkept, -⟩ := hfilled A (.inr hA)
      exact ⟨hle, hidle, hgrows, hkept⟩
  obtain ⟨hle, hidle, hgrows, hkept⟩ := hbasic
  refine ⟨unrouted, hframe, hle, ?_, hgrows, ?_, htotal, ?_, hkept, ?_⟩
  · change s'.world.usdc.balanceOf env.self + (amount - unrouted) = s.world.usdc.balanceOf env.self
    omega
  · unfold State.adapterBalances
    rw [hactive]
    unfold wealth at hwealth
    omega
  · intro A hA i hi hiactive
    exact (hfilled A (.inr hA)).capped i hi hiactive
  · intro hpos A hA i hi hiactive
    exact (hfilled A (.inr hA)).full hpos i hi hiactive

/-- The vault `inUse` with caps of 20 and 30 percent, of which half of a deposit stays idle; the first cap is
then raised to 40. -/
def idling : State Unit :=
  run (exec (passthrough 1 2)) inUse
    [callBy 20 (.setAdapterCap 0 2000), callBy 20 (.setAdapterCap 1 3000), callBy 5 (.user (.deposit 100 5)),
      callBy 20 (.setAdapterCap 0 4000)]

/-- Of its 53 idle units 21 go to the first adapter, and 32 stay. -/
theorem routing_respects_caps_idling :
    ∃ s' unrouted, idling.routeDeposit (passthrough 1 2) 53 = .ok s' ∧
      Routed (passthrough 1 2) idling.activeAdapters idling s' 53 unrouted ∧ unrouted = 32 := by
  have hrun : (idling.routeDeposit (passthrough 1 2) 53).map (fun s' => s'.idle (passthrough 1 2)) = .ok 32 := by
    decide +kernel
  have hidle : idling.idle (passthrough 1 2) = 53 := by decide +kernel
  rcases hx : idling.routeDeposit (passthrough 1 2) 53 with e | s'
  · rw [hx] at hrun
    cases hrun
  · rw [hx] at hrun
    have hrun : s'.idle (passthrough 1 2) = 32 := Except.ok.inj hrun
    obtain ⟨unrouted, hrouted⟩ := routing_respects_caps (exact_passthrough (by decide +kernel))
      (fun _ ha => ha) (by decide +kernel) hx
    have hle := hrouted.le
    have hsum := hrouted.idle
    exact ⟨s', unrouted, rfl, hrouted, by omega⟩

end RobotMoney.Vault
