import RobotMoney.Vault.Internal
import RobotMoney.Vault.Routing

/-!
# Rebalancing to targets

`adminRebalance` runs over the adapters twice: those above their target are pulled down to it, then those below are
filled up from what is idle, which is what was idle before and what was pulled.  The fills stop when the pot is empty
or everybody has reached the target.  What the vault has in all does not change, so the sum of the targets decides
which of the two it is (`adminRebalance_reaches`).
-/

namespace RobotMoney.Vault

open RobotMoney.Lib State

variable {V : Type} {env : Env V} {s s' : State V} {w w₁ w' : World V} {ads : List Address}
  {i : AdapterInfo} {is : List AdapterInfo} {t : ℕ} {targets : List ℕ} {ps : List (Address × ℕ)}

/-! ### Targets -/

/-- The active adapters with their targets. -/
def aimed (is : List AdapterInfo) (targets : List ℕ) : List (Address × ℕ) :=
  ((is.zip targets).filter fun p => p.1.active).map fun p => (p.1.adapter, p.2)

theorem aimed_cons_of_not (h : i.active = false) : aimed (i :: is) (t :: targets) = aimed is targets := by
  simp [aimed, h]

theorem aimed_cons (h : i.active = true) :
    aimed (i :: is) (t :: targets) = (i.adapter, t) :: aimed is targets := by
  simp [aimed, h]

@[simp] theorem aimed_nil_right : aimed is [] = [] := by simp [aimed]

/-- With as many targets as entries, every active adapter has one. -/
theorem map_fst_aimed (h : targets.length = is.length) : (aimed is targets).map Prod.fst = active is := by
  induction is generalizing targets with
  | nil => rfl
  | cons i is ih =>
    obtain ⟨t, targets, rfl⟩ := List.exists_cons_of_length_eq_add_one h
    have hrest := ih (Nat.succ.inj h)
    cases hactive : i.active with
    | false => rw [aimed_cons_of_not hactive, active_cons_of_not hactive, hrest]
    | true => rw [aimed_cons hactive, active_cons hactive, List.map_cons, hrest]

/-! ### Pulling down -/

/-- What the first loop does to the adapters with targets: each is left with its target at most. -/
structure Lowered (env : Env V) (ads : List Address) (ps : List (Address × ℕ)) (w w' : World V) : Prop where
  low : ∀ p ∈ ps, env.adapterAssets w' p.1 ≤ p.2
  kept : ∀ a ∈ ads, a ∉ ps.map Prod.fst → env.adapterAssets w' a = env.adapterAssets w a

theorem Lowered.nil : Lowered env ads [] w w :=
  ⟨fun _ hp => absurd hp List.not_mem_nil, fun _ _ _ => rfl⟩

theorem Lowered.cons {a : Address} (ha : a ∈ ads) (hnew : a ∉ ps.map Prod.fst) (hlow : env.adapterAssets w₁ a ≤ t)
    (hsame : ∀ b ∈ ads, b ≠ a → env.adapterAssets w₁ b = env.adapterAssets w b)
    (h : Lowered env ads ps w₁ w') : Lowered env ads ((a, t) :: ps) w w' := by
  refine ⟨?_, ?_⟩
  · intro p hp
    rcases List.mem_cons.mp hp with rfl | hp
    · rw [h.kept a ha hnew]
      exact hlow
    · exact h.low p hp
  · intro b hb hout
    rw [List.map_cons, List.mem_cons, not_or] at hout
    rw [h.kept b hb hout.2, hsame b hb hout.1]

theorem adminPull_lowered (hexact : ExactOut env ads) (hads : ∀ a ∈ (aimed is targets).map Prod.fst, a ∈ ads)
    (hnodup : ((aimed is targets).map Prod.fst).Nodup) {moved moved' : ℕ}
    (h : adminPull env w is targets moved = .ok (w', moved')) : Lowered env ads (aimed is targets) w w' := by
  induction is generalizing w targets moved with
  | nil =>
    cases h
    exact .nil
  | cons i is ih =>
    cases targets with
    | nil =>
      cases h
      rw [aimed_nil_right]
      exact .nil
    | cons t targets =>
      unfold State.adminPull at h
      cases hactive : i.active with
      | false =>
        rw [if_pos hactive] at h
        rw [aimed_cons_of_not hactive] at hads hnodup ⊢
        exact ih hads hnodup h
      | true =>
        rw [if_neg (by simp [hactive])] at h
        rw [aimed_cons hactive] at hads hnodup ⊢
        obtain ⟨hi, hrest⟩ := List.forall_mem_cons.mp hads
        change i.adapter ∈ ads at hi
        obtain ⟨hnew, hnodup⟩ := List.nodup_cons.mp hnodup
        split at h
        · rename_i habove
          simp only [bind_eq_ok, inner_eq_ok, Prod.exists] at h
          obtain ⟨w₁, actual, hw, _, -, h⟩ := h
          obtain ⟨hactual, -, hgave, hsame⟩ := hexact.withdraw w _ _ w₁ actual hi hw
          refine .cons hi hnew ?_ hsame (ih hrest hnodup h)
          omega
        · rename_i hbelow
          exact .cons hi hnew (Nat.le_of_not_lt hbelow) (fun _ _ _ => rfl) (ih hrest hnodup h)

/-! ### Filling up -/

/-- What the second loop does to adapters that have their target at most: they still do, and the pot is empty or they
all have it. -/
structure Raised (env : Env V) (ads : List Address) (ps : List (Address × ℕ)) (w w' : World V) : Prop extends
    Lowered env ads ps w w' where
  idle_le : w'.usdc.balanceOf env.self ≤ w.usdc.balanceOf env.self
  done : w'.usdc.balanceOf env.self = 0 ∨ ∀ p ∈ ps, env.adapterAssets w' p.1 = p.2

theorem Raised.nil : Raised env ads [] w w :=
  ⟨.nil, le_rfl, .inr fun _ hp => absurd hp List.not_mem_nil⟩

/-- The pot is empty. -/
theorem Raised.stop (hlow : ∀ p ∈ ps, env.adapterAssets w p.1 ≤ p.2) (hidle : w.usdc.balanceOf env.self = 0) :
    Raised env ads ps w w :=
  ⟨⟨hlow, fun _ _ _ => rfl⟩, le_rfl, .inl hidle⟩

/-- One adapter is filled, to its target or with all there is, then the others. -/
theorem Raised.cons {a : Address} (ha : a ∈ ads) (hnew : a ∉ ps.map Prod.fst) (hlow : env.adapterAssets w₁ a ≤ t)
    (hsame : ∀ b ∈ ads, b ≠ a → env.adapterAssets w₁ b = env.adapterAssets w b)
    (hidle : w₁.usdc.balanceOf env.self ≤ w.usdc.balanceOf env.self)
    (hdone : w₁.usdc.balanceOf env.self = 0 ∨ env.adapterAssets w₁ a = t)
    (h : Raised env ads ps w₁ w') : Raised env ads ((a, t) :: ps) w w' := by
  have hidle' := h.idle_le
  refine ⟨h.toLowered.cons ha hnew hlow hsame, hidle'.trans hidle, ?_⟩
  rcases hdone with hempty | hfull
  · left
    omega
  · refine h.done.imp_right ?_
    intro hrest p hp
    rcases List.mem_cons.mp hp with rfl | hp
    · rw [h.kept a ha hnew]
      exact hfull
    · exact hrest p hp

theorem adminFill_raised (hexact : Exact env ads) (hads : ∀ a ∈ (aimed is targets).map Prod.fst, a ∈ ads)
    (hnodup : ((aimed is targets).map Prod.fst).Nodup)
    (hlow : ∀ p ∈ aimed is targets, env.adapterAssets w p.1 ≤ p.2)
    (h : s.adminFill env w is targets (w.usdc.balanceOf env.self) = .ok w') :
    Raised env ads (aimed is targets) w w' := by
  generalize hpot : w.usdc.balanceOf env.self = idle at h
  induction is generalizing w targets idle with
  | nil =>
    cases h
    exact .nil
  | cons i is ih =>
    cases targets with
    | nil =>
      cases h
      rw [aimed_nil_right]
      exact .nil
    | cons t targets =>
      unfold State.adminFill at h
      split at h
      · rename_i hempty
        cases h
        exact .stop hlow (hpot.trans hempty)
      cases hactive : i.active with
      | false =>
        rw [if_pos hactive] at h
        rw [aimed_cons_of_not hactive] at hads hnodup hlow ⊢
        exact ih hads hnodup hlow idle hpot h
      | true =>
        rw [if_neg (by simp [hactive])] at h
        rw [aimed_cons hactive] at hads hnodup hlow ⊢
        obtain ⟨hi, hrest⟩ := List.forall_mem_cons.mp hads
        change i.adapter ∈ ads at hi
        obtain ⟨hnew, hnodup⟩ := List.nodup_cons.mp hnodup
        obtain ⟨hlow, hlowrest⟩ := List.forall_mem_cons.mp hlow
        change env.adapterAssets w i.adapter ≤ t at hlow
        split at h
        · rename_i hbelow
          obtain ⟨w₁, halloc, h⟩ := bind_eq_ok.mp h
          obtain ⟨hidle, hgrow, hsame⟩ := allocateTo_exact hexact hi halloc
          have hlow₁ : ∀ p ∈ aimed is targets, env.adapterAssets w₁ p.1 ≤ p.2 := by
            intro p hp
            have hmem : p.1 ∈ (aimed is targets).map Prod.fst := List.mem_map_of_mem hp
            rw [hsame p.1 (hrest p.1 hmem) (ne_of_mem_of_not_mem hmem hnew)]
            exact hlowrest p hp
          refine .cons hi hnew ?_ hsame ?_ ?_ (ih hrest hnodup hlow₁ _ ?_ h)
          all_goals omega
        · rename_i hbelow
          refine .cons hi hnew hlow (fun _ _ _ => rfl) le_rfl (.inr ?_) (ih hrest hnodup hlowrest idle hpot h)
          exact Nat.le_antisymm hlow (Nat.le_of_not_lt hbelow)

/-! ### Both -/

/-- **An admin rebalance reaches its targets.**  With distinct exact adapters, each active one has a target; when the
targets sum to the total at most, each has its target and the rest is idle; when they sum to more, none has more than
its target and nothing is idle. -/
theorem adminRebalance_reaches (hexact : Exact env ads) (hads : ∀ a ∈ s.activeAdapters, a ∈ ads)
    (hnodup : s.activeAdapters.Nodup) {b : Block} {sender : Address}
    (h : s.adminRebalance env b sender targets = .ok s') :
    (aimed s.adapters targets).map Prod.fst = s.activeAdapters ∧
    ∀ A, s.totalAssets env = .ok A →
      (((aimed s.adapters targets).map Prod.snd).sum ≤ A →
        (∀ p ∈ aimed s.adapters targets, env.adapterAssets s'.world p.1 = p.2) ∧
          s'.idle env = A - ((aimed s.adapters targets).map Prod.snd).sum) ∧
      (A < ((aimed s.adapters targets).map Prod.snd).sum →
        (∀ p ∈ aimed s.adapters targets, env.adapterAssets s'.world p.1 ≤ p.2) ∧ s'.idle env = 0) := by
  have hwealth := (adminRebalance_moves h).2.wealth (hexact.mono hads) hnodup
  unfold State.adminRebalance at h
  simp only [bind_eq_ok, Prod.exists, pure_eq_ok, revertIf_eq_ok, not_not] at h
  obtain ⟨_, -, _, hlen, w, moved, hpull, w', hfill, rfl⟩ := h
  have hfst : (aimed s.adapters targets).map Prod.fst = s.activeAdapters := map_fst_aimed hlen
  rw [← hfst] at hads hnodup
  have hlow := (adminPull_lowered hexact.toExactOut hads hnodup hpull).low
  have hraised := adminFill_raised hexact hads hnodup hlow hfill
  refine ⟨hfst, ?_⟩
  intro A hA
  obtain ⟨-, rfl⟩ := totalAssets_eq_ok.mp hA
  rw [← hwealth]
  change (_ ≤ wealth env s.activeAdapters w' → _) ∧ (wealth env s.activeAdapters w' < _ → _)
  -- the sum over the active adapters is a sum over the targets
  have hsum : wealth env s.activeAdapters w' = w'.usdc.balanceOf env.self +
      ((aimed s.adapters targets).map fun p => env.adapterAssets w' p.1).sum := by
    unfold wealth
    rw [← hfst, List.map_map]
    rfl
  have hle := List.sum_le_sum hraised.low
  have hidle : ({ s with world := w', lastRebalanceAt := b.timestamp } : State V).idle env =
      w'.usdc.balanceOf env.self := rfl
  rw [hsum, hidle]
  refine ⟨?_, ?_⟩
  · intro henough
    have hall : ∀ p ∈ aimed s.adapters targets, env.adapterAssets w' p.1 = p.2 := by
      rcases hraised.done with hempty | hall
      · -- the pot is empty: everything is with the adapters, and none has more than its target
        intro p hp
        by_contra hne
        have hlt := List.sum_lt_sum _ _ hraised.low ⟨p, hp, lt_of_le_of_ne (hraised.low p hp) hne⟩
        omega
      · exact hall
    refine ⟨hall, ?_⟩
    have heq := congrArg List.sum (List.map_congr_left hall)
    omega
  · intro hshort
    refine ⟨hraised.low, ?_⟩
    rcases hraised.done with hempty | hall
    · exact hempty
    · have heq := congrArg List.sum (List.map_congr_left hall)
      omega

/-- The hundred units of the vault `leaning` are put to 30 and 50, and then to 80 and 50. -/
theorem adminRebalance_reaches_leaning :
    (∃ s', leaning.adminRebalance (passthrough 1 2) (.of 10 5000) 20 [30, 50] = .ok s' ∧
      s'.idle (passthrough 1 2) = 20) ∧
    ∃ s', leaning.adminRebalance (passthrough 1 2) (.of 10 5000) 20 [80, 50] = .ok s' ∧
      s'.idle (passthrough 1 2) = 0 := by
  have hactive : leaning.activeAdapters = [10, 11] := by decide +kernel
  have htotal : leaning.totalAssets (passthrough 1 2) = .ok 100 := by decide +kernel
  have hexact : Exact (passthrough 1 2) [10, 11] := exact_passthrough (by decide)
  refine ⟨?_, ?_⟩
  · obtain ⟨s', h⟩ := succeeds_iff.mp (show succeeds
      (leaning.adminRebalance (passthrough 1 2) (.of 10 5000) 20 [30, 50]) = true by decide +kernel)
    obtain ⟨-, hsum⟩ := adminRebalance_reaches hexact (by rw [hactive]; exact fun _ ha => ha)
      (by rw [hactive]; decide) h
    have htargets : ((aimed leaning.adapters [30, 50]).map Prod.snd).sum = 80 := by decide +kernel
    refine ⟨s', h, ?_⟩
    rw [((hsum 100 htotal).1 (by omega)).2, htargets]
  · obtain ⟨s', h⟩ := succeeds_iff.mp (show succeeds
      (leaning.adminRebalance (passthrough 1 2) (.of 10 5000) 20 [80, 50]) = true by decide +kernel)
    obtain ⟨-, hsum⟩ := adminRebalance_reaches hexact (by rw [hactive]; exact fun _ ha => ha)
      (by rw [hactive]; decide) h
    have htargets : ((aimed leaning.adapters [80, 50]).map Prod.snd).sum = 130 := by decide +kernel
    exact ⟨s', h, ((hsum 100 htotal).2 (by omega)).2⟩

end RobotMoney.Vault
