import RobotMoney.Portfolio.DefaultVector
import RobotMoney.Portfolio.Preview

/-!
# What an available preview promises

`previewDeposit` marks a leg unavailable when its vault is not an active one of the registry, or when the vault's own
preview reverts.  A deposit makes more checks: the caps of the router and of the vaults, and the eligibility of every
vault (`Guarded`).  So a preview without an unavailable leg rules out `VaultNotActive`, and the errors of these other
guards where they pass; and a preview with one forecasts a revert (`preview_forecasts`).

A deposit calls vaults one after the other, and what it meets at the last is what the others left.  `Steady` and
`Standard` are what the router takes for granted of them.
-/

namespace RobotMoney.Portfolio

open RobotMoney.Lib

variable {V : Type}

/-- The errors of the guards that the preview does not repeat. -/
def RouterError.IsGuard : RouterError → Prop
  | .routerCapExceeded | .vaultCapExceeded | .vaultNotRouterEligible _ => True
  | .vaultAssetMismatch _ _ | .vaultAssetUnreadable _ => True
  | _ => False

namespace RouterState

variable {env : RouterEnv V} {p p' q q' : RouterState V} {sender receiver v : Address} {amount a : ℕ}
  {minShares : List ℕ} {events : List RouterEvent} {ls : List Leg} {l : Leg} {e : RouterError}

/-- The legs of a deposit. -/
def split (p : RouterState V) (amount : ℕ) : Call RouterError (List Leg) := do
  let (floors, allocated) ← legAmounts amount (effectiveWeights p.router).2 0
  let amounts ← assignRemainder floors allocated amount
  pure (legs (effectiveWeights p.router).1 (effectiveWeights p.router).2 amounts)

/-- The guards of a leg that the preview does not repeat. -/
structure LegGuarded (env : RouterEnv V) (p : RouterState V) (l : Leg) : Prop where
  cap : p.router.vaultCap l.vault = 0 ∨ l.amount ≤ p.router.vaultCap l.vault
  compatible : Compatible env p l.vault
  eligible : p.registry.routerEligible l.vault = true

/-- The guards of a deposit that the preview does not repeat. -/
structure Guarded (env : RouterEnv V) (p : RouterState V) (amount : ℕ) : Prop where
  cap : p.router.routerCap = 0 ∨ amount ≤ p.router.routerCap
  legs : ∀ ls, p.split amount = .ok ls → ∀ l ∈ ls, LegGuarded env p l

/-! ### The vaults -/

/-- A deposit into a vault changes the code and the asset of none. -/
structure Steady (env : RouterEnv V) : Prop where
  hasCode : ∀ {w w' vault caller a receiver n}, env.deposit w vault caller a receiver = .ok (w', n) →
    ∀ v, env.hasCode w'.ext v = env.hasCode w.ext v
  asset : ∀ {w w' vault caller a receiver n}, env.deposit w vault caller a receiver = .ok (w', n) →
    ∀ v, env.asset w'.ext v = env.asset w.ext v

/-- A vault whose `previewDeposit` reverts takes neither that deposit nor a larger one, and a deposit elsewhere
does not change that. -/
structure Standard (env : RouterEnv V) : Prop where
  refuses : ∀ {w v caller a b receiver}, env.previewDeposit w.ext v a = none → a ≤ b →
    ∀ r, env.deposit w v caller b receiver ≠ .ok r
  stays : ∀ {w w' vault caller b receiver n}, env.deposit w vault caller b receiver = .ok (w', n) →
    ∀ v a, env.previewDeposit w.ext v a = none → env.previewDeposit w'.ext v a = none

/-! ### The preview of a leg -/

/-- The vault is an active one of the registry. -/
def IsActive (p : RouterState V) (vault : Address) : Prop :=
  ∃ metadata, p.registry.getVault vault = .ok (metadata, .active)

theorem previewLeg_unavailable_iff {weightBps : ℕ} : (p.previewLeg env v weightBps a).unavailable = true ↔
    ¬ IsActive p v ∨ env.previewDeposit p.world.ext v a = none := by
  unfold previewLeg IsActive
  rcases hv : p.registry.getVault v with _ | ⟨metadata, status⟩
  · simp
  · by_cases hactive : status = .active
    · subst hactive
      cases env.previewDeposit p.world.ext v a <;> simp
    · simp [hactive]

@[simp] theorem previewLeg_vault {weightBps : ℕ} : (p.previewLeg env v weightBps a).vault = v := by
  unfold previewLeg
  split
  · rfl
  · split
    · rfl
    · split <;> rfl

theorem previewDeposit_mul : ∀ {vaults : List Address} {bps : List ℕ} {preview : List LegPreview},
    previewDeposit.go env p amount vaults bps = .ok preview →
      preview = (vaults.zip bps).map fun x => p.previewLeg env x.1 x.2 (share amount bpsDenominator x.2)
  | [], _, _, h => by
    unfold previewDeposit.go at h
    cases h
    rfl
  | _ :: _, [], _, h => by
    unfold previewDeposit.go at h
    cases h
    rfl
  | v :: vs, w :: ws, preview, h => by
    unfold previewDeposit.go at h
    obtain ⟨product, hproduct, h⟩ := bind_eq_ok.mp h
    obtain ⟨rest, hrest, h⟩ := bind_eq_ok.mp h
    obtain ⟨-, rfl⟩ := mulU_eq_ok.mp hproduct
    cases h
    rw [previewDeposit_mul hrest]
    rfl

/-- Every leg of the deposit has one in the preview, of no larger amount, and the other way round. -/
theorem forall_legs : ∀ {vaults : List Address} {bps amounts : List ℕ},
    List.Forall₂ (fun w b => share amount bpsDenominator w ≤ b) bps amounts →
      (∀ x ∈ vaults.zip bps, ∃ l ∈ legs vaults bps amounts, l.vault = x.1 ∧
        share amount bpsDenominator x.2 ≤ l.amount) ∧
      ∀ l ∈ legs vaults bps amounts, ∃ x ∈ vaults.zip bps, x.1 = l.vault
  | [], _, _, _ => by simp [legs]
  | _ :: _, [], _, _ => by simp [legs]
  | v :: vs, w :: ws, _, .cons (b := b) hle hrest => by
    obtain ⟨hthere, hback⟩ := forall_legs hrest
    unfold legs at hthere hback ⊢
    simp only [List.zip_cons_cons, List.map_cons, List.mem_cons]
    constructor
    · rintro x (rfl | hx)
      · exact ⟨_, .inl rfl, rfl, hle⟩
      · obtain ⟨l, hl, hlx⟩ := hthere x hx
        exact ⟨l, .inr hl, hlx⟩
    · rintro l (rfl | hl)
      · exact ⟨(v, w), .inl rfl, rfl⟩
      · obtain ⟨x, hx, hxl⟩ := hback l hl
        exact ⟨x, .inr hx, hxl⟩

/-- The legs of a deposit are no smaller than the shares of the amount. -/
theorem split_shares (h : p.split amount = .ok ls) : ∃ amounts,
    ls = legs (effectiveWeights p.router).1 (effectiveWeights p.router).2 amounts ∧
      List.Forall₂ (fun w b => share amount bpsDenominator w ≤ b) (effectiveWeights p.router).2 amounts := by
  unfold split at h
  simp only [bind_eq_ok, pure_eq_ok, Prod.exists] at h
  obtain ⟨floors, total, hfloors, amounts, hamounts, rfl⟩ := h
  obtain ⟨-, rfl, rfl⟩ := legAmounts_eq_ok hfloors
  refine ⟨amounts, rfl, ?_⟩
  have hle : List.Forall₂ (· ≤ ·) (shares amount bpsDenominator (effectiveWeights p.router).2) amounts := by
    unfold assignRemainder at hamounts
    split at hamounts
    · obtain ⟨front, last, heq, rfl⟩ := addToLast_eq_ok hamounts
      rw [heq]
      exact List.rel_append (List.forall₂_refl front) (.cons (Nat.le_add_right _ _) .nil)
    · cases hamounts
      exact List.forall₂_refl _
  exact List.forall₂_map_left_iff.mp hle

/-! ### The legs of a deposit -/

theorem requireRouterEligible_avoids (h : ¬ e.IsGuard) : Avoids e (p.requireRouterEligible env v) := by
  have hne : ∀ {e'}, RouterError.IsGuard e' → e' ≠ e := fun he' heq => h (heq ▸ he')
  unfold requireRouterEligible
  refine .bind (.of_revertIf (hne trivial)) fun _ _ => ?_
  cases env.asset p.world.ext v with
  | none =>
    intro herr
    have hguard : RouterError.IsGuard (.vaultAssetUnreadable v) := trivial
    exact hne hguard (Revert.custom.inj (Except.error.inj herr))
  | some a => exact .bind (.of_revertIf (hne trivial)) fun _ _ => .of_revertIf (hne trivial)

theorem depositTo_split {r : RouterState V × List RouterEvent}
    (h : p.depositTo env sender receiver amount minShares = .ok r) :
    (p.router.routerCap = 0 ∨ amount ≤ p.router.routerCap) ∧ ∃ usdc ls, p.split amount = .ok ls ∧
      executeLegs env receiver { p with world := { p.world with usdc } } ls minShares = .ok r := by
  unfold depositTo at h
  simp only [bind_eq_ok, pure_eq_ok, Prod.exists, revertIf_eq_ok, exists_const] at h
  obtain ⟨-, hcap, usdc, -, -, floors, total, hfloors, amounts, hamounts, p₁, ev, hex, -, h⟩ := h
  cases h
  refine ⟨by omega, usdc, _, ?_, hex⟩
  unfold split
  rw [hfloors, ok_bind]
  dsimp only
  rw [hamounts]
  rfl

/-- **The legs one by one.**  Each leg of a deposit that goes through was executed in a state that has what the first
one has and every leg keeps. -/
theorem executeLegs_each {I : RouterState V → Prop} (hkeep : ∀ {q q' l ms ev}, I q →
    q.executeLeg env receiver ms l = .ok (q', ev) → I q') :
    ∀ {ls : List Leg} {p p' : RouterState V} {minShares : List ℕ} {events : List RouterEvent},
      executeLegs env receiver p ls minShares = .ok (p', events) → I p →
        ∀ l ∈ ls, ∃ q ms r, I q ∧ q.executeLeg env receiver ms l = .ok r
  | [], _, _, _, _, _, _ => by simp
  | l :: ls, p, p', minShares, events, h, hp => by
    obtain ⟨p₁, event, rest, h₁, h₂⟩ := executeLegs_cons h
    rw [List.forall_mem_cons]
    exact ⟨⟨p, minShares, _, hp, h₁⟩, executeLegs_each hkeep h₂ (hkeep hp h₁)⟩

/-- **The error of a leg.**  An error that no leg makes is not made by the legs. -/
theorem executeLegs_avoids {I : RouterState V → Prop} (hkeep : ∀ {q q' l ms ev}, I q →
    q.executeLeg env receiver ms l = .ok (q', ev) → I q') :
    ∀ {ls : List Leg} {p : RouterState V} {minShares : List ℕ}, I p →
      (∀ l ∈ ls, ∀ {q ms}, I q → Avoids e (q.executeLeg env receiver ms l)) →
        Avoids e (executeLegs env receiver p ls minShares)
  | [], _, _, _, _ => .of_ok
  | l :: ls, p, minShares, hp, hls => by
    obtain ⟨hl, hls⟩ := List.forall_mem_cons.mp hls
    unfold executeLegs
    refine .bind (hl hp) fun r hr => ?_
    exact .bind (executeLegs_avoids hkeep (hkeep hp hr) hls) fun _ _ => .of_ok

theorem legAmounts_avoids : ∀ {ws : List ℕ} {allocated : ℕ}, Avoids e (legAmounts amount ws allocated)
  | [], _ => .of_ok
  | w :: ws, allocated => by
    unfold legAmounts
    exact .bind mulU_avoids fun _ _ => .bind addU_avoids fun _ _ => .bind legAmounts_avoids fun _ _ => .of_ok

theorem addToLast_avoids : ∀ {ns : List ℕ} {d : ℕ}, Avoids e (addToLast ns d)
  | [], _ => by
    unfold addToLast
    intro h
    cases h
  | [_], _ => by
    unfold addToLast
    exact .bind addU_avoids fun _ _ => .of_ok
  | _ :: b :: ns, _ => by
    unfold addToLast
    exact .bind addToLast_avoids fun _ _ => .of_ok

theorem assignRemainder_avoids {floors : List ℕ} {allocated : ℕ} :
    Avoids e (assignRemainder floors allocated amount) := by
  unfold assignRemainder
  split
  · exact addToLast_avoids
  · exact .of_ok

/-- The errors of a deposit that its legs do not make. -/
theorem depositTo_avoids (hweights : e ≠ .noWeightsSet) (hlength : e ≠ .minSharesLengthMismatch)
    (hcustody : e ≠ .usdcCustodyInvariantViolated)
    (hcap : e = .routerCapExceeded → p.router.routerCap = 0 ∨ amount ≤ p.router.routerCap)
    (hlegs : ∀ usdc ls, p.split amount = .ok ls → Avoids e
      (executeLegs env receiver { p with world := { p.world with usdc } } ls minShares)) :
    Avoids e (p.depositTo env sender receiver amount minShares) := by
  have hcap : Avoids e (revertIf (p.router.routerCap ≠ 0 ∧ p.router.routerCap < amount)
      RouterError.routerCapExceeded) := by
    by_cases he : e = .routerCapExceeded
    · have hcap := hcap he
      rw [revertIf_neg (by omega)]
      exact .of_ok
    · exact .of_revertIf (Ne.symm he)
  unfold depositTo
  refine .bind (.of_revertIf hweights.symm) fun _ _ => .bind hcap fun _ _ => ?_
  refine .bind Token.transferFrom_avoids fun usdc _ => .bind (.of_revertIf hlength.symm) fun _ _ => ?_
  refine .bind legAmounts_avoids fun x (hfloors : legAmounts amount (effectiveWeights p.router).2 0 = .ok x) => ?_
  refine .bind assignRemainder_avoids fun amounts hamounts => ?_
  have hsplit : p.split amount =
      .ok (legs (effectiveWeights p.router).1 (effectiveWeights p.router).2 amounts) := by
    unfold split
    rw [hfloors, ok_bind]
    dsimp only
    rw [hamounts]
    rfl
  refine .bind (hlegs usdc _ hsplit) fun _ _ => .bind (.of_revertIf hcustody.symm) fun _ _ => .of_ok

/-- What a leg that was executed has passed. -/
theorem executeLeg_passed {r : RouterState V × RouterEvent}
    (h : p.executeLeg env receiver minShares l = .ok r) :
    IsActive p l.vault ∧ LegGuarded env p l ∧ r.1.router = p.router ∧ r.1.registry = p.registry ∧
      ∃ usdc shares, env.deposit { p.world with usdc } l.vault env.self l.amount receiver =
        .ok (r.1.world, shares) := by
  unfold executeLeg at h
  simp only [bind_eq_ok, inner_eq_ok, revertIf_eq_ok, exists_const, not_not, pure_eq_ok, Prod.exists] at h
  obtain ⟨metadata, status, hvault, rfl, hcap, u, heligible, usdc, -, w, shares, hdeposit, -, rfl⟩ := h
  obtain ⟨hcompatible, heligible⟩ := requireRouterEligible_eq_ok.mp heligible
  exact ⟨⟨metadata, hvault⟩, ⟨by omega, hcompatible, heligible⟩, rfl, rfl, usdc, shares, hdeposit⟩

/-- The errors of a leg. -/
theorem executeLeg_avoids (hslippage : e ≠ .slippageExceeded)
    (hactive : IsActive p l.vault ∨ ∀ v status, e ≠ .vaultNotActive v status)
    (hguard : LegGuarded env p l ∨ ¬ e.IsGuard) : Avoids e (p.executeLeg env receiver minShares l) := by
  unfold executeLeg
  refine .bind .of_inner ?_
  rintro ⟨metadata, status⟩ hvault
  refine .bind ?_ fun _ _ => .bind ?_ fun _ _ => .bind ?_ fun _ _ => ?_
  · rcases hactive with ⟨metadata', hactive⟩ | hne
    · obtain ⟨-, rfl⟩ := Prod.mk.injEq .. ▸ Except.ok.inj ((inner_eq_ok.mp hvault).symm.trans hactive)
      rw [revertIf_neg (by simp)]
      exact .of_ok
    · exact .of_revertIf (hne _ _).symm
  · rcases hguard with hguard | hne
    · have := hguard.cap
      rw [revertIf_neg (by omega)]
      exact .of_ok
    · refine .of_revertIf ?_
      rintro rfl
      exact hne trivial
  · rcases hguard with hguard | hne
    · rw [requireRouterEligible_eq_ok (u := ()) |>.mpr ⟨hguard.compatible, hguard.eligible⟩]
      exact .of_ok
    · exact requireRouterEligible_avoids hne
  · refine .bind Token.approve_avoids fun _ _ => .bind .of_inner ?_
    rintro ⟨w, shares⟩ -
    exact .bind (.of_revertIf hslippage.symm) fun _ _ => .of_ok

/-! ### What every leg keeps -/

/-- The contracts are as they were. -/
structure Same (p q : RouterState V) : Prop where
  router : q.router = p.router
  registry : q.registry = p.registry

theorem Same.active (h : Same p q) (hactive : IsActive p v) : IsActive q v := by
  unfold IsActive at *
  rwa [h.registry]

theorem Same.executeLeg {r : RouterState V × RouterEvent} (h : Same p q)
    (hx : q.executeLeg env receiver minShares l = .ok r) : Same p r.1 := by
  obtain ⟨-, -, hrouter, hregistry, -⟩ := executeLeg_passed hx
  exact ⟨hrouter.trans h.router, hregistry.trans h.registry⟩

/-- And so are the code and the assets of the vaults. -/
structure SameVaults (env : RouterEnv V) (p q : RouterState V) : Prop extends Same p q where
  hasCode : ∀ v, env.hasCode q.world.ext v = env.hasCode p.world.ext v
  asset : ∀ v, env.asset q.world.ext v = env.asset p.world.ext v

theorem SameVaults.guarded_iff (h : SameVaults env p q) : LegGuarded env q l ↔ LegGuarded env p l := by
  have hcompatible : Compatible env q l.vault ↔ Compatible env p l.vault := by
    unfold Compatible
    rw [h.hasCode, h.asset]
  constructor
  · rintro ⟨hcap, hc, he⟩
    exact ⟨h.router ▸ hcap, hcompatible.mp hc, h.registry ▸ he⟩
  · rintro ⟨hcap, hc, he⟩
    exact ⟨h.router ▸ hcap, hcompatible.mpr hc, h.registry ▸ he⟩

theorem SameVaults.executeLeg {r : RouterState V × RouterEvent} (hsteady : Steady env)
    (h : SameVaults env p q) (hx : q.executeLeg env receiver minShares l = .ok r) :
    SameVaults env p r.1 := by
  obtain ⟨-, -, -, -, usdc, shares, hdeposit⟩ := executeLeg_passed hx
  refine ⟨h.toSame.executeLeg hx, ?_, ?_⟩
  · exact fun v => (hsteady.hasCode hdeposit v).trans (h.hasCode v)
  · exact fun v => (hsteady.asset hdeposit v).trans (h.asset v)

/-! ### The preview and the deposit -/

section Forecast

variable {preview : List LegPreview} {r : RouterState V × List RouterEvent}

/-- The legs of a preview without an unavailable one are active. -/
theorem active_of_available (hpreview : p.previewDeposit env amount = .ok preview)
    (havailable : ∀ leg ∈ preview, leg.unavailable = false) (hsplit : p.split amount = .ok ls) (hl : l ∈ ls) :
    IsActive p l.vault := by
  obtain ⟨amounts, rfl, hle⟩ := split_shares hsplit
  obtain ⟨x, hx, hvault⟩ := (forall_legs hle).2 l hl
  have hleg := havailable _ (previewDeposit_mul hpreview ▸ List.mem_map_of_mem hx)
  by_contra hnot
  rw [← hvault] at hnot
  rw [previewLeg_unavailable_iff.mpr (.inl hnot)] at hleg
  cases hleg

theorem deposit_avoids_inactive (hpreview : p.previewDeposit env amount = .ok preview)
    (havailable : ∀ leg ∈ preview, leg.unavailable = false) (v : Address) (status : VaultStatus) :
    Avoids (.vaultNotActive v status) (p.deposit env sender amount []) := by
  refine depositTo_avoids (by simp) (by simp) (by simp) (by simp) ?_
  intro usdc ls hsplit
  refine executeLegs_avoids (I := Same p) (fun h hx => h.executeLeg hx) ⟨rfl, rfl⟩ ?_
  intro l hl q ms hq
  have hactive := active_of_available hpreview havailable hsplit hl
  exact executeLeg_avoids (by simp) (.inl (hq.active hactive)) (.inr id)

theorem deposit_avoids_guards (hsteady : Steady env) (hguarded : Guarded env p amount) (he : e.IsGuard) :
    Avoids e (p.deposit env sender amount []) := by
  have hne : ∀ {e' : RouterError}, ¬ e'.IsGuard → e ≠ e' := fun hnot heq => hnot (heq ▸ he)
  refine depositTo_avoids (hne id) (hne id) (hne id) (fun _ => hguarded.cap) ?_
  intro usdc ls hsplit
  refine executeLegs_avoids (I := SameVaults env p) (fun h hx => h.executeLeg hsteady hx)
    ⟨⟨rfl, rfl⟩, fun _ => rfl, fun _ => rfl⟩ ?_
  intro l hl q ms hq
  exact executeLeg_avoids (hne id) (.inr fun _ _ => hne id)
    (.inl (hq.guarded_iff.mpr (hguarded.legs ls hsplit l hl)))

/-- A deposit that goes through has passed the guards. -/
theorem guarded_of_deposit (hsteady : Steady env) (h : p.deposit env sender amount [] = .ok r) :
    Guarded env p amount := by
  obtain ⟨hcap, usdc, ls, hsplit, hex⟩ := depositTo_split h
  refine ⟨hcap, ?_⟩
  intro ls' hsplit' l hl
  cases hsplit.symm.trans hsplit'
  obtain ⟨q, ms, r', hq, hx⟩ := executeLegs_each (I := SameVaults env p)
    (fun h hx => h.executeLeg hsteady hx) hex ⟨⟨rfl, rfl⟩, fun _ => rfl, fun _ => rfl⟩ l hl
  exact hq.guarded_iff.mp (executeLeg_passed hx).2.1

/-- The leg of the deposit for one of the preview. -/
theorem leg_of_preview {leg : LegPreview} (hpreview : p.previewDeposit env amount = .ok preview)
    (hleg : leg ∈ preview) (hsplit : p.split amount = .ok ls) :
    ∃ l ∈ ls, ∃ weightBps a, leg = p.previewLeg env l.vault weightBps a ∧ a ≤ l.amount := by
  obtain ⟨amounts, rfl, hle⟩ := split_shares hsplit
  rw [previewDeposit_mul hpreview] at hleg
  obtain ⟨x, hx, rfl⟩ := List.mem_map.mp hleg
  obtain ⟨l, hl, hvault, hamount⟩ := (forall_legs hle).1 x hx
  exact ⟨l, hl, x.2, _, by rw [hvault], hamount⟩

/-- The previews that revert go on to. -/
structure SameRefusals (env : RouterEnv V) (p q : RouterState V) : Prop extends Same p q where
  refuses : ∀ v a, env.previewDeposit p.world.ext v a = none → env.previewDeposit q.world.ext v a = none

theorem SameRefusals.executeLeg {r : RouterState V × RouterEvent} (hstandard : Standard env)
    (h : SameRefusals env p q) (hx : q.executeLeg env receiver minShares l = .ok r) :
    SameRefusals env p r.1 := by
  obtain ⟨-, -, -, -, usdc, shares, hdeposit⟩ := executeLeg_passed hx
  exact ⟨h.toSame.executeLeg hx, fun v a hnone => hstandard.stays hdeposit v a (h.refuses v a hnone)⟩

/-- A leg of an inactive vault makes the deposit revert, whatever the vaults do. -/
theorem deposit_reverts_inactive {leg : LegPreview} (hpreview : p.previewDeposit env amount = .ok preview)
    (hleg : leg ∈ preview) (hnot : ¬ IsActive p leg.vault) : p.deposit env sender amount [] ≠ .ok r := by
  intro h
  obtain ⟨-, usdc, ls, hsplit, hex⟩ := depositTo_split h
  obtain ⟨l, hl, weightBps, a, rfl, -⟩ := leg_of_preview hpreview hleg hsplit
  obtain ⟨q, ms, r', hq, hx⟩ := executeLegs_each (I := Same p) (fun h hx => h.executeLeg hx) hex ⟨rfl, rfl⟩ l hl
  obtain ⟨⟨metadata, hactive⟩, -⟩ := executeLeg_passed hx
  refine hnot ⟨metadata, ?_⟩
  rwa [previewLeg_vault, ← hq.registry]

theorem deposit_reverts (hstandard : Standard env) {leg : LegPreview}
    (hpreview : p.previewDeposit env amount = .ok preview) (hleg : leg ∈ preview)
    (hunavailable : leg.unavailable = true) : p.deposit env sender amount [] ≠ .ok r := by
  intro h
  obtain ⟨-, usdc, ls, hsplit, hex⟩ := depositTo_split h
  obtain ⟨l, hl, weightBps, a, rfl, hle⟩ := leg_of_preview hpreview hleg hsplit
  rcases previewLeg_unavailable_iff.mp hunavailable with hnot | hnone
  · exact deposit_reverts_inactive hpreview hleg (previewLeg_vault.symm ▸ hnot) h
  · obtain ⟨q, ms, r', hq, hx⟩ := executeLegs_each (I := SameRefusals env p)
      (fun h hx => h.executeLeg hstandard hx) hex ⟨⟨rfl, rfl⟩, fun _ _ h => h⟩ l hl
    obtain ⟨-, -, -, -, usdc', shares, hdeposit⟩ := executeLeg_passed hx
    exact hstandard.refuses (w := { q.world with usdc := usdc' }) (hq.refuses _ _ hnone) hle _ hdeposit

/-- **What an available preview promises.**  Without an unavailable leg, no deposit of the amount meets an inactive
vault, nor any of the other guards where they pass, as they must; with one, it reverts. -/
theorem preview_forecasts (hpreview : p.previewDeposit env amount = .ok preview) (sender : Address) :
    ((∀ leg ∈ preview, leg.unavailable = false) →
      (∀ v status, p.deposit env sender amount [] ≠ .error (.custom (.vaultNotActive v status))) ∧
      (Steady env → Guarded env p amount →
        ∀ e : RouterError, e.IsGuard → p.deposit env sender amount [] ≠ .error (.custom e))) ∧
    (Steady env → (∃ r, p.deposit env sender amount [] = .ok r) → Guarded env p amount) ∧
    ((∃ leg ∈ preview, leg.unavailable = true ∧ (Standard env ∨ ¬ IsActive p leg.vault)) →
      ∀ r, p.deposit env sender amount [] ≠ .ok r) := by
  refine ⟨?_, ?_, ?_⟩
  · intro havailable
    exact ⟨deposit_avoids_inactive hpreview havailable,
      fun hsteady hguarded _ he => deposit_avoids_guards hsteady hguarded he⟩
  · rintro hsteady ⟨r, hr⟩
    exact guarded_of_deposit hsteady hr
  · rintro ⟨leg, hleg, hunavailable, hstandard | hnot⟩ r
    · exact deposit_reverts hstandard hpreview hleg hunavailable
    · exact deposit_reverts_inactive hpreview hleg hnot

end Forecast

/-- The mock vaults, but that the vault `13` refuses every deposit. -/
def refusingVaults : RouterEnv (Address → Address → ℕ) :=
  { mockVaults 1 2 with
    previewDeposit := fun _ v assets => if v = 13 then none else some assets
    deposit := fun w v caller assets receiver =>
      if v = 13 then .error .innerCall else (mockVaults 1 2).deposit w v caller assets receiver }

theorem refusingVaults_standard : Standard refusingVaults := by
  refine ⟨?_, fun _ _ _ h => h⟩
  intro w v caller a b receiver hnone _ r hr
  by_cases hv : v = 13
  · subst hv
    cases hr
  · simp [refusingVaults, hv] at hnone

/-- A router with its weight on two vaults, of which the second refuses. -/
def refusedRouter : RouterState (Address → Address → ℕ) :=
  { weightedRouter with
    router := { weightedRouter.router with defaultWeightVaultList := [10, 13] }
    registry := { weightedRouter.registry with
      registered := fun a => decide (a = 10 ∨ a = 13)
      routerEligible := fun a => decide (a = 10 ∨ a = 13) } }

/-- The leg of the vault that refuses is unavailable, and the deposit reverts. -/
theorem preview_forecasts_refusal :
    ¬ ∃ r, refusedRouter.deposit refusingVaults 4 10000 [] = .ok r := by
  rintro ⟨r, hr⟩
  have hpreview : refusedRouter.previewDeposit refusingVaults 10000 =
      .ok [⟨10, 3333, 3333, 3333, false⟩, ⟨13, 6667, 6667, 0, true⟩] := by decide
  have hleg : (⟨13, 6667, 6667, 0, true⟩ : LegPreview) ∈
      [⟨10, 3333, 3333, 3333, false⟩, (⟨13, 6667, 6667, 0, true⟩ : LegPreview)] := by simp
  exact (preview_forecasts hpreview 4).2.2 ⟨_, hleg, rfl, .inl refusingVaults_standard⟩ r hr

/-- A preview of two active vaults, of more than the router takes at a time. -/
theorem preview_omits_cap :
    let p : RouterState (Address → Address → ℕ) :=
      { weightedRouter with router := { weightedRouter.router with routerCap := 5000 } }
    weightedRouter.exec (mockVaults 1 2) 3 (.setRouterCap 5000) = .ok (p, [.routerCapSet 0 5000]) ∧
      p.previewDeposit (mockVaults 1 2) 10000 =
        .ok [⟨10, 3333, 3333, 3333, false⟩, ⟨11, 6667, 6667, 6667, false⟩] ∧
      10000 ≤ p.world.usdc.balanceOf 4 ∧ 10000 ≤ p.world.usdc.allowance 4 1 ∧
      p.deposit (mockVaults 1 2) 4 10000 [] = .error (.custom .routerCapExceeded) := by
  refine ⟨rfl, by decide, by decide, by decide, ?_⟩
  exact reason_eq_some.mp (by decide)

end RouterState

end RobotMoney.Portfolio
