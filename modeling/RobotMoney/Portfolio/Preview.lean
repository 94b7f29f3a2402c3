import RobotMoney.Portfolio.Conservation

/-!
# What the router's preview leaves out

`previewDeposit` and `_depositTo` compute the split in two loops of their own.  Both round every leg down; the deposit
then adds what the rounding left over to the last leg, and the preview does not.  What a deposit sends is in its
events, one for each leg; the preview reports them exactly when nothing is left over (`preview_exact_iff`).
-/

namespace RobotMoney.Portfolio

open RobotMoney.Lib

variable {V : Type}

namespace RouterState

variable {env : RouterEnv V} {p p' : RouterState V} {sender receiver : Address} {amount : ℕ}
  {minShares : List ℕ} {events : List RouterEvent}

/-! ### What a deposit sends -/

/-- The event of a leg that was executed: its vault is active. -/
def Sent (p : RouterState V) (receiver : Address) (l : Leg) (e : RouterEvent) : Prop :=
  (∃ minted, e = .routerDeposit receiver l.vault l.amount minted l.weightBps) ∧
    ∃ metadata, p.registry.getVault l.vault = .ok (metadata, .active)

theorem executeLeg_sent {l : Leg} {e : RouterEvent} (h : p.executeLeg env receiver minShares l = .ok (p', e)) :
    p'.registry = p.registry ∧ Sent p receiver l e := by
  unfold executeLeg at h
  simp only [bind_eq_ok, inner_eq_ok, revertIf_eq_ok, not_not, pure_eq_ok, Prod.exists, Prod.mk.injEq] at h
  obtain ⟨metadata, status, hvault, _, rfl, _, -, _, -, usdc, -, w, minted, -, _, -, rfl, rfl⟩ := h
  exact ⟨rfl, ⟨minted, rfl⟩, metadata, hvault⟩

/-- One event for each leg. -/
theorem executeLegs_sent {ls : List Leg} (h : executeLegs env receiver p ls minShares = .ok (p', events)) :
    List.Forall₂ (Sent p receiver) ls events := by
  induction ls generalizing p minShares events with
  | nil =>
    cases h
    exact .nil
  | cons l ls ih =>
    unfold executeLegs at h
    simp only [bind_eq_ok, pure_eq_ok, Prod.exists, Prod.mk.injEq] at h
    obtain ⟨p₁, e, h₁, p₂, rest, h₂, rfl, rfl⟩ := h
    obtain ⟨hregistry, hsent⟩ := executeLeg_sent h₁
    refine .cons hsent ((ih h₂).imp ?_)
    intro l' e' hsent'
    unfold Sent at hsent' ⊢
    rwa [hregistry] at hsent'

/-- The shares of the amount, rounded down. -/
def floors (p : RouterState V) (amount : ℕ) : List ℕ :=
  shares amount bpsDenominator (effectiveWeights p.router).2

/-- A deposit sends the shares, with what is left over on the last. -/
theorem depositTo_sent (h : p.depositTo env sender receiver amount minShares = .ok (p', events)) :
    (∀ w ∈ (effectiveWeights p.router).2, amount * w < wordSize) ∧
      ∃ amounts, assignRemainder (p.floors amount) (p.floors amount).sum amount = .ok amounts ∧
        List.Forall₂ (Sent p receiver) (legs (effectiveWeights p.router).1 (effectiveWeights p.router).2 amounts)
          events := by
  unfold depositTo at h
  simp only [bind_eq_ok, pure_eq_ok, Prod.exists] at h
  obtain ⟨_, -, _, -, usdc, -, _, -, fl, total, hfl, amounts, ham, p₁, ev, hex, _, -, h⟩ := h
  cases h
  obtain ⟨hmul, rfl, rfl⟩ := legAmounts_eq_ok hfl
  rw [Nat.zero_add] at ham
  exact ⟨hmul, amounts, ham, (executeLegs_sent hex).imp fun _ _ hsent => hsent⟩

theorem addToLast_sum : ∀ {l l' : List ℕ} {d : ℕ}, addToLast l d = .ok l' →
    l'.length = l.length ∧ l'.sum = l.sum + d := by
  intro l l' d h
  obtain ⟨front, last, rfl, rfl⟩ := addToLast_eq_ok h
  refine ⟨by simp, ?_⟩
  simp only [List.sum_append, List.sum_singleton]
  omega

/-- The remainder is what the sum of the shares falls short by. -/
theorem assignRemainder_spec {fl amounts : List ℕ} (h : assignRemainder fl fl.sum amount = .ok amounts) :
    amounts.length = fl.length ∧ (amounts = fl ↔ amount ≤ fl.sum) := by
  unfold assignRemainder at h
  split at h
  · rename_i hshort
    obtain ⟨hlen, hsum⟩ := addToLast_sum h
    refine ⟨hlen, iff_of_false ?_ (Nat.not_le.mpr hshort)⟩
    rintro rfl
    omega
  · rename_i henough
    cases h
    exact ⟨rfl, iff_of_true rfl (Nat.le_of_not_lt henough)⟩

/-! ### What the preview reports -/

theorem previewDeposit_go : ∀ {vaults : List Address} {bps : List ℕ}, (∀ w ∈ bps, amount * w < wordSize) →
    previewDeposit.go env p amount vaults bps =
      .ok ((vaults.zip bps).map fun x => p.previewLeg env x.1 x.2 (share amount bpsDenominator x.2))
  | [], _, _ => by
    unfold previewDeposit.go
    rfl
  | _ :: _, [], _ => by
    unfold previewDeposit.go
    rfl
  | v :: vs, w :: ws, h => by
    obtain ⟨hw, hws⟩ := List.forall_mem_cons.mp h
    unfold previewDeposit.go
    rw [mulU_eq_ok.mpr ⟨hw, rfl⟩, ok_bind, previewDeposit_go hws]
    rfl

/-- A leg of the preview reports what was sent, and the shares the vault previews for it. -/
def Reports (env : RouterEnv V) (p : RouterState V) (leg : LegPreview) : RouterEvent → Prop
  | .routerDeposit _ vault amount _ weightBps =>
    leg.vault = vault ∧ leg.weightBps = weightBps ∧ leg.legAmount = amount ∧
      ∀ n, env.previewDeposit p.world.ext vault amount = some n → leg.estShares = n ∧ leg.unavailable = false
  | _ => False

/-- The preview of an amount reports what was sent, leg by leg. -/
def PreviewExact (env : RouterEnv V) (p : RouterState V) (amount : ℕ) (events : List RouterEvent) : Prop :=
  ∃ preview, p.previewDeposit env amount = .ok preview ∧ List.Forall₂ (Reports env p) preview events

@[simp] theorem previewLeg_legAmount {vault : Address} {weightBps a : ℕ} :
    (p.previewLeg env vault weightBps a).legAmount = a := by
  unfold previewLeg
  split
  · rfl
  · split
    · rfl
    · split <;> rfl

/-- The preview of an active vault. -/
theorem previewLeg_reports {l : Leg} {e : RouterEvent} (h : Sent p receiver l e) :
    Reports env p (p.previewLeg env l.vault l.weightBps l.amount) e := by
  obtain ⟨⟨minted, rfl⟩, metadata, hvault⟩ := h
  unfold previewLeg
  rw [hvault]
  dsimp only
  rw [if_neg (by simp)]
  cases hpreview : env.previewDeposit p.world.ext l.vault l.amount with
  | some n =>
    refine ⟨rfl, rfl, rfl, ?_⟩
    intro n' hn'
    rw [hpreview] at hn'
    exact ⟨Option.some.inj hn', rfl⟩
  | none =>
    refine ⟨rfl, rfl, rfl, ?_⟩
    intro n' hn'
    rw [hpreview] at hn'
    cases hn'

/-- The amounts of a preview that reports what was sent. -/
theorem amounts_of_reports {preview : List LegPreview} {ls : List Leg}
    (hreports : List.Forall₂ (Reports env p) preview events) (hsent : List.Forall₂ (Sent p receiver) ls events) :
    preview.map LegPreview.legAmount = ls.map Leg.amount := by
  induction hreports generalizing ls with
  | nil =>
    cases hsent
    rfl
  | cons hreport _ ih =>
    cases hsent with
    | cons hleg hrest =>
      obtain ⟨⟨minted, rfl⟩, -⟩ := hleg
      rw [List.map_cons, List.map_cons, ih hrest, hreport.2.2.1]

/-- Where nothing is left over, the legs are the shares. -/
theorem legs_shares : ∀ {vaults : List Address} {bps : List ℕ},
    legs vaults bps (shares amount bpsDenominator bps) =
      (vaults.zip bps).map fun x => ⟨x.1, x.2, share amount bpsDenominator x.2⟩
  | [], _ => by simp [legs]
  | _ :: _, [] => by simp [legs]
  | v :: vs, w :: ws => by
    have ih : legs vs ws (shares amount bpsDenominator ws) = _ := legs_shares
    unfold legs at ih ⊢
    simp only [shares_cons, List.zip_cons_cons, List.map_cons, ih]

/-- **When the preview is exact.**  The preview of an amount reports what a deposit of it in the same state sends if
and only if the legs rounded down sum to the amount, so that nothing is left over for the last of them. -/
theorem preview_exact_iff (hlen : (effectiveWeights p.router).1.length = (effectiveWeights p.router).2.length)
    (h : p.deposit env sender amount minShares = .ok (p', events)) :
    PreviewExact env p amount events ↔
      amount ≤ ((effectiveWeights p.router).2.map fun w => amount * w / 10000).sum := by
  change _ ↔ amount ≤ (p.floors amount).sum
  obtain ⟨hmul, amounts, hamounts, hsent⟩ := depositTo_sent h
  obtain ⟨hcount, hwhole⟩ := assignRemainder_spec hamounts
  have hpreview : p.previewDeposit env amount = _ := previewDeposit_go hmul
  rw [← hwhole]
  constructor
  · rintro ⟨preview, hok, hreports⟩
    obtain rfl := Except.ok.inj (hpreview.symm.trans hok)
    have heq := amounts_of_reports hreports hsent
    rw [legs_amounts hlen (hcount.trans length_shares), List.map_map] at heq
    have hfloors : ((effectiveWeights p.router).1.zip (effectiveWeights p.router).2).map
        (LegPreview.legAmount ∘ fun x => p.previewLeg env x.1 x.2 (share amount bpsDenominator x.2)) =
        p.floors amount := by
      unfold floors Lib.shares
      conv_rhs => rw [← List.map_snd_zip hlen.ge, List.map_map]
      refine List.map_congr_left ?_
      intro x _
      exact previewLeg_legAmount
    exact heq.symm.trans hfloors
  · rintro rfl
    refine ⟨_, hpreview, ?_⟩
    unfold floors at hsent
    rw [legs_shares, List.forall₂_map_left_iff] at hsent
    rw [List.forall₂_map_left_iff]
    exact hsent.imp fun x e hleg => previewLeg_reports hleg

/-- In every reachable state the effective vector has as many weights as vaults: the setters check it. -/
theorem Reachable.effective_length (henv : SpendsAllowanceOnly env) (hp : Reachable env p) :
    (effectiveWeights p.router).1.length = (effectiveWeights p.router).2.length :=
  (hp.inv henv).effective_length

/-- Ten thousand units are split evenly. -/
theorem preview_exact_iff_whole : ∃ p' events,
    weightedRouter.deposit (mockVaults 1 2) 4 10000 [] = .ok (p', events) ∧
      PreviewExact (mockVaults 1 2) weightedRouter 10000 events := by
  obtain ⟨⟨p', events⟩, h⟩ := succeeds_iff.mp
    (show succeeds (weightedRouter.deposit (mockVaults 1 2) 4 10000 []) = true by decide)
  have hlen := weightedRouter_reachable.effective_length (mockVaults_spends 1 2)
  exact ⟨p', events, h, (preview_exact_iff hlen h).mpr (by decide)⟩

/-- With one unit more, the last vault gets a unit that the preview does not report. -/
theorem preview_omits_remainder :
    weightedRouter.previewDeposit (mockVaults 1 2) 10001 =
        .ok [⟨10, 3333, 3333, 3333, false⟩, ⟨11, 6667, 6667, 6667, false⟩] ∧
      ∃ p' events, weightedRouter.deposit (mockVaults 1 2) 4 10001 [] = .ok (p', events) ∧
        events = [.routerDeposit 4 10 3333 3333 3333, .routerDeposit 4 11 6668 6668 6667] ∧
        ¬ PreviewExact (mockVaults 1 2) weightedRouter 10001 events := by
  have hpreview : weightedRouter.previewDeposit (mockVaults 1 2) 10001 =
      .ok [⟨10, 3333, 3333, 3333, false⟩, ⟨11, 6667, 6667, 6667, false⟩] := by decide
  have hevents : (weightedRouter.deposit (mockVaults 1 2) 4 10001 []).map Prod.snd =
      .ok [.routerDeposit 4 10 3333 3333 3333, .routerDeposit 4 11 6668 6668 6667] := by decide
  refine ⟨hpreview, ?_⟩
  rcases h : weightedRouter.deposit (mockVaults 1 2) 4 10001 [] with e | ⟨p', events⟩
  · rw [h] at hevents
    cases hevents
  · rw [h] at hevents
    obtain rfl := Except.ok.inj hevents
    refine ⟨p', _, rfl, rfl, ?_⟩
    rintro ⟨preview, hok, hreports⟩
    obtain rfl := Except.ok.inj (hpreview.symm.trans hok)
    obtain ⟨-, hrest⟩ := List.forall₂_cons.mp hreports
    obtain ⟨hlast, -⟩ := List.forall₂_cons.mp hrest
    exact absurd hlast.2.2.1 (by decide)

end RouterState

end RobotMoney.Portfolio
