import RobotMoney.Portfolio.Router

/-!
# The router passes on exactly what it takes

Two results about every reachable state of the router.

* `Inv`: each weight vector is empty or complete, and the router has given no allowance.  The setters
  keep it because they add the weights up before they store them; a deposit keeps it because it ends
  with every allowance used up.
* A deposit of `amount` by a vector of `n` legs pays the vaults the shares of `amount` rounded down, the
  last leg with the dust on top (`amounts_spec`), and leaves the router with no USDC and no allowance.

The vaults are not assumed to be honest.  All that is assumed is the rule of the USDC ledger
(`SpendsAllowanceOnly`): whatever a vault does during its `deposit`, the router loses no more than the
allowance the vault had, and the allowance falls by what was taken.  That every vault takes its whole
leg is then forced by the custody check at the end (`executeLegs_exact`).
-/

namespace RobotMoney.Portfolio

open RobotMoney.Lib

variable {V : Type}

/-! ### What the setters accept -/

/-- A complete weight vector: as many weights as vaults, summing to `BPS_DENOMINATOR`. -/
def Complete (vaults : List Address) (bps : List ℕ) : Prop :=
  vaults.length = bps.length ∧ bps.sum = bpsDenominator

namespace RouterState

variable {env : RouterEnv V} {p p' : RouterState V} {sender receiver : Address}
  {events : List RouterEvent}

theorem sumWeights_eq_ok : ∀ {vs : List Address} {ws : List ℕ} {total c : ℕ},
    vs.length = ws.length → p.sumWeights env vs ws total = .ok c → c = total + ws.sum
  | [], [], total, c, _, h => by
    unfold sumWeights at h
    cases h
    simp
  | v :: vs, w :: ws, total, c, hl, h => by
    unfold sumWeights at h
    simp only [bind_eq_ok, addU_eq_ok] at h
    obtain ⟨-, -, -, -, -, -, t, ⟨-, rfl⟩, hr⟩ := h
    have := sumWeights_eq_ok (by simpa using hl) hr
    rw [this, List.sum_cons]
    omega

theorem setWeights_ok {vaults : List Address} {bps : List ℕ}
    (h : p.setWeights env sender vaults bps = .ok (p', events)) :
    Complete vaults bps ∧ p' = { p with router := { p.router with
      weightVaultList := vaults, weightBps := bps, votedWeightsActive := true } } := by
  unfold setWeights at h
  simp only [bind_eq_ok, revertIf_eq_ok, exists_const, pure_eq_ok, Prod.mk.injEq, not_not] at h
  obtain ⟨-, -, hl, t, ht, hsum, rfl, -⟩ := h
  refine ⟨⟨hl, ?_⟩, rfl⟩
  rw [sumWeights_eq_ok hl ht] at hsum
  omega

theorem setDefaultWeights_ok {vaults : List Address} {bps : List ℕ}
    (h : p.setDefaultWeights env sender vaults bps = .ok (p', events)) :
    Complete vaults bps ∧ p' = { p with router := { p.router with
      defaultWeightVaultList := vaults, defaultWeightBps := bps } } := by
  unfold setDefaultWeights at h
  simp only [bind_eq_ok, revertIf_eq_ok, exists_const, pure_eq_ok, Prod.mk.injEq, not_not] at h
  obtain ⟨-, -, hl, -, t, ht, hsum, rfl, -⟩ := h
  refine ⟨⟨hl, ?_⟩, rfl⟩
  rw [sumWeights_eq_ok hl ht] at hsum
  omega

/-! ### The leg amounts -/

theorem legAmounts_eq_ok : ∀ {ws : List ℕ} {amount acc total : ℕ} {ls : List ℕ},
    legAmounts amount ws acc = .ok (ls, total) →
      (∀ w ∈ ws, amount * w < wordSize) ∧ ls = shares amount bpsDenominator ws ∧
        total = acc + ls.sum
  | [], amount, acc, total, ls, h => by
    unfold legAmounts at h
    cases h
    simp
  | w :: ws, amount, acc, total, ls, h => by
    unfold legAmounts at h
    simp only [bind_eq_ok, mulU_eq_ok, addU_eq_ok, pure_eq_ok, Prod.mk.injEq, Prod.exists] at h
    obtain ⟨m, ⟨hm, rfl⟩, a, ⟨-, rfl⟩, rest, t, hr, rfl, rfl⟩ := h
    obtain ⟨hw, rfl, rfl⟩ := legAmounts_eq_ok hr
    refine ⟨?_, rfl, ?_⟩
    · intro x hx
      rcases List.mem_cons.mp hx with rfl | hx
      · exact hm
      · exact hw x hx
    · rw [List.sum_cons]
      omega

theorem addToLast_eq_ok : ∀ {l l' : List ℕ} {d : ℕ}, addToLast l d = .ok l' →
    ∃ front last, l = front ++ [last] ∧ l' = front ++ [last + d]
  | [], l', d, h => by
    unfold addToLast at h
    cases h
  | [a], l', d, h => by
    unfold addToLast at h
    simp only [bind_eq_ok, addU_eq_ok, pure_eq_ok] at h
    obtain ⟨b, ⟨-, rfl⟩, rfl⟩ := h
    exact ⟨[], a, rfl, rfl⟩
  | a :: b :: l, l', d, h => by
    unfold addToLast at h
    simp only [bind_eq_ok, pure_eq_ok] at h
    obtain ⟨rest, hr, rfl⟩ := h
    obtain ⟨front, last, hl, rfl⟩ := addToLast_eq_ok hr
    exact ⟨a :: front, last, by rw [hl]; rfl, rfl⟩

/-- **What a split of `amount` by the weights `bps` is.**  Every leg but the last is its share rounded
down; the last exceeds its own share by the dust, which is less than the number of legs; all legs sum to
the amount. -/
structure Split (amount : ℕ) (bps amounts : List ℕ) (front : List ℕ) (wLast last : ℕ) : Prop where
  bps_eq : bps = front ++ [wLast]
  amounts_eq : amounts = front.map (fun w => amount * w / bpsDenominator) ++ [last]
  floor_le : amount * wLast / bpsDenominator ≤ last
  last_lt : last < amount * wLast / bpsDenominator + bps.length
  sum_eq : amounts.sum = amount

/-- The leg amounts of a deposit: the loop, and the dust added to the last leg. -/
theorem amounts_spec {amount total : ℕ} {bps floors amounts : List ℕ} (hsum : bps.sum = bpsDenominator)
    (hl : legAmounts amount bps 0 = .ok (floors, total))
    (ha : assignRemainder floors total amount = .ok amounts) :
    ∃ front wLast last, Split amount bps amounts front wLast last := by
  obtain ⟨-, rfl, rfl⟩ := legAmounts_eq_ok hl
  rw [Nat.zero_add] at ha
  unfold assignRemainder at ha
  have hne : bps ≠ [] := by
    rintro rfl
    simp [bpsDenominator] at hsum
  have hD : 0 < bpsDenominator := by decide
  have hle : (shares amount bpsDenominator bps).sum ≤ amount := shares_sum_le hD hsum.le
  have hlt := lt_shares_sum_add_length (x := amount) hD hne hsum
  obtain ⟨front, wLast, rfl⟩ := List.eq_nil_or_concat' bps |>.resolve_left hne
  have hsh : shares amount bpsDenominator (front ++ [wLast]) =
      shares amount bpsDenominator front ++ [share amount bpsDenominator wLast] := by
    simp [shares]
  rw [hsh] at ha hle hlt
  simp only [List.sum_append, List.sum_singleton] at ha hle hlt
  split at ha
  · obtain ⟨fr, la, he, rfl⟩ := addToLast_eq_ok ha
    obtain ⟨rfl, he'⟩ := List.append_inj' he rfl
    obtain rfl : share amount bpsDenominator wLast = la := by simpa using he'
    refine ⟨front, wLast, _, rfl, rfl, Nat.le_add_right _ _, ?_, ?_⟩
    · change share amount bpsDenominator wLast + _ < share amount bpsDenominator wLast + _
      omega
    · simp only [List.sum_append, List.sum_singleton]
      omega
  · cases ha
    refine ⟨front, wLast, _, rfl, rfl, le_rfl, ?_, ?_⟩
    · simp [share]
    · simp only [List.sum_append, List.sum_singleton]
      omega

theorem shares_sum_of_le_one {x D : ℕ} : ∀ {ws : List ℕ}, (∀ w ∈ ws, w ≤ 1) →
    (shares x D ws).sum = ws.sum * (x / D)
  | [], _ => by simp
  | w :: ws, h => by
    have ih := shares_sum_of_le_one (x := x) (D := D) fun u hu => h u (List.mem_cons_of_mem _ hu)
    have hw : w = 0 ∨ w = 1 := by
      have := h w (List.mem_cons_self ..)
      omega
    rcases hw with rfl | rfl
    · simp [share, ih]
    · simp [share, ih, Nat.add_mul]

/-- No leg is the unlimited allowance: a weight above one bounds the amount, and with all weights at
most one there are ten thousand legs to share it. -/
theorem Split.lt_maxWord {amount wLast last : ℕ} {bps amounts front : List ℕ}
    (h : Split amount bps amounts front wLast last) (hsum : bps.sum = bpsDenominator)
    (hmul : ∀ w ∈ bps, amount * w < wordSize) (hamount : amount < wordSize) :
    ∀ a ∈ amounts, a < maxWord := by
  intro a ha
  have hle : a ≤ amount := h.sum_eq ▸ List.le_sum_of_mem ha
  by_cases hw : ∃ w ∈ bps, 2 ≤ w
  · obtain ⟨w, hmem, hw⟩ := hw
    have h₁ : amount * 2 ≤ amount * w := Nat.mul_le_mul_left amount hw
    have h₂ := hmul w hmem
    unfold wordSize at h₂
    unfold maxWord
    omega
  · have hone : ∀ w ∈ bps, w ≤ 1 := fun w hmem => by
      by_contra hlt
      exact hw ⟨w, hmem, by omega⟩
    have hfront : ∀ w ∈ front, w ≤ 1 := fun w hmem => hone w (by simp [h.bps_eq, hmem])
    have hlast : wLast ≤ 1 := hone wLast (by simp [h.bps_eq])
    have hs := shares_sum_of_le_one (x := amount) (D := bpsDenominator) hfront
    have hfs : front.sum + wLast = bpsDenominator := by
      rw [← hsum, h.bps_eq, List.sum_append, List.sum_singleton]
    have htot := h.sum_eq
    rw [h.amounts_eq, List.sum_append, List.sum_singleton] at htot
    change (shares amount bpsDenominator front).sum + last = amount at htot
    rw [hs] at htot
    have hq : 9999 * (amount / bpsDenominator) ≤ front.sum * (amount / bpsDenominator) :=
      Nat.mul_le_mul_right _ (by unfold bpsDenominator at hfs; omega)
    rw [h.amounts_eq, List.mem_append, List.mem_map, List.mem_singleton] at ha
    unfold wordSize at hamount
    unfold maxWord
    rcases ha with ⟨w, hmem, rfl⟩ | rfl
    · have h₁ : amount * w ≤ amount * 1 := Nat.mul_le_mul_left amount (hfront w hmem)
      have h₂ : amount * w / bpsDenominator ≤ amount * 1 / bpsDenominator :=
        Nat.div_le_div_right h₁
      unfold bpsDenominator at h₂ ⊢
      omega
    · unfold bpsDenominator at hq htot
      omega

/-! ### Paying the legs -/

/-- **The rule of the USDC ledger, seen from the router.**  During a `deposit` on a vault the router
loses at most the allowance that vault has, the allowance falls by what was taken, and the router's other
allowances stay.  (An unlimited allowance is not used up; none is ever given.) -/
def SpendsAllowanceOnly (env : RouterEnv V) : Prop :=
  ∀ (w w' : World V) (vault : Address) (assets : ℕ) (receiver : Address) (shares : ℕ),
    w.usdc.allowance env.self vault < maxWord →
    env.deposit w vault env.self assets receiver = .ok (w', shares) →
    ∃ taken returned,
      w'.usdc.balanceOf env.self + taken = w.usdc.balanceOf env.self + returned ∧
      w'.usdc.allowance env.self vault + taken = w.usdc.allowance env.self vault ∧
      ∀ s, s ≠ vault → w'.usdc.allowance env.self s = w.usdc.allowance env.self s

/-- The router has given no allowance. -/
def NoAllowance (env : RouterEnv V) (w : World V) : Prop :=
  ∀ s, w.usdc.allowance env.self s = 0

/-- The legs are paid one after the other, each of them its whole amount: every vault is approved for
its leg, called, and leaves the router with exactly that much less. -/
inductive PaysOut (env : RouterEnv V) (receiver : Address) : World V → List Leg → World V → Prop
  | nil (w : World V) : PaysOut env receiver w [] w
  | cons {w w₁ w' : World V} {usdc : Token Address} {l : Leg} {ls : List Leg} {shares : ℕ}
      (approved : (w.usdc.approve env.self l.vault l.amount : Call RouterError _) = .ok usdc)
      (called : env.deposit { w with usdc } l.vault env.self l.amount receiver = .ok (w₁, shares))
      (paid : w₁.usdc.balanceOf env.self + l.amount = w.usdc.balanceOf env.self)
      (rest : PaysOut env receiver w₁ ls w') : PaysOut env receiver w (l :: ls) w'

/-- The total amount of a list of legs. -/
def legTotal (ls : List Leg) : ℕ := (ls.map Leg.amount).sum

theorem executeLeg_ok {minShares : List ℕ} {l : Leg} {event : RouterEvent}
    (h : p.executeLeg env receiver minShares l = .ok (p', event)) :
    ∃ usdc w' shares, (p.world.usdc.approve env.self l.vault l.amount : Call RouterError _) = .ok usdc ∧
      env.deposit { p.world with usdc } l.vault env.self l.amount receiver = .ok (w', shares) ∧
      p' = { p with world := w' } := by
  unfold executeLeg at h
  simp only [bind_eq_ok, revertIf_eq_ok, exists_const, pure_eq_ok, inner_eq_ok, Prod.exists,
    Prod.mk.injEq] at h
  obtain ⟨-, -, -, -, -, -, -, usdc, ha, w', shares, hd, -, rfl, -⟩ := h
  exact ⟨usdc, w', shares, ha, hd, rfl⟩

/-- One leg, on the router's ledger entries: it loses at most the leg; and if it loses all of it and had
given no allowance before, it has given none after. -/
theorem executeLeg_ledger (henv : SpendsAllowanceOnly env) {minShares : List ℕ} {l : Leg}
    {event : RouterEvent} (hl : l.amount < maxWord)
    (h : p.executeLeg env receiver minShares l = .ok (p', event)) :
    p.world.usdc.balanceOf env.self ≤ p'.world.usdc.balanceOf env.self + l.amount ∧
      (NoAllowance env p.world →
        p'.world.usdc.balanceOf env.self + l.amount = p.world.usdc.balanceOf env.self →
          NoAllowance env p'.world) := by
  obtain ⟨usdc, w', shares, ha, hd, rfl⟩ := executeLeg_ok h
  obtain ⟨-, -, rfl⟩ := Token.approve_eq_ok.mp ha
  have hlt : (World.mk (p.world.usdc.setAllowance env.self l.vault l.amount) p.world.ext).usdc.allowance
      env.self l.vault < maxWord := by
    simpa using hl
  obtain ⟨taken, returned, hbal, hall, hother⟩ := henv _ _ _ _ _ _ hlt hd
  simp only [Token.setAllowance_balanceOf, Token.setAllowance_allowance_self] at hbal hall
  refine ⟨by simp only; omega, fun hno hpaid s => ?_⟩
  simp only at hpaid ⊢
  by_cases hs : s = l.vault
  · subst hs
    omega
  · rw [hother s hs, Token.setAllowance_allowance_of_ne _ _ (Or.inr hs)]
    exact hno s

theorem executeLegs_cons {l : Leg} {ls : List Leg} {minShares : List ℕ}
    (h : executeLegs env receiver p (l :: ls) minShares = .ok (p', events)) :
    ∃ p₁ event rest, p.executeLeg env receiver minShares l = .ok (p₁, event) ∧
      executeLegs env receiver p₁ ls minShares.tail = .ok (p', rest) := by
  unfold executeLegs at h
  simp only [bind_eq_ok, Prod.exists] at h
  obtain ⟨p₁, event, h₁, p₂, rest, h₂, h₃⟩ := h
  obtain ⟨rfl, -⟩ := Prod.mk.injEq .. ▸ pure_eq_ok.mp h₃
  exact ⟨p₁, event, rest, h₁, h₂⟩

/-- The legs take at most their total. -/
theorem executeLegs_le (henv : SpendsAllowanceOnly env) : ∀ {ls : List Leg} {p p' : RouterState V}
    {minShares : List ℕ} {events : List RouterEvent}, (∀ l ∈ ls, l.amount < maxWord) →
    executeLegs env receiver p ls minShares = .ok (p', events) →
    p.world.usdc.balanceOf env.self ≤ p'.world.usdc.balanceOf env.self + legTotal ls
  | [], p, p', minShares, events, _, h => by
    unfold executeLegs at h
    cases h
    simp [legTotal]
  | l :: ls, p, p', minShares, events, hlt, h => by
    obtain ⟨p₁, event, rest, h₁, h₂⟩ := executeLegs_cons h
    have hleg := (executeLeg_ledger henv (hlt l (List.mem_cons_self ..)) h₁).1
    have hrest := executeLegs_le henv (fun l' h' => hlt l' (List.mem_cons_of_mem _ h')) h₂
    simp only [legTotal, List.map_cons, List.sum_cons] at hrest ⊢
    omega

/-- **The custody argument.**  If the router starts the legs with at least their total and ends with
nothing, then every vault took exactly its leg, and no allowance is left. -/
theorem executeLegs_exact (henv : SpendsAllowanceOnly env) : ∀ {ls : List Leg}
    {p p' : RouterState V} {minShares : List ℕ} {events : List RouterEvent},
    (∀ l ∈ ls, l.amount < maxWord) → NoAllowance env p.world →
    executeLegs env receiver p ls minShares = .ok (p', events) →
    legTotal ls ≤ p.world.usdc.balanceOf env.self → p'.world.usdc.balanceOf env.self = 0 →
    PaysOut env receiver p.world ls p'.world ∧ NoAllowance env p'.world ∧ p'.router = p.router
  | [], p, p', minShares, events, _, hno, h, _, _ => by
    unfold executeLegs at h
    cases h
    exact ⟨.nil _, hno, rfl⟩
  | l :: ls, p, p', minShares, events, hlt, hno, h, hge, hzero => by
    obtain ⟨p₁, event, rest, h₁, h₂⟩ := executeLegs_cons h
    have hlt' : ∀ l' ∈ ls, l'.amount < maxWord := fun l' h' => hlt l' (List.mem_cons_of_mem _ h')
    obtain ⟨hleg, hnext⟩ := executeLeg_ledger henv (hlt l (List.mem_cons_self ..)) h₁
    have hrest := executeLegs_le henv hlt' h₂
    have htot : legTotal (l :: ls) = l.amount + legTotal ls := by simp [legTotal]
    -- the rest of the legs cannot take more than their total, so this one took all of its own
    have hpaid : p₁.world.usdc.balanceOf env.self + l.amount = p.world.usdc.balanceOf env.self := by
      omega
    obtain ⟨hpays, hno', hr⟩ :=
      executeLegs_exact henv hlt' (hnext hno hpaid) h₂ (by omega) hzero
    obtain ⟨usdc, w', shares, ha, hd, rfl⟩ := executeLeg_ok h₁
    exact ⟨.cons ha hd hpaid hpays, hno', hr⟩

/-! ### A deposit -/

theorem legs_amounts {vaults : List Address} {bps amounts : List ℕ} (h₁ : vaults.length = bps.length)
    (h₂ : amounts.length = bps.length) : (legs vaults bps amounts).map Leg.amount = amounts := by
  unfold legs
  rw [List.map_map]
  change (vaults.zip (bps.zip amounts)).map (Prod.snd ∘ Prod.snd) = amounts
  rw [← List.map_map, List.map_snd_zip (by simp; omega), List.map_snd_zip (by omega)]

/-- The legs of a split sum to the amount. -/
theorem Split.legTotal_eq {amount wLast last : ℕ} {vaults : List Address} {bps amounts front : List ℕ}
    (h : Split amount bps amounts front wLast last) (hlen : vaults.length = bps.length) :
    legTotal (legs vaults bps amounts) = amount := by
  have hamounts : amounts.length = bps.length := by
    rw [h.amounts_eq, h.bps_eq]
    simp
  unfold legTotal
  rw [legs_amounts hlen hamounts, h.sum_eq]

/-- What a deposit of `amount` for `receiver` by the effective vector of `p` has done when it leaves the
state `p'`: the amount taken from `sender` is split over the vaults and paid out, and nothing of it, no
USDC and no allowance, stays with the router. -/
structure Conserves (env : RouterEnv V) (p : RouterState V) (sender receiver : Address)
    (amount : ℕ) (p' : RouterState V) : Prop where
  split : ∃ amounts front wLast last taken,
    Split amount (effectiveWeights p.router).2 amounts front wLast last ∧
    (p.world.usdc.transferFrom env.self sender env.self amount : Call RouterError _) = .ok taken ∧
    PaysOut env receiver { p.world with usdc := taken }
      (legs (effectiveWeights p.router).1 (effectiveWeights p.router).2 amounts) p'.world
  balance : p'.world.usdc.balanceOf env.self = 0
  allowance : NoAllowance env p'.world

theorem depositTo_conserves (henv : SpendsAllowanceOnly env) {amount : ℕ} {minShares : List ℕ}
    (hvec : Complete (effectiveWeights p.router).1 (effectiveWeights p.router).2)
    (hno : NoAllowance env p.world) (hs : sender ≠ env.self)
    (h : p.depositTo env sender receiver amount minShares = .ok (p', events)) :
    Conserves env p sender receiver amount p' ∧ p'.router = p.router := by
  unfold depositTo at h
  simp only [bind_eq_ok, revertIf_eq_ok, exists_const, pure_eq_ok, Prod.exists, Prod.mk.injEq,
    not_not] at h
  obtain ⟨-, -, usdc, htake, -, floors, total, hfl, amounts, ham, p₁, ev, hex, hzero, rfl, -⟩ := h
  obtain ⟨front, wLast, last, hsplit⟩ := amounts_spec hvec.2 hfl ham
  obtain ⟨hmul, -, -⟩ := legAmounts_eq_ok hfl
  obtain ⟨hav, hbal, -⟩ := Token.transferFrom_balances htake
  -- the amount is a balance of the ledger, so it fits a word
  have hamount : amount < wordSize :=
    lt_of_le_of_lt (hav.trans (p.world.usdc.balanceOf_le_supply sender)) p.world.usdc.totalSupply_lt
  have hlen : amounts.length = (effectiveWeights p.router).2.length := by
    rw [hsplit.amounts_eq, hsplit.bps_eq]
    simp
  have hlegs := legs_amounts hvec.1 hlen
  have hmax := hsplit.lt_maxWord hvec.2 hmul hamount
  have htotal := hsplit.legTotal_eq hvec.1
  have hself : usdc.balanceOf env.self = p.world.usdc.balanceOf env.self + amount := by
    rw [hbal, Token.moved_dst hs]
  have hno' : NoAllowance env (World.mk usdc p.world.ext) := fun s => by
    rw [Token.transferFrom_allowance_of_ne htake hs.symm]
    exact hno s
  obtain ⟨hpays, hno₁, hr⟩ := executeLegs_exact henv
    (fun l hl => hmax _ (hlegs ▸ List.mem_map_of_mem hl)) hno' hex (by rw [htotal]; simp; omega) hzero
  exact ⟨⟨⟨amounts, front, wLast, last, usdc, hsplit, htake, hpays⟩, hzero, hno₁⟩, hr⟩

/-- What paying the legs takes from the router. -/
theorem PaysOut.total {w w' : World V} {ls : List Leg} (h : PaysOut env receiver w ls w') :
    w'.usdc.balanceOf env.self + legTotal ls = w.usdc.balanceOf env.self := by
  induction h with
  | nil w => simp [legTotal]
  | cons _ _ paid _ ih =>
    simp only [legTotal, List.map_cons, List.sum_cons] at ih ⊢
    omega

/-- A deposit goes through only where the router held nothing before. -/
theorem Conserves.balance_before {amount : ℕ} (h : Conserves env p sender receiver amount p')
    (hlen : (effectiveWeights p.router).1.length = (effectiveWeights p.router).2.length)
    (hs : sender ≠ env.self) : p.world.usdc.balanceOf env.self = 0 := by
  obtain ⟨amounts, front, wLast, last, taken, hsplit, htake, hpays⟩ := h.split
  obtain ⟨-, hbal, -⟩ := Token.transferFrom_balances htake
  have htotal := hpays.total
  rw [hsplit.legTotal_eq hlen, h.balance] at htotal
  simp only [hbal, Token.moved_dst hs] at htotal
  omega

/-! ### A relation kept by every leg -/

/-- A deposit takes the amount, and runs the legs. -/
theorem depositTo_legs {amount : ℕ} {minShares : List ℕ}
    (h : p.depositTo env sender receiver amount minShares = .ok (p', events)) :
    ∃ usdc amounts,
      (p.world.usdc.transferFrom env.self sender env.self amount : Call RouterError _) = .ok usdc ∧
      executeLegs env receiver { p with world := { p.world with usdc } }
        (legs (effectiveWeights p.router).1 (effectiveWeights p.router).2 amounts) minShares =
          .ok (p', events) := by
  unfold depositTo at h
  simp only [bind_eq_ok, pure_eq_ok, Prod.exists] at h
  obtain ⟨_, -, _, -, usdc, htake, _, -, floors, total, -, amounts, -, p₁, ev, hex, _, -, h⟩ := h
  cases h
  exact ⟨usdc, amounts, htake, hex⟩

/-- The vaults of the legs are those of the vector. -/
theorem vault_mem_of_mem_legs {vaults : List Address} {bps amounts : List ℕ} {l : Leg}
    (h : l ∈ legs vaults bps amounts) : l.vault ∈ vaults := by
  unfold legs at h
  obtain ⟨x, hx, rfl⟩ := List.mem_map.mp h
  exact (List.of_mem_zip (a := x.1) (b := x.2) hx).1

/-- **The rule of the legs.**  A relation between worlds that every approval of the router and every
deposit into the vault of a leg keeps is kept by the legs. -/
theorem executeLegs_rel {R : World V → World V → Prop} (hrefl : ∀ w, R w w)
    (htrans : ∀ {w₁ w₂ w₃}, R w₁ w₂ → R w₂ w₃ → R w₁ w₃)
    (happrove : ∀ w vault amount,
      R w { w with usdc := w.usdc.setAllowance env.self vault amount }) :
    ∀ {ls : List Leg} {p p' : RouterState V} {minShares : List ℕ} {events : List RouterEvent},
      (∀ l ∈ ls, ∀ w w' shares,
        env.deposit w l.vault env.self l.amount receiver = .ok (w', shares) → R w w') →
      executeLegs env receiver p ls minShares = .ok (p', events) → R p.world p'.world
  | [], p, p', minShares, events, _, h => by
    unfold executeLegs at h
    cases h
    exact hrefl _
  | l :: ls, p, p', minShares, events, hdeposit, h => by
    obtain ⟨p₁, event, rest, h₁, h₂⟩ := executeLegs_cons h
    have hrest : R p₁.world p'.world := executeLegs_rel hrefl htrans happrove
      (fun l' hl' => hdeposit l' (List.mem_cons_of_mem _ hl')) h₂
    obtain ⟨usdc, w', shares, ha, hd, rfl⟩ := executeLeg_ok h₁
    obtain ⟨-, -, rfl⟩ := Token.approve_eq_ok.mp ha
    have hleg := hdeposit l (List.mem_cons_self ..) _ _ _ hd
    exact htrans (htrans (happrove p.world l.vault l.amount) hleg) hrest

/-! ### Every reachable state -/

/-- The invariant of the router: each stored vector is empty or complete, the voted one complete when it
is in force, and no allowance is given. -/
structure Inv (env : RouterEnv V) (p : RouterState V) : Prop where
  default : p.router.defaultWeightVaultList = [] ∧ p.router.defaultWeightBps = [] ∨
    Complete p.router.defaultWeightVaultList p.router.defaultWeightBps
  voted : p.router.votedWeightsActive = true →
    Complete p.router.weightVaultList p.router.weightBps
  allowance : NoAllowance env p.world

/-- The receiver and the amount of a call that deposits. -/
def RouterCall.deposited (sender : Address) : RouterCall → Option (Address × ℕ)
  | .deposit amount _ => some (sender, amount)
  | .depositFor receiver amount _ => some (receiver, amount)
  | _ => none

/-- The effective vector of a deposit that goes through is complete. -/
theorem Inv.effective (h : Inv env p) (hne : (effectiveWeights p.router).1.length ≠ 0) :
    Complete (effectiveWeights p.router).1 (effectiveWeights p.router).2 := by
  unfold effectiveWeights at hne ⊢
  by_cases hv : p.router.votedWeightsActive = true
  · rw [if_pos hv]
    exact h.voted hv
  · rw [if_neg hv] at hne ⊢
    rcases h.default with ⟨h₁, -⟩ | h₁
    · rw [h₁] at hne
      exact absurd rfl hne
    · exact h₁

/-- The effective vector has as many weights as vaults. -/
theorem Inv.effective_length (h : Inv env p) :
    (effectiveWeights p.router).1.length = (effectiveWeights p.router).2.length := by
  unfold effectiveWeights
  by_cases hv : p.router.votedWeightsActive = true
  · rw [if_pos hv]
    exact (h.voted hv).1
  · rw [if_neg hv]
    rcases h.default with ⟨h₁, h₂⟩ | h₁
    · rw [h₁, h₂]
      rfl
    · exact h₁.1

theorem deposit_conserves (henv : SpendsAllowanceOnly env) (hinv : Inv env p) (hs : sender ≠ env.self)
    {c : RouterCall} {amount : ℕ} (hc : c.deposited sender = some (receiver, amount))
    (h : p.exec env sender c = .ok (p', events)) :
    Conserves env p sender receiver amount p' ∧ p'.router = p.router := by
  have key : ∀ {minShares}, p.depositTo env sender receiver amount minShares = .ok (p', events) →
      Conserves env p sender receiver amount p' ∧ p'.router = p.router := by
    intro minShares hd
    have hne : (effectiveWeights p.router).1.length ≠ 0 := by
      unfold depositTo at hd
      obtain ⟨u, hu, -⟩ := bind_eq_ok.mp hd
      exact revertIf_eq_ok.mp hu
    exact depositTo_conserves henv (hinv.effective hne) hinv.allowance hs hd
  cases c with
  | deposit amount' minShares =>
    cases hc
    exact key h
  | depositFor receiver' amount' minShares =>
    cases hc
    simp only [exec, depositFor, bind_eq_ok] at h
    obtain ⟨-, -, h⟩ := h
    exact key h
  | _ => cases hc

/-- One call keeps the invariant. -/
theorem exec_inv (henv : SpendsAllowanceOnly env) (hinv : Inv env p) (hs : sender ≠ env.self)
    {c : RouterCall} (h : p.exec env sender c = .ok (p', events)) : Inv env p' := by
  obtain ⟨hd, hv, ha⟩ := hinv
  cases c with
  | setWeights vaults bps =>
    obtain ⟨hc, rfl⟩ := setWeights_ok h
    exact ⟨hd, fun _ => hc, ha⟩
  | setDefaultWeights vaults bps =>
    obtain ⟨hc, rfl⟩ := setDefaultWeights_ok h
    exact ⟨Or.inr hc, hv, ha⟩
  | clearVotedWeights =>
    simp only [exec, clearVotedWeights, bind_eq_ok, pure_eq_ok, Prod.mk.injEq] at h
    obtain ⟨-, -, rfl, -⟩ := h
    exact ⟨hd, fun h => by simp at h, ha⟩
  | setRouterCap cap =>
    simp only [exec, setRouterCap, bind_eq_ok, pure_eq_ok, Prod.mk.injEq] at h
    obtain ⟨-, -, rfl, -⟩ := h
    exact ⟨hd, hv, ha⟩
  | setVaultCap vault cap =>
    simp only [exec, setVaultCap, bind_eq_ok, pure_eq_ok, Prod.mk.injEq] at h
    obtain ⟨-, -, -, -, rfl, -⟩ := h
    exact ⟨hd, hv, ha⟩
  | rescueUsdc dst =>
    simp only [exec, rescueUsdc, bind_eq_ok] at h
    obtain ⟨-, -, -, -, h⟩ := h
    split at h
    · obtain ⟨rfl, -⟩ := Prod.mk.injEq .. ▸ pure_eq_ok.mp h
      exact ⟨hd, hv, ha⟩
    · simp only [bind_eq_ok, pure_eq_ok, Prod.mk.injEq] at h
      obtain ⟨usdc, ht, rfl, -⟩ := h
      obtain ⟨-, -, hle, rfl⟩ := Token.transfer_eq_ok.mp ht
      exact ⟨hd, hv, ha⟩
  | deposit amount minShares =>
    obtain ⟨hcons, hr⟩ := deposit_conserves henv ⟨hd, hv, ha⟩ hs rfl h
    exact ⟨hr ▸ hd, hr ▸ hv, hcons.allowance⟩
  | depositFor receiver amount minShares =>
    obtain ⟨hcons, hr⟩ := deposit_conserves henv ⟨hd, hv, ha⟩ hs rfl h
    exact ⟨hr ▸ hd, hr ▸ hv, hcons.allowance⟩
  | grantRole role account =>
    simp only [exec, bind_eq_ok, pure_eq_ok, Prod.mk.injEq] at h
    obtain ⟨roles, -, rfl, -⟩ := h
    exact ⟨hd, hv, ha⟩
  | revokeRole role account =>
    simp only [exec, bind_eq_ok, pure_eq_ok, Prod.mk.injEq] at h
    obtain ⟨roles, -, rfl, -⟩ := h
    exact ⟨hd, hv, ha⟩
  | renounceRole role confirmation =>
    simp only [exec, bind_eq_ok, pure_eq_ok, Prod.mk.injEq] at h
    obtain ⟨roles, -, rfl, -⟩ := h
    exact ⟨hd, hv, ha⟩

/-- The reachable states of the router: its constructor, its calls, by anybody but itself, and
whatever others do to the registry, the vaults and the USDC ledger in between.  Others cannot give an
allowance over the router's USDC. -/
inductive Reachable (env : RouterEnv V) : RouterState V → Prop
  | deploy {registryAddress admin : Address} {registry : Registry} {world : World V}
      {p : RouterState V} (fresh : NoAllowance env world)
      (h : deploy env registryAddress admin registry world = .ok p) : Reachable env p
  | call {p p' : RouterState V} {sender : Address} {c : RouterCall} {events : List RouterEvent}
      (hp : Reachable env p) (hs : sender ≠ env.self)
      (h : p.exec env sender c = .ok (p', events)) : Reachable env p'
  | outside {p : RouterState V} (hp : Reachable env p) (registry : Registry) (world : World V)
      (h : ∀ s, world.usdc.allowance env.self s ≤ p.world.usdc.allowance env.self s) :
      Reachable env { p with registry, world }

theorem Reachable.inv (henv : SpendsAllowanceOnly env) (h : Reachable env p) : Inv env p := by
  induction h with
  | deploy fresh h =>
    simp only [RouterState.deploy, bind_eq_ok, pure_eq_ok] at h
    obtain ⟨-, -, rfl⟩ := h
    exact ⟨Or.inl ⟨rfl, rfl⟩, fun h => by simp at h, fresh⟩
  | call _ hs h ih => exact exec_inv henv ih hs h
  | outside _ registry world h ih =>
    exact ⟨ih.default, ih.voted, fun s => Nat.le_zero.mp (ih.allowance s ▸ h s)⟩

/-- **Funds conservation.**  In every reachable state each weight vector is empty or complete, and every
successful `deposit` or `depositFor` pays out exactly what it takes. -/
theorem funds_conserved (henv : SpendsAllowanceOnly env) (hp : Reachable env p) :
    ((p.router.defaultWeightVaultList = [] ∧ p.router.defaultWeightBps = [] ∨
        Complete p.router.defaultWeightVaultList p.router.defaultWeightBps) ∧
      (p.router.votedWeightsActive = true →
        Complete p.router.weightVaultList p.router.weightBps)) ∧
    ∀ {sender receiver : Address} {c : RouterCall} {amount : ℕ} {p' : RouterState V}
      {events : List RouterEvent}, sender ≠ env.self →
      c.deposited sender = some (receiver, amount) → p.exec env sender c = .ok (p', events) →
      Conserves env p sender receiver amount p' :=
  ⟨⟨(hp.inv henv).default, (hp.inv henv).voted⟩,
    fun hs hc h => (deposit_conserves henv (hp.inv henv) hs hc h).1⟩

/-! ### A run -/

/-- Vaults that take the assets by `transferFrom` and mint one share for each unit, as the repository's
`MockVault` does; `ext vault holder` is the holder's number of shares. -/
def mockVaults (self usdc : Address) : RouterEnv (Address → Address → ℕ) where
  self
  usdc
  hasCode _ vault := decide (vault ≠ 0)
  asset _ _ := some usdc
  previewDeposit _ _ assets := some assets
  deposit w vault caller assets receiver := do
    let usdc ← w.usdc.transferFrom vault caller vault assets
    pure (⟨usdc, Function.update w.ext vault (Function.update (w.ext vault) receiver
      (w.ext vault receiver + assets))⟩, assets)

theorem mockVaults_spends (self usdc : Address) : SpendsAllowanceOnly (mockVaults self usdc) := by
  intro w w' vault assets receiver minted hlim h
  simp only [mockVaults, bind_eq_ok, pure_eq_ok, Prod.mk.injEq] at h
  obtain ⟨t, ht, rfl, -⟩ := h
  obtain ⟨hle, hbal, -⟩ := Token.transferFrom_balances ht
  obtain ⟨hall, hother⟩ := Token.transferFrom_allowance hlim ht
  by_cases hv : vault = self
  · subst hv
    refine ⟨assets, assets, ?_, hall, hother⟩
    simp only [hbal, mockVaults, Token.moved_self hle]
  · refine ⟨assets, 0, ?_, hall, hother⟩
    simp only [hbal, mockVaults, Token.moved_src (Ne.symm hv)]
    omega

/-- A registry with the two eligible vaults `10` and `11`. -/
def twoVaults : Registry where
  metadata _ := ⟨"", 2, 1⟩
  status _ := .active
  vaults := [10, 11]
  registered v := decide (v = 10 ∨ v = 11)
  routerEligible v := decide (v = 10 ∨ v = 11)
  routerEligibleCount := 2
  router := 1
  roles := soleAdmin 3

/-- The account `4` has 10001 units and lets the router, the account `1`, take them. -/
def fundedWorld : World (Address → Address → ℕ) where
  usdc := (Token.empty.issue 4 10001 (by decide)).setAllowance 4 1 10001
  ext _ _ := 0

/-- The router with a default vector of 33.33 and 66.67 percent. -/
def weightedRouter : RouterState (Address → Address → ℕ) where
  router :=
    { routerCap := 0
      vaultCap := fun _ => 0
      weightVaultList := []
      weightBps := []
      votedWeightsActive := false
      defaultWeightVaultList := [10, 11]
      defaultWeightBps := [3333, 6667]
      roles := soleAdmin 3 }
  registry := twoVaults
  world := fundedWorld

theorem fundedWorld_noAllowance : NoAllowance (mockVaults 1 2) fundedWorld := by
  intro s
  change (fundedWorld.usdc.allowance 1 s) = 0
  unfold fundedWorld
  rw [Token.setAllowance_allowance_of_ne _ _ (Or.inl (by decide))]
  rfl

/-- The router before its default vector was set. -/
def freshRouter : RouterState (Address → Address → ℕ) :=
  { weightedRouter with
    router := { weightedRouter.router with defaultWeightVaultList := [], defaultWeightBps := [] } }

theorem weightedRouter_reachable : Reachable (mockVaults 1 2) weightedRouter := by
  have hdeploy : RouterState.deploy (mockVaults 1 2) 5 3 twoVaults fundedWorld = .ok freshRouter := rfl
  have hset : freshRouter.exec (mockVaults 1 2) 3 (.setDefaultWeights [10, 11] [3333, 6667]) =
      .ok (weightedRouter, [.defaultWeightsSet [10, 11] [3333, 6667]]) := rfl
  exact .call (.deploy fundedWorld_noAllowance hdeploy) (by decide) hset

theorem funds_conserved_sample : ∃ p' events,
    weightedRouter.exec (mockVaults 1 2) 4 (.deposit 10001 []) = .ok (p', events) ∧
      Conserves (mockVaults 1 2) weightedRouter 4 4 10001 p' := by
  obtain ⟨⟨p', events⟩, h⟩ := succeeds_iff.mp
    (show succeeds (weightedRouter.exec (mockVaults 1 2) 4 (.deposit 10001 [])) = true by decide)
  exact ⟨p', events, h, (funds_conserved (mockVaults_spends 1 2) weightedRouter_reachable).2
    (by decide) rfl h⟩

/-! ### A gift -/

/-- While the router holds USDC, nobody's deposit goes through. -/
theorem balance_eq_zero_of_deposit (henv : SpendsAllowanceOnly env) (hp : Reachable env p)
    (hs : sender ≠ env.self) {amount : ℕ} {minShares : List ℕ}
    (h : p.deposit env sender amount minShares = .ok (p', events)) :
    p.world.usdc.balanceOf env.self = 0 := by
  have hinv := hp.inv henv
  obtain ⟨hcons, -⟩ := deposit_conserves henv hinv hs (c := .deposit amount minShares) rfl h
  exact hcons.balance_before hinv.effective_length hs

/-- The state after a transfer of USDC by somebody else. -/
def withUsdc (p : RouterState V) (usdc : Token Address) : RouterState V :=
  { p with world := { p.world with usdc } }

theorem Reachable.gift (hp : Reachable env p) {donor : Address} {d : ℕ} {usdc : Token Address}
    (hgift : (p.world.usdc.transfer donor env.self d : Call Unit _) = .ok usdc) :
    Reachable env (p.withUsdc usdc) := by
  obtain ⟨-, -, hle, rfl⟩ := Token.transfer_eq_ok.mp hgift
  exact .outside hp p.registry _ fun s => le_rfl

/-- **A gift to the router.**  A deposit that would succeed still does, with the same legs, after a
transfer of USDC to the router by somebody else, if and only if nothing was transferred. -/
theorem gift_stops_deposit_iff (henv : SpendsAllowanceOnly env) (hp : Reachable env p)
    (hs : sender ≠ env.self) {amount : ℕ} {minShares : List ℕ}
    (h : p.deposit env sender amount minShares = .ok (p', events)) {donor : Address}
    (hdonor : donor ≠ env.self) {d : ℕ} {usdc : Token Address}
    (hgift : (p.world.usdc.transfer donor env.self d : Call Unit _) = .ok usdc) :
    (∃ p₁, (p.withUsdc usdc).deposit env sender amount minShares = .ok (p₁, events)) ↔ d = 0 := by
  constructor
  · rintro ⟨p₁, h₁⟩
    have hzero := balance_eq_zero_of_deposit henv (hp.gift hgift) hs h₁
    obtain ⟨-, -, hle, rfl⟩ := Token.transfer_eq_ok.mp hgift
    have hbal : Token.moved p.world.usdc.balanceOf donor env.self d env.self = 0 := hzero
    rw [Token.moved_dst hdonor] at hbal
    omega
  · rintro rfl
    obtain ⟨-, -, hle, rfl⟩ := Token.transfer_eq_ok.mp hgift
    refine ⟨p', ?_⟩
    rw [Token.move_zero]
    exact h

/-- The same router, where the account `9` has 30 units. -/
def giftedRouter : RouterState (Address → Address → ℕ) :=
  weightedRouter.withUsdc (fundedWorld.usdc.issue 9 30 (by decide))

theorem giftedRouter_reachable : Reachable (mockVaults 1 2) giftedRouter :=
  .outside weightedRouter_reachable twoVaults giftedRouter.world fun _ => le_rfl

theorem gift_stops_deposit_iff_zero : ∃ usdc p₁ events,
    (giftedRouter.world.usdc.transfer 9 1 0 : Call Unit _) = .ok usdc ∧
      (giftedRouter.withUsdc usdc).deposit (mockVaults 1 2) 4 10001 [] = .ok (p₁, events) := by
  obtain ⟨usdc, hgift⟩ := succeeds_iff.mp
    (show succeeds (giftedRouter.world.usdc.transfer 9 1 0 : Call Unit _) = true by decide)
  obtain ⟨⟨p', events⟩, h⟩ := succeeds_iff.mp
    (show succeeds (giftedRouter.deposit (mockVaults 1 2) 4 10001 []) = true by decide)
  obtain ⟨p₁, h₁⟩ := (gift_stops_deposit_iff (mockVaults_spends 1 2) giftedRouter_reachable (by decide) h
    (by decide) hgift).mpr rfl
  exact ⟨usdc, p₁, events, hgift, h₁⟩

/-- One unit stops every deposit. -/
theorem gift_of_one_stops_deposit :
    succeeds (giftedRouter.deposit (mockVaults 1 2) 4 10001 []) = true ∧
      ∃ usdc, (giftedRouter.world.usdc.transfer 9 1 1 : Call Unit _) = .ok usdc ∧
        (giftedRouter.withUsdc usdc).deposit (mockVaults 1 2) 4 10001 [] =
          .error (.custom .usdcCustodyInvariantViolated) := by
  refine ⟨by decide, giftedRouter.world.usdc.move 9 1 1 (by decide), ?_, ?_⟩
  · exact Token.transfer_eq_ok.mpr ⟨by decide, by decide, by decide, rfl⟩
  · exact reason_eq_some.mp (by decide)

end RouterState

end RobotMoney.Portfolio
