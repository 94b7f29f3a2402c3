import RobotMoney.Indexer.Tick

/-!
# The range of a tick

What `run_inner` promises of the heights it ingests: they follow the cursor, keep `CONFIRMATIONS` below
the tip, and pass neither `end_block` nor `max_blocks_per_tick`.  Two boundary values break it.  A cap of
zero underflows, and what is left is no cap at all; and on a chain shorter than `CONFIRMATIONS` the
subtraction from the tip saturates, so that a fresh database ingests the block at height zero.
-/

namespace RobotMoney.Indexer

open RobotMoney.Lib Fallible

variable {cfg : IndexerConfig} {c : Option ℕ} {tip T : ℕ} {sess : Session} {w w' : World}
  {o : IndexerOutcome}

/-- `last_indexed.map(|x| x + 1).unwrap_or(0) as u64`, of the column as it is stored -/
def fromBlockU64 (lastIndexed : Option (BitVec 64)) : ℕ := ((lastIndexed.map (· + 1)).getD 0).toNat

/-- The range from the cursor to `T` is one that a tick may ingest. -/
structure InRange (cfg : IndexerConfig) (c : Option ℕ) (tip T : ℕ) : Prop where
  next : fromBlock c ≤ T
  confirmed : T + confirmations ≤ tip
  ended : ∀ e, cfg.endBlock = some e → T ≤ e
  capped : T + 1 ≤ fromBlock c + cfg.maxBlocksPerTick

/-- What the range computation promises: `max_blocks_per_tick - 1`, the one subtraction that does not
saturate, does not underflow where it is reached, and the range found is one to ingest. -/
structure RangeKept (cfg : IndexerConfig) (c : Option ℕ) (tip : ℕ) : Prop where
  noUnderflow : fromBlock c ≤ tip - confirmations → 1 ≤ cfg.maxBlocksPerTick
  inRange : ∀ T, targetOf cfg (fromBlock c) tip = some T → InRange cfg c tip T

/-- The least of the bounds that are set. -/
def bound (cfg : IndexerConfig) (src tip : ℕ) : ℕ :=
  min (match cfg.endBlock with
    | some e => min (tip - confirmations) e
    | none => tip - confirmations) (saturatingAdd64 src (wrappingSub64 cfg.maxBlocksPerTick 1))

theorem targetOf_eq_some_iff {src : ℕ} : targetOf cfg src tip = some T ↔
    src ≤ tip - confirmations ∧ src ≤ T ∧ T = bound cfg src tip := by
  show (if tip - confirmations < src then none
    else if bound cfg src tip < src then none else some (bound cfg src tip)) = some T ↔ _
  split
  · simp
    omega
  · split
    · simp
      omega
    · simp
      omega

theorem bound_le_head {src : ℕ} : bound cfg src tip ≤ tip - confirmations := by
  unfold bound
  refine (min_le_left _ _).trans ?_
  cases cfg.endBlock with
  | none => exact le_refl _
  | some e => exact min_le_left _ _

theorem bound_le_end {src e : ℕ} (h : cfg.endBlock = some e) : bound cfg src tip ≤ e := by
  unfold bound
  rw [h]
  exact (min_le_left _ _).trans (min_le_right _ _)

/-- A cap that is set holds. -/
theorem bound_lt_cap {src : ℕ} (h : 1 ≤ cfg.maxBlocksPerTick) :
    bound cfg src tip + 1 ≤ src + cfg.maxBlocksPerTick := by
  have hsub : wrappingSub64 cfg.maxBlocksPerTick 1 ≤ cfg.maxBlocksPerTick - 1 := by
    have hsum : cfg.maxBlocksPerTick + (2 ^ 64 - 1) = cfg.maxBlocksPerTick - 1 + 2 ^ 64 := by omega
    unfold wrappingSub64
    rw [hsum, Nat.add_mod_right]
    exact Nat.mod_le _ _
  have hadd : bound cfg src tip ≤ src + wrappingSub64 cfg.maxBlocksPerTick 1 :=
    (min_le_right _ _).trans (min_le_left _ _)
  omega

/-- On a chain shorter than `CONFIRMATIONS`, a fresh database has a range. -/
theorem bound_short (h : tip < confirmations) : bound cfg 0 tip = 0 := by
  have hle : bound cfg 0 tip ≤ tip - confirmations := bound_le_head
  omega

theorem rangeKept_iff : RangeKept cfg c tip ↔
    tip - confirmations < fromBlock c ∨ (1 ≤ cfg.maxBlocksPerTick ∧ confirmations ≤ tip) := by
  constructor
  · intro h
    by_cases hreach : fromBlock c ≤ tip - confirmations
    · refine .inr ⟨h.noUnderflow hreach, ?_⟩
      by_contra hshort
      have hsrc : fromBlock c = 0 := by omega
      have htarget : targetOf cfg (fromBlock c) tip = some 0 := by
        rw [hsrc, targetOf_eq_some_iff, bound_short (by omega)]
        simp
      have hconfirmed := (h.inRange 0 htarget).confirmed
      omega
    · exact .inl (by omega)
  · rintro (hpast | ⟨hcap, htip⟩)
    · refine ⟨fun hreach => by omega, ?_⟩
      intro T hT
      have hreach := (targetOf_eq_some_iff.mp hT).1
      omega
    · refine ⟨fun _ => hcap, ?_⟩
      intro T hT
      obtain ⟨-, hnext, rfl⟩ := targetOf_eq_some_iff.mp hT
      refine ⟨hnext, ?_, fun e he => bound_le_end he, bound_lt_cap hcap⟩
      have hhead : bound cfg (fromBlock c) tip ≤ tip - confirmations := bound_le_head
      omega

/-! ### The range in the tick -/

theorem fromBlockU64_eq (h : ∀ n, c = some n → n < 2 ^ 63) :
    fromBlockU64 (c.map (BitVec.ofNat 64)) = fromBlock c := by
  cases c with
  | none => rfl
  | some n =>
    have hn : n < 2 ^ 63 := h n rfl
    show (BitVec.ofNat 64 n + 1#64).toNat = n + 1
    rw [BitVec.toNat_add, BitVec.toNat_ofNat, BitVec.toNat_ofNat]
    omega

/-- A run of `run_inner` without an error: the cursor after the reorganization check, the tip, and the
one range between them that is ingested, if there is one. -/
structure Advance (sess : Session) (cfg : IndexerConfig) (c : Option ℕ) (w : World)
    (o : IndexerOutcome) (w' : World) (c' : Option ℕ) (tip : ℕ) : Prop where
  checked : ∃ w₁ w₂ reorg, reorgCheck sess cfg c w = (.ok (c', reorg), w₁) ∧
    blockNumber sess w₁ = (.ok tip, w₂) ∧
    (o.toBlock = none → w' = w₂ ∧ o.lastIndexedBlock = c') ∧
    ∀ T, o.toBlock = some T → o.lastIndexedBlock = some T ∧
      ∃ rows, ingest sess cfg (fromBlock c') T w₂ = (.ok rows, w')
  target : o.toBlock = targetOf cfg (fromBlock c') tip

theorem runInner_advance (h : runInner sess cfg c w = (.ok o, w')) :
    ∃ c' tip, Advance sess cfg c w o w' c' tip := by
  unfold runInner at h
  obtain ⟨⟨c', reorg⟩, w₁, hcheck, h⟩ := bind_ok_iff.mp h
  obtain ⟨tip, w₂, htip, h⟩ := bind_ok_iff.mp h
  refine ⟨c', tip, ?_⟩
  cases htarget : targetOf cfg (fromBlock c') tip with
  | none =>
    simp only [htarget] at h
    obtain ⟨ho, hw⟩ := Prod.mk.injEq .. ▸ h
    cases ho
    refine ⟨⟨w₁, w₂, reorg, hcheck, htip, fun _ => ⟨hw.symm, rfl⟩, ?_⟩, htarget.symm⟩
    intro T hT
    cases hT
  | some target =>
    simp only [htarget] at h
    obtain ⟨rows, w₃, hingest, h⟩ := bind_ok_iff.mp h
    obtain ⟨ho, hw⟩ := Prod.mk.injEq .. ▸ h
    cases ho
    subst hw
    refine ⟨⟨w₁, w₂, reorg, hcheck, htip, ?_, ?_⟩, htarget.symm⟩
    · intro hnone
      cases hnone
    · intro T hT
      cases hT
      exact ⟨rfl, rows, hingest⟩

/-- **The range of a tick.**  The range computation keeps its promise exactly when the cursor is past the
confirmed head, or when the cap is not zero and the chain is as long as `CONFIRMATIONS`; and a tick
ingests the range it computes, and no other. -/
theorem tick_range_exact (cfg : IndexerConfig) (c : Option ℕ) (tip : ℕ) :
    (RangeKept cfg c tip ↔
      tip - confirmations < fromBlock c ∨ (1 ≤ cfg.maxBlocksPerTick ∧ confirmations ≤ tip)) ∧
    (∀ sess w o w', runInner sess cfg c w = (.ok o, w') →
      ∃ c' tip', Advance sess cfg c w o w' c' tip') ∧
    ((∀ n, c = some n → n < 2 ^ 63) → fromBlockU64 (c.map (BitVec.ofNat 64)) = fromBlock c) :=
  ⟨rangeKept_iff, fun _ _ _ _ h => runInner_advance h, fromBlockU64_eq⟩

/-- The service as it is started by default, with a cap of its own. -/
def cappedAt (maxBlocksPerTick : ℕ) : IndexerConfig where
  chainId := 8453
  chainName := "base"
  rpcLabel := "unknown"
  gateway := 1
  vault := 2
  registry := none
  routerGovernance := none
  maxBlocksPerTick
  endBlock := none
  featureFlags := 0

/-- With a cap of zero a tick ingests all that is confirmed; on a chain of three blocks, with the default
cap, the block at height zero. -/
theorem tick_range_breaks :
    (targetOf (cappedAt 0) (fromBlock none) 5000 = some 4995 ∧ ¬ RangeKept (cappedAt 0) none 5000) ∧
      targetOf (cappedAt 1000) (fromBlock none) 3 = some 0 ∧ ¬ RangeKept (cappedAt 1000) none 3 := by
  refine ⟨⟨by decide, ?_⟩, by decide, ?_⟩
  · intro h
    exact absurd (h.noUnderflow (Nat.zero_le _)) (by decide)
  · intro h
    exact absurd (h.inRange 0 (by decide)).confirmed (by decide)

end RobotMoney.Indexer
