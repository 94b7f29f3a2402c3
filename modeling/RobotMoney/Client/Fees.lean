import RobotMoney.Client.Preflight
import RobotMoney.Lib.Sorted

/-!
# The fees of a transaction

`fees/mod.rs`: the bid of a transaction is computed from what `eth_feeHistory` answers, and refused where it
is above what the operator allows.  A bid is never lowered to the caps: what is accepted was below them
(`computeFees_le`), and there is a single bid for a history (`computeFees_cap_irrelevant`).

With a cap of 64 bits the bid is the one over the integers, `2 * b + p` for the next base fee `b` and the tip
`p`, whatever the order of the rewards (`computeFees_exact`).  The tip is never below a gwei, which the default
cap of Base does not leave room for: `default_cap_admits_iff`.
-/

namespace RobotMoney.Client

open RobotMoney.Lib

/-- `ONE_GWEI` -/
def oneGwei : ℕ := 1000000000

/-- `PRIORITY_FEE_FLOOR_WEI` -/
def priorityFeeFloorWei : ℕ := oneGwei

/-- `u128::MAX` -/
def u128Max : ℕ := 2 ^ 128 - 1

/-- `default_max_fee_per_gas_cap_wei` -/
def defaultMaxFeePerGasCapWei (chainId : ℕ) : Option ℕ :=
  if chainId = 1 then some (100 * oneGwei)
  else if chainId = 8453 ∨ chainId = 84532 then some oneGwei
  else none

/-- `UNKNOWN_CHAIN_FEE_CAP_FALLBACK_WEI` -/
def unknownChainFeeCapFallbackWei : ℕ := 100 * oneGwei

/-- `effective_max_fee_per_gas_cap`: the command line, the configuration, the table, the fallback. -/
def Config.effectiveMaxFeePerGasCap (cfg : Config) (cliOverride : Option ℕ) : ℕ :=
  ((cliOverride.or cfg.maxFeePerGasCap).or (defaultMaxFeePerGasCapWei cfg.chainId)).getD
    unknownChainFeeCapFallbackWei

/-- What is used of the answer to `eth_feeHistory`. -/
structure FeeHistory where
  baseFeePerGas : List ℕ
  reward : Option (List (List ℕ))

structure FeeBid where
  maxFeePerGas : ℕ
  maxPriorityFeePerGas : ℕ
  deriving DecidableEq

/-- `base_fee_for_next_block` -/
def baseFeeForNextBlock (fh : FeeHistory) : Result ℕ :=
  match fh.baseFeePerGas.getLast? with
  | some fee => .ok fee
  | none => .error (.errRpcDecode "eth_feeHistory: empty base_fee_per_gas")

/-- `priority_fee_from_history`: the median of the first rewards, and at least the floor. -/
def priorityFeeFromHistory (fh : FeeHistory) : ℕ :=
  match fh.reward with
  | none => priorityFeeFloorWei
  | some rewards =>
    let tips := (rewards.filterMap List.head?).insertionSort (· ≤ ·)
    match tips[tips.length / 2]? with
    | none => priorityFeeFloorWei
    | some median => max median priorityFeeFloorWei

/-- `compute_fees`; the sum saturates at `u128::MAX`. -/
def computeFees (fh : FeeHistory) (maxFeeCapWei priorityCapWei : ℕ) : Result FeeBid := do
  let baseFeeNext ← baseFeeForNextBlock fh
  let priorityFee := priorityFeeFromHistory fh
  refuseIf (priorityCapWei < priorityFee) .errFeeCapExceeded
  let bid := min (min (baseFeeNext * 2) u128Max + priorityFee) u128Max
  refuseIf (maxFeeCapWei < bid) .errFeeCapExceeded
  pure ⟨bid, priorityFee⟩

section Bid

variable {fh : FeeHistory} {maxFeeCapWei priorityCapWei : ℕ} {bid : FeeBid}

theorem priorityFeeFloorWei_le : priorityFeeFloorWei ≤ priorityFeeFromHistory fh := by
  unfold priorityFeeFromHistory
  split
  · exact le_rfl
  · dsimp only
    split
    · exact le_rfl
    · exact le_max_right _ _

/-- A bid that is made: its parts, and the two caps. -/
theorem computeFees_eq_ok : computeFees fh maxFeeCapWei priorityCapWei = .ok bid ↔
    ∃ fee, fh.baseFeePerGas.getLast? = some fee ∧
      bid = ⟨min (min (fee * 2) u128Max + priorityFeeFromHistory fh) u128Max, priorityFeeFromHistory fh⟩ ∧
      bid.maxFeePerGas ≤ maxFeeCapWei ∧ bid.maxPriorityFeePerGas ≤ priorityCapWei := by
  unfold computeFees baseFeeForNextBlock
  cases fh.baseFeePerGas.getLast? with
  | none => simp [bind, Except.bind]
  | some fee =>
    simp only [bind, Except.bind, pure, Except.pure, refuseIf, Option.some.injEq, exists_eq_left']
    split_ifs with hpriority hmax
    · refine iff_of_false (by simp) ?_
      rintro ⟨rfl, -, hle⟩
      exact absurd hle (not_le.mpr hpriority)
    · refine iff_of_false (by simp) ?_
      rintro ⟨rfl, hle, -⟩
      exact absurd hle (not_le.mpr hmax)
    · simp only [Except.ok.injEq]
      constructor
      · rintro rfl
        exact ⟨rfl, not_lt.mp hmax, not_lt.mp hpriority⟩
      · rintro ⟨rfl, -, -⟩
        rfl

theorem computeFees_le (h : computeFees fh maxFeeCapWei priorityCapWei = .ok bid) :
    bid.maxFeePerGas ≤ maxFeeCapWei ∧ bid.maxPriorityFeePerGas ≤ priorityCapWei ∧
      priorityFeeFloorWei ≤ bid.maxPriorityFeePerGas := by
  obtain ⟨_, -, rfl, hmax, hpriority⟩ := computeFees_eq_ok.mp h
  exact ⟨hmax, hpriority, priorityFeeFloorWei_le⟩

/-- Caps refuse a bid, they do not change it. -/
theorem computeFees_cap_irrelevant {bid' : FeeBid} {maxFeeCapWei' priorityCapWei' : ℕ}
    (h : computeFees fh maxFeeCapWei priorityCapWei = .ok bid)
    (h' : computeFees fh maxFeeCapWei' priorityCapWei' = .ok bid') : bid = bid' := by
  obtain ⟨fee, hfee, rfl, -⟩ := computeFees_eq_ok.mp h
  obtain ⟨fee', hfee', rfl, -⟩ := computeFees_eq_ok.mp h'
  rw [hfee] at hfee'
  cases hfee'
  rfl

/-- Base fees of 10 and 30 gwei, tips of 3 and 1 and 2 gwei: a bid of 62 gwei with a tip of 2. -/
example : computeFees ⟨[10 * oneGwei, 30 * oneGwei],
      some [[3 * oneGwei], [], [oneGwei], [2 * oneGwei]]⟩ (100 * oneGwei) u128Max =
    .ok ⟨62 * oneGwei, 2 * oneGwei⟩ := by decide

end Bid

/-! ### The bid over the integers -/

section Exact

variable {fh : FeeHistory} {cap priorityCap : ℕ} {bid : FeeBid} {b m p : ℕ}

/-- The tips of a history: the first reward of every row that has one. -/
def FeeHistory.tips (fh : FeeHistory) : List ℕ := (fh.reward.getD []).filterMap List.head?

/-- The median tip, and nothing if there are no tips. -/
def FeeHistory.MedianTip (fh : FeeHistory) (m : ℕ) : Prop := fh.tips = [] ∧ m = 0 ∨ IsUpperMedian fh.tips m

/-- The larger of the floor and the median tip. -/
theorem priorityFee_median (fh : FeeHistory) :
    ∃ m, fh.MedianTip m ∧ priorityFeeFromHistory fh = max m priorityFeeFloorWei := by
  unfold priorityFeeFromHistory FeeHistory.MedianTip FeeHistory.tips
  cases fh.reward with
  | none => exact ⟨0, .inl ⟨rfl, rfl⟩, rfl⟩
  | some rewards =>
    dsimp only [Option.getD_some]
    set tips := rewards.filterMap List.head?
    have hperm : (tips.insertionSort (· ≤ ·)).Perm tips := List.perm_insertionSort _ tips
    cases hmid : (tips.insertionSort (· ≤ ·))[(tips.insertionSort (· ≤ ·)).length / 2]? with
    | none =>
      have hnil : tips = [] := by
        have hlen := List.getElem?_eq_none_iff.mp hmid
        rw [List.length_insertionSort] at hlen
        exact List.length_eq_zero_iff.mp (by omega)
      exact ⟨0, .inl ⟨hnil, rfl⟩, rfl⟩
    | some m =>
      exact ⟨m, .inr ((isUpperMedian_of_sorted (List.pairwise_insertionSort _ tips) hmid).perm hperm), rfl⟩

theorem FeeHistory.MedianTip.unique {m' : ℕ} (h : fh.MedianTip m) (h' : fh.MedianTip m') : m = m' := by
  rcases h with ⟨hnil, rfl⟩ | h <;> rcases h' with ⟨hnil', rfl⟩ | h'
  · rfl
  · exact absurd h'.mem (by simp [hnil])
  · exact absurd h.mem (by simp [hnil'])
  · exact h.unique h'

/-- The tips of rewards in another order, in another order. -/
theorem tips_perm (baseFees : List ℕ) {rewards rewards' : List (List ℕ)} (h : rewards.Perm rewards') :
    (FeeHistory.mk baseFees (some rewards)).tips.Perm (FeeHistory.mk baseFees (some rewards')).tips :=
  h.filterMap _

theorem priorityFee_perm {baseFees : List ℕ} {rewards rewards' : List (List ℕ)} (h : rewards.Perm rewards') :
    priorityFeeFromHistory ⟨baseFees, some rewards⟩ = priorityFeeFromHistory ⟨baseFees, some rewards'⟩ := by
  obtain ⟨m, hm, hp⟩ := priorityFee_median ⟨baseFees, some rewards⟩
  obtain ⟨m', hm', hp'⟩ := priorityFee_median ⟨baseFees, some rewards'⟩
  have hmoved : (FeeHistory.mk baseFees (some rewards')).MedianTip m := by
    rcases hm with ⟨hnil, rfl⟩ | hm
    · refine .inl ⟨?_, rfl⟩
      have hperm := tips_perm baseFees h
      rw [hnil] at hperm
      exact List.nil_perm.mp hperm
    · exact .inr (hm.perm (tips_perm baseFees h))
  rw [hp, hp', hmoved.unique hm']

/-- A target that saturates is above every cap of 64 bits. -/
theorem target_le_iff (hcap : cap < 2 ^ 64) :
    min (min (b * 2) u128Max + p) u128Max ≤ cap ↔ 2 * b + p ≤ cap := by
  unfold u128Max
  omega

theorem bid_iff (hcap : cap < 2 ^ 64) (hb : fh.baseFeePerGas.getLast? = some b) :
    (∃ bid, computeFees fh cap priorityCap = .ok bid) ↔
      priorityFeeFromHistory fh ≤ priorityCap ∧ 2 * b + priorityFeeFromHistory fh ≤ cap := by
  constructor
  · rintro ⟨bid, hbid⟩
    obtain ⟨b', hb', rfl, hmax, hpriority⟩ := computeFees_eq_ok.mp hbid
    obtain rfl : b = b' := Option.some.inj (hb.symm.trans hb')
    exact ⟨hpriority, (target_le_iff hcap).mp hmax⟩
  · rintro ⟨hpriority, hmax⟩
    exact ⟨_, computeFees_eq_ok.mpr ⟨b, hb, rfl, (target_le_iff hcap).mpr hmax, hpriority⟩⟩

/-- **The bid is exact.**  For a base fee `b` and a cap of 64 bits: with the tip `p`, the larger of a gwei and the
upper median of the tips, there is a bid if and only if `p` and `2 * b + p` are within the caps; it is these two
numbers, in which no operation of 128 bits has saturated, and the order of the rewards does not matter. -/
theorem computeFees_exact (fh : FeeHistory) (priorityCap : ℕ) (hcap : cap < 2 ^ 64)
    (hb : fh.baseFeePerGas.getLast? = some b) :
    ∃ m p, fh.MedianTip m ∧ p = max 1000000000 m ∧
      ((∃ bid, computeFees fh cap priorityCap = .ok bid) ↔ p ≤ priorityCap ∧ 2 * b + p ≤ cap) ∧
      (∀ bid, computeFees fh cap priorityCap = .ok bid → bid.maxFeePerGas = 2 * b + p ∧
        bid.maxPriorityFeePerGas = p ∧ p ≤ bid.maxFeePerGas ∧ bid.maxFeePerGas ≤ cap ∧ b * 2 < 2 ^ 128 ∧
        b * 2 + p < 2 ^ 128) ∧
      ∀ rewards rewards', fh.reward = some rewards → rewards.Perm rewards' →
        computeFees { fh with reward := some rewards' } cap priorityCap = computeFees fh cap priorityCap := by
  obtain ⟨m, hm, hp⟩ := priorityFee_median fh
  refine ⟨m, max 1000000000 m, hm, rfl, ?_, ?_, ?_⟩
  · rw [max_comm]
    change _ ↔ max m priorityFeeFloorWei ≤ priorityCap ∧ 2 * b + max m priorityFeeFloorWei ≤ cap
    rw [← hp]
    exact bid_iff hcap hb
  · intro bid hbid
    obtain ⟨b', hb', rfl, hmax, -⟩ := computeFees_eq_ok.mp hbid
    obtain rfl : b = b' := Option.some.inj (hb.symm.trans hb')
    have hle := (target_le_iff hcap).mp hmax
    dsimp only at hmax ⊢
    rw [hp] at hmax hle ⊢
    unfold u128Max at hmax ⊢
    change _ ∧ max m 1000000000 = max 1000000000 m ∧ _
    unfold priorityFeeFloorWei oneGwei at hmax hle ⊢
    omega
  · intro rewards rewards' hrewards hperm
    obtain ⟨baseFees, reward⟩ := fh
    cases hrewards
    unfold computeFees
    rw [← priorityFee_perm hperm]
    rfl

/-- Base fees of 10 and 30 gwei and two tips, with a cap at the bid. -/
theorem computeFees_exact_atCap :
    ∃ m p, (FeeHistory.mk [10 * oneGwei, 30 * oneGwei] (some [[3 * oneGwei], [oneGwei]])).MedianTip m ∧
      p = max 1000000000 m ∧
      ((∃ bid, computeFees ⟨[10 * oneGwei, 30 * oneGwei], some [[3 * oneGwei], [oneGwei]]⟩ (63 * oneGwei) u128Max =
        .ok bid) ↔ p ≤ u128Max ∧ 2 * (30 * oneGwei) + p ≤ 63 * oneGwei) := by
  have hcap : 63 * oneGwei < 2 ^ 64 := by decide
  obtain ⟨m, p, hm, hp, hiff, -⟩ :=
    computeFees_exact ⟨[10 * oneGwei, 30 * oneGwei], some [[3 * oneGwei], [oneGwei]]⟩ u128Max hcap rfl
  exact ⟨m, p, hm, hp, hiff⟩

end Exact

/-! ### The default caps -/

section Defaults

variable {fh : FeeHistory} {chainId cap b m : ℕ}

theorem defaultCap_lt (hcap : defaultMaxFeePerGasCapWei chainId = some cap) : cap < 2 ^ 64 := by
  unfold defaultMaxFeePerGasCapWei oneGwei at hcap
  split_ifs at hcap <;> cases hcap <;> norm_num

theorem cap_admits_iff (hcap : cap < 2 ^ 64) (hb : fh.baseFeePerGas.getLast? = some b) (hm : fh.MedianTip m)
    (hfits : 2 * b + m ≤ cap) :
    (∃ bid, computeFees fh cap u128Max = .ok bid) ↔ 1000000000 ≤ m ∨ 2 * b + 1000000000 ≤ cap := by
  obtain ⟨m', hm', hp⟩ := priorityFee_median fh
  obtain rfl := hm.unique hm'
  rw [bid_iff hcap hb, hp]
  unfold priorityFeeFloorWei oneGwei u128Max
  omega

/-- **What the default caps admit.**  For a chain of the table, and a history whose next base fee and median tip are
within its cap: there is a bid if and only if the tip is a gwei at least, or the cap leaves room for one. -/
theorem default_cap_admits_iff (hcap : defaultMaxFeePerGasCapWei chainId = some cap)
    (hb : fh.baseFeePerGas.getLast? = some b) (hm : fh.MedianTip m) (hfits : 2 * b + m ≤ cap) :
    (∃ bid, computeFees fh cap u128Max = .ok bid) ↔ 1000000000 ≤ m ∨ 2 * b + 1000000000 ≤ cap :=
  cap_admits_iff (defaultCap_lt hcap) hb hm hfits

/-- On Base that is a base fee of zero. -/
theorem base_cap_admits_iff (hb : fh.baseFeePerGas.getLast? = some b) (hm : fh.MedianTip m)
    (hfits : 2 * b + m ≤ oneGwei) : (∃ bid, computeFees fh oneGwei u128Max = .ok bid) ↔ b = 0 := by
  rw [cap_admits_iff (by decide) hb hm hfits]
  unfold oneGwei at hfits ⊢
  omega

/-- A quiet hour on Base: a base fee of 0.005 gwei, and a tip of 0.001 gwei. -/
def quietBase : FeeHistory := ⟨[5000000, 5000000], some [[1000000]]⟩

theorem quietBase_median : quietBase.MedianTip 1000000 := by
  refine .inr ⟨by decide, by decide, by decide⟩

/-- A base fee of 5 gwei on the main network is admitted. -/
theorem default_cap_admits_iff_mainnet :
    (∃ bid, computeFees ⟨[5 * oneGwei], some [[1000000]]⟩ (100 * oneGwei) u128Max = .ok bid) ↔
      1000000000 ≤ 1000000 ∨ 2 * (5 * oneGwei) + 1000000000 ≤ 100 * oneGwei :=
  default_cap_admits_iff (show defaultMaxFeePerGasCapWei 1 = some (100 * oneGwei) from rfl) rfl (.inr ⟨by decide, by decide, by decide⟩) (by decide)

/-- **The quiet hour is refused**, with a fee of 0.011 gwei against a cap of one. -/
theorem base_cap_refuses_quiet : defaultMaxFeePerGasCapWei 8453 = some oneGwei ∧
    quietBase.baseFeePerGas.getLast? = some 5000000 ∧ quietBase.MedianTip 1000000 ∧
    2 * 5000000 + 1000000 ≤ oneGwei ∧
    computeFees quietBase oneGwei u128Max = .error .errFeeCapExceeded :=
  ⟨rfl, rfl, quietBase_median, by decide, by decide⟩

end Defaults

end RobotMoney.Client
