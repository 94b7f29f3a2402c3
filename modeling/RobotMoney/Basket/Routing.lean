import RobotMoney.Basket.Approvals

/-!
# How a deposit is routed

`_routeDeposit` allots an equal part of the amount to every active entry, and to the first the rest of the
division too (`allotments`).  The amounts allotted sum to the amount whatever entries are inactive between the
active ones (`allotments_sum`), the purchases made are those of the amounts that are not zero (`Purchases`),
and each leaves the router unapproved (`routing_exact`).
-/

namespace RobotMoney.Basket

open RobotMoney.Lib State

variable {V : Type} {env : Env V} {s s' : State env} {is : List (AssetInfo env)} {i : AssetInfo env}
  {w w' : World V}

/-! ### The parts -/

/-- What the active entries are allotted of an amount: each an equal part, rounded down, and the first the
rest too. -/
def allotments (usdcAmount : ℕ) (actives : List (AssetInfo env)) : List (AssetInfo env × ℕ) :=
  match actives with
  | [] => []
  | i :: is =>
    (i, usdcAmount / (i :: is).length + usdcAmount % (i :: is).length) ::
      is.map fun j => (j, usdcAmount / (i :: is).length)

/-- The parts that the loop of `_routeDeposit` takes. -/
def partsOf (perAsset remainder : ℕ) (first : Bool) (actives : List (AssetInfo env)) :
    List (AssetInfo env × ℕ) :=
  match actives with
  | [] => []
  | i :: is => (i, if first then perAsset + remainder else perAsset) :: is.map fun j => (j, perAsset)

theorem partsOf_false (perAsset remainder : ℕ) (is : List (AssetInfo env)) :
    partsOf perAsset remainder false is = is.map fun j => (j, perAsset) := by
  cases is with
  | nil => rfl
  | cons i is => rfl

theorem partsOf_cons (perAsset remainder : ℕ) (first : Bool) :
    partsOf perAsset remainder first (i :: is) =
      (i, if first then perAsset + remainder else perAsset) :: partsOf perAsset remainder false is := by
  rw [partsOf_false]
  rfl

/-- The parts of the loop are the allotments. -/
theorem partsOf_eq_allotments (usdcAmount : ℕ) (actives : List (AssetInfo env)) :
    partsOf (usdcAmount / actives.length) (usdcAmount - usdcAmount / actives.length * actives.length) true
      actives = allotments usdcAmount actives := by
  cases actives with
  | nil => rfl
  | cons i is =>
    have hrest : usdcAmount - usdcAmount / (i :: is).length * (i :: is).length =
        usdcAmount % (i :: is).length := by
      rw [Nat.mul_comm]
      exact (Nat.mod_eq_sub_mul_div).symm
    unfold partsOf allotments
    rw [hrest, if_pos rfl]

/-- **The allotments sum to the amount.** -/
theorem allotments_sum {usdcAmount : ℕ} {actives : List (AssetInfo env)} (h : actives ≠ []) :
    ((allotments usdcAmount actives).map Prod.snd).sum = usdcAmount := by
  cases actives with
  | nil => exact absurd rfl h
  | cons i is =>
    have hdivmod := Nat.div_add_mod usdcAmount (is.length + 1)
    have hrest : ((is.map fun j => (j, usdcAmount / (i :: is).length)).map Prod.snd).sum =
        is.length * (usdcAmount / (is.length + 1)) := by
      rw [List.map_map]
      simp [Function.comp_def]
    unfold allotments
    rw [List.map_cons, List.sum_cons, hrest]
    simp only [List.length_cons]
    rw [Nat.add_mul, Nat.one_mul] at hdivmod
    omega

/-! ### The purchases -/

/-- One purchase after another, for the amounts allotted; for nothing, none is made. -/
inductive Purchases (s : State env) :
    World V → List (AssetInfo env × ℕ) → World V → List Swapped → Prop
  | nil {w : World V} : Purchases s w [] w []
  | skip {w w' : World V} {i : AssetInfo env} {parts : List (AssetInfo env × ℕ)} {swaps : List Swapped}
      (rest : Purchases s w parts w' swaps) : Purchases s w ((i, 0) :: parts) w' swaps
  | buy {w w₁ w' : World V} {i : AssetInfo env} {amount quote out : ℕ}
      {parts : List (AssetInfo env × ℕ)} {swaps : List Swapped} (pos : 0 < amount)
      (quoted : s.twapTokenValue w.ext i.pool i.token amount = .ok quote)
      (minimum : quote * (maxBps - s.maxSlippageBps.1) / maxBps ≤ out)
      (taken : w₁.held env env.usdc + amount = w.held env env.usdc)
      (unapproved : w₁.allowed env env.usdc = 0) (rest : Purchases s w₁ parts w' swaps) :
      Purchases s w ((i, amount) :: parts) w' (⟨env.usdc, i.token, amount, out⟩ :: swaps)

/-- The loop makes the purchases of its parts. -/
theorem routeLoop_purchases (hpools : PoolsPair env) (htakes : TakesExactly env) (hmin : HonoursMinimum env)
    {perAsset remainder : ℕ} {first : Bool} {swaps : List Swapped}
    (h : s.routeLoop perAsset remainder w is first = .ok (w', swaps)) :
    Purchases s w (partsOf perAsset remainder first (is.filter fun i => i.active)) w' swaps := by
  induction is generalizing w first swaps with
  | nil =>
    cases h
    exact .nil
  | cons i is ih =>
    unfold State.routeLoop at h
    cases hactive : i.active with
    | false =>
      rw [if_pos hactive] at h
      rw [List.filter_cons_of_neg (by simp [hactive])]
      exact ih h
    | true =>
      rw [if_neg (by simp [hactive])] at h
      rw [List.filter_cons_of_pos hactive]
      rw [partsOf_cons]
      dsimp only at h
      generalize (if first = true then perAsset + remainder else perAsset) = swapIn at h ⊢
      by_cases hzero : swapIn = 0
      · rw [if_pos hzero] at h
        subst hzero
        exact .skip (ih h)
      · rw [if_neg hzero] at h
        simp only [bind_eq_ok, Prod.exists, pure_eq_ok, Prod.mk.injEq] at h
        obtain ⟨quote, hquote, minOut, hfloor, w₁, out, hswap, w₂, rest, hloop, rfl, rfl⟩ := h
        obtain ⟨v₁, v₂, hrouted, h₁, h₂, -, -⟩ := swap_eq_ok hswap
        obtain ⟨product, hproduct, hfloor⟩ := bind_eq_ok.mp hfloor
        obtain ⟨-, rfl⟩ := mulU_eq_ok.mp hproduct
        cases hfloor
        have htaken := htakes.takes _ _ _ _ hrouted rfl (hpools.token_ne_usdc i).symm
        refine .buy (Nat.pos_of_ne_zero hzero) hquote (hmin.le _ _ _ _ hrouted) ?_ (swap_allowed hswap)
          (ih hloop)
        rw [h₂, ← h₁ env.usdc]
        exact htaken

/-- Tokens that are not bought stay as they are. -/
theorem routeLoop_other (hleaves : LeavesOthers env) {perAsset remainder : ℕ} {first : Bool}
    {swaps : List Swapped} (h : s.routeLoop perAsset remainder w is first = .ok (w', swaps)) {t : Address}
    (ht : t ∉ activeTokens is) (hu : t ≠ env.usdc) : w'.held env t = w.held env t := by
  induction is generalizing w first swaps with
  | nil =>
    cases h
    rfl
  | cons i is ih =>
    unfold State.routeLoop at h
    cases hactive : i.active with
    | false =>
      rw [if_pos hactive] at h
      rw [activeTokens_cons_of_not hactive] at ht
      exact ih h ht
    | true =>
      rw [if_neg (by simp [hactive])] at h
      rw [activeTokens_cons hactive] at ht
      obtain ⟨hti, ht⟩ := not_or.mp (mt List.mem_cons.mpr ht)
      dsimp only at h
      generalize (if first = true then perAsset + remainder else perAsset) = swapIn at h
      by_cases hzero : swapIn = 0
      · rw [if_pos hzero] at h
        exact ih h ht
      · rw [if_neg hzero] at h
        simp only [bind_eq_ok, Prod.exists, pure_eq_ok, Prod.mk.injEq] at h
        obtain ⟨quote, -, minOut, -, w₁, out, hswap, w₂, rest, hloop, rfl, rfl⟩ := h
        obtain ⟨v₁, v₂, hrouted, h₁, h₂, -, -⟩ := swap_eq_ok hswap
        rw [ih hloop ht, h₂, hleaves.other _ _ _ _ hrouted rfl t hu hti, h₁]

section Purchases

variable {parts : List (AssetInfo env × ℕ)} {swaps : List Swapped}

/-- The purchases made are those of the amounts that are not zero. -/
theorem Purchases.swaps_eq (h : Purchases s w parts w' swaps) :
    swaps.map (fun x => (x.tokenIn, x.tokenOut, x.amountIn)) =
      (parts.filter fun p => decide (0 < p.2)).map fun p => (env.usdc, p.1.token, p.2) := by
  induction h with
  | nil => rfl
  | skip _ ih =>
    rw [List.filter_cons_of_neg (by simp)]
    exact ih
  | buy pos _ _ _ _ _ ih =>
    rw [List.filter_cons_of_pos (by simpa using pos), List.map_cons, List.map_cons, ih]

/-- The amounts that go in are the parts. -/
theorem Purchases.spent (h : Purchases s w parts w' swaps) :
    (swaps.map fun x => x.amountIn).sum = (parts.map Prod.snd).sum := by
  induction h with
  | nil => rfl
  | skip _ ih => simpa using ih
  | buy _ _ _ _ _ _ ih => simp [ih]

/-- What is taken of the vault's USDC. -/
theorem Purchases.taken (h : Purchases s w parts w' swaps) :
    w'.held env env.usdc + (parts.map Prod.snd).sum = w.held env env.usdc := by
  induction h with
  | nil => rfl
  | skip _ ih => simpa using ih
  | buy _ _ _ htaken _ _ ih =>
    simp only [List.map_cons, List.sum_cons]
    omega

/-- What the router may take of the vault's USDC afterwards. -/
theorem Purchases.allowed (h : Purchases s w parts w' swaps) :
    w'.allowed env env.usdc = if swaps = [] then w.allowed env env.usdc else 0 := by
  induction h with
  | nil => rfl
  | skip _ ih => exact ih
  | buy _ _ _ _ hunapproved _ ih =>
    rw [ih, if_neg (List.cons_ne_nil _ _)]
    split
    · exact hunapproved
    · rfl

end Purchases

/-! ### The whole routing -/

/-- What `_routeDeposit(usdcAmount)` does. -/
structure Routed (s s' : State env) (usdcAmount : ℕ) (swaps : List Swapped) : Prop where
  storage : s' = { s with world := s'.world }
  purchases : Purchases s s.world (allotments usdcAmount s.activeAssets) s'.world swaps
  /-- the swaps are those of the allotments that are not zero, in the order of the list -/
  made : swaps.map (fun x => (x.tokenIn, x.tokenOut, x.amountIn)) =
    ((allotments usdcAmount s.activeAssets).filter fun p => decide (0 < p.2)).map
      fun p => (env.usdc, p.1.token, p.2)
  total : (swaps.map fun x => x.amountIn).sum = usdcAmount
  idle : s'.idle + usdcAmount = s.idle
  unapproved : 0 < usdcAmount ∨ s.world.allowed env env.usdc = 0 → s'.world.allowed env env.usdc = 0
  untouched : LeavesOthers env → ∀ t, t ∉ activeTokens s.assets → t ≠ env.usdc →
    s'.world.held env t = s.world.held env t

theorem allotments_zero (actives : List (AssetInfo env)) :
    allotments 0 actives = actives.map fun i => (i, 0) := by
  cases actives with
  | nil => rfl
  | cons i is => simp [allotments]

theorem Purchases.of_zero (is : List (AssetInfo env)) :
    Purchases s w (is.map fun i => (i, 0)) w [] := by
  induction is with
  | nil => exact .nil
  | cons i is ih => exact .skip ih

theorem routeDeposit_routed (hpools : PoolsPair env) (htakes : TakesExactly env) (hmin : HonoursMinimum env)
    (hactive : 0 < s.activeAssetCount) {usdcAmount : ℕ} {swaps : List Swapped}
    (h : s.routeDeposit usdcAmount = .ok (s', swaps)) : Routed s s' usdcAmount swaps := by
  have hsome : s.activeAssets ≠ [] := List.ne_nil_of_length_pos hactive
  have hstorage := routeDeposit_frame h
  unfold State.routeDeposit at h
  -- the purchases, and what is left alone
  have hmade : Purchases s s.world (allotments usdcAmount s.activeAssets) s'.world swaps ∧
      (LeavesOthers env → ∀ t, t ∉ activeTokens s.assets → t ≠ env.usdc →
        s'.world.held env t = s.world.held env t) := by
    by_cases hzero : usdcAmount = 0
    · rw [if_pos (.inr hzero)] at h
      cases h
      subst hzero
      rw [allotments_zero]
      exact ⟨.of_zero _, fun _ _ _ _ => rfl⟩
    · rw [if_neg (not_or.mpr ⟨hactive.ne', hzero⟩)] at h
      simp only [bind_eq_ok, Prod.exists, pure_eq_ok, Prod.mk.injEq] at h
      obtain ⟨w, swaps', hloop, rfl, rfl⟩ := h
      refine ⟨?_, fun hleaves t ht hu => routeLoop_other hleaves hloop ht hu⟩
      rw [← partsOf_eq_allotments]
      exact routeLoop_purchases hpools htakes hmin hloop
  obtain ⟨hpurchases, huntouched⟩ := hmade
  have hsum : ((allotments usdcAmount s.activeAssets).map Prod.snd).sum = usdcAmount := allotments_sum hsome
  have htotal := hpurchases.spent.trans hsum
  have htaken := hpurchases.taken
  rw [hsum] at htaken
  refine ⟨hstorage, hpurchases, hpurchases.swaps_eq, htotal, htaken, ?_, huntouched⟩
  intro hcase
  rw [hpurchases.allowed]
  split
  · rename_i hnone
    rcases hcase with hpos | hzero
    · rw [hnone] at htotal
      exact absurd htotal hpos.ne
    · exact hzero
  · rfl

/-- A deposit leaves the USDC that was idle before it. -/
theorem depositInternal_idle (hpools : PoolsPair env) (htakes : TakesExactly env) (hmin : HonoursMinimum env)
    {caller receiver : Address} {usdcAmount sh : ℕ} {swaps : List Swapped} (hcaller : caller ≠ env.self)
    (h : s.depositInternal caller receiver usdcAmount sh = .ok (s', swaps)) : s'.idle = s.idle := by
  obtain ⟨-, -, -, hactive, total, usdc, shares, -, -, husdc, -, hroute⟩ := depositInternal_eq_ok h
  have hrouted : Routed { s with shares, world := s.world.setLedger env.usdc usdc } s' usdcAmount swaps :=
    routeDeposit_routed hpools htakes hmin (by exact hactive) hroute
  have hidle := hrouted.idle
  have hpulled : State.idle { s with shares, world := s.world.setLedger env.usdc usdc } =
      s.idle + usdcAmount := by
    change (s.world.setLedger env.usdc usdc).held env env.usdc = _
    rw [held_setLedger_self, (Token.transferFrom_balances husdc).2.1, Token.moved_dst hcaller]
    rfl
  rw [hpulled] at hidle
  exact Nat.add_right_cancel hidle

/-- **Routing is exact.**  For pools that pair two tokens and a router that takes exactly what goes in and
honours the minimum: every list with an active entry is bought what it is allotted, a deposit leaves the USDC
that was idle, and in every run in which nobody else approves the router for the vault it is approved for
nothing between two calls. -/
theorem routing_exact (hpools : PoolsPair env) (htakes : TakesExactly env) (hmin : HonoursMinimum env) :
    (∀ (s s' : State env) usdcAmount swaps, 0 < s.activeAssetCount →
      s.routeDeposit usdcAmount = .ok (s', swaps) → Routed s s' usdcAmount swaps) ∧
    (∀ (s s' : State env) caller receiver usdcAmount sh swaps, caller ≠ env.self →
      s.depositInternal caller receiver usdcAmount sh = .ok (s', swaps) → s'.idle = s.idle) ∧
    (KeepsAllowances env → env.router ≠ env.self → ∀ (s₀ : State env) txs, Unapproved env s₀.world →
      (∀ tx ∈ txs, ∀ world, tx.call = .elsewhere world → Unapproved env world) →
      (run exec s₀ txs).world.allowed env env.usdc = 0) := by
  refine ⟨?_, ?_, ?_⟩
  · intro s s' usdcAmount swaps hactive h
    exact routeDeposit_routed hpools htakes hmin hactive h
  · intro s s' caller receiver usdcAmount sh swaps hcaller h
    exact depositInternal_idle hpools htakes hmin hcaller h
  · intro hkeeps hrouter s₀ txs h₀ helsewhere
    exact run_unapproved hkeeps hrouter h₀ txs helsewhere env.usdc

theorem issuable_5000 : (Token.empty : Token Address).totalSupply + 5000 < wordSize := by decide

theorem issuable_101 : (Token.empty.issue (3 : Address) 5000 issuable_5000).totalSupply + 101 < wordSize := by
  decide

/-- A vault with two active entries and 101 units of USDC. -/
def funded : State parBasket :=
  { inUse with world := { parWorld with
      ledger := Function.update parWorld.ledger 2 ((Token.empty.issue 3 5000 issuable_5000).issue 1 101 issuable_101) } }

/-- The first token is bought for 51 units and the second for 50. -/
theorem routing_exact_funded :
    (∃ s' swaps, funded.routeDeposit 101 = .ok (s', swaps) ∧ Routed funded s' 101 swaps ∧
      swaps.map (fun x => (x.tokenIn, x.tokenOut, x.amountIn)) = [(2, 10, 51), (2, 13, 50)]) ∧
    (∃ s' swaps, inUse.depositInternal 5 5 100 1 = .ok (s', swaps) ∧ s'.idle = inUse.idle) ∧
    inUse.world.allowed parBasket parBasket.usdc = 0 := by
  have htakes : TakesExactly parBasket := (exact_par (by decide)).takesExactly
  obtain ⟨hrouted, hidle, hrun⟩ := routing_exact poolsPair_parBasket htakes honours_par
  refine ⟨?_, ?_, ?_⟩
  · have hsome : succeeds (funded.routeDeposit 101) = true := by decide +kernel
    obtain ⟨⟨s', swaps⟩, h⟩ := succeeds_iff.mp hsome
    have hspec := hrouted _ _ _ _ (by decide +kernel) h
    refine ⟨s', swaps, h, hspec, hspec.made.trans ?_⟩
    decide +kernel
  · have hsome : succeeds (inUse.depositInternal 5 5 100 1) = true := by decide +kernel
    obtain ⟨⟨s', swaps⟩, h⟩ := succeeds_iff.mp hsome
    exact ⟨s', swaps, h, hidle _ _ _ _ _ _ _ (by decide) h⟩
  · refine hrun keepsAllowances_par (by decide) deployed opened ?_ ?_
    · intro t
      change (parWorld.ledger t).allowance 1 3 = 0
      unfold parWorld
      dsimp only
      split
      · decide
      · rfl
    · intro tx htx world hcall
      unfold opened at htx
      simp only [List.mem_cons, List.not_mem_nil, or_false] at htx
      rcases htx with rfl | rfl | rfl <;> cases hcall

end RobotMoney.Basket
