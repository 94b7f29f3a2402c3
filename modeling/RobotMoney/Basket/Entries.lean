import RobotMoney.Basket.Router
import RobotMoney.Lib.Run

/-!
# The entries of the list of assets

Entries are appended, and made inactive; none is ever deleted.  Pricing, buying and selling all walk the
active entries, so a token with two of them is counted, bought and sold twice.  Nothing but `addAsset`
makes an entry active, and it does not look whether its token has one already: the entries stay distinct
if and only if no such call is made (`tokens_distinct_iff`).
-/

namespace RobotMoney.Basket

open RobotMoney.Lib State

variable {V : Type} {env : Env V} {s s' s₀ : State env} {tx : Tx (BasketCall V)}
  {i : AssetInfo env} {is : List (AssetInfo env)} {w w' : World V}

/-! ### The active entries -/

/-- The tokens of the active entries of a list, in its order. -/
def activeTokens (is : List (AssetInfo env)) : List Address :=
  (is.filter fun i => i.active).map fun i => i.token

theorem activeTokens_cons (hactive : i.active = true) :
    activeTokens (i :: is) = i.token :: activeTokens is := by
  simp [activeTokens, hactive]

theorem activeTokens_cons_of_not (hactive : i.active = false) :
    activeTokens (i :: is) = activeTokens is := by
  simp [activeTokens, hactive]

theorem activeTokens_append (is : List (AssetInfo env)) (hactive : i.active = true) :
    activeTokens (is ++ [i]) = activeTokens is ++ [i.token] := by
  simp [activeTokens, List.filter_append, hactive]

/-- An entry made inactive. -/
theorem activeTokens_set : ∀ {is : List (AssetInfo env)} {index : ℕ}, is[index]? = some i →
    (activeTokens (is.set index { i with active := false })).Sublist (activeTokens is)
  | j :: is, 0, h => by
    obtain rfl : j = i := by simpa using h
    rw [List.set_cons_zero, activeTokens_cons_of_not rfl]
    cases hj : j.active with
    | true =>
      rw [activeTokens_cons hj]
      exact List.sublist_cons_self _ _
    | false =>
      rw [activeTokens_cons_of_not hj]
  | j :: is, index + 1, h => by
    have hentry : is[index]? = some i := by simpa using h
    have hrest := activeTokens_set hentry
    rw [List.set_cons_succ]
    cases hj : j.active with
    | true =>
      rw [activeTokens_cons hj, activeTokens_cons hj]
      exact hrest.cons_cons j.token
    | false =>
      rw [activeTokens_cons_of_not hj, activeTokens_cons_of_not hj]
      exact hrest

/-- With distinct tokens, the first active entry of a token is its only one. -/
theorem find_active : ∀ {is : List (AssetInfo env)}, (activeTokens is).Nodup →
    ∀ {i : AssetInfo env}, i ∈ is → i.active = true →
      is.find? (fun j => j.active && decide (j.token = i.token)) = some i
  | j :: is, hnodup, i, hi, hactive => by
    cases hj : j.active with
    | false =>
      rw [activeTokens_cons_of_not hj] at hnodup
      have hne : i ≠ j := by
        rintro rfl
        rw [hactive] at hj
        cases hj
      have hrest : i ∈ is := (List.mem_cons.mp hi).resolve_left hne
      rw [List.find?_cons_of_neg (by simp [hj])]
      exact find_active hnodup hrest hactive
    | true =>
      rw [activeTokens_cons hj] at hnodup
      obtain ⟨hout, hnodup⟩ := List.nodup_cons.mp hnodup
      rcases List.mem_cons.mp hi with rfl | hrest
      · rw [List.find?_cons_of_pos (by simp [hactive])]
      · have hin : i.token ∈ activeTokens is :=
          List.mem_map.mpr ⟨i, List.mem_filter.mpr ⟨hrest, hactive⟩, rfl⟩
        have hne : j.token ≠ i.token := fun heq => hout (heq ▸ hin)
        rw [List.find?_cons_of_neg (by simp [hne])]
        exact find_active hnodup hrest hactive

/-! ### What the active entries are worth -/

/-- A value, zero where the call reverts. -/
def valueOr0 (x : Call BasketError ℕ) : ℕ :=
  match x with
  | .ok v => v
  | .error _ => 0

/-- What the vault's balance of the token of an entry is worth. -/
def entryWorth (s : State env) (i : AssetInfo env) : ℕ :=
  valueOr0 (s.twapUsdcValue s.world.ext i.pool i.token (s.world.held env i.token))

/-- What the vault's balance of a token is worth, by the active entry that names it. -/
def tokenWorth (s : State env) (token : Address) : ℕ :=
  valueOr0 (do
    let i ← s.activeAssetForToken token
    pure (entryWorth s i))

theorem entryWorth_of_empty (h : s.world.held env i.token = 0) : entryWorth s i = 0 := by
  simp [entryWorth, h, State.twapUsdcValue, State.twapQuote, valueOr0]

theorem totalLoop_eq_ok {sum A : ℕ} (h : s.totalLoop sum is = .ok A) :
    A = sum + ((is.filter fun i => i.active).map (entryWorth s)).sum := by
  induction is generalizing sum with
  | nil =>
    cases h
    rfl
  | cons i is ih =>
    unfold State.totalLoop at h
    cases hactive : i.active with
    | false =>
      rw [if_pos hactive] at h
      rw [List.filter_cons_of_neg (by simp [hactive])]
      exact ih h
    | true =>
      rw [if_neg (by simp [hactive])] at h
      rw [List.filter_cons_of_pos hactive, List.map_cons, List.sum_cons]
      by_cases hheld : 0 < s.world.held env i.token
      · rw [if_pos hheld] at h
        simp only [bind_eq_ok] at h
        obtain ⟨value, hvalue, sum', hsum, h⟩ := h
        obtain ⟨-, rfl⟩ := addU_eq_ok.mp hsum
        have hworth : entryWorth s i = value := by simp [entryWorth, hvalue, valueOr0]
        rw [ih h, hworth, Nat.add_assoc]
      · rw [if_neg hheld] at h
        have hzero : s.world.held env i.token = 0 := by omega
        rw [ih h, entryWorth_of_empty hzero, Nat.zero_add]

theorem totalAssets_eq_ok {A : ℕ} (h : s.totalAssets = .ok A) :
    A = s.idle + (s.activeAssets.map (entryWorth s)).sum :=
  totalLoop_eq_ok h

theorem tokenWorth_eq (hnodup : (activeTokens s.assets).Nodup) (hi : i ∈ s.activeAssets) :
    tokenWorth s i.token = entryWorth s i := by
  obtain ⟨hmem, hactive⟩ := List.mem_filter.mp hi
  have hfind := find_active hnodup hmem hactive
  unfold tokenWorth State.activeAssetForToken
  rw [hfind]
  rfl

/-! ### What is bought and sold -/

/-- Routing buys the tokens of active entries, in the order of the list. -/
theorem routeLoop_bought {perAsset remainder : ℕ} {first : Bool} {swaps : List Swapped}
    (h : s.routeLoop perAsset remainder w is first = .ok (w', swaps)) :
    (swaps.map fun x => x.tokenOut).Sublist (activeTokens is) := by
  induction is generalizing w first swaps with
  | nil =>
    cases h
    exact List.Sublist.slnil
  | cons i is ih =>
    unfold State.routeLoop at h
    cases hactive : i.active with
    | false =>
      rw [if_pos hactive] at h
      rw [activeTokens_cons_of_not hactive]
      exact ih h
    | true =>
      rw [if_neg (by simp [hactive])] at h
      rw [activeTokens_cons hactive]
      dsimp only at h
      generalize (if first = true then perAsset + remainder else perAsset) = swapIn at h
      by_cases hzero : swapIn = 0
      · rw [if_pos hzero] at h
        exact (ih h).cons i.token
      · rw [if_neg hzero] at h
        simp only [bind_eq_ok, Prod.exists, pure_eq_ok, Prod.mk.injEq] at h
        obtain ⟨quote, -, minOut, -, w₁, out, -, w₂, rest, hrest, rfl, rfl⟩ := h
        exact (ih hrest).cons_cons i.token

/-- Selling sells the tokens of active entries, in the order of the list. -/
theorem sellLoop_sold {shares supply acc usdcOut : ℕ} {swaps : List Swapped}
    (h : s.sellLoop shares supply w is acc = .ok (w', usdcOut, swaps)) :
    (swaps.map fun x => x.tokenIn).Sublist (activeTokens is) := by
  induction is generalizing w acc usdcOut swaps with
  | nil =>
    cases h
    exact List.Sublist.slnil
  | cons i is ih =>
    unfold State.sellLoop at h
    cases hactive : i.active with
    | false =>
      rw [if_pos hactive] at h
      rw [activeTokens_cons_of_not hactive]
      exact ih h
    | true =>
      rw [if_neg (by simp [hactive])] at h
      rw [activeTokens_cons hactive]
      by_cases hheld : w.held env i.token = 0
      · rw [if_pos hheld] at h
        exact (ih h).cons i.token
      · rw [if_neg hheld] at h
        obtain ⟨sellAmount, -, h⟩ := bind_eq_ok.mp h
        by_cases hzero : sellAmount = 0
        · rw [if_pos hzero] at h
          exact (ih h).cons i.token
        · rw [if_neg hzero] at h
          simp only [bind_eq_ok, Prod.exists, pure_eq_ok, Prod.mk.injEq] at h
          obtain ⟨quote, -, minOut, -, w₁, received, -, acc', -, w₂, out, rest, hrest, rfl, rfl, rfl⟩ := h
          exact (ih hrest).cons_cons i.token

/-! ### What a call does to the list -/

/-- What a successful call does to the list of assets. -/
inductive Effect (s : State env) (tx : Tx (BasketCall V)) : List (AssetInfo env) → Prop
  | quiet : Effect s tx s.assets
  | added {i : AssetInfo env} {actual : ℕ} (hcall : tx.call = .addAsset i.token i.pool i.swapFee)
      (hadmin : s.roles .adminRole tx.sender = true) (hcount : s.assets.length < env.maxAssets)
      (hpool : env.observationCardinality s.world.ext i.pool = some actual)
      (hactual : minPoolCardinality ≤ actual) (hactive : i.active = true) :
      Effect s tx (s.assets ++ [i])
  | removed {index : ℕ} {i : AssetInfo env} (hentry : s.assets[index]? = some i) :
      Effect s tx (s.assets.set index { i with active := false })

theorem routeDeposit_frame {amount : ℕ} {swaps : List Swapped}
    (h : s.routeDeposit amount = .ok (s', swaps)) : s' = { s with world := s'.world } := by
  unfold State.routeDeposit at h
  by_cases hnone : s.activeAssetCount = 0 ∨ amount = 0
  · rw [if_pos hnone] at h
    cases h
    rfl
  · rw [if_neg hnone] at h
    simp only [bind_eq_ok, Prod.exists, pure_eq_ok, Prod.mk.injEq] at h
    obtain ⟨w, rest, -, rfl, -⟩ := h
    rfl

/-- What a deposit checks and does. -/
theorem depositInternal_eq_ok {caller receiver : Address} {amount sh : ℕ} {swaps : List Swapped}
    (h : s.depositInternal caller receiver amount sh = .ok (s', swaps)) :
    s.paused = false ∧ s.shutdown = false ∧ amount ≤ s.perDepositCap ∧ 0 < s.activeAssetCount ∧
      ∃ total usdc shares, s.totalAssets = .ok total ∧ total + amount ≤ s.tvlCap ∧
        ((s.world.ledger env.usdc).transferFrom env.self caller env.self amount :
          Call BasketError (Token Address)) = .ok usdc ∧
        (s.shares.mint receiver sh : Call BasketError (Token Address)) = .ok shares ∧
        State.routeDeposit { s with shares, world := s.world.setLedger env.usdc usdc } amount =
          .ok (s', swaps) := by
  unfold State.depositInternal at h
  simp only [bind_eq_ok, revertIf_eq_ok, addU_eq_ok] at h
  obtain ⟨_, hpaused, _, hshutdown, _, hcap, total, htotal, total', ⟨-, rfl⟩, _, htvl, _, hactive, usdc, husdc,
    shares, hshares, h⟩ := h
  exact ⟨Bool.eq_false_of_not_eq_true hpaused, Bool.eq_false_of_not_eq_true hshutdown,
    Nat.le_of_not_lt hcap, Nat.pos_of_ne_zero hactive, total, usdc, shares, htotal, Nat.le_of_not_lt htvl,
    husdc, hshares, h⟩

theorem depositInternal_assets {caller receiver : Address} {amount sh : ℕ} {swaps : List Swapped}
    (h : s.depositInternal caller receiver amount sh = .ok (s', swaps)) : s'.assets = s.assets := by
  obtain ⟨-, -, -, -, total, usdc, shares, -, -, -, -, hroute⟩ := depositInternal_eq_ok h
  rw [routeDeposit_frame hroute]

theorem withdrawInternal_assets {caller receiver owner : Address} {sh : ℕ}
    {out : List Swapped × ExitFeeCharged}
    (h : s.withdrawInternal caller receiver owner sh = .ok (s', out)) : s'.assets = s.assets := by
  unfold State.withdrawInternal at h
  simp only [bind_eq_ok, Prod.exists, pure_eq_ok, Prod.mk.injEq] at h
  obtain ⟨_, -, t, -, t', -, w, usdcReceived, swaps, -, fee, -, net, -, u, -, u', -, rfl, -⟩ := h
  rfl

section Results

variable {r : Receipt}

theorem silent_eq_ok {x : Call BasketError (State env)} (h : silent x = .ok (s', r)) : x = .ok s' := by
  obtain ⟨s₁, hx, h⟩ := bind_eq_ok.mp h
  cases h
  exact hx

theorem swapping_eq_ok {x : Call BasketError (State env × List Swapped)}
    (h : swapping x = .ok (s', r)) : x = .ok (s', r.swaps) := by
  obtain ⟨⟨s₁, swaps⟩, hx, h⟩ := bind_eq_ok.mp h
  cases h
  exact hx

theorem paying_eq_ok {x : Call BasketError (State env × ℕ × List Swapped)}
    (h : paying x = .ok (s', r)) : x = .ok (s', r.value, r.swaps) := by
  obtain ⟨⟨s₁, value, swaps⟩, hx, h⟩ := bind_eq_ok.mp h
  cases h
  exact hx

theorem redeeming_eq_ok {x : Call BasketError (State env × ℕ × List Swapped × ExitFeeCharged)}
    (h : redeeming x = .ok (s', r)) :
    ∃ charge, x = .ok (s', r.value, r.swaps, charge) ∧ r.charge = some charge := by
  obtain ⟨⟨s₁, value, swaps, charge⟩, hx, h⟩ := bind_eq_ok.mp h
  cases h
  exact ⟨charge, hx, rfl⟩

end Results

theorem answer_eq_ok {α : Type} {x : Option α} {a : α} (h : answer x = .ok a) : x = some a := by
  cases x with
  | none => cases h
  | some b =>
    cases h
    rfl

/-- What a successful call does, by what it may reach: the list and the world, or the world alone. -/
inductive Step (s : State env) (tx : Tx (BasketCall V)) : State env → Prop
  | kept {s' : State env} (hassets : Effect s tx s'.assets) (hworld : s'.world = s.world) : Step s tx s'
  | deposited {s' : State env} {caller receiver : Address} {amount sh : ℕ} {swaps : List Swapped}
      (h : s.depositInternal caller receiver amount sh = .ok (s', swaps)) : Step s tx s'
  | withdrawn {s' : State env} {caller receiver owner : Address} {sh : ℕ} {swaps : List Swapped}
      {charge : ExitFeeCharged} (h : s.withdrawInternal caller receiver owner sh = .ok (s', swaps, charge)) :
      Step s tx s'
  | unwound {w : World V} {swaps : List Swapped} (h : s.unwindLoop s.world s.assets = .ok (w, swaps)) :
      Step s tx { s with paused := true, world := w }
  | overridden {tokens : List Address} {w : World V} {swaps : List Swapped}
      (h : s.overrideLoop s.world tokens = .ok (w, swaps)) : Step s tx { s with paused := true, world := w }
  | sent {s' : State env} {token dst : Address} (h : s.sendAll token dst = .ok s') : Step s tx s'
  | elsewhere {world : World V} (hcall : tx.call = .elsewhere world) : Step s tx { s with world }

theorem addAsset_step {token pool : Address} {swapFee : ℕ} (hcall : tx.call = .addAsset token pool swapFee)
    (h : s.addAsset tx.sender token pool swapFee = .ok s') : Step s tx s' := by
  unfold State.addAsset at h
  obtain ⟨_, hadmin, h⟩ := bind_eq_ok.mp h
  by_cases hne : token ≠ 0 ∧ pool ≠ 0
  · rw [dif_pos hne] at h
    simp only [bind_eq_ok] at h
    obtain ⟨_, hcount, _, -, _, -, h⟩ := h
    by_cases hpaired : env.Paired pool token
    · rw [dif_pos hpaired] at h
      simp only [bind_eq_ok, pure_eq_ok] at h
      obtain ⟨actual, hactual, _, hcardinality, rfl⟩ := h
      refine .kept ?_ rfl
      exact .added (i := ⟨token, pool, swapFee, true, hne.1, hne.2, hpaired⟩) hcall
        (Roles.check_eq_ok.mp hadmin) (Nat.lt_of_not_le (revertIf_eq_ok.mp hcount))
        (answer_eq_ok hactual) (Nat.le_of_not_lt (revertIf_eq_ok.mp hcardinality)) rfl
    · rw [dif_neg hpaired] at h
      cases h
  · rw [dif_neg hne] at h
    cases h

theorem removeAsset_step {sender : Address} {index : ℕ} (h : s.removeAsset sender index = .ok s') :
    Step s tx s' := by
  unfold State.removeAsset at h
  obtain ⟨_, -, h⟩ := bind_eq_ok.mp h
  cases hentry : s.assets[index]? with
  | none =>
    rw [hentry] at h
    cases h
  | some i =>
    rw [hentry] at h
    simp only [bind_eq_ok, pure_eq_ok] at h
    obtain ⟨_, -, _, -, rfl⟩ := h
    exact .kept (.removed hentry) rfl

theorem exec_step {r : Receipt} (h : s.exec tx = .ok (s', r)) : Step s tx s' := by
  obtain ⟨b, sender, call, hsender⟩ := tx
  unfold State.exec at h
  cases call with
  | deposit =>
    have h := paying_eq_ok h
    simp only [State.deposit, bind_eq_ok, Prod.exists, pure_eq_ok, Prod.mk.injEq] at h
    obtain ⟨sh, -, s₁, swaps, hin, rfl, -⟩ := h
    exact .deposited hin
  | mint =>
    have h := paying_eq_ok h
    simp only [State.mint, bind_eq_ok, Prod.exists, pure_eq_ok, Prod.mk.injEq] at h
    obtain ⟨sh, -, s₁, swaps, hin, rfl, -⟩ := h
    exact .deposited hin
  | withdraw =>
    obtain ⟨charge, h, -⟩ := redeeming_eq_ok h
    simp only [State.withdraw, bind_eq_ok, Prod.exists, pure_eq_ok, Prod.mk.injEq] at h
    obtain ⟨_, -, _, -, sh, -, s₁, swaps, charge', hout, rfl, -⟩ := h
    exact .withdrawn hout
  | redeem =>
    obtain ⟨charge, h, -⟩ := redeeming_eq_ok h
    simp only [State.redeem, bind_eq_ok, Prod.exists, pure_eq_ok, Prod.mk.injEq] at h
    obtain ⟨_, -, assets, -, s₁, swaps, charge', hout, rfl, -⟩ := h
    exact .withdrawn hout
  | transfer | approve | transferFrom =>
    obtain ⟨shares, -, h⟩ := bind_eq_ok.mp h
    cases h
    exact .kept .quiet rfl
  | addAsset token pool swapFee => exact addAsset_step rfl (silent_eq_ok h)
  | removeAsset index => exact removeAsset_step (silent_eq_ok h)
  | pause | unpause =>
    have h := silent_eq_ok h
    simp only [State.pause, State.unpause, bind_eq_ok, pure_eq_ok] at h
    obtain ⟨_, -, _, -, rfl⟩ := h
    exact .kept .quiet rfl
  | emergencyUnwind =>
    have h := swapping_eq_ok h
    simp only [State.emergencyUnwind, bind_eq_ok, Prod.exists, pure_eq_ok, Prod.mk.injEq] at h
    obtain ⟨_, -, w, swaps, hloop, rfl, -⟩ := h
    exact .unwound hloop
  | emergencyUnwindWithOverride tokens =>
    have h := swapping_eq_ok h
    simp only [State.emergencyUnwindWithOverride, bind_eq_ok, Prod.exists, pure_eq_ok, Prod.mk.injEq] at h
    obtain ⟨_, -, w, swaps, hloop, rfl, -⟩ := h
    exact .overridden hloop
  | shutdownVault | setTvlCap | setPerDepositCap =>
    have h := silent_eq_ok h
    simp only [State.shutdownVault, State.setTvlCap, State.setPerDepositCap, bind_eq_ok, pure_eq_ok] at h
    obtain ⟨_, -, rfl⟩ := h
    exact .kept .quiet rfl
  | rescueTokens token dst =>
    have h := silent_eq_ok h
    simp only [State.rescueTokens, bind_eq_ok] at h
    obtain ⟨_, -, _, -, _, -, _, -, h⟩ := h
    exact .sent h
  | setExitFeeBps | setFeeRecipient | setMaxSlippageBps =>
    have h := silent_eq_ok h
    simp only [State.setExitFeeBps, State.setFeeRecipient, State.setMaxSlippageBps, bind_eq_ok] at h
    obtain ⟨_, -, h⟩ := h
    split at h
    · cases h
      exact .kept .quiet rfl
    · cases h
  | setEmergencyUnwindGuard | setTwapWindow =>
    have h := silent_eq_ok h
    simp only [State.setEmergencyUnwindGuard, State.setTwapWindow, bind_eq_ok] at h
    obtain ⟨_, -, h⟩ := h
    split at h
    · obtain ⟨i, -, h⟩ := bind_eq_ok.mp h
      cases h
      exact .kept .quiet rfl
    · cases h
  | grantRole | revokeRole | renounceRole =>
    obtain ⟨roles, -, h⟩ := bind_eq_ok.mp h
    cases h
    exact .kept .quiet rfl
  | elsewhere world =>
    cases h
    exact .elsewhere rfl

theorem sendAll_assets {token dst : Address} (h : s.sendAll token dst = .ok s') :
    s'.assets = s.assets := by
  unfold State.sendAll at h
  split at h
  all_goals
    obtain ⟨t, -, h⟩ := bind_eq_ok.mp h
    cases h
    rfl

theorem Effect.of_assets (h : s'.assets = s.assets) : Effect s tx s'.assets := h ▸ .quiet

/-- **What a call does to the list.** -/
theorem exec_effect {r : Receipt} (h : s.exec tx = .ok (s', r)) : Effect s tx s'.assets := by
  cases exec_step h with
  | kept hassets _ => exact hassets
  | deposited h => exact .of_assets (depositInternal_assets h)
  | withdrawn h => exact .of_assets (withdrawInternal_assets h)
  | sent h => exact .of_assets (sendAll_assets h)
  | unwound | overridden | elsewhere => exact .quiet

/-! ### The invariant -/

/-- No token has two active entries; so the total counts what each is worth once, a deposit buys each at
most once, and a redemption sells each at most once. -/
structure CountsOnce (s : State env) : Prop where
  nodup : (activeTokens s.assets).Nodup
  total : ∀ A, s.totalAssets = .ok A →
    A = s.idle + ∑ token ∈ (activeTokens s.assets).toFinset, tokenWorth s token
  bought : ∀ usdcAmount s' swaps, s.routeDeposit usdcAmount = .ok (s', swaps) →
    (swaps.map fun x => x.tokenOut).Nodup
  sold : ∀ shares supplyBefore w usdcOut swaps,
    s.sellProportional shares supplyBefore = .ok (w, usdcOut, swaps) →
      (swaps.map fun x => x.tokenIn).Nodup

theorem countsOnce_iff : CountsOnce s ↔ (activeTokens s.assets).Nodup := by
  refine ⟨fun h => h.nodup, fun h => ⟨h, ?_, ?_, ?_⟩⟩
  · intro A hA
    have hworth : s.activeAssets.map (entryWorth s) = (activeTokens s.assets).map (tokenWorth s) := by
      unfold activeTokens
      rw [List.map_map]
      exact List.map_congr_left fun i hi => (tokenWorth_eq h hi).symm
    rw [totalAssets_eq_ok hA, hworth, List.sum_toFinset _ h]
  · intro usdcAmount s' swaps hroute
    unfold State.routeDeposit at hroute
    by_cases hnone : s.activeAssetCount = 0 ∨ usdcAmount = 0
    · rw [if_pos hnone] at hroute
      cases hroute
      exact List.nodup_nil
    · rw [if_neg hnone] at hroute
      simp only [bind_eq_ok, Prod.exists, pure_eq_ok, Prod.mk.injEq] at hroute
      obtain ⟨w, rest, hloop, -, rfl⟩ := hroute
      exact (routeLoop_bought hloop).nodup h
  · intro shares supplyBefore w usdcOut swaps hsell
    unfold State.sellProportional at hsell
    obtain ⟨idlePart, -, hloop⟩ := bind_eq_ok.mp hsell
    exact (sellLoop_sold hloop).nodup h

/-- The call adds a token that has an active entry, and passes every check. -/
structure AddsAgain (s : State env) (tx : Tx (BasketCall V)) (token pool : Address) (swapFee : ℕ) :
    Prop where
  call : tx.call = .addAsset token pool swapFee
  active : token ∈ activeTokens s.assets
  admin : s.roles .adminRole tx.sender = true
  pool_ne : pool ≠ 0
  count : s.assets.length < env.maxAssets
  paired : env.Paired pool token
  cardinality : ∃ actual, env.observationCardinality s.world.ext pool = some actual ∧
    minPoolCardinality ≤ actual

theorem nodup_step {is : List (AssetInfo env)} (h : (activeTokens s.assets).Nodup) (he : Effect s tx is)
    (hagain : ∀ token pool swapFee, ¬ AddsAgain s tx token pool swapFee) : (activeTokens is).Nodup := by
  cases he with
  | quiet => exact h
  | added hcall hadmin hcount hpool hactual hactive =>
    rename_i i actual
    have hout : i.token ∉ activeTokens s.assets := fun hin =>
      hagain _ _ _ ⟨hcall, hin, hadmin, i.pool_ne, hcount, i.paired, actual, hpool, hactual⟩
    rw [activeTokens_append s.assets hactive]
    exact h.append (List.nodup_singleton i.token) (by simpa using hout)
  | removed hentry => exact (activeTokens_set hentry).nodup h

theorem answer_paired {pool token : Address} (h : env.Paired pool token) :
    ∃ a b, answer (env.token0 pool) = .ok a ∧ answer (env.token1 pool) = .ok b := by
  rcases h with ⟨h₀, h₁⟩ | ⟨h₁, h₀⟩
  all_goals
    rw [h₀, h₁]
    exact ⟨_, _, rfl, rfl⟩

/-- The token is added again, and has two active entries. -/
theorem AddsAgain.breaks {token pool : Address} {swapFee : ℕ} (h : AddsAgain s tx token pool swapFee) :
    ¬ (activeTokens (next exec s tx).assets).Nodup := by
  have hne : token ≠ 0 := by
    obtain ⟨i, -, rfl⟩ := List.mem_map.mp h.active
    exact i.token_ne
  obtain ⟨a, b, h₀, h₁⟩ := answer_paired h.paired
  obtain ⟨actual, hactual, hle⟩ := h.cardinality
  set i : AssetInfo env := ⟨token, pool, swapFee, true, hne, h.pool_ne, h.paired⟩ with hi
  have hadd : s.addAsset tx.sender token pool swapFee = .ok { s with assets := s.assets ++ [i] } := by
    unfold State.addAsset
    rw [(Roles.check_eq_ok (u := ())).mpr h.admin, ok_bind, dif_pos ⟨hne, h.pool_ne⟩,
      revertIf_neg (Nat.not_le.mpr h.count), ok_bind, h₀, ok_bind, h₁, ok_bind, dif_pos h.paired, hactual]
    change (revertIf (actual < minPoolCardinality) _ >>= fun _ => _) = _
    rw [revertIf_neg (Nat.not_lt.mpr hle)]
    rfl
  have hok : s.exec tx = .ok ({ s with assets := s.assets ++ [i] }, ⟨0, [], none⟩) := by
    unfold State.exec
    rw [h.call]
    dsimp only
    rw [hadd]
    rfl
  rw [next_of_ok hok]
  intro hnodup
  change (activeTokens (s.assets ++ [i])).Nodup at hnodup
  rw [activeTokens_append s.assets rfl, List.nodup_append] at hnodup
  obtain ⟨-, -, hdisjoint⟩ := hnodup
  exact hdisjoint token h.active token (List.mem_singleton_self token) rfl

theorem deploy_assets {tvlCap perDepositCap exitFeeBps initialSlippageBps : ℕ}
    {feeRecipient admin emergencyResponder : Address} {world : World V}
    (h : deploy env tvlCap perDepositCap exitFeeBps initialSlippageBps feeRecipient admin
      emergencyResponder world = .ok s₀) : s₀.assets = [] := by
  unfold State.deploy at h
  repeat' split at h
  all_goals cases h
  rfl

/-- **The tokens are distinct.**  In every state of a run from the constructor no token has two active
entries, and each is counted, bought and sold once, if and only if no call of the run adds a token that
has an active entry. -/
theorem tokens_distinct_iff {tvlCap perDepositCap exitFeeBps initialSlippageBps : ℕ}
    {feeRecipient admin emergencyResponder : Address} {world : World V}
    (h : deploy env tvlCap perDepositCap exitFeeBps initialSlippageBps feeRecipient admin
      emergencyResponder world = .ok s₀) (txs : List (Tx (BasketCall V))) :
    (∀ pre post, txs = pre ++ post → CountsOnce (run exec s₀ pre)) ↔
      ∀ pre tx post, txs = pre ++ tx :: post →
        ∀ token pool swapFee, ¬ AddsAgain (run exec s₀ pre) tx token pool swapFee := by
  have h₀ : (activeTokens s₀.assets).Nodup := by
    rw [deploy_assets h]
    exact List.nodup_nil
  constructor
  · intro honce pre tx post hsplit token pool swapFee hagain
    have hnext : run exec s₀ (pre ++ [tx]) = next exec (run exec s₀ pre) tx := run_append
    refine hagain.breaks ?_
    rw [← hnext]
    exact (honce (pre ++ [tx]) post (by simpa using hsplit)).nodup
  · intro hnew pre post hsplit
    refine countsOnce_iff.mpr
      (run_invariant (P := fun (s : State env) _ => (activeTokens s.assets).Nodup) h₀ ?_)
    intro pre₁ tx post₁ s' r hpre hnodup hok
    refine nodup_step hnodup (exec_effect hok) (hnew pre₁ tx (post₁ ++ post) ?_)
    rw [hsplit, hpre, List.append_assoc, List.cons_append]

/-- Two tokens are added, and a deposit is split over them. -/
def opened : List (Tx (BasketCall Unit)) :=
  [callBy 20 (.addAsset 10 11 500), callBy 20 (.addAsset 13 14 3000), callBy 5 (.deposit 101 5)]

/-- The vault with two tokens. -/
def inUse : State parBasket := run exec deployed opened

/-- The two tokens of `opened` are distinct. -/
theorem tokens_distinct_iff_opened :
    CountsOnce inUse ∧ activeTokens inUse.assets = [10, 13] := by
  have hdeploy : deploy parBasket 10000 5000 100 300 22 20 21 parWorld = .ok deployed := rfl
  refine ⟨(tokens_distinct_iff hdeploy opened).mpr ?_ opened [] (List.append_nil opened).symm, by
    decide +kernel⟩
  refine forall_step_cons ?_ (forall_step_cons ?_ (forall_step_cons ?_ forall_step_nil))
  all_goals
    intro token pool swapFee h
    have hcall := h.call
    have hactive := h.active
    cases hcall
  · exact absurd hactive (by decide +kernel)
  · exact absurd hactive (by decide +kernel)

/-- The token `10` is added through each of its pools, and a hundred units are deposited. -/
def doubled : List (Tx (BasketCall Unit)) :=
  [callBy 20 (.addAsset 10 11 500), callBy 20 (.addAsset 10 12 3000), callBy 5 (.deposit 100 5)]

/-- The vault then reports two hundred units, twice what its hundred tokens are worth; and who redeems
half of the shares makes it sell the token twice, fifty units and half of the other fifty. -/
theorem token_counted_twice :
    activeTokens (run exec deployed doubled).assets = [10, 10] ∧
      (run exec deployed doubled).idle = 0 ∧
      (run exec deployed doubled).world.held parBasket 10 = 100 ∧
      (run exec deployed doubled).totalAssets = .ok 200 ∧
      (history exec deployed (doubled ++ [callBy 5 (.redeem (5 * 10 ^ 19) 5 5)])).getLast?.map
        (fun x => x.2.swaps) = some [⟨10, 2, 50, 50⟩, ⟨10, 2, 25, 25⟩] := by
  refine ⟨by decide +kernel, by decide +kernel, by decide +kernel, by decide +kernel, by decide +kernel⟩

end RobotMoney.Basket
