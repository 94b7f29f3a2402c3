import RobotMoney.Basket.Admin

/-!
# Pools and the swap router

What results about the basket ask of the contracts it trades with.  `PoolsPair`: a pool pairs two
different tokens.  `TakesOnly`: a swap takes nothing of the vault's other tokens.  `ExactRouter`: it leaves
them, takes exactly the amount that goes in and returns exactly what it pays.  `HonoursMinimum`: it pays at least
the minimum.  `SteadyTwap`: it leaves the time-weighted prices.  `AtQuotes`: it trades at the vault's own
quotes.  A router that trades at par out of its own reserve is all but the last of these (`exact_par`,
`honours_par`, `steady_par`), and one that prices as the vault does is the last too (`atQuotes_quoted`).
-/

namespace RobotMoney.Basket

open RobotMoney.Lib State

variable {V : Type} {env : Env V} {w w' : World V} {p : SwapParams} {out : ℕ}

/-- Every pool pairs two different tokens. -/
structure PoolsPair (env : Env V) : Prop where
  ne : ∀ pool a b, env.token0 pool = some a → env.token1 pool = some b → a ≠ b

/-- No asset of a basket is USDC. -/
theorem PoolsPair.token_ne_usdc (hpools : PoolsPair env) (i : AssetInfo env) : i.token ≠ env.usdc := by
  rcases i.paired with ⟨h₀, h₁⟩ | ⟨h₁, h₀⟩
  · exact hpools.ne _ _ _ h₀ h₁
  · exact (hpools.ne _ _ _ h₀ h₁).symm

/-- Pools whose second token is USDC and whose first is another. -/
theorem PoolsPair.of_second (h₁ : ∀ pool, env.token1 pool = some env.usdc)
    (h₀ : ∀ pool, env.token0 pool ≠ some env.usdc) : PoolsPair env := by
  refine ⟨fun pool a b ha hb => ?_⟩
  rintro rfl
  rw [h₁] at hb
  exact h₀ pool (ha.trans hb.symm)

/-- A swap of the vault takes nothing of its other tokens. -/
structure TakesOnly (env : Env V) : Prop where
  le : ∀ w p w' out, env.exactInputSingle w p = .ok (w', out) → p.recipient = env.self →
    ∀ t, t ≠ p.tokenIn → t ≠ p.tokenOut → w.held env t ≤ w'.held env t

/-- A swap of the vault takes exactly the amount that goes in, leaves the other tokens, and returns exactly
what it pays. -/
structure ExactRouter (env : Env V) : Prop where
  other : ∀ w p w' out, env.exactInputSingle w p = .ok (w', out) → p.recipient = env.self →
    ∀ t, t ≠ p.tokenIn → t ≠ p.tokenOut → w'.held env t = w.held env t
  takes : ∀ w p w' out, env.exactInputSingle w p = .ok (w', out) → p.recipient = env.self →
    p.tokenIn ≠ p.tokenOut → w'.held env p.tokenIn + p.amountIn = w.held env p.tokenIn
  pays : ∀ w p w' out, env.exactInputSingle w p = .ok (w', out) → p.recipient = env.self →
    p.tokenIn ≠ p.tokenOut → w'.held env p.tokenOut = w.held env p.tokenOut + out

theorem ExactRouter.takesOnly (h : ExactRouter env) : TakesOnly env :=
  ⟨fun w p w' out hswap hself t ht₁ ht₂ => (h.other w p w' out hswap hself t ht₁ ht₂).ge⟩

/-- A swap of the vault takes exactly the amount that goes in. -/
structure TakesExactly (env : Env V) : Prop where
  takes : ∀ w p w' out, env.exactInputSingle w p = .ok (w', out) → p.recipient = env.self →
    p.tokenIn ≠ p.tokenOut → w'.held env p.tokenIn + p.amountIn = w.held env p.tokenIn

theorem ExactRouter.takesExactly (h : ExactRouter env) : TakesExactly env := ⟨h.takes⟩

/-- A swap of the vault leaves its other tokens. -/
structure LeavesOthers (env : Env V) : Prop where
  other : ∀ w p w' out, env.exactInputSingle w p = .ok (w', out) → p.recipient = env.self →
    ∀ t, t ≠ p.tokenIn → t ≠ p.tokenOut → w'.held env t = w.held env t

theorem ExactRouter.leavesOthers (h : ExactRouter env) : LeavesOthers env := ⟨h.other⟩

/-- A swap pays at least the minimum. -/
structure HonoursMinimum (env : Env V) : Prop where
  le : ∀ w p w' out, env.exactInputSingle w p = .ok (w', out) → p.amountOutMinimum ≤ out

/-- A swap leaves the time-weighted prices. -/
structure SteadyTwap (env : Env V) : Prop where
  same : ∀ w p w' out, env.exactInputSingle w p = .ok (w', out) → env.observe w'.ext = env.observe w.ext

/-- Swaps between USDC and the active tokens execute exactly at the quotes of the vault. -/
structure AtQuotes (s : State env) : Prop where
  buys : ∀ i ∈ s.activeAssets, ∀ w p w' out, env.exactInputSingle w p = .ok (w', out) → 0 < p.amountIn →
    p.tokenIn = env.usdc → p.tokenOut = i.token → s.twapTokenValue w.ext i.pool i.token p.amountIn = .ok out
  sells : ∀ i ∈ s.activeAssets, ∀ w p w' out, env.exactInputSingle w p = .ok (w', out) → 0 < p.amountIn →
    p.tokenIn = i.token → p.tokenOut = env.usdc → s.twapUsdcValue w.ext i.pool i.token p.amountIn = .ok out

/-! ### Routers with a reserve -/

section Held

variable {token : Address} {t : Token Address}

@[simp] theorem held_setLedger_self : (w.setLedger token t).held env token = t.balanceOf env.self := by
  simp [World.held, World.setLedger]

theorem held_setLedger_of_ne {token' : Address} (h : token' ≠ token) :
    (w.setLedger token t).held env token' = w.held env token' := by
  simp [World.held, World.setLedger, h]

@[simp] theorem setLedger_ext : (w.setLedger token t).ext = w.ext := rfl

end Held

/-- What goes in moves from the vault to the router, then what comes out from the router to the recipient. -/
def Traded (self router : Address) (w : World V) (p : SwapParams) (out : ℕ) (w' : World V) : Prop :=
  ∃ tokenIn tokenOut : Token Address, w' = (w.setLedger p.tokenIn tokenIn).setLedger p.tokenOut tokenOut ∧
    p.amountIn ≤ (w.ledger p.tokenIn).balanceOf self ∧
    tokenIn.balanceOf = Token.moved (w.ledger p.tokenIn).balanceOf self router p.amountIn ∧
    tokenOut.balanceOf =
      Token.moved ((w.setLedger p.tokenIn tokenIn).ledger p.tokenOut).balanceOf router p.recipient out

theorem Traded.of_transfers {self router : Address} {tokenIn tokenOut : Token Address}
    (hin : ((w.ledger p.tokenIn).transferFrom router self router p.amountIn : Call Unit _) = .ok tokenIn)
    (hout : (((w.setLedger p.tokenIn tokenIn).ledger p.tokenOut).transfer router p.recipient out :
      Call Unit _) = .ok tokenOut) :
    Traded self router w p out ((w.setLedger p.tokenIn tokenIn).setLedger p.tokenOut tokenOut) := by
  obtain ⟨hle, hmoved, -⟩ := Token.transferFrom_balances hin
  obtain ⟨-, -, hv, rfl⟩ := Token.transfer_eq_ok.mp hout
  exact ⟨tokenIn, _, rfl, hle, hmoved, rfl⟩

/-- A router that trades out of a reserve is exact. -/
theorem ExactRouter.of_traded {router : Address} (hne : env.self ≠ router)
    (h : ∀ w p w' out, env.exactInputSingle w p = .ok (w', out) → Traded env.self router w p out w') :
    ExactRouter env := by
  refine ⟨?_, ?_, ?_⟩
  · intro w p w' out hswap _ t ht₁ ht₂
    obtain ⟨tokenIn, tokenOut, rfl, -⟩ := h _ _ _ _ hswap
    rw [held_setLedger_of_ne ht₂, held_setLedger_of_ne ht₁]
  · intro w p w' out hswap _ hdistinct
    obtain ⟨tokenIn, tokenOut, rfl, hle, hin, -⟩ := h _ _ _ _ hswap
    rw [held_setLedger_of_ne hdistinct, held_setLedger_self, hin, Token.moved_src hne]
    exact Nat.sub_add_cancel hle
  · intro w p w' out hswap hself hdistinct
    obtain ⟨tokenIn, tokenOut, rfl, -, -, hout⟩ := h _ _ _ _ hswap
    have hledger : (w.setLedger p.tokenIn tokenIn).ledger p.tokenOut = w.ledger p.tokenOut := by
      simp [World.setLedger, hdistinct.symm]
    rw [held_setLedger_self, hout, hledger, hself]
    exact Token.moved_dst hne.symm

/-! ### A router at par -/

/-- `exactInputSingle` of a router that keeps a reserve of every token and trades them one for one. -/
def parSwap (self router : Address) (w : World Unit) (p : SwapParams) : Call Unit (World Unit × ℕ) :=
  if p.amountIn < p.amountOutMinimum then .error .innerCall
  else do
    let tokenIn ← (w.ledger p.tokenIn).transferFrom router self router p.amountIn
    let w := w.setLedger p.tokenIn tokenIn
    let tokenOut ← (w.ledger p.tokenOut).transfer router p.recipient p.amountIn
    pure (w.setLedger p.tokenOut tokenOut, p.amountIn)

/-- The surroundings of a vault at `self` that trades at par; `pair` tells which token a pool pairs with
USDC. -/
def par (self usdc router : Address) (maxAssets : ℕ) (pair : Address → Option Address) : Env Unit where
  self := self
  usdc := usdc
  router := router
  maxAssets := maxAssets
  token0 := pair
  token1 _ := some usdc
  observationCardinality _ _ := some 2
  -- the tick is zero throughout, and so the price one
  observe _ _ _ := .ok [⟨0, by decide⟩, ⟨0, by decide⟩]
  exactInputSingle := parSwap self router
  maxWithdrawNet := true

section Par

variable {self usdc router : Address} {maxAssets : ℕ} {pair : Address → Option Address}

theorem poolsPair_par (h : ∀ pool, pair pool ≠ some usdc) :
    PoolsPair (par self usdc router maxAssets pair) :=
  .of_second (fun _ => rfl) h

theorem parSwap_eq_ok {w w' : World Unit} (h : parSwap self router w p = .ok (w', out)) :
    out = p.amountIn ∧ p.amountOutMinimum ≤ p.amountIn ∧ Traded self router w p out w' := by
  unfold parSwap at h
  split at h
  · cases h
  · rename_i hmin
    simp only [bind_eq_ok, pure_eq_ok, Prod.mk.injEq] at h
    obtain ⟨tokenIn, hin, tokenOut, hout, rfl, rfl⟩ := h
    exact ⟨rfl, Nat.le_of_not_lt hmin, .of_transfers hin hout⟩

/-- A router at par is exact. -/
theorem exact_par (hne : self ≠ router) : ExactRouter (par self usdc router maxAssets pair) :=
  .of_traded hne fun _ _ _ _ h => (parSwap_eq_ok h).2.2

theorem honours_par : HonoursMinimum (par self usdc router maxAssets pair) := by
  refine ⟨fun w p w' out h => ?_⟩
  obtain ⟨rfl, hmin, -⟩ := parSwap_eq_ok h
  exact hmin

theorem steady_par : SteadyTwap (par self usdc router maxAssets pair) :=
  ⟨fun _ _ _ _ _ => rfl⟩

end Par

/-! ### A router at the quotes -/

/-- The quote of a swap at the mean tick over the default window. -/
def swapQuote (ticks : List Int56) (p : SwapParams) : Call BasketError ℕ := do
  let tick ← arithmeticMeanTick ticks defaultTwapWindow
  let sqrtPriceX96 ← TickMath.getSqrtRatioAtTick tick
  quoteAt sqrtPriceX96 (decide (p.tokenIn.val < p.tokenOut.val)) p.amountIn

/-- `exactInputSingle` of a router that keeps a reserve of every token and trades at the quotes. -/
def quotedSwap (self router : Address) (ticks : List Int56) (w : World Unit) (p : SwapParams) :
    Call Unit (World Unit × ℕ) := do
  let out ← inner (swapQuote ticks p)
  if out < p.amountOutMinimum then .error .innerCall
  else do
    let tokenIn ← (w.ledger p.tokenIn).transferFrom router self router p.amountIn
    let w := w.setLedger p.tokenIn tokenIn
    let tokenOut ← (w.ledger p.tokenOut).transfer router p.recipient out
    pure (w.setLedger p.tokenOut tokenOut, out)

theorem zero_int56 : -2 ^ 55 ≤ (0 : ℤ) ∧ (0 : ℤ) < 2 ^ 55 := by decide

/-- The surroundings of a vault at `self` whose pools report the cumulative ticks `0` and `last`, and whose
router trades at the quotes. -/
def quoted (self usdc router : Address) (maxAssets : ℕ) (pair : Address → Option Address) (last : Int56) :
    Env Unit where
  self := self
  usdc := usdc
  router := router
  maxAssets := maxAssets
  token0 := pair
  token1 _ := some usdc
  observationCardinality _ _ := some 2
  observe _ _ _ := .ok [⟨0, zero_int56⟩, last]
  exactInputSingle := quotedSwap self router [⟨0, zero_int56⟩, last]
  maxWithdrawNet := true

section Quoted

variable {self usdc router : Address} {maxAssets : ℕ} {pair : Address → Option Address} {last : Int56}

theorem poolsPair_quoted (h : ∀ pool, pair pool ≠ some usdc) :
    PoolsPair (quoted self usdc router maxAssets pair last) :=
  .of_second (fun _ => rfl) h

theorem quotedSwap_eq_ok {ticks : List Int56} {w w' : World Unit}
    (h : quotedSwap self router ticks w p = .ok (w', out)) :
    swapQuote ticks p = .ok out ∧ p.amountOutMinimum ≤ out ∧ Traded self router w p out w' := by
  unfold quotedSwap at h
  obtain ⟨quote, hquote, h⟩ := bind_eq_ok.mp h
  have hquote := inner_eq_ok.mp hquote
  split at h
  · cases h
  · rename_i hmin
    simp only [bind_eq_ok, pure_eq_ok, Prod.mk.injEq] at h
    obtain ⟨tokenIn, hin, tokenOut, hout, rfl, rfl⟩ := h
    exact ⟨hquote, Nat.le_of_not_lt hmin, .of_transfers hin hout⟩

theorem exact_quoted (hne : self ≠ router) : ExactRouter (quoted self usdc router maxAssets pair last) :=
  .of_traded hne fun _ _ _ _ h => (quotedSwap_eq_ok h).2.2

theorem steady_quoted : SteadyTwap (quoted self usdc router maxAssets pair last) :=
  ⟨fun _ _ _ _ _ => rfl⟩

/-- A router at the quotes over the default window is at the quotes of a vault that reads that window. -/
theorem atQuotes_quoted {s : State (quoted self usdc router maxAssets pair last)}
    (hpools : PoolsPair (quoted self usdc router maxAssets pair last))
    (hwindow : ∀ i ∈ s.activeAssets, s.effectiveTwapWindow i.token = defaultTwapWindow) : AtQuotes s := by
  refine ⟨?_, ?_⟩
  · intro i hi w p w' out h hpos hin hout
    obtain ⟨hquote, -, -⟩ := quotedSwap_eq_ok h
    unfold swapQuote at hquote
    rw [hin, hout] at hquote
    unfold State.twapTokenValue State.twapQuote
    rw [if_neg hpos.ne', if_pos rfl]
    dsimp only
    rw [hwindow i hi]
    exact hquote
  · intro i hi w p w' out h hpos hin hout
    obtain ⟨hquote, -, -⟩ := quotedSwap_eq_ok h
    unfold swapQuote at hquote
    rw [hin, hout] at hquote
    unfold State.twapUsdcValue State.twapQuote
    rw [if_neg hpos.ne', if_neg (hpools.token_ne_usdc i)]
    dsimp only
    rw [hwindow i hi]
    exact hquote

end Quoted

/-! ### A basket at par

Two pools for the token `10` and one for the token `13`; USDC is `2`, the router `3` holds 5000 units of
every token, and the user `5` has 2000 USDC and approved the vault `1`. -/

theorem issuable_2000 : (Token.empty : Token Address).totalSupply + 2000 < wordSize := by decide

/-- The surroundings of an agent-token vault. -/
def parBasket : Env Unit :=
  par 1 2 3 AgentTokenVault.maxAssets
    fun pool => if pool = 11 ∨ pool = 12 then some 10 else if pool = 14 then some 13 else none

def parWorld : World Unit where
  ledger token :=
    if token = 2 then
      Token.setAllowance ((Token.empty.issue 5 2000 issuable_2000).issue 3 5000 (by decide)) 5 1 2000
    else Token.empty.issue 3 5000 (by decide)
  ext := ()

/-- The vault after its constructor. -/
def deployed : State parBasket :=
  State.initial parBasket 10000 5000 ⟨100, by decide⟩ ⟨AgentTokenVault.defaultSlippageBps, by decide⟩
    ⟨22, by decide⟩ 20 21 parWorld

/-- A call at the block `1`. -/
def callBy (sender : Address) (call : BasketCall Unit) : Tx (BasketCall Unit) := Tx.of sender (.of 1 1) call

/-- The same vault among pools that report the cumulative ticks `0` and `last`. -/
def quotedBasket (last : Int56) : Env Unit :=
  quoted 1 2 3 AgentTokenVault.maxAssets parBasket.token0 last

def quotedVault (last : Int56) : State (quotedBasket last) :=
  State.initial (quotedBasket last) 10000 5000 ⟨0, by decide⟩ ⟨AgentTokenVault.defaultSlippageBps, by decide⟩
    ⟨22, by decide⟩ 20 21 parWorld

theorem poolsPair_parBasket : PoolsPair parBasket := by
  refine poolsPair_par fun pool => ?_
  split
  · decide
  · split <;> decide

end RobotMoney.Basket
