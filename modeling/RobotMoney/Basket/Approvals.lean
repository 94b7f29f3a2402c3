import RobotMoney.Basket.Redeem

/-!
# What the vault allows the swap router

Every swap approves the router for the amount that goes in and unapproves it at the end.  So in every run the
router is approved for nothing between two calls (`run_unapproved`), whatever the calls swap: a property of
the world that a swap keeps is kept by all four loops (`routeLoop_keeps`, `sellLoop_keeps`, `unwindLoop_keeps`,
`overrideLoop_keeps`).
-/

namespace RobotMoney.Basket

open RobotMoney.Lib State

variable {V : Type} {env : Env V} {s s' s₀ : State env} {is : List (AssetInfo env)} {w w' : World V}

/-! ### What the router may take -/

/-- What the vault allows the swap router to take of a token. -/
def World.allowed (env : Env V) (w : World V) (token : Address) : ℕ :=
  (w.ledger token).allowance env.self env.router

/-- An approval of the router. -/
theorem approveRouter_allowed {token : Address} {amount : ℕ}
    (h : approveRouter env w token amount = .ok w') :
    w'.allowed env token = amount ∧ ∀ t, t ≠ token → w'.allowed env t = w.allowed env t := by
  obtain ⟨ledger, happrove, h⟩ := bind_eq_ok.mp h
  cases h
  obtain ⟨-, -, rfl⟩ := Token.approve_eq_ok.mp happrove
  refine ⟨?_, ?_⟩
  · simp [World.allowed, World.setLedger, Token.setAllowance]
  · intro t ht
    simp [World.allowed, World.setLedger, ht]

/-- A swap leaves what the vault allows of the tokens that do not go in. -/
structure KeepsAllowances (env : Env V) : Prop where
  same : ∀ w p w' out, env.exactInputSingle w p = .ok (w', out) → ∀ t, t ≠ p.tokenIn →
    w'.allowed env t = w.allowed env t

/-- After a swap the router is not approved for the token that went in. -/
theorem swap_allowed {tokenIn tokenOut : Address} {fee amountIn minOut out : ℕ}
    (h : State.swap env w tokenIn tokenOut fee amountIn minOut = .ok (w', out)) :
    w'.allowed env tokenIn = 0 := by
  unfold State.swap at h
  simp only [bind_eq_ok, Prod.exists, pure_eq_ok, Prod.mk.injEq] at h
  obtain ⟨w₁, -, w₂, out', -, w₃, happrove, rfl, rfl⟩ := h
  exact (approveRouter_allowed happrove).1

/-- The router is approved for nothing. -/
def Unapproved (env : Env V) (w : World V) : Prop := ∀ t, w.allowed env t = 0

theorem Unapproved.setLedger (h : Unapproved env w) {token : Address} {t : Token Address}
    (hsame : t.allowance env.self env.router = (w.ledger token).allowance env.self env.router) :
    Unapproved env (w.setLedger token t) := by
  intro token'
  by_cases heq : token' = token
  · subst heq
    have hkept : (w.setLedger token' t).allowed env token' = t.allowance env.self env.router := by
      simp [World.allowed, World.setLedger]
    rw [hkept, hsame]
    exact h token'
  · have hkept : (w.setLedger token t).allowed env token' = w.allowed env token' := by
      simp [World.allowed, World.setLedger, heq]
    rw [hkept]
    exact h token'

/-! ### What swaps keep -/

/-- A swap of the vault keeps a property of the world. -/
def KeptBySwaps (env : Env V) (P : World V → Prop) : Prop :=
  ∀ w tokenIn tokenOut fee amountIn minOut w' out,
    State.swap env w tokenIn tokenOut fee amountIn minOut = .ok (w', out) → P w → P w'

theorem unapproved_keptBySwaps (hkeeps : KeepsAllowances env) : KeptBySwaps env (Unapproved env) := by
  intro w tokenIn tokenOut fee amountIn minOut w' out h hnone t
  by_cases ht : t = tokenIn
  · subst ht
    exact swap_allowed h
  · unfold State.swap at h
    simp only [bind_eq_ok, Prod.exists, pure_eq_ok, Prod.mk.injEq, inner_eq_ok] at h
    obtain ⟨w₁, h₁, w₂, out', hswap, w₃, h₃, rfl, rfl⟩ := h
    rw [(approveRouter_allowed h₃).2 t ht, hkeeps.same _ _ _ _ hswap t ht, (approveRouter_allowed h₁).2 t ht]
    exact hnone t

section Loops

variable {P : World V → Prop} {swaps : List Swapped}

theorem routeLoop_keeps (hP : KeptBySwaps env P) {perAsset remainder : ℕ} {first : Bool}
    (h : s.routeLoop perAsset remainder w is first = .ok (w', swaps)) (hw : P w) : P w' := by
  induction is generalizing w first swaps with
  | nil =>
    cases h
    exact hw
  | cons i is ih =>
    unfold State.routeLoop at h
    by_cases hactive : i.active = false
    · rw [if_pos hactive] at h
      exact ih h hw
    · rw [if_neg hactive] at h
      dsimp only at h
      generalize (if first = true then perAsset + remainder else perAsset) = swapIn at h
      by_cases hzero : swapIn = 0
      · rw [if_pos hzero] at h
        exact ih h hw
      · rw [if_neg hzero] at h
        simp only [bind_eq_ok, Prod.exists, pure_eq_ok, Prod.mk.injEq] at h
        obtain ⟨quote, -, minOut, -, w₁, out, hswap, w₂, rest, hloop, rfl, rfl⟩ := h
        exact ih hloop (hP _ _ _ _ _ _ _ _ hswap hw)

theorem sellLoop_keeps (hP : KeptBySwaps env P) {sh supply acc usdcOut : ℕ}
    (h : s.sellLoop sh supply w is acc = .ok (w', usdcOut, swaps)) (hw : P w) : P w' := by
  induction is generalizing w acc usdcOut swaps with
  | nil =>
    cases h
    exact hw
  | cons i is ih =>
    unfold State.sellLoop at h
    by_cases hactive : i.active = false
    · rw [if_pos hactive] at h
      exact ih h hw
    · rw [if_neg hactive] at h
      by_cases hheld : w.held env i.token = 0
      · rw [if_pos hheld] at h
        exact ih h hw
      · rw [if_neg hheld] at h
        obtain ⟨sellAmount, -, h⟩ := bind_eq_ok.mp h
        by_cases hzero : sellAmount = 0
        · rw [if_pos hzero] at h
          exact ih h hw
        · rw [if_neg hzero] at h
          simp only [bind_eq_ok, Prod.exists, pure_eq_ok, Prod.mk.injEq] at h
          obtain ⟨quote, -, minOut, -, w₁, received, hswap, acc', -, w₂, out, rest, hloop, rfl, -, -⟩ := h
          exact ih hloop (hP _ _ _ _ _ _ _ _ hswap hw)

theorem unwindAsset_keeps (hP : KeptBySwaps env P) {cap : Bool} {i : AssetInfo env} {floor : ℕ}
    (h : unwindAsset env cap w i floor = .ok (w', swaps)) (hw : P w) : P w' := by
  unfold State.unwindAsset at h
  by_cases hheld : w.held env i.token = 0
  · rw [if_pos hheld] at h
    cases h
    exact hw
  · rw [if_neg hheld] at h
    simp only [bind_eq_ok, Prod.exists, pure_eq_ok, Prod.mk.injEq] at h
    obtain ⟨w₁, received, hswap, _, -, rfl, -⟩ := h
    exact hP _ _ _ _ _ _ _ _ hswap hw

theorem unwindLoop_keeps (hP : KeptBySwaps env P) (h : s.unwindLoop w is = .ok (w', swaps)) (hw : P w) :
    P w' := by
  induction is generalizing w swaps with
  | nil =>
    cases h
    exact hw
  | cons i is ih =>
    unfold State.unwindLoop at h
    by_cases hactive : i.active = false
    · rw [if_pos hactive] at h
      exact ih h hw
    · rw [if_neg hactive] at h
      by_cases hheld : w.held env i.token = 0
      · rw [if_pos hheld] at h
        exact ih h hw
      · rw [if_neg hheld] at h
        simp only [bind_eq_ok, Prod.exists, pure_eq_ok, Prod.mk.injEq] at h
        obtain ⟨floor, -, w₁, sold, hunwind, w₂, rest, hloop, rfl, -⟩ := h
        exact ih hloop (unwindAsset_keeps hP hunwind hw)

theorem overrideLoop_keeps (hP : KeptBySwaps env P) {tokens : List Address}
    (h : s.overrideLoop w tokens = .ok (w', swaps)) (hw : P w) : P w' := by
  induction tokens generalizing w swaps with
  | nil =>
    cases h
    exact hw
  | cons token tokens ih =>
    unfold State.overrideLoop at h
    simp only [bind_eq_ok] at h
    obtain ⟨_, -, i, -, h⟩ := h
    by_cases hheld : w.held env i.token = 0
    · rw [if_pos hheld] at h
      exact ih h hw
    · rw [if_neg hheld] at h
      simp only [bind_eq_ok, Prod.exists, pure_eq_ok, Prod.mk.injEq] at h
      obtain ⟨product, -, floor, -, w₁, sold, hunwind, w₂, rest, hloop, rfl, -⟩ := h
      exact ih hloop (unwindAsset_keeps hP hunwind hw)

end Loops

/-! ### What calls keep -/

section Calls

variable {caller receiver owner : Address} {sh amount : ℕ} {swaps : List Swapped}

theorem depositInternal_unapproved (hkeeps : KeepsAllowances env) (hrouter : env.router ≠ env.self)
    (h : s.depositInternal caller receiver amount sh = .ok (s', swaps)) (hw : Unapproved env s.world) :
    Unapproved env s'.world := by
  obtain ⟨-, -, -, -, total, usdc, shares, -, -, husdc, -, hroute⟩ := depositInternal_eq_ok h
  have hpulled : Unapproved env (s.world.setLedger env.usdc usdc) :=
    hw.setLedger (Token.transferFrom_allowance_frame husdc (.inr hrouter))
  unfold State.routeDeposit at hroute
  split at hroute
  · cases hroute
    exact hpulled
  · simp only [bind_eq_ok, Prod.exists, pure_eq_ok, Prod.mk.injEq] at hroute
    obtain ⟨w, rest, hloop, rfl, -⟩ := hroute
    exact routeLoop_keeps (unapproved_keptBySwaps hkeeps) hloop hpulled

/-- A transfer of the vault's approves nobody. -/
theorem transfer_allowance {t t' : Token Address} {src dst : Address}
    (h : (t.transfer src dst amount : Call BasketError (Token Address)) = .ok t') : t'.allowance = t.allowance := by
  obtain ⟨-, -, -, rfl⟩ := Token.transfer_eq_ok.mp h
  rfl

theorem withdrawInternal_unapproved (hkeeps : KeepsAllowances env) {charge : ExitFeeCharged}
    (h : s.withdrawInternal caller receiver owner sh = .ok (s', swaps, charge))
    (hw : Unapproved env s.world) : Unapproved env s'.world := by
  unfold State.withdrawInternal at h
  simp only [bind_eq_ok, Prod.exists, pure_eq_ok, Prod.mk.injEq] at h
  obtain ⟨_, -, t, -, t', -, w, gross, sold, hsell, fee, -, net, -, u, hfee, u', hnet, rfl, -, -⟩ := h
  obtain ⟨part, -, hloop⟩ := bind_eq_ok.mp hsell
  have hsold := sellLoop_keeps (unapproved_keptBySwaps hkeeps) hloop hw
  have hpaid : u.allowance = (w.ledger env.usdc).allowance := by
    unfold State.payFee at hfee
    split at hfee
    · exact transfer_allowance hfee
    · cases hfee
      rfl
  refine hsold.setLedger ?_
  rw [transfer_allowance hnet, hpaid]

theorem sendAll_unapproved {token dst : Address} (h : s.sendAll token dst = .ok s')
    (hw : Unapproved env s.world) : Unapproved env s'.world := by
  unfold State.sendAll at h
  split at h
  all_goals
    obtain ⟨t, ht, h⟩ := bind_eq_ok.mp h
    cases h
  · exact hw
  · refine hw.setLedger ?_
    rw [transfer_allowance ht]

/-- **A call approves nothing for later.**  What other contracts do is asked to approve nothing on the vault's
behalf. -/
theorem exec_unapproved (hkeeps : KeepsAllowances env) (hrouter : env.router ≠ env.self)
    {tx : Tx (BasketCall V)} {r : Receipt} (h : s.exec tx = .ok (s', r))
    (helsewhere : ∀ world, tx.call = .elsewhere world → Unapproved env world)
    (hw : Unapproved env s.world) : Unapproved env s'.world := by
  cases exec_step h with
  | kept _ hworld => rwa [hworld]
  | deposited h => exact depositInternal_unapproved hkeeps hrouter h hw
  | withdrawn h => exact withdrawInternal_unapproved hkeeps h hw
  | unwound hloop => exact unwindLoop_keeps (unapproved_keptBySwaps hkeeps) hloop hw
  | overridden hloop => exact overrideLoop_keeps (unapproved_keptBySwaps hkeeps) hloop hw
  | sent h => exact sendAll_unapproved h hw
  | elsewhere hcall => exact helsewhere _ hcall

/-- **Between two calls the router is approved for nothing.** -/
theorem run_unapproved (hkeeps : KeepsAllowances env) (hrouter : env.router ≠ env.self)
    (h₀ : Unapproved env s₀.world) (txs : List (Tx (BasketCall V)))
    (helsewhere : ∀ tx ∈ txs, ∀ world, tx.call = .elsewhere world → Unapproved env world) :
    Unapproved env (run exec s₀ txs).world := by
  refine run_invariant (P := fun (s : State env) _ => Unapproved env s.world) h₀ ?_
  intro pre tx post s' r hsplit hpre hok
  refine exec_unapproved hkeeps hrouter hok (helsewhere tx ?_) hpre
  rw [hsplit]
  exact List.mem_append_right _ List.mem_cons_self

end Calls

/-- A router at par spends what it is approved for of the token that goes in. -/
theorem keepsAllowances_par {self usdc router : Address} {maxAssets : ℕ} {pair : Address → Option Address} :
    KeepsAllowances (par self usdc router maxAssets pair) := by
  refine ⟨?_⟩
  intro w p w' out h t ht
  have h : parSwap self router w p = .ok (w', out) := h
  unfold parSwap at h
  split at h
  · cases h
  · simp only [bind_eq_ok, pure_eq_ok, Prod.mk.injEq] at h
    obtain ⟨tokenIn, -, tokenOut, hout, rfl, -⟩ := h
    obtain ⟨-, -, hle, rfl⟩ := Token.transfer_eq_ok.mp hout
    by_cases hto : t = p.tokenOut
    · subst hto
      simp [World.allowed, World.setLedger, ht, Token.move]
    · simp [World.allowed, World.setLedger, ht, hto]

end RobotMoney.Basket
