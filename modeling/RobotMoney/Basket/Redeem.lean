import RobotMoney.Basket.Entries

/-!
# What a redemption takes

A redemption takes the redeemer's fraction of the idle USDC first, then sells her fraction of each active
token, and pays out the fraction and the proceeds.  With an exact router, and distinct tokens, each balance
of the vault falls by its own share, rounded down (`sellLoop_held`), so what is left for each remaining share
of the vault does not fall (`redemption_never_dilutes`).
-/

namespace RobotMoney.Basket

open RobotMoney.Lib State

variable {V : Type} {env : Env V} {s s' : State env} {is : List (AssetInfo env)} {w w' : World V}

/-! ### One swap -/

theorem approveRouter_held {token : Address} {amount : ℕ} (h : approveRouter env w token amount = .ok w')
    (t : Address) : w'.held env t = w.held env t := by
  obtain ⟨ledger, happrove, h⟩ := bind_eq_ok.mp h
  cases h
  obtain ⟨-, -, rfl⟩ := Token.approve_eq_ok.mp happrove
  by_cases ht : t = token
  · subst ht
    rw [held_setLedger_self]
    rfl
  · exact held_setLedger_of_ne ht

theorem approveRouter_ext {token : Address} {amount : ℕ} (h : approveRouter env w token amount = .ok w') :
    w'.ext = w.ext := by
  obtain ⟨ledger, -, h⟩ := bind_eq_ok.mp h
  cases h
  rfl

/-- A swap of the vault is a swap of the router, up to approvals. -/
theorem swap_eq_ok {tokenIn tokenOut : Address} {fee amountIn minOut out : ℕ}
    (h : swap env w tokenIn tokenOut fee amountIn minOut = .ok (w', out)) :
    ∃ w₁ w₂, env.exactInputSingle w₁ ⟨tokenIn, tokenOut, fee, env.self, amountIn, minOut⟩ = .ok (w₂, out) ∧
      (∀ t, w₁.held env t = w.held env t) ∧ (∀ t, w'.held env t = w₂.held env t) ∧
      w₁.ext = w.ext ∧ w'.ext = w₂.ext := by
  unfold swap at h
  simp only [bind_eq_ok, Prod.exists, pure_eq_ok, Prod.mk.injEq, inner_eq_ok] at h
  obtain ⟨w₁, h₁, w₂, out', hswap, w₃, h₃, rfl, rfl⟩ := h
  exact ⟨w₁, w₂, hswap, approveRouter_held h₁, approveRouter_held h₃, approveRouter_ext h₁,
    approveRouter_ext h₃⟩

/-- What an exact swap does to what the vault holds. -/
theorem ExactRouter.swap (hexact : ExactRouter env) {tokenIn tokenOut : Address}
    {fee amountIn minOut out : ℕ} (hne : tokenIn ≠ tokenOut)
    (h : State.swap env w tokenIn tokenOut fee amountIn minOut = .ok (w', out)) :
    w'.held env tokenIn + amountIn = w.held env tokenIn ∧
      w'.held env tokenOut = w.held env tokenOut + out ∧
      ∀ t, t ≠ tokenIn → t ≠ tokenOut → w'.held env t = w.held env t := by
  obtain ⟨w₁, w₂, hswap, h₁, h₂, -, -⟩ := swap_eq_ok h
  have htakes := hexact.takes _ _ _ _ hswap rfl hne
  have hpays := hexact.pays _ _ _ _ hswap rfl hne
  refine ⟨?_, ?_, ?_⟩
  · rw [h₂, ← h₁ tokenIn]
    exact htakes
  · rw [h₂, ← h₁ tokenOut]
    exact hpays
  · intro t ht₁ ht₂
    rw [h₂, ← h₁ t]
    exact hexact.other _ _ _ _ hswap rfl t ht₁ ht₂

/-! ### The sales -/

/-- The proceeds of some swaps. -/
def proceeds (swaps : List Swapped) : ℕ := (swaps.map fun x => x.amountOut).sum

/-- What the sales do: every balance of an active token falls by its share, the proceeds come in, and
nothing else of the vault's changes. -/
structure Sold (env : Env V) (sh supply : ℕ) (tokens : List Address) (w w' : World V) (income : ℕ) :
    Prop where
  sold : ∀ t ∈ tokens, w'.held env t + share (w.held env t) supply sh = w.held env t
  usdc : w'.held env env.usdc = w.held env env.usdc + income
  other : ∀ t, t ∉ tokens → t ≠ env.usdc → w'.held env t = w.held env t

theorem Sold.refl {sh supply : ℕ} (w : World V) : Sold env sh supply [] w w 0 :=
  ⟨fun _ h => (List.not_mem_nil h).elim, rfl, fun _ _ _ => rfl⟩

/-- One more token, of which the share is nothing. -/
theorem Sold.skip {sh supply income : ℕ} {token : Address} {tokens : List Address}
    (h : Sold env sh supply tokens w w' income) (hout : token ∉ tokens) (hne : token ≠ env.usdc)
    (hzero : share (w.held env token) supply sh = 0) : Sold env sh supply (token :: tokens) w w' income := by
  have hsame := h.other token hout hne
  refine ⟨?_, h.usdc, ?_⟩
  · intro t ht
    rcases List.mem_cons.mp ht with rfl | ht
    · rw [hzero, hsame, Nat.add_zero]
    · exact h.sold t ht
  · intro t ht hu
    exact h.other t (fun hin => ht (List.mem_cons_of_mem _ hin)) hu

/-- One more token, whose share is sold first. -/
theorem Sold.cons {sh supply income received : ℕ} {token : Address} {tokens : List Address} {w₁ : World V}
    (hsold : w₁.held env token + share (w.held env token) supply sh = w.held env token)
    (husdc : w₁.held env env.usdc = w.held env env.usdc + received)
    (hother : ∀ t, t ≠ token → t ≠ env.usdc → w₁.held env t = w.held env t)
    (hout : token ∉ tokens) (hne : token ≠ env.usdc) (hu : env.usdc ∉ tokens)
    (h : Sold env sh supply tokens w₁ w' income) :
    Sold env sh supply (token :: tokens) w w' (received + income) := by
  have hsame := h.other token hout hne
  refine ⟨?_, ?_, ?_⟩
  · intro t ht
    rcases List.mem_cons.mp ht with rfl | hin
    · rw [hsame]
      exact hsold
    · have hne' : t ≠ token := by
        rintro rfl
        exact hout hin
      have hne'' : t ≠ env.usdc := by
        rintro rfl
        exact hu hin
      have hrest := h.sold t hin
      rwa [hother t hne' hne''] at hrest
  · rw [h.usdc, husdc, Nat.add_assoc]
  · intro t ht hu'
    obtain ⟨hne', hnin⟩ := not_or.mp (mt List.mem_cons.mpr ht)
    rw [h.other t hnin hu', hother t hne' hu']

theorem PoolsPair.usdc_not_mem (hpools : PoolsPair env) : env.usdc ∉ activeTokens is := by
  intro hin
  obtain ⟨i, -, hi⟩ := List.mem_map.mp hin
  exact hpools.token_ne_usdc i hi

/-- What the loop of `_sellProportional` does to what the vault holds. -/
theorem sellLoop_held (hpools : PoolsPair env) (hexact : ExactRouter env) {sh supply acc usdcOut : ℕ}
    {swaps : List Swapped} (hnodup : (activeTokens is).Nodup)
    (h : s.sellLoop sh supply w is acc = .ok (w', usdcOut, swaps)) :
    usdcOut = acc + proceeds swaps ∧ Sold env sh supply (activeTokens is) w w' (proceeds swaps) := by
  induction is generalizing w acc usdcOut swaps with
  | nil =>
    cases h
    exact ⟨rfl, .refl _⟩
  | cons i is ih =>
    unfold State.sellLoop at h
    cases hactive : i.active with
    | false =>
      rw [if_pos hactive] at h
      rw [activeTokens_cons_of_not hactive] at hnodup ⊢
      exact ih hnodup h
    | true =>
      rw [if_neg (by simp [hactive])] at h
      rw [activeTokens_cons hactive] at hnodup ⊢
      obtain ⟨hout, hnodup⟩ := List.nodup_cons.mp hnodup
      have hne := hpools.token_ne_usdc i
      by_cases hheld : w.held env i.token = 0
      · rw [if_pos hheld] at h
        obtain ⟨hsum, hrest⟩ := ih hnodup h
        refine ⟨hsum, hrest.skip hout hne ?_⟩
        rw [hheld, share, Nat.zero_mul, Nat.zero_div]
      · rw [if_neg hheld] at h
        obtain ⟨sellAmount, hsell, h⟩ := bind_eq_ok.mp h
        obtain ⟨-, -, hamount⟩ := mulDiv_eq_ok.mp hsell
        by_cases hzero : sellAmount = 0
        · rw [if_pos hzero] at h
          obtain ⟨hsum, hrest⟩ := ih hnodup h
          exact ⟨hsum, hrest.skip hout hne (hamount.symm.trans hzero)⟩
        · rw [if_neg hzero] at h
          simp only [bind_eq_ok, Prod.exists, pure_eq_ok, Prod.mk.injEq] at h
          obtain ⟨quote, -, minOut, -, w₁, received, hswap, acc', hacc, w₂, out, rest, hloop, rfl, rfl,
            rfl⟩ := h
          obtain ⟨-, rfl⟩ := addU_eq_ok.mp hacc
          obtain ⟨htakes, hpays, hother⟩ := hexact.swap hne hswap
          obtain ⟨hsum, hrest⟩ := ih hnodup hloop
          refine ⟨?_, ?_⟩
          · rw [hsum, Nat.add_assoc]
            rfl
          · refine Sold.cons ?_ hpays hother hout hne hpools.usdc_not_mem hrest
            rw [hamount] at htakes
            exact htakes

/-! ### The payout -/

theorem idlePart_eq {sh supply part : ℕ} (h : s.idlePart sh supply = .ok part) :
    part = share s.idle supply sh := by
  unfold State.idlePart at h
  by_cases hidle : 0 < s.idle
  · rw [if_pos hidle] at h
    exact (mulDiv_eq_ok.mp h).2.2
  · rw [if_neg hidle] at h
    cases h
    have hzero : s.idle = 0 := by omega
    rw [hzero, share, Nat.zero_mul, Nat.zero_div]

/-- A successful redemption, by `redeem` or by `withdraw`, that burns `sh` shares. -/
inductive Redeems (s : State env) (sender receiver owner : Address) (sh : ℕ) :
    State env → List Swapped → ExitFeeCharged → Prop
  | redeem {s' : State env} {assets : ℕ} {swaps : List Swapped} {charge : ExitFeeCharged}
      (h : s.redeem sender sh receiver owner = .ok (s', assets, swaps, charge)) :
      Redeems s sender receiver owner sh s' swaps charge
  | withdraw {s' : State env} {assets : ℕ} {swaps : List Swapped} {charge : ExitFeeCharged}
      (h : s.withdraw sender assets receiver owner = .ok (s', sh, swaps, charge)) :
      Redeems s sender receiver owner sh s' swaps charge

section Redemption

variable {sender receiver owner : Address} {sh : ℕ} {swaps : List Swapped} {charge : ExitFeeCharged}

theorem Redeems.withdrawInternal (h : Redeems s sender receiver owner sh s' swaps charge) :
    s.withdrawInternal sender receiver owner sh = .ok (s', swaps, charge) := by
  cases h with
  | redeem h =>
    simp only [State.redeem, bind_eq_ok, Prod.exists, pure_eq_ok, Prod.mk.injEq] at h
    obtain ⟨_, -, assets, -, s₁, swaps₁, charge₁, hin, rfl, -, rfl, rfl⟩ := h
    exact hin
  | withdraw h =>
    simp only [State.withdraw, bind_eq_ok, Prod.exists, pure_eq_ok, Prod.mk.injEq] at h
    obtain ⟨_, -, _, -, sh₁, -, s₁, swaps₁, charge₁, hin, rfl, rfl, rfl, rfl⟩ := h
    exact hin

theorem spendShares_frame {t : Token Address} (h : s.spendShares sender owner sh = .ok t) :
    t.balanceOf = s.shares.balanceOf ∧ t.totalSupply = s.shares.totalSupply := by
  unfold State.spendShares at h
  split at h
  · exact Token.spendAllowance_frame h
  · cases h
    exact ⟨rfl, rfl⟩

theorem payFee_eq_ok {usdc usdc' : Token Address} {fee : ℕ} (h : s.payFee usdc fee = .ok usdc') :
    fee ≤ usdc.balanceOf env.self ∧
      usdc'.balanceOf = Token.moved usdc.balanceOf env.self s.feeRecipient.1 fee := by
  unfold State.payFee at h
  by_cases hfee : 0 < fee
  · rw [if_pos hfee] at h
    obtain ⟨-, -, hle, rfl⟩ := Token.transfer_eq_ok.mp h
    exact ⟨hle, rfl⟩
  · rw [if_neg hfee] at h
    cases h
    have hzero : fee = 0 := by omega
    subst hzero
    exact ⟨Nat.zero_le _, (congrArg Token.balanceOf (Token.move_zero usdc env.self s.feeRecipient.1
      (Nat.zero_le _))).symm⟩

/-- What `_withdraw` does: the shares are burned, the sales made, and the fee and the rest paid. -/
theorem withdrawInternal_eq_ok (h : s.withdrawInternal sender receiver owner sh = .ok (s', swaps, charge)) :
    sh ≤ s.shares.balanceOf owner ∧ s'.shares.totalSupply + sh = s.shares.totalSupply ∧
      ∃ w, s.sellProportional sh s.shares.totalSupply = .ok (w, charge.gross, swaps) ∧
        charge.fee = charge.gross * s.exitFeeBps.1 / maxBps ∧ charge.fee + charge.net = charge.gross ∧
        (s'.world.ledger env.usdc).balanceOf = Token.moved
          (Token.moved (w.ledger env.usdc).balanceOf env.self s.feeRecipient.1 charge.fee)
          env.self receiver charge.net ∧
        charge.net ≤ Token.moved (w.ledger env.usdc).balanceOf env.self s.feeRecipient.1 charge.fee env.self ∧
        charge.fee ≤ w.held env env.usdc ∧
        ∀ t, t ≠ env.usdc → s'.world.held env t = w.held env t := by
  unfold State.withdrawInternal at h
  simp only [bind_eq_ok, Prod.exists, pure_eq_ok, Prod.mk.injEq] at h
  obtain ⟨_, -, t, hspend, t', hburn, w, gross, swaps', hsell, fee, hfee, net, hnet, u, hu, u', hu', rfl,
    rfl, rfl⟩ := h
  obtain ⟨hbalances, hsupply⟩ := spendShares_frame hspend
  obtain ⟨-, hle, rfl⟩ := Token.burn_eq_ok.mp hburn
  obtain ⟨-, -, rfl⟩ := mulDiv_eq_ok.mp hfee
  obtain ⟨hfeele, rfl⟩ := subU_eq_ok.mp hnet
  obtain ⟨hfits, hpaid⟩ := payFee_eq_ok hu
  obtain ⟨-, -, hnetle, rfl⟩ := Token.transfer_eq_ok.mp hu'
  rw [hsupply] at hsell
  have hin : sh ≤ t.totalSupply := hle.trans (t.balanceOf_le_supply owner)
  refine ⟨hbalances ▸ hle, ?_, w, hsell, rfl, Nat.add_sub_cancel' hfeele, ?_, ?_, hfits, ?_⟩
  · change t.totalSupply - sh + sh = s.shares.totalSupply
    omega
  · change ((w.setLedger env.usdc _).ledger env.usdc).balanceOf = _
    simp only [World.setLedger, Function.update_self]
    change Token.moved u.balanceOf env.self receiver _ = _
    rw [hpaid]
  · rw [← hpaid]
    exact hnetle
  · intro token hne
    exact held_setLedger_of_ne hne

/-- What a redemption of `sh` of the shares leaves the vault with. -/
structure Undiluted (s s' : State env) (sh : ℕ) (receiver : Address) (swaps : List Swapped)
    (charge : ExitFeeCharged) : Prop where
  burned : s'.shares.totalSupply + sh = s.shares.totalSupply
  /-- for each remaining share of the vault there is no less of any token than before -/
  tokens : ∀ t ∈ activeTokens s.assets,
    s.world.held env t * (s.shares.totalSupply - sh) ≤ s'.world.held env t * s.shares.totalSupply
  idle : s.idle * (s.shares.totalSupply - sh) ≤ s'.idle * s.shares.totalSupply
  other : ∀ t, t ∉ activeTokens s.assets → t ≠ env.usdc → s'.world.held env t = s.world.held env t
  /-- the fee and the net amount are the part of the idle USDC and the proceeds of the swaps -/
  gross : charge.fee + charge.net = s.idle * sh / s.shares.totalSupply + proceeds swaps
  /-- these two amounts are what the vault transfers once the swaps have been made -/
  paid : ∃ usdc : Token Address, usdc.balanceOf env.self = s.idle + proceeds swaps ∧
    (s'.world.ledger env.usdc).balanceOf = Token.moved
      (Token.moved usdc.balanceOf env.self s.feeRecipient.1 charge.fee) env.self receiver charge.net
  whole : sh = s.shares.totalSupply → (∀ t ∈ activeTokens s.assets, s'.world.held env t = 0) ∧ s'.idle = 0

/-- **A redemption does not dilute.**  With distinct active tokens and an exact router, every redemption
leaves at least the remaining shares' part of each active token and of the idle USDC, touches no other
token, pays out the idle part and the proceeds, and leaves nothing when all shares are burned. -/
theorem redemption_never_dilutes (hpools : PoolsPair env) (hexact : ExactRouter env)
    (hnodup : (activeTokens s.assets).Nodup) (hsupply : 0 < s.shares.totalSupply)
    (hreceiver : receiver ≠ env.self) (hfeeRecipient : s.feeRecipient.1 ≠ env.self)
    (h : Redeems s sender receiver owner sh s' swaps charge) :
    Undiluted s s' sh receiver swaps charge := by
  obtain ⟨hburned, hsupply', w, hsell, -, hsum, hpaid, hnet, hfee, hothers⟩ :=
    withdrawInternal_eq_ok h.withdrawInternal
  unfold State.sellProportional at hsell
  obtain ⟨part, hpart, hloop⟩ := bind_eq_ok.mp hsell
  have hpart := idlePart_eq hpart
  obtain ⟨hgross, hsold⟩ := sellLoop_held hpools hexact hnodup hloop
  set S := s.shares.totalSupply with hS
  have hbooked : s'.idle + share s.idle S sh = s.idle := by
    have husdc : w.held env env.usdc = s.idle + proceeds swaps := hsold.usdc
    rw [Token.moved_src hfeeRecipient.symm] at hnet
    have hidle : s'.idle = w.held env env.usdc - charge.fee - charge.net := by
      change (s'.world.ledger env.usdc).balanceOf env.self = _
      rw [hpaid, Token.moved_src hreceiver.symm, Token.moved_src hfeeRecipient.symm]
      rfl
    have hnet : charge.net ≤ w.held env env.usdc - charge.fee := hnet
    omega
  have htokens : ∀ t ∈ activeTokens s.assets,
      s'.world.held env t + share (s.world.held env t) S sh = s.world.held env t := by
    intro t ht
    have hne : t ≠ env.usdc := by
      rintro rfl
      exact hpools.usdc_not_mem ht
    rw [hothers t hne]
    exact hsold.sold t ht
  have hrest : ∀ {b b' : ℕ}, b' + share b S sh = b → b * (S - sh) ≤ b' * S := by
    intro b b' hb
    have hle := mul_sub_le_rest_mul (x := b) (D := S) (w := sh)
    have hb' : b' = b - share b S sh := by omega
    rw [hb']
    exact hle
  have hnone : ∀ {b b' : ℕ}, b' + share b S sh = b → sh = S → b' = 0 := by
    intro b b' hb hall
    rw [hall, share_whole hsupply] at hb
    omega
  refine ⟨hsupply', fun t ht => hrest (htokens t ht), hrest hbooked, ?_, ?_, ?_, ?_⟩
  · intro t ht hne
    rw [hothers t hne]
    exact hsold.other t ht hne
  · rw [hsum, hgross, hpart]
    rfl
  · exact ⟨w.ledger env.usdc, hsold.usdc, hpaid⟩
  · intro hall
    exact ⟨fun t ht => hnone (htokens t ht) hall, hnone hbooked hall⟩

end Redemption

/-- Two thirds of the shares of `inUse` are redeemed. -/
theorem redemption_never_dilutes_inUse :
    ∃ s' swaps charge, Undiluted inUse s' 67000000000000000000 5 swaps charge ∧
      proceeds swaps = 66 ∧ charge.net = 66 := by
  have hrun : (inUse.redeem 5 67000000000000000000 5 5).map (fun x => (proceeds x.2.2.1, x.2.2.2.net)) =
      .ok (66, 66) := by decide +kernel
  rcases hx : inUse.redeem 5 67000000000000000000 5 5 with e | ⟨s', assets, swaps, charge⟩
  · rw [hx] at hrun
    cases hrun
  · rw [hx] at hrun
    have hvalues : (proceeds swaps, charge.net) = (66, 66) := Except.ok.inj hrun
    refine ⟨s', swaps, charge, ?_, (Prod.mk.inj hvalues).1, (Prod.mk.inj hvalues).2⟩
    exact redemption_never_dilutes poolsPair_parBasket (exact_par (by decide)) (by decide +kernel)
      (by decide +kernel) (by decide) (by decide +kernel) (.redeem hx)

end RobotMoney.Basket
