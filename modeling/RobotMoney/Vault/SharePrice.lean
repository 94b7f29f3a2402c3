import RobotMoney.Lib.Run
import RobotMoney.Lib.SharePrice
import RobotMoney.Vault.Moves

/-!
# The share price never falls

What the four entry points of ERC-4626 do to the price of a share, when the adapters are *exact*: what
the vault allocates to an adapter the adapter reports on top, and what it withdraws from it comes back
in full and is reported less.  Routing and pulling are moves and leave the wealth of the vault; a deposit
adds what it pays, and a withdrawal takes no more than the gross value of the shares it burns.  The rest
is the arithmetic of `PriceLe`.
-/

namespace RobotMoney.Vault

open RobotMoney.Lib State

variable {V : Type} {env : Env V} {s s' : State V} {w w' : World V} {ads : List Address}

theorem virtualShares_pos : 0 < virtualShares := Nat.pow_pos (by decide)

/-! ### Assets -/

section Wealth

variable (hexact : Exact env ads)

include hexact

/-- USDC sent away costs the vault at most what was sent. -/
theorem transfer_wealth {usdc : Token Address} {dst : Address} {x : ℕ}
    (h : (w.usdc.transfer env.self dst x : Call VaultError _) = .ok usdc) :
    wealth env ads w ≤ wealth env ads { w with usdc } + x := by
  obtain ⟨-, -, hle, rfl⟩ := Token.transfer_eq_ok.mp h
  have hidle : w.usdc.balanceOf env.self ≤ (w.usdc.move env.self dst x hle).balanceOf env.self + x := by
    show _ ≤ Token.moved w.usdc.balanceOf env.self dst x env.self + x
    by_cases hd : dst = env.self
    · subst hd
      rw [Token.moved_self hle]
      omega
    · rw [Token.moved_src (Ne.symm hd)]
      omega
  have hsum : (ads.map (env.adapterAssets w)).sum ≤
      (ads.map (env.adapterAssets { w with usdc := w.usdc.move env.self dst x hle })).sum := by
    refine List.sum_le_sum ?_
    intro a ha
    refine hexact.grows w _ a ha (Token.le_moved ?_)
    rintro rfl
    exact hexact.self_not_mem ha
  unfold wealth
  show _ ≤ (w.usdc.move env.self dst x hle).balanceOf env.self + _ + x
  omega

/-- USDC taken from a user is the vault's. -/
theorem transferFrom_wealth {usdc : Token Address} {caller : Address} {x : ℕ} (hself : caller ≠ env.self)
    (hads : caller ∉ ads)
    (h : (w.usdc.transferFrom env.self caller env.self x : Call VaultError _) = .ok usdc) :
    wealth env ads { w with usdc } = wealth env ads w + x := by
  obtain ⟨-, hbal, -⟩ := Token.transferFrom_balances h
  have hidle : usdc.balanceOf env.self = w.usdc.balanceOf env.self + x := by
    rw [hbal, Token.moved_dst hself]
  have hsum : ads.map (env.adapterAssets { w with usdc }) = ads.map (env.adapterAssets w) := by
    refine List.map_congr_left ?_
    intro a ha
    refine hexact.own ha ?_
    rw [hbal]
    refine Token.moved_of_ne ?_ ?_
    · rintro rfl
      exact hads ha
    · rintro rfl
      exact hexact.self_not_mem ha
  unfold wealth
  rw [hsum]
  show usdc.balanceOf env.self + _ = _
  omega

end Wealth

/-! ### The four entry points -/

section Entry

variable (hexact : Exact env s.activeAdapters) (hnodup : s.activeAdapters.Nodup)

include hexact hnodup

theorem routeDeposit_wealth {amount : ℕ} (h : s.routeDeposit env amount = .ok s') :
    s' = { s with world := s'.world } ∧
      wealth env s.activeAdapters s'.world = wealth env s.activeAdapters s.world :=
  ⟨routeDeposit_frame h, (routeDeposit_moves h).wealth hexact hnodup⟩

theorem pullProportional_wealth {gross : ℕ} (h : s.pullProportional env gross = .ok s') :
    wealth env s.activeAdapters s'.world = wealth env s.activeAdapters s.world :=
  (pullProportional_moves h).wealth hexact hnodup

/-- A deposit or a mint of `x` assets for `sh` shares. -/
structure Entered (env : Env V) (s s' : State V) (x sh : ℕ) : Prop where
  frame : s' = { s with shares := s'.shares, world := s'.world }
  wealth_eq : wealth env s.activeAdapters s'.world = wealth env s.activeAdapters s.world + x
  supply_eq : s'.shares.totalSupply = s.shares.totalSupply + sh
  fair : sh * (wealth env s.activeAdapters s.world + 1) ≤ x * (s.shares.totalSupply + virtualShares)

/-- A withdrawal or a redemption of `sh` shares, worth `gross`, for `x` assets. -/
structure Left (env : Env V) (s s' : State V) (x sh gross : ℕ) : Prop where
  frame : s' = { s with shares := s'.shares, world := s'.world }
  net_le : x ≤ gross
  wealth_le : wealth env s.activeAdapters s.world ≤ wealth env s.activeAdapters s'.world + gross
  sh_le : sh ≤ s.shares.totalSupply
  supply_eq : s'.shares.totalSupply = s.shares.totalSupply - sh
  fair : gross * (s.shares.totalSupply + virtualShares) ≤
    sh * (wealth env s.activeAdapters s.world + 1)

theorem depositInternal_entered {user receiver : Address} {x sh : ℕ} (hself : user ≠ env.self)
    (hads : user ∉ s.activeAdapters)
    (hfair : sh * (wealth env s.activeAdapters s.world + 1) ≤
      x * (s.shares.totalSupply + virtualShares))
    (h : s.depositInternal env user receiver x sh = .ok s') : Entered env s s' x sh := by
  unfold State.depositInternal at h
  simp only [bind_eq_ok] at h
  obtain ⟨_, -, _, -, _, -, _, -, _, -, _, -, _, -, usdc, hpay, token, hmint, h⟩ := h
  obtain ⟨-, hlt, rfl⟩ := Token.mint_eq_ok.mp hmint
  obtain ⟨hframe, hwealth⟩ := routeDeposit_wealth
    (s := { s with shares := s.shares.issue receiver sh hlt, world := { s.world with usdc } })
    hexact hnodup h
  refine ⟨?_, ?_, ?_, hfair⟩
  · rw [hframe]
  · refine hwealth.trans ?_
    exact transferFrom_wealth hexact hself hads hpay
  · rw [hframe]
    rfl

theorem withdrawInternal_left {user receiver owner : Address} {x sh : ℕ}
    (h : s.withdrawInternal env user receiver owner x sh = .ok s') :
    ∃ gross, s.convertToAssets env sh = .ok gross ∧ Left env s s' x sh gross := by
  unfold State.withdrawInternal at h
  simp only [bind_eq_ok, subU_eq_ok, pure_eq_ok] at h
  obtain ⟨_, -, token, hspend, gross, hgross, fee, ⟨hnet, rfl⟩, s₁, hpull, token', hburn, usdc₁, hfee,
    usdc₂, hpay, rfl⟩ := h
  have hframe := pullProportional_frame hpull
  have hwealth := pullProportional_wealth hexact hnodup hpull
  have hspent : token.totalSupply = s.shares.totalSupply ∧ token.balanceOf = s.shares.balanceOf := by
    unfold State.spendShares at hspend
    split at hspend
    · obtain ⟨hb, hs⟩ := Token.spendAllowance_frame hspend
      exact ⟨hs, hb⟩
    · cases hspend
      exact ⟨rfl, rfl⟩
  obtain ⟨-, hle, rfl⟩ := Token.burn_eq_ok.mp hburn
  have hsupply : sh ≤ s.shares.totalSupply := by
    rw [← hspent.1]
    exact hle.trans (Token.balanceOf_le_supply _ _)
  -- the fee and the payment cost the vault at most what they are
  have hcost₁ : wealth env s.activeAdapters s₁.world ≤
      wealth env s.activeAdapters { s₁.world with usdc := usdc₁ } + (gross - x) := by
    unfold State.payFee at hfee
    split at hfee
    · exact transfer_wealth hexact hfee
    · cases hfee
      exact Nat.le_add_right _ _
  have hcost₂ : wealth env s.activeAdapters { s₁.world with usdc := usdc₁ } ≤
      wealth env s.activeAdapters { s₁.world with usdc := usdc₂ } + x :=
    transfer_wealth (w := { s₁.world with usdc := usdc₁ }) hexact hpay
  have hfair : gross * (s.shares.totalSupply + virtualShares) ≤
      sh * (wealth env s.activeAdapters s.world + 1) := by
    unfold State.convertToAssets at hgross
    simp only [bind_eq_ok, totalAssets_eq_ok, addU_eq_ok] at hgross
    obtain ⟨_, ⟨-, rfl⟩, _, ⟨-, rfl⟩, _, ⟨-, rfl⟩, hdiv⟩ := hgross
    exact mulDiv_mul_le hdiv
  refine ⟨gross, hgross, ?_, hnet, ?_, hsupply, ?_, hfair⟩
  · rw [hframe]
  · rw [← hwealth]
    show _ ≤ wealth env s.activeAdapters { s₁.world with usdc := usdc₂ } + gross
    omega
  · show token.totalSupply - sh = _
    rw [hspent.1]

theorem deposit_entered {user receiver : Address} {assets x sh : ℕ} (hself : user ≠ env.self)
    (hads : user ∉ s.activeAdapters) (h : s.deposit env user assets receiver = .ok (s', x, sh)) :
    Entered env s s' x sh := by
  unfold State.deposit at h
  simp only [bind_eq_ok, pure_eq_ok, Prod.mk.injEq] at h
  obtain ⟨shares, hpreview, s₁, hin, rfl, rfl, rfl⟩ := h
  refine depositInternal_entered hexact hnodup hself hads ?_ hin
  unfold State.previewDeposit State.convertToShares at hpreview
  simp only [bind_eq_ok, totalAssets_eq_ok, addU_eq_ok] at hpreview
  obtain ⟨_, ⟨-, rfl⟩, _, ⟨-, rfl⟩, _, ⟨-, rfl⟩, hdiv⟩ := hpreview
  exact mulDiv_mul_le hdiv

theorem mint_entered {user receiver : Address} {shares x sh : ℕ} (hself : user ≠ env.self)
    (hads : user ∉ s.activeAdapters) (h : s.mint env user shares receiver = .ok (s', x, sh)) :
    Entered env s s' x sh := by
  unfold State.mint at h
  simp only [bind_eq_ok, pure_eq_ok, Prod.mk.injEq] at h
  obtain ⟨assets, hpreview, s₁, hin, rfl, rfl, rfl⟩ := h
  refine depositInternal_entered hexact hnodup hself hads ?_ hin
  unfold State.previewMint State.convertToAssetsUp at hpreview
  simp only [bind_eq_ok, totalAssets_eq_ok, addU_eq_ok] at hpreview
  obtain ⟨_, ⟨-, rfl⟩, _, ⟨-, rfl⟩, _, ⟨-, rfl⟩, hdiv⟩ := hpreview
  exact (mulDivUp_bounds hdiv).1

theorem withdraw_left {user receiver owner : Address} {assets x sh : ℕ}
    (h : s.withdraw env user assets receiver owner = .ok (s', x, sh)) :
    ∃ gross, Left env s s' x sh gross := by
  unfold State.withdraw at h
  simp only [bind_eq_ok, pure_eq_ok, Prod.mk.injEq] at h
  obtain ⟨_, -, _, -, shares, -, s₁, hout, rfl, rfl, rfl⟩ := h
  obtain ⟨gross, -, hleft⟩ := withdrawInternal_left hexact hnodup hout
  exact ⟨gross, hleft⟩

theorem redeem_left {user receiver owner : Address} {shares x sh : ℕ}
    (h : s.redeem env user shares receiver owner = .ok (s', x, sh)) :
    ∃ gross, Left env s s' x sh gross := by
  unfold State.redeem at h
  simp only [bind_eq_ok, pure_eq_ok, Prod.mk.injEq] at h
  obtain ⟨_, -, assets, -, s₁, hout, rfl, rfl, rfl⟩ := h
  obtain ⟨gross, -, hleft⟩ := withdrawInternal_left hexact hnodup hout
  exact ⟨gross, hleft⟩

end Entry

/-! ### Runs of users -/

/-- Whether a call brings assets in. -/
def State.UserCall.Enters : UserCall → Prop
  | .deposit _ _ => True
  | .mint _ _ => True
  | _ => False

/-- A call of a user enters, or leaves. -/
theorem userExec_cases (hexact : Exact env s.activeAdapters) (hnodup : s.activeAdapters.Nodup)
    {user : Address} {c : UserCall} {x sh : ℕ} (hself : user ≠ env.self)
    (hads : user ∉ s.activeAdapters) (h : s.userExec env user c = .ok (s', x, sh)) :
    (c.Enters ∧ Entered env s s' x sh) ∨ (¬ c.Enters ∧ ∃ gross, Left env s s' x sh gross) := by
  cases c with
  | deposit assets receiver =>
    exact .inl ⟨trivial, deposit_entered hexact hnodup hself hads h⟩
  | mint shares receiver =>
    exact .inl ⟨trivial, mint_entered hexact hnodup hself hads h⟩
  | withdraw assets receiver owner => exact .inr ⟨id, withdraw_left hexact hnodup h⟩
  | redeem shares receiver owner => exact .inr ⟨id, redeem_left hexact hnodup h⟩

/-- The calls of users, one after the other. -/
def userStep (env : Env V) (s : State V) (c : Address × UserCall) :
    Call VaultError (State V × ℕ × ℕ) :=
  s.userExec env c.1 c.2

/-- What a run of users keeps: the adapters; and the price does not fall. -/
theorem users_price {calls : List (Address × UserCall)} (hexact : Exact env s.activeAdapters)
    (hnodup : s.activeAdapters.Nodup)
    (husers : ∀ c ∈ calls, c.1 ≠ env.self ∧ c.1 ∉ s.activeAdapters) :
    (run (userStep env) s calls).activeAdapters = s.activeAdapters ∧
      PriceLe virtualShares (wealth env s.activeAdapters s.world) s.shares.totalSupply
        (wealth env s.activeAdapters (run (userStep env) s calls).world)
        (run (userStep env) s calls).shares.totalSupply := by
  refine run_invariant (P := fun (s' : State V) _ => s'.activeAdapters = s.activeAdapters ∧
    PriceLe virtualShares (wealth env s.activeAdapters s.world) s.shares.totalSupply
      (wealth env s.activeAdapters s'.world) s'.shares.totalSupply) ?_ ?_
  · refine ⟨rfl, ?_⟩
    exact PriceLe.refl
  rintro pre c post s₂ ⟨x, sh⟩ hsplit ⟨hads, hprice⟩ hx
  set s₁ := run (userStep env) s pre
  have huser := husers c (by simp [hsplit])
  rw [← hads] at hexact hnodup huser hprice ⊢
  have hstep : s₂.activeAdapters = s₁.activeAdapters ∧
      PriceLe virtualShares (wealth env s₁.activeAdapters s₁.world) s₁.shares.totalSupply
        (wealth env s₁.activeAdapters s₂.world) s₂.shares.totalSupply := by
    rcases userExec_cases hexact hnodup huser.1 huser.2 hx with ⟨-, hin⟩ | ⟨-, gross, hout⟩
    · refine ⟨?_, ?_⟩
      · rw [hin.frame]
        rfl
      · rw [hin.wealth_eq, hin.supply_eq]
        exact .deposit hin.fair
    · refine ⟨?_, ?_⟩
      · rw [hout.frame]
        rfl
      · rw [hout.supply_eq]
        exact .withdraw hout.sh_le hout.wealth_le hout.fair
  exact ⟨hstep.1, hprice.trans virtualShares_pos hstep.2⟩

/-- **The share price never falls.**  In every state of the vault whose active adapters are distinct and
exact: over any calls of users, with `A`, `S` and `A'`, `S'` the total assets and the supply before and
after, `(A + 1) * (S' + 10^18) ≤ (A' + 1) * (S + 10^18)`; and a deposit or mint that pays `x`, followed
by a withdrawal or redemption of no more than the shares it minted, returns at most `x`. -/
theorem share_price_never_falls (hexact : Exact env s.activeAdapters)
    (hnodup : s.activeAdapters.Nodup) :
    (∀ (calls : List (Address × UserCall)) A A',
      (∀ c ∈ calls, c.1 ≠ env.self ∧ c.1 ∉ s.activeAdapters) → s.totalAssets env = .ok A →
      (run (userStep env) s calls).totalAssets env = .ok A' →
      (A + 1) * ((run (userStep env) s calls).shares.totalSupply + 10 ^ 18) ≤
        (A' + 1) * (s.shares.totalSupply + 10 ^ 18)) ∧
    (∀ user c s₁ x sh, user ≠ env.self → user ∉ s.activeAdapters → c.Enters →
      s.userExec env user c = .ok (s₁, x, sh) →
      ∀ user' c' s₂ x' sh', user' ≠ env.self → user' ∉ s.activeAdapters → ¬ c'.Enters →
        s₁.userExec env user' c' = .ok (s₂, x', sh') → sh' ≤ sh → x' ≤ x) := by
  refine ⟨?_, ?_⟩
  · intro calls A A' husers hA hA'
    obtain ⟨hads, hprice⟩ := users_price hexact hnodup husers
    obtain ⟨-, rfl⟩ := totalAssets_eq_ok.mp hA
    obtain ⟨-, rfl⟩ := totalAssets_eq_ok.mp hA'
    unfold PriceLe virtualShares at hprice
    rw [hads]
    exact hprice
  · intro user c s₁ x sh hself hads hc h₁ user' c' s₂ x' sh' hself' hads' hc' h₂ hle
    have hin : Entered env s s₁ x sh := by
      rcases userExec_cases hexact hnodup hself hads h₁ with ⟨-, hin⟩ | ⟨hout, -⟩
      · exact hin
      · exact absurd hc hout
    have hsame : s₁.activeAdapters = s.activeAdapters := by
      rw [hin.frame]
      rfl
    rw [← hsame] at hexact hnodup hads'
    rcases userExec_cases hexact hnodup hself' hads' h₂ with ⟨hin', -⟩ | ⟨-, gross, hout⟩
    · exact absurd hin' hc'
    · have hfair := hout.fair
      rw [hin.supply_eq, hsame, hin.wealth_eq] at hfair
      exact hout.net_le.trans (PriceLe.round_trip virtualShares_pos hin.fair hle hfair)

/-! ### A vault in use -/

/-- The accounts `5` and `6` hold 1000 units each, and let the vault at `1` take them. -/
def userWorld : World Unit where
  usdc := Token.setAllowance (Token.setAllowance ((Token.empty.issue 5 2000 (by decide)).issue 6 1000
    (by decide)) 5 1 1000) 6 1 1000
  ext := ()

/-- The vault as deployed with an exit fee of one percent, the fee recipient `21` and the admin `20`. -/
def deployed : State Unit := State.initial 1000 500 ⟨100, by decide⟩ ⟨21, by decide⟩ 20 userWorld

example : deploy 1000 500 100 21 20 userWorld = .ok deployed := rfl

/-- A call in one fixed block. -/
def callBy (sender : Address) (call : VaultCall Unit) : Tx (VaultCall Unit) :=
  .of sender (.of 10 1000) call

/-- Two passthrough adapters are added, and `5` deposits three units, of which two go to the first. -/
def opened : List (Tx (VaultCall Unit)) :=
  [callBy 20 (.setAdapterCodeHashAllowed 1 true), callBy 20 (.setAdapterAllowed 10 true),
   callBy 20 (.setAdapterAllowed 11 true), callBy 20 (.addAdapter 10 10000),
   callBy 20 (.addAdapter 11 10000), callBy 5 (.user (.deposit 3 5))]

/-- The vault after that. -/
def inUse : State Unit := run (exec (passthrough 1 2)) deployed opened

/-- One call of each kind. -/
def oneOfEach : List (Address × UserCall) :=
  [(5, .deposit 100 5), (6, .mint (7 * 10 ^ 18 + 1) 6), (5, .redeem (10 ^ 18) 5 5),
   (6, .withdraw 3 6 6)]

theorem share_price_never_falls_sample :
    (history (userStep (passthrough 1 2)) inUse oneOfEach).length = 4 ∧
      (3 + 1) * ((run (userStep (passthrough 1 2)) inUse oneOfEach).shares.totalSupply + 10 ^ 18) ≤
        (106 + 1) * (inUse.shares.totalSupply + 10 ^ 18) :=
  ⟨by decide +kernel, (share_price_never_falls (exact_passthrough (by decide +kernel))
    (by decide +kernel)).1 oneOfEach 3 106 (by decide +kernel) (by decide +kernel) (by decide +kernel)⟩

end RobotMoney.Vault
