import RobotMoney.Gateway.Funds

/-!
# Shares in the gateway's custody

The gateway is never to hold shares of the pinned vault.  `deposit`, `depositTo` the vault and `withdraw`
each check it when they end.  A `depositTo` through the router does not: where a leg of the router goes
into the pinned vault, a policy whose share receiver is the gateway leaves the gateway with the shares of
that leg (`router_leaves_shares`).  Runs without such a call keep the gateway without shares
(`custody_kept`).
-/

namespace RobotMoney.Gateway

open RobotMoney.Lib State
open RobotMoney.Portfolio (RouterState)

section Checks

variable {V : Type} {env : Env V} {s s' : State V} {b : Block} {sender : Address}
  {orderId key : Bytes32} {amount deadline : ℕ} {r : Receipt}

theorem deposit_noShares (h : s.deposit env b sender orderId amount deadline key = .ok (s', r)) :
    s'.world.shares.balanceOf env.self = 0 := by
  unfold State.deposit at h
  simp only [bind_eq_ok, Prod.exists, checkNoShares, revertIf_eq_ok, exists_const, not_not] at h
  obtain ⟨_, -, -, -, -, _, -, _, -, -, -, _, -, _, -, world, _, -, hshares, _, -, h⟩ := h
  obtain ⟨rfl, -⟩ := Prod.mk.injEq .. ▸ pure_eq_ok.mp h
  exact hshares

/-- A `depositTo` ends with the check, unless it goes through the router. -/
theorem depositTo_custody {destination : Address} {mins : List ℕ}
    (h : s.depositTo env b sender orderId amount deadline key destination mins = .ok (s', r)) :
    ¬ (env.routerContract ≠ 0 ∧ destination = env.routerContract) ∧
        s'.world.shares.balanceOf env.self = 0 ∨
      (env.routerContract ≠ 0 ∧ destination = env.routerContract) ∧
        ∃ w₁ w₂ w₃ minted, pullUsdc env s.world sender amount = .ok w₁ ∧
          forceApprove env w₁ env.routerContract amount = .ok w₂ ∧
          env.routerDepositFor w₂ (s.agents sender).shareReceiver amount mins = .ok (w₃, minted) ∧
          forceApprove env w₃ env.routerContract 0 = .ok s'.world := by
  unfold State.depositTo at h
  simp only [bind_eq_ok, Prod.exists, accrueRollingDeposit_eq_ok] at h
  obtain ⟨_, -, _, -, _, -, _, -, _, -, _, -, isRouter, hdest, _, -, _, ⟨window, -, rfl⟩, w₁, hpull, w', r',
    hdep, h⟩ := h
  obtain ⟨rfl, rfl⟩ := Prod.mk.injEq .. ▸ pure_eq_ok.mp h
  obtain ⟨-, -, hrouter⟩ := validateDestination_eq_ok.mp hdest
  unfold executeDeposit at hdep
  split at hdep
  · rename_i htrue
    rw [htrue, eq_comm, decide_eq_true_iff] at hrouter
    obtain ⟨w₂, w₃, minted, happrove, hdeposit, hclear, -⟩ := executeRouterDeposit_ok hdep
    exact .inr ⟨hrouter, w₁, w₂, w₃, minted, hpull, happrove, hdeposit, hclear⟩
  · rename_i hfalse
    rw [Bool.not_eq_true] at hfalse
    rw [hfalse, eq_comm, decide_eq_false_iff_not] at hrouter
    exact .inl ⟨hrouter, (executeVaultDeposit_ok hdep).2.1⟩

end Checks

variable {W : Type} {S : Setting W} {s s' : State (Surroundings W)}
  {tx : Tx (GatewayCall (Surroundings W))} {r : Receipt} {receiver : Address} {amount : ℕ}

/-! ### The shares of a deposit through the router -/

/-- The router mints to the receiver, and only shares of the vaults it has a weight for. -/
theorem depositFor_ledgers (h : Honest S) {p p' : RouterState (Market W)} {mins : List ℕ}
    {events : List Portfolio.RouterEvent}
    (hd : p.depositFor S.router S.self receiver amount mins = .ok (p', events)) (v : Address) :
    (∃ n, Token.Minted (p.world.ext.ledgers v) receiver n (p'.world.ext.ledgers v)) ∧
      (v ∉ (RouterState.effectiveWeights p.router).1 →
        p'.world.ext.ledgers v = p.world.ext.ledgers v) := by
  obtain ⟨_, -, hdepositTo⟩ := bind_eq_ok.mp hd
  obtain ⟨usdc, amounts, -, hex⟩ := RouterState.depositTo_legs hdepositTo
  refine ⟨(executeLegs_spread h hex).ledgers v, fun hv => ?_⟩
  have hleg : ∀ l ∈ RouterState.legs (RouterState.effectiveWeights p.router).1
      (RouterState.effectiveWeights p.router).2 amounts, ∀ w w' shares,
      S.router.deposit w l.vault S.router.self l.amount receiver = .ok (w', shares) →
      w'.ext.ledgers v = w.ext.ledgers v := by
    intro l hl w w' shares hdep
    have hne : v ≠ l.vault := by
      rintro rfl
      exact hv (RouterState.vault_mem_of_mem_legs hl)
    exact (h.deposit _ _ _ _ _ _ _ h.router_not_own hdep).ledgers v hne
  have hsame := RouterState.executeLegs_rel
    (R := fun w w' : Portfolio.World (Market W) => w'.ext.ledgers v = w.ext.ledgers v)
    (fun _ => rfl) (fun h₁ h₂ => h₂.trans h₁) (fun _ _ _ => rfl) hleg hex
  exact hsame

/-- The same of the pinned vault's shares, over the whole of a `depositTo` through the router. -/
theorem routed_shares (h : Honest S) {p : AgentPolicy} {agent : Address} {mins minted : List ℕ}
    {w w₁ w₂ w₃ w' : World (Surroundings W)} (hpull : pullUsdc S.env w agent amount = .ok w₁)
    (happrove : forceApprove S.env w₁ S.router.self amount = .ok w₂)
    (hdeposit : S.env.routerDepositFor w₂ p.shareReceiver amount mins = .ok (w₃, minted))
    (hclear : forceApprove S.env w₃ S.router.self 0 = .ok w') :
    (∃ n, Token.Minted w.shares p.shareReceiver n w'.shares) ∧
      (S.vaultContract ∉ (RouterState.effectiveWeights w.ext.router).1 → w'.shares = w.shares) := by
  obtain ⟨usdc, -, rfl⟩ := pullUsdc_ok hpull
  obtain ⟨-, -, rfl⟩ := forceApprove_eq_ok.mp happrove
  obtain ⟨p', events, hd, rfl, -⟩ := routerDepositFor_eq_ok.mp hdeposit
  obtain ⟨-, -, rfl⟩ := forceApprove_eq_ok.mp hclear
  have hledgers := depositFor_ledgers h hd S.vaultContract
  have hbefore : ∀ t : Token Address,
      (S.portfolio { w with usdc := t }).world.ext.ledgers S.vaultContract = w.shares :=
    fun t => S.ledger_vaultContract { w with usdc := t }
  rw [hbefore] at hledgers
  exact hledgers

/-! ### Runs -/

/-- The call mints shares of the pinned vault to the gateway: a `depositTo` through the router, which has
a weight for that vault, under a policy whose share receiver is the gateway. -/
def MintsToGateway (S : Setting W) (s : State (Surroundings W))
    (tx : Tx (GatewayCall (Surroundings W))) : Prop :=
  (∃ orderId amount deadline key mins,
      tx.call = .depositTo orderId amount deadline key S.router.self mins) ∧ S.router.self ≠ 0 ∧
    (s.agents tx.sender).shareReceiver = S.self ∧
    S.vaultContract ∈ (RouterState.effectiveWeights s.world.ext.router).1

/-- What others do in between sends the gateway no shares of the pinned vault. -/
def SendsNoShares (S : Setting W) (s : State (Surroundings W))
    (tx : Tx (GatewayCall (Surroundings W))) : Prop :=
  ∀ world, tx.call = .elsewhere world → world.shares.balanceOf S.self ≤ s.world.shares.balanceOf S.self

/-- One call. -/
theorem exec_custody (h : Honest S) (hzero : s.world.shares.balanceOf S.self = 0)
    (hsends : SendsNoShares S s tx) (hmints : ¬ MintsToGateway S s tx)
    (hx : exec S.env s tx = .ok (s', r)) : s'.world.shares.balanceOf S.self = 0 := by
  obtain ⟨b, sender, call, hne⟩ := tx
  cases call with
  | deposit orderId amount deadline key => exact deposit_noShares hx
  | depositTo orderId amount deadline key destination mins =>
    rcases depositTo_custody hx with ⟨-, hshares⟩ | ⟨⟨hrouter, hdest⟩, w₁, w₂, w₃, minted, hpull, happrove,
      hdeposit, hclear⟩
    · exact hshares
    · obtain ⟨⟨n, hminted⟩, hsame⟩ := routed_shares h hpull happrove hdeposit hclear
      by_cases hreceiver : (s.agents sender).shareReceiver = S.self
      · have hweight : S.vaultContract ∉ (RouterState.effectiveWeights s.world.ext.router).1 := by
          intro hv
          subst hdest
          exact hmints ⟨⟨orderId, amount, deadline, key, mins, rfl⟩, hrouter, hreceiver, hv⟩
        rw [hsame hweight, hzero]
      · rw [hminted.of_ne (Ne.symm hreceiver), hzero]
  | withdraw orderId shares sourceVault deadline key =>
    obtain ⟨_, _, -, -, -, hshares, -⟩ := withdraw_ok hx
    exact hshares
  | elsewhere world =>
    cases hx
    exact Nat.le_zero.mp (hzero ▸ hsends world rfl)
  | _ =>
    rw [(exec_effect hx).world_eq rfl (fun _ hc => by cases hc)]
    exact hzero

/-- A call that mints to the gateway leaves it with every share of the pinned vault it mints. -/
theorem exec_mintsToGateway (h : Honest S) (hmints : MintsToGateway S s tx)
    (hx : exec S.env s tx = .ok (s', r)) :
    ∃ n, s'.world.shares.totalSupply = s.world.shares.totalSupply + n ∧
      s'.world.shares.balanceOf S.self = s.world.shares.balanceOf S.self + n := by
  obtain ⟨⟨orderId, amount, deadline, key, mins, hc⟩, hrouter, hreceiver, -⟩ := hmints
  unfold State.exec at hx
  rw [hc] at hx
  rcases depositTo_custody hx with ⟨hno, -⟩ | ⟨-, w₁, w₂, w₃, minted, hpull, happrove, hdeposit, hclear⟩
  · exact absurd ⟨hrouter, rfl⟩ hno
  · obtain ⟨⟨n, hminted⟩, -⟩ := routed_shares h hpull happrove hdeposit hclear
    rw [hreceiver] at hminted
    exact ⟨n, hminted.totalSupply, hminted.dst_eq⟩

/-- **Custody of shares.**  In every run of the deployed gateway in which nobody sends it shares and no
call mints shares to it through the router, the gateway holds no share of the pinned vault in any state.
And each successful call that does mint to it leaves it with all shares of the pinned vault it minted. -/
theorem custody_kept (h : Honest S) {vaultAsset admin pauser : Address}
    {world : World (Surroundings W)} {s₀ : State (Surroundings W)}
    (h₀ : deploy S.env vaultAsset admin pauser world = .ok s₀)
    (hworld : world.shares.balanceOf S.self = 0) (txs : List (Tx (GatewayCall (Surroundings W))))
    (hsends : ∀ pre tx post, txs = pre ++ tx :: post →
      SendsNoShares S (run (exec S.env) s₀ pre) tx) :
    ((∀ pre tx post, txs = pre ++ tx :: post → ¬ MintsToGateway S (run (exec S.env) s₀ pre) tx) →
      ∀ pre post, txs = pre ++ post →
        (run (exec S.env) s₀ pre).world.shares.balanceOf S.self = 0) ∧
    ∀ pre tx post s' r, txs = pre ++ tx :: post → MintsToGateway S (run (exec S.env) s₀ pre) tx →
      exec S.env (run (exec S.env) s₀ pre) tx = .ok (s', r) →
      ∃ n, s'.world.shares.totalSupply =
          (run (exec S.env) s₀ pre).world.shares.totalSupply + n ∧
        s'.world.shares.balanceOf S.self =
          (run (exec S.env) s₀ pre).world.shares.balanceOf S.self + n := by
  refine ⟨?_, ?_⟩
  · intro hmints pre post hpost
    refine run_invariant
      (P := fun (s : State (Surroundings W)) _ => s.world.shares.balanceOf S.self = 0) ?_ ?_
    · obtain ⟨_, _, t, -, -, -, rfl⟩ := deploy_ok h₀
      exact hworld
    · intro pre₁ tx post₁ s' r hsplit hzero hx
      have hsplit' : txs = pre₁ ++ tx :: (post₁ ++ post) := by
        rw [hpost, hsplit, List.append_assoc, List.cons_append]
      exact exec_custody h hzero (hsends _ _ _ hsplit') (hmints _ _ _ hsplit') hx
  · intro pre tx post s' r _ hmints hx
    exact exec_mintsToGateway h hmints hx

/-- As `mockPolicy`, but with the gateway as the receiver of the shares. -/
def gatewayReceives : AgentPolicy := { mockPolicy with shareReceiver := 1 }

/-- The policy passes `_validatePolicy`, the agent deposits through the router, and the gateway is left
with the 60 shares of the leg into the pinned vault. -/
theorem router_leaves_shares :
    let txs := [mockAuthorization gatewayReceives, routedDeposit]
    deploy mockSetting.env 2 20 21 mockWorld = .ok mockGateway ∧
      mockWorld.shares.balanceOf mockSetting.self = 0 ∧
      (history (exec mockSetting.env) mockGateway txs).length = 2 ∧
      (run (exec mockSetting.env) mockGateway txs).world.shares.balanceOf mockSetting.self = 60 := by
  refine ⟨rfl, by decide, by decide, by decide⟩

/-- With the agent as the receiver, the same calls leave the gateway without shares. -/
theorem custody_kept_sample :
    let txs := [mockAuthorization mockPolicy, routedDeposit]
    (run (exec mockSetting.env) mockGateway txs).world.shares.balanceOf 7 = 60 ∧
      (run (exec mockSetting.env) mockGateway txs).world.shares.balanceOf 1 = 0 := by
  intro txs
  have hsends : ∀ pre tx post, txs = pre ++ tx :: post →
      SendsNoShares mockSetting (run (exec mockSetting.env) mockGateway pre) tx := by
    refine forall_step_cons ?_ (forall_step_cons ?_ forall_step_nil)
    · intro world hc
      cases hc
    · intro world hc
      cases hc
  refine ⟨by decide, ?_⟩
  refine (custody_kept mockSetting_honest deploy_mockGateway (by decide) txs hsends).1 ?_ txs [] (by simp)
  refine forall_step_cons ?_ (forall_step_cons ?_ forall_step_nil)
  · rintro ⟨⟨_, _, _, _, _, hc⟩, -⟩
    cases hc
  · rintro ⟨-, -, hreceiver, -⟩
    exact absurd hreceiver (by decide)

end RobotMoney.Gateway
