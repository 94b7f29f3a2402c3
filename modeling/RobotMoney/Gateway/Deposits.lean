import RobotMoney.Gateway.Custody
import RobotMoney.Gateway.Logs

/-!
# Where the money of a deposit goes

A deposit of the gateway goes to the pinned vault, or through the router to the vaults of its vector, a leg
each.  `paidVaults` are the vaults that take USDC in a deposit; in the middle of the call each of them takes
its amount from the gateway or from the router (`pinned_paid`, `routed_paid`).  `madeIn` are the deposits of
a run, in their order, each with its transaction, and `eventsIn_told` says what their events tell of them.
-/

namespace RobotMoney.Gateway

open RobotMoney.Lib State
open RobotMoney.Portfolio (RouterState)
open RobotMoney.Portfolio.RouterState (Leg Split PaysOut legAmounts assignRemainder effectiveWeights legs)

variable {W : Type} {S : Setting W} {s s' s₀ : State (Surroundings W)} {r : Receipt}
  {tx : Tx (GatewayCall (Surroundings W))} {pay : Payment}

instance {V : Type} (env : Env V) (tx : Tx (GatewayCall V)) : Decidable (Routed env tx) := by
  unfold Routed
  split <;> infer_instance

/-! ### Legs -/

/-- The legs of a deposit of `amount` through the router. -/
def depositLegs (router : Portfolio.Router) (amount : ℕ) : List Leg :=
  match legAmounts amount (effectiveWeights router).2 0 with
  | .error _ => []
  | .ok (floors, allocated) =>
    match assignRemainder floors allocated amount with
    | .error _ => []
    | .ok amounts => legs (effectiveWeights router).1 (effectiveWeights router).2 amounts

/-- The vaults that take USDC in a deposit of `amount`. -/
def paidVaults (S : Setting W) (s : State (Surroundings W)) (tx : Tx (GatewayCall (Surroundings W)))
    (amount : ℕ) : List Address :=
  if Routed S.env tx then
    ((depositLegs s.world.ext.router amount).filter fun l => 0 < l.amount).map fun l => l.vault
  else [S.vaultContract]

/-- An amount is split in one way. -/
theorem split_unique {amount wLast wLast' last last' : ℕ} {bps amounts amounts' front front' : List ℕ}
    (h : Split amount bps amounts front wLast last) (h' : Split amount bps amounts' front' wLast' last') :
    amounts = amounts' := by
  obtain ⟨hfront, -⟩ := List.append_inj' (h.bps_eq.symm.trans h'.bps_eq) rfl
  subst hfront
  have hsum := h.sum_eq
  have hsum' := h'.sum_eq
  rw [h.amounts_eq, List.sum_append, List.sum_singleton] at hsum
  rw [h'.amounts_eq, List.sum_append, List.sum_singleton] at hsum'
  have hlast : last = last' := by omega
  rw [h.amounts_eq, h'.amounts_eq, hlast]

/-- The legs that the router pays out are these. -/
theorem depositTo_depositLegs {V : Type} {env : Portfolio.RouterEnv V} {p p' : RouterState V}
    {sender receiver : Address} {amount wLast last : ℕ} {mins amounts front : List ℕ}
    {events : List Portfolio.RouterEvent}
    (hvec : Portfolio.Complete (effectiveWeights p.router).1 (effectiveWeights p.router).2)
    (hd : p.depositTo env sender receiver amount mins = .ok (p', events))
    (hsplit : Split amount (effectiveWeights p.router).2 amounts front wLast last) :
    depositLegs p.router amount =
      legs (effectiveWeights p.router).1 (effectiveWeights p.router).2 amounts := by
  unfold RouterState.depositTo at hd
  simp only [bind_eq_ok, Prod.exists] at hd
  obtain ⟨_, -, _, -, usdc, -, _, -, floors, total, hfloors, amounts', hamounts, -⟩ := hd
  obtain ⟨front', wLast', last', hsplit'⟩ := RouterState.amounts_spec hvec.2 hfloors hamounts
  unfold depositLegs
  rw [hfloors]
  dsimp only
  rw [hamounts, split_unique hsplit hsplit']

/-- **Through the router** each leg is taken by its vault, and the legs sum to the amount. -/
theorem routed_paid (h : Honest S) (hs : Reachable S s) (hsender : S.Outsider tx.sender)
    (hrouted : Routed S.env tx) (hpay : tx.call.payment = some pay)
    (hx : exec S.env s tx = .ok (s', r)) :
    RouterState.legTotal (depositLegs s.world.ext.router pay.amount) = pay.amount ∧
      ∃ w w', PaysOut S.router (s.agents tx.sender).shareReceiver w
        (depositLegs s.world.ext.router pay.amount) w' := by
  obtain ⟨b, sender, call, hne⟩ := tx
  cases call with
  | depositTo orderId amount deadline key destination mins =>
    cases hpay
    rcases depositTo_custody hx with ⟨hdirect, -⟩ | ⟨-, w₁, w₂, w₃, minted, hpull, happrove, hdeposit, -⟩
    · exact absurd hrouted hdirect
    have hq := (hs.quiet h).pull hsender hpull
    obtain ⟨usdc, -, rfl⟩ := pullUsdc_ok hpull
    obtain ⟨-, -, rfl⟩ := forceApprove_eq_ok.mp happrove
    obtain ⟨p, events, hd, -, -⟩ := routerDepositFor_eq_ok.mp hdeposit
    have happroved : ∀ x, (usdc.setAllowance S.self S.router.self amount).allowance S.router.self x =
        usdc.allowance S.router.self x :=
      fun x => Token.setAllowance_allowance_of_ne _ _ (.inl h.self_ne_router.symm)
    have hinv : RouterState.Inv S.router (S.portfolio
        { s.world with usdc := usdc.setAllowance S.self S.router.self amount }) :=
      (RouterState.Reachable.outside hq.router s.world.ext.registry _ fun x => (happroved x).le).inv
        h.spendsAllowanceOnly
    obtain ⟨hcons, -⟩ := RouterState.deposit_conserves h.spendsAllowanceOnly hinv h.self_ne_router
      (c := .depositFor (s.agents sender).shareReceiver amount mins) rfl hd
    obtain ⟨_, -, hdepositTo⟩ := bind_eq_ok.mp hd
    obtain ⟨amounts, front, wLast, last, taken, hsplit, -, hpays⟩ := hcons.split
    have hne : (effectiveWeights s.world.ext.router).1.length ≠ 0 := by
      obtain ⟨u, hu, -⟩ := bind_eq_ok.mp hdepositTo
      exact revertIf_eq_ok.mp hu
    have hlegs : depositLegs s.world.ext.router amount = _ :=
      depositTo_depositLegs (hinv.effective hne) hdepositTo hsplit
    show RouterState.legTotal (depositLegs s.world.ext.router amount) = amount ∧
      ∃ w w', PaysOut S.router _ w (depositLegs s.world.ext.router amount) w'
    rw [hlegs]
    exact ⟨hsplit.legTotal_eq hinv.effective_length, _, _, hpays⟩
  | _ => cases hrouted

/-! ### Events -/

section Events

variable {V : Type} {env : Env V} {t t' : State V} {x : Tx (GatewayCall V)}

/-- The event of a deposit through the router. -/
def routedDepositEvent (env : Env V) (t : State V) (x : Tx (GatewayCall V)) (pay : Payment)
    (sharesPerLeg : List ℕ) : GatewayEvent :=
  .agentDepositRouted (paymentId env x.sender pay.orderId pay.amount pay.key) pay.orderId x.sender
    (t.agents x.sender).shareReceiver env.routerContract pay.amount sharesPerLeg
    (x.block.timestamp / windowSeconds)

/-- What a deposit calls, and the one event it leaves. -/
theorem exec_deposited (hpay : x.call.payment = some pay) (hside : pay.side = .deposit)
    (hx : exec env t x = .ok (t', r)) :
    (¬ Routed env x ∧ ∃ minted w w', r.events = [depositEvent env t x pay minted] ∧
      vaultLeg env w pay.amount (t.agents x.sender).shareReceiver = .ok (w', minted)) ∨
    (Routed env x ∧ ∃ sharesPerLeg, r.events = [routedDepositEvent env t x pay sharesPerLeg]) := by
  obtain ⟨b, sender, call, hsender⟩ := x
  cases call with
  | deposit orderId amount deadline key =>
    unfold State.exec at hx
    simp only [State.deposit, bind_eq_ok, Prod.exists, accrueRollingDeposit_eq_ok] at hx
    obtain ⟨_, -, _, -, _, -, _, -, _, -, _, -, _, -, _, -, _, ⟨w, -, rfl⟩, w₁, -, w₂, minted, hleg, _, -,
      _, -, hx⟩ := hx
    obtain ⟨rfl, rfl⟩ := Prod.mk.injEq .. ▸ pure_eq_ok.mp hx
    cases hpay
    exact .inl ⟨fun h => h, minted, w₁, w₂, rfl, hleg⟩
  | depositTo orderId amount deadline key destination mins =>
    unfold State.exec at hx
    simp only [State.depositTo, bind_eq_ok, Prod.exists, accrueRollingDeposit_eq_ok] at hx
    obtain ⟨_, -, _, -, _, -, _, -, _, -, _, -, isRouter, hdest, _, -, _, ⟨w, -, rfl⟩, w₁, -, w₂,
      receipt, hdep, hx⟩ := hx
    obtain ⟨rfl, rfl⟩ := Prod.mk.injEq .. ▸ pure_eq_ok.mp hx
    obtain ⟨-, -, hrouter⟩ := validateDestination_eq_ok.mp hdest
    cases hpay
    unfold State.executeDeposit at hdep
    split at hdep
    · rename_i htrue
      rw [htrue, eq_comm, decide_eq_true_iff] at hrouter
      simp only [State.executeRouterDeposit, bind_eq_ok, Prod.exists] at hdep
      obtain ⟨w₃, -, w₄, sharesPerLeg, -, w₅, -, _, -, hdep⟩ := hdep
      obtain ⟨rfl, rfl⟩ := Prod.mk.injEq .. ▸ pure_eq_ok.mp hdep
      exact .inr ⟨hrouter, sharesPerLeg, rfl⟩
    · rename_i hfalse
      rw [Bool.not_eq_true] at hfalse
      rw [hfalse, eq_comm, decide_eq_false_iff_not] at hrouter
      simp only [State.executeVaultDeposit, bind_eq_ok, Prod.exists] at hdep
      obtain ⟨_, -, w₃, minted, hleg, _, -, _, -, hdep⟩ := hdep
      obtain ⟨rfl, rfl⟩ := Prod.mk.injEq .. ▸ pure_eq_ok.mp hdep
      exact .inl ⟨hrouter, minted, w₁, w₃, rfl, hleg⟩
  | withdraw orderId shares sourceVault deadline key =>
    cases hpay
    cases hside
  | _ => cases hpay

end Events

/-! ### Vaults that are paid -/

/-- The vault takes USDC of its caller, in a deposit for the receiver. -/
def TakesUsdc (S : Setting W) (v receiver : Address) : Prop :=
  ∃ w w' caller amount shares, 0 < amount ∧ S.router.deposit w v caller amount receiver = .ok (w', shares) ∧
    w'.usdc.balanceOf caller + amount = w.usdc.balanceOf caller

/-- **Into the pinned vault** the whole amount is taken from the gateway. -/
theorem pinned_paid (h : Honest S) (hdirect : ¬ Routed S.env tx) (hpay : tx.call.payment = some pay)
    (hside : pay.side = .deposit) (hx : exec S.env s tx = .ok (s', r)) :
    TakesUsdc S S.vaultContract (s.agents tx.sender).shareReceiver := by
  have hpos := ((exec_effect hx).paid_of_payment hpay).amount_pos
  rcases exec_deposited hpay hside hx with ⟨-, minted, w, w', -, hleg⟩ | ⟨hrouted, -⟩
  · unfold vaultLeg at hleg
    simp only [bind_eq_ok, inner_eq_ok, Prod.exists, forceApprove_eq_ok, vaultDeposit_eq_ok] at hleg
    obtain ⟨w₁, -, w₂, n, ⟨m, hd, -⟩, -⟩ := hleg
    have hdep := h.deposit _ _ _ _ _ _ _ h.self_not_own hd
    exact ⟨_, _, _, _, _, hpos, hd, hdep.paid⟩
  · exact absurd hrouted hdirect

theorem takes_of_paysOut {receiver : Address} {w w' : Portfolio.World (Market W)} {ls : List Leg} {l : Leg}
    (h : PaysOut S.router receiver w ls w') (hl : l ∈ ls) (hpos : 0 < l.amount) :
    TakesUsdc S l.vault receiver := by
  induction h with
  | nil => cases hl
  | cons approved called paid _ ih =>
    rcases List.mem_cons.mp hl with rfl | hl
    · obtain ⟨-, -, rfl⟩ := Token.approve_eq_ok.mp approved
      exact ⟨_, _, _, _, _, hpos, called, paid⟩
    · exact ih hl

/-- **The vaults that are paid** all take USDC in the call. -/
theorem takes_of_paid (h : Honest S) (hs : Reachable S s) (hsender : S.Outsider tx.sender)
    (hpay : tx.call.payment = some pay) (hside : pay.side = .deposit)
    (hx : exec S.env s tx = .ok (s', r)) {v : Address} (hv : v ∈ paidVaults S s tx pay.amount) :
    TakesUsdc S v (s.agents tx.sender).shareReceiver := by
  unfold paidVaults at hv
  split at hv
  · rename_i hrouted
    obtain ⟨-, w, w', hpays⟩ := routed_paid h hs hsender hrouted hpay hx
    obtain ⟨l, hl, rfl⟩ := List.mem_map.mp hv
    obtain ⟨hl, hpos⟩ := List.mem_filter.mp hl
    exact takes_of_paysOut hpays hl (of_decide_eq_true hpos)
  · rename_i hdirect
    rw [List.mem_singleton.mp hv]
    exact pinned_paid h hdirect hpay hside hx

/-! ### Runs -/

/-- What the event of a deposit tells, with the hash of its transaction. -/
structure Told where
  txHash : ℕ
  agent : Address
  receiver : Address
  amount : ℕ
  routed : Bool
  deriving DecidableEq

/-- A deposit, with the vaults that take USDC in it. -/
structure Made extends Told where
  vaults : List Address
  deriving DecidableEq

/-- The deposit that a call makes, if it makes one; the call is one of the transaction `x.1`. -/
def madeBy (S : Setting W) (s : State (Surroundings W)) (x : ℕ × Tx (GatewayCall (Surroundings W))) :
    Option Made :=
  match x.2.call.payment with
  | some ⟨.deposit, _, amount, _⟩ => some
      { txHash := x.1
        agent := x.2.sender
        receiver := (s.agents x.2.sender).shareReceiver
        amount
        routed := decide (Routed S.env x.2)
        vaults := paidVaults S s x.2 amount }
  | _ => none

/-- One call, with the deposit that it makes. -/
def execNoted (S : Setting W) (s : State (Surroundings W)) (x : ℕ × Tx (GatewayCall (Surroundings W))) :
    Call GatewayError (State (Surroundings W) × Receipt × Option Made) := do
  let (s', r) ← exec S.env s x.2
  pure (s', r, madeBy S s x)

/-- The history of a run of such calls. -/
abbrev NotedLog (W : Type) : Type :=
  List ((ℕ × Tx (GatewayCall (Surroundings W))) × Receipt × Option Made)

/-- The deposits of a run. -/
def madeIn (log : NotedLog W) : List Made := log.filterMap fun x => x.2.2

/-- The events of a run, each with the hash of its transaction. -/
def eventsIn (log : NotedLog W) : List (ℕ × GatewayEvent) :=
  log.flatMap fun x => x.2.1.events.map fun ev => (x.1.1, ev)

/-- What an event tells of a deposit. -/
def toldBy (txHash : ℕ) : GatewayEvent → Option Told
  | .agentDeposit _ _ agent shareReceiver amount _ _ => some ⟨txHash, agent, shareReceiver, amount, false⟩
  | .agentDepositRouted _ _ agent shareReceiver _ amount _ _ =>
    some ⟨txHash, agent, shareReceiver, amount, true⟩
  | _ => none

/-- The events of a call tell of the deposit that it makes. -/
theorem exec_told {x : ℕ × Tx (GatewayCall (Surroundings W))} (hx : exec S.env s x.2 = .ok (s', r)) :
    r.events.filterMap (toldBy x.1) = (madeBy S s x).toList.map Made.toTold := by
  obtain ⟨txHash, tx⟩ := x
  unfold madeBy
  cases hpay : tx.call.payment with
  | none =>
    dsimp only
    rw [exec_plainEvents hpay hx]
    unfold plainEvents
    cases tx.call <;> rfl
  | some pay =>
    obtain ⟨side, orderId, amount, key⟩ := pay
    cases side with
    | deposit =>
      rcases exec_deposited hpay rfl hx with ⟨hdirect, minted, -, -, hevents, -⟩ | ⟨hrouted, legs, hevents⟩
      · have hfalse : decide (Routed S.env tx) = false := decide_eq_false hdirect
        rw [hevents]
        dsimp only
        rw [hfalse]
        rfl
      · have htrue : decide (Routed S.env tx) = true := decide_eq_true hrouted
        rw [hevents]
        dsimp only
        rw [htrue]
        rfl
    | withdraw =>
      obtain ⟨e, hevents, hpaid⟩ := exec_paidEvent hpay hx
      rw [hevents]
      cases hpaid with
      | deposit minted hside => cases hside
      | routed hrouted =>
        obtain ⟨b, sender, call, hsender⟩ := tx
        cases call with
        | depositTo => cases hpay
        | _ => cases hrouted
      | withdrawal => rfl

/-- **The events of a run tell of its deposits**, in their order. -/
theorem eventsIn_told (s₀ : State (Surroundings W))
    (calls : List (ℕ × Tx (GatewayCall (Surroundings W)))) :
    (eventsIn (history (execNoted S) s₀ calls)).filterMap (fun x => toldBy x.1 x.2) =
      (madeIn (history (execNoted S) s₀ calls)).map Made.toTold := by
  refine run_invariant (P := fun _ (log : NotedLog W) => (eventsIn log).filterMap (fun x => toldBy x.1 x.2) =
    (madeIn log).map Made.toTold) rfl ?_
  rintro pre x post s' ⟨r, m⟩ - ih hx
  obtain ⟨⟨s'', r'⟩, hexec, hx⟩ := bind_eq_ok.mp hx
  obtain ⟨rfl, hr⟩ := Prod.mk.injEq .. ▸ pure_eq_ok.mp hx
  obtain ⟨rfl, rfl⟩ := Prod.mk.injEq .. ▸ hr
  have hcall : ((r'.events.map fun ev => (x.1, ev)).filterMap fun y => toldBy y.1 y.2) =
      (madeBy S (run (execNoted S) s₀ pre) x).toList.map Made.toTold := by
    rw [List.filterMap_map]
    exact exec_told hexec
  unfold eventsIn madeIn at ih ⊢
  rw [List.flatMap_append, List.filterMap_append, ih, List.flatMap_singleton, hcall, List.filterMap_append,
    List.map_append]
  congr 1

/-- **The vaults of the deposits of a run** all take USDC, for the receiver. -/
theorem made_paid (h : Honest S) (hs : Reachable S s₀)
    {calls : List (ℕ × Tx (GatewayCall (Surroundings W)))}
    (hcalls : ∀ x ∈ calls, S.Outsider x.2.sender ∧ ∀ world, x.2.call ≠ .elsewhere world) :
    ∀ m ∈ madeIn (history (execNoted S) s₀ calls), ∀ v ∈ m.vaults, TakesUsdc S v m.receiver := by
  have hrun : Reachable S (run (execNoted S) s₀ calls) ∧
      ∀ m ∈ madeIn (history (execNoted S) s₀ calls), ∀ v ∈ m.vaults, TakesUsdc S v m.receiver := by
    refine run_invariant (P := fun s (log : NotedLog W) => Reachable S s ∧
      ∀ m ∈ madeIn log, ∀ v ∈ m.vaults, TakesUsdc S v m.receiver) ⟨hs, fun m hm => by cases hm⟩ ?_
    rintro pre x post s' ⟨r, m⟩ hsplit ⟨hreach, ih⟩ hx
    obtain ⟨hsender, helse⟩ := hcalls x (by rw [hsplit]; simp)
    obtain ⟨⟨s'', r'⟩, hexec, hx⟩ := bind_eq_ok.mp hx
    obtain ⟨rfl, hr⟩ := Prod.mk.injEq .. ▸ pure_eq_ok.mp hx
    obtain ⟨rfl, rfl⟩ := Prod.mk.injEq .. ▸ hr
    refine ⟨.call hreach hsender helse hexec, ?_⟩
    intro m hm v hv
    unfold madeIn at hm ih
    rw [List.filterMap_append] at hm
    rcases List.mem_append.mp hm with hm | hm
    · exact ih m hm v hv
    · obtain ⟨y, hy, hmade⟩ := List.mem_filterMap.mp hm
      rw [List.mem_singleton.mp hy] at hmade
      have hmade : madeBy S (run (execNoted S) s₀ pre) x = some m := hmade
      unfold madeBy at hmade
      split at hmade
      · rename_i hpay
        cases hmade
        exact takes_of_paid h hreach hsender hpay rfl hexec hv
      · cases hmade
  exact hrun.2

/-- A deposit past the router is one into the pinned vault. -/
theorem vaults_of_direct {calls : List (ℕ × Tx (GatewayCall (Surroundings W)))} {m : Made}
    (hm : m ∈ madeIn (history (execNoted S) s₀ calls)) (hdirect : m.routed = false) :
    m.vaults = [S.vaultContract] := by
  have hrun : ∀ m ∈ madeIn (history (execNoted S) s₀ calls), m.routed = false →
      m.vaults = [S.vaultContract] := by
    refine run_invariant (P := fun _ (log : NotedLog W) => ∀ m ∈ madeIn log, m.routed = false →
      m.vaults = [S.vaultContract]) (fun m hm => by cases hm) ?_
    rintro pre x post s' ⟨r, m⟩ - ih hx m hm hdirect
    obtain ⟨⟨s'', r'⟩, -, hx⟩ := bind_eq_ok.mp hx
    obtain ⟨-, hr⟩ := Prod.mk.injEq .. ▸ pure_eq_ok.mp hx
    obtain ⟨-, rfl⟩ := Prod.mk.injEq .. ▸ hr
    unfold madeIn at hm ih
    rw [List.filterMap_append] at hm
    rcases List.mem_append.mp hm with hm | hm
    · exact ih m hm hdirect
    · obtain ⟨y, hy, hmade⟩ := List.mem_filterMap.mp hm
      rw [List.mem_singleton.mp hy] at hmade
      have hmade : madeBy S (run (execNoted S) s₀ pre) x = some m := hmade
      unfold madeBy at hmade
      split at hmade
      · cases hmade
        exact if_neg (of_decide_eq_false hdirect)
      · cases hmade
  exact hrun m hm hdirect

end RobotMoney.Gateway
