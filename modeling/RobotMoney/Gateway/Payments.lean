import RobotMoney.Gateway.Effect
import RobotMoney.Lib.Run

/-!
# Payments happen once

Over any run of the deployed gateway, `usedPaymentIds` holds exactly the ids of the payments that
succeeded, and no id, hence no combination of agent, order, amount and key, belongs to two of them,
whichever of `deposit`, `depositTo` and `withdraw` was called.
-/

namespace RobotMoney.Gateway

open RobotMoney.Lib State

variable {V : Type} {env : Env V} {s s' : State V} {r : Receipt} {tx : Tx (GatewayCall V)}

/-- The calls that succeeded in a run of the gateway. -/
abbrev Log (V : Type) : Type := List (Tx (GatewayCall V) × Receipt)

/-- The payment ids of the calls that succeeded. -/
def paymentIds (log : Log V) : List Bytes32 := log.filterMap fun x => x.2.paymentId

/-- What a payment is identified by: agent, order, amount and key. -/
def paymentKey (tx : Tx (GatewayCall V)) : Option (Address × Bytes32 × ℕ × Bytes32) :=
  tx.call.payment.map fun pay => (tx.sender, pay.orderId, pay.amount, pay.key)

/-- The payment id of a payment with a given identification. -/
def idOf (env : Env V) (k : Address × Bytes32 × ℕ × Bytes32) : Bytes32 :=
  paymentId env k.1 k.2.1 k.2.2.1 k.2.2.2

/-- The receipt of a call carries the id of the payment it is, if it is one. -/
theorem Effect.paymentId_eq (h : Effect env s tx s' r) :
    r.paymentId = (paymentKey tx).map (idOf env) := by
  unfold paymentKey
  cases hc : tx.call.payment with
  | none => exact h.paymentId_none hc
  | some pay => exact (h.paid_of_payment hc).paymentId_eq

/-- A call marks the id of its receipt, which was not marked, and no other. -/
theorem Effect.used (h : Effect env s tx s' r) :
    (r.paymentId = none ∧ s'.usedPaymentIds = s.usedPaymentIds) ∨
      ∃ id, r.paymentId = some id ∧ s.usedPaymentIds id = false ∧
        s'.usedPaymentIds = Function.update s.usedPaymentIds id true := by
  cases h with
  | paid hpay hp =>
    obtain ⟨w, -, hs'⟩ := hp.state
    refine .inr ⟨_, hp.paymentId_eq, hp.unused, ?_⟩
    rw [hs']
    unfold State.markUsed
    rw [Side.setWindow_usedPaymentIds]
  | _ => exact .inl ⟨rfl, rfl⟩

/-- The flags and the ids of a run so far. -/
structure Recorded (env : Env V) (s : State V) (log : Log V) : Prop where
  used : ∀ id, s.usedPaymentIds id = true ↔ id ∈ paymentIds log
  nodup : (paymentIds log).Nodup
  ids : ∀ x ∈ log, x.2.paymentId = (paymentKey x.1).map (idOf env)

theorem paymentIds_snoc (log : Log V) (tx : Tx (GatewayCall V)) (r : Receipt) :
    paymentIds (log ++ [(tx, r)]) = paymentIds log ++ r.paymentId.toList := by
  unfold paymentIds
  rw [List.filterMap_append]
  cases hr : r.paymentId <;> simp [hr]

theorem Recorded.step {log : Log V} (hrec : Recorded env s log) (h : Effect env s tx s' r) :
    Recorded env s' (log ++ [(tx, r)]) := by
  have hids : ∀ x ∈ log ++ [(tx, r)], x.2.paymentId = (paymentKey x.1).map (idOf env) := by
    intro x hx
    rcases List.mem_append.mp hx with hx | hx
    · exact hrec.ids x hx
    · rw [List.mem_singleton.mp hx]
      exact h.paymentId_eq
  rcases h.used with ⟨hnone, hused⟩ | ⟨id, hid, hfresh, hused⟩
  · refine ⟨?_, ?_, hids⟩
    · intro id
      rw [paymentIds_snoc, hnone, hused]
      simpa using hrec.used id
    · rw [paymentIds_snoc, hnone]
      simpa using hrec.nodup
  · have hnew : id ∉ paymentIds log := by
      intro hmem
      rw [(hrec.used id).mpr hmem] at hfresh
      cases hfresh
    refine ⟨?_, ?_, hids⟩
    · intro id'
      rw [paymentIds_snoc, hid, hused]
      by_cases hi : id' = id
      · subst hi
        simp
      · rw [Function.update_of_ne hi, hrec.used id']
        simp [hi]
    · rw [paymentIds_snoc, hid]
      exact hrec.nodup.append (List.nodup_singleton id) (by simpa using hnew)

theorem deploy_usedPaymentIds {vaultAsset admin pauser : Address} {world : World V}
    (h : deploy env vaultAsset admin pauser world = .ok s) : s.usedPaymentIds = fun _ => false := by
  obtain ⟨_, _, t, -, -, -, rfl⟩ := deploy_ok h
  rfl

/-- The identifications of the payments are as distinct as the ids. -/
theorem Recorded.keys_nodup {log : Log V} (hrec : Recorded env s log) :
    (log.filterMap fun x => paymentKey x.1).Nodup := by
  have hmap : paymentIds log = (log.filterMap fun x => paymentKey x.1).map (idOf env) := by
    unfold paymentIds
    rw [List.map_filterMap]
    exact List.filterMap_congr hrec.ids
  have hnodup := hrec.nodup
  rw [hmap] at hnodup
  exact hnodup.of_map

theorem recorded_run {vaultAsset admin pauser : Address} {world : World V} {s₀ : State V}
    (h₀ : deploy env vaultAsset admin pauser world = .ok s₀) (txs : List (Tx (GatewayCall V))) :
    Recorded env (run (exec env) s₀ txs) (history (exec env) s₀ txs) := by
  refine run_invariant ⟨?_, List.nodup_nil, ?_⟩ ?_
  · intro id
    rw [deploy_usedPaymentIds h₀]
    simp [paymentIds]
  · intro x hx
    cases hx
  · intro pre tx post s' r _ hrec hx
    exact hrec.step (exec_effect hx)

/-- **Exactly-once payments.**  In every run of the deployed gateway: the used ids are those of the
calls that succeeded; each call that succeeded has the id of its payment, and no id is taken twice; no
two of them have the same agent, order, amount and key; and a call that reverts leaves the whole state,
flags, windows and balances, as it was. -/
theorem payments_exactly_once {vaultAsset admin pauser : Address} {world : World V} {s₀ : State V}
    (h₀ : deploy env vaultAsset admin pauser world = .ok s₀) (txs : List (Tx (GatewayCall V))) :
    (∀ id, (run (exec env) s₀ txs).usedPaymentIds id = true ↔
      ∃ x ∈ history (exec env) s₀ txs, x.2.paymentId = some id) ∧
    (∀ x ∈ history (exec env) s₀ txs, x.2.paymentId = x.1.call.payment.map fun pay =>
      paymentId env x.1.sender pay.orderId pay.amount pay.key) ∧
    ((history (exec env) s₀ txs).filterMap fun x => x.2.paymentId).Nodup ∧
    ((history (exec env) s₀ txs).filterMap fun x => paymentKey x.1).Nodup ∧
    (∀ tx e, exec env (run (exec env) s₀ txs) tx = .error e →
      run (exec env) s₀ (txs ++ [tx]) = run (exec env) s₀ txs) := by
  have hrec := recorded_run h₀ txs
  refine ⟨?_, ?_, hrec.nodup, hrec.keys_nodup, ?_⟩
  · intro id
    rw [hrec.used id, paymentIds, List.mem_filterMap]
  · intro x hx
    rw [hrec.ids x hx]
    unfold paymentKey
    rw [Option.map_map]
    rfl
  · intro tx e he
    exact run_snoc_of_error he

/-! ### A payment made twice -/

/-- The gateway at the account `1` over the repository's `MockVault`, which mints one share for each
unit and pays one unit for each share; there is no router. -/
def mockVault : Env Unit where
  self := 1
  usdcToken := 2
  vaultContract := 3
  routerContract := 0
  chainid := 8453
  vaultDeposit w assets receiver := do
    revertIf (assets = 0 ∨ receiver = 0) ()
    let usdc ← w.usdc.transferFrom 3 1 3 assets
    let shares ← w.shares.mint receiver assets
    pure ({ w with usdc, shares }, assets)
  vaultRedeem w shares receiver owner := do
    revertIf (shares = 0 ∨ receiver = 0 ∨ w.shares.balanceOf owner < shares) ()
    let token ← if owner ≠ 1 then w.shares.spendAllowance owner 1 shares else pure w.shares
    let token ← token.burn owner shares
    let usdc ← w.usdc.transfer 3 receiver shares
    pure ({ w with usdc, shares := token }, shares)
  routerDepositFor _ _ _ _ := .error .innerCall

/-- The agent `7` holds 1000 units, and lets the gateway take them. -/
def agentWorld : World Unit where
  usdc := (Token.empty.issue 7 1000 (by decide)).setAllowance 7 1 1000
  shares := Token.empty
  ext := ()

/-- The gateway as deployed with the admin `20` and the pauser `21`. -/
def deployed : State Unit where
  commitments _ := ⟨0, 0⟩
  agents _ := AgentPolicy.none
  agentOwner _ := 0
  agentDepositWindow _ := ⟨0, 0⟩
  agentWithdrawWindow _ := ⟨0, 0⟩
  usedPaymentIds _ := false
  paused := false
  roles := Roles.set (Roles.set (Roles.set (fun _ _ => false) .defaultAdminRole 20 true) .adminRole 20
    true) .pauserRole 21 true
  world := agentWorld

theorem deploy_deployed : deploy mockVault 2 20 21 agentWorld = .ok deployed := rfl

/-- Up to 100 units a payment and a window, for shares to the depositor `5`. -/
def upTo100 : AgentPolicy := ⟨true, 1000000, 100, 100, 5, [], 5, 0, 0, []⟩

/-- An authorization and the same payment twice, with two deadlines and by two entry points. -/
def paidTwice : List (Tx (GatewayCall Unit)) :=
  [.of 5 (.of 10 1000) (.authorizeAgent 7 upTo100),
   .of 7 (.of 11 1012) (.deposit (.word 1) 30 1100 (.word 2)),
   .of 7 (.of 12 1024) (.depositTo (.word 1) 30 1200 (.word 2) 3 [])]

theorem payments_exactly_once_sample :
    (history (exec mockVault) deployed paidTwice).length = 2 ∧
      (run (exec mockVault) deployed paidTwice).usedPaymentIds
        (paymentId mockVault 7 (.word 1) 30 (.word 2)) = true ∧
      ((history (exec mockVault) deployed paidTwice).filterMap fun x => x.2.paymentId).Nodup :=
  ⟨by decide, by decide, (payments_exactly_once deploy_deployed paidTwice).2.2.1⟩

end RobotMoney.Gateway
