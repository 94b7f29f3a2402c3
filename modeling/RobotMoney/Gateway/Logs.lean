import RobotMoney.Gateway.Payments
import RobotMoney.Gateway.Policies

/-!
# The logs of the gateway

What the events of the gateway look like on the chain: topics, the first of which is the hash of the
event's signature, and data, both in words of 32 bytes.  A client finds a payment by its id, which is the
second topic of three events.

A deposit into a vault leaves one `AgentDeposit` and a deposit through the router one
`AgentDepositRouted`; nothing else leaves the first (`exec_agentDeposits`).  As no id is used twice, a run
leaves at most one `AgentDeposit` with a given id (`length_foundDeposits_le`).
-/

namespace RobotMoney.Gateway

open RobotMoney.Lib State

variable {V : Type} {env : Env V} {s s' : State V} {r : Receipt} {tx : Tx (GatewayCall V)}

/-! ### Logs in words -/

/-- A log as the node gives it. -/
structure RawLog where
  address : Address
  topics : List Bytes32
  data : List ℕ
  blockNumber : ℕ
  transactionHash : Bytes32
  deriving DecidableEq

/-- `AgentDeposit::SIGNATURE_HASH` -/
def agentDepositHash : ℕ := 0xa9d4181f9a037cd8447c2d7336d15eaf9b4424df7793889e5d155ec7cdb01965

/-- The hash of an event's signature. -/
def GatewayEvent.signatureHash : GatewayEvent → ℕ
  | .commitSubmitted .. => 0x9c06dd7ccdf0ef6129805e4b729bd6d5e179a90878ae81269acf3f65335be611
  | .commitRevealed .. => 0x4f10bd643185a6d028c857a5a6efbf01c6b3e7e936876be8666e3d3a67098ca7
  | .agentAuthorized .. => 0x3461fe378a2efca85c88ef6623ffa209efcef9051431ffca026aab841a2b4f89
  | .agentRevoked .. => 0x3855bc4f5f7ba28049e0abd622b6ffbbf63cb46e6b09593b9213c9fd38db5cad
  | .paused .. => 0x62e78cea01bee320cd4e420270b5ea74000d11b0c9f74754ebdbfc544b05a258
  | .unpaused .. => 0x5db9ee0a495bf2e6ff9c91a7834c1ba4fdd244a5e8aa4e537bd38aeae4b073aa
  | .agentDeposit .. => agentDepositHash
  | .agentDepositRouted .. => 0xe44d3b0b5883711c2d55d69feccfe60e0ca81f38ba91f02b506bde89e88d333a
  | .agentWithdrawal .. => 0x5fb42bba5add49752cfadf2acd1a6766af263661f5caca0577015c183fcce4ee

/-- An address in a word. -/
def addressWord (a : Address) : ℕ := Fin.val a

/-- The indexed parameters of an event, in words. -/
def GatewayEvent.indexed : GatewayEvent → List Bytes32
  | .commitSubmitted committer commitHash _ => [.word (addressWord committer), commitHash]
  | .commitRevealed committer commitHash agent =>
    [.word (addressWord committer), commitHash, .word (addressWord agent)]
  | .agentAuthorized agent owner .. => [.word (addressWord agent), .word (addressWord owner)]
  | .agentRevoked agent owner => [.word (addressWord agent), .word (addressWord owner)]
  | .paused account => [.word (addressWord account)]
  | .unpaused account => [.word (addressWord account)]
  | .agentDeposit paymentId orderId agent .. => [paymentId, orderId, .word (addressWord agent)]
  | .agentDepositRouted paymentId orderId agent .. => [paymentId, orderId, .word (addressWord agent)]
  | .agentWithdrawal paymentId orderId agent .. => [paymentId, orderId, .word (addressWord agent)]

/-- The other parameters of an event, in words; the array of a routed deposit is behind the five words of
the head. -/
def GatewayEvent.data : GatewayEvent → List ℕ
  | .commitSubmitted _ _ blockNumber => [blockNumber]
  | .commitRevealed .. => []
  | .agentAuthorized _ _ validUntil maxPerPayment maxPerWindow shareReceiver =>
    [validUntil, maxPerPayment, maxPerWindow, addressWord shareReceiver]
  | .agentRevoked .. => []
  | .paused _ => []
  | .unpaused _ => []
  | .agentDeposit _ _ _ shareReceiver amount sharesMinted windowId =>
    [addressWord shareReceiver, amount, sharesMinted, windowId]
  | .agentDepositRouted _ _ _ shareReceiver router amount sharesPerLeg windowId =>
    [addressWord shareReceiver, addressWord router, amount, 160, windowId, sharesPerLeg.length] ++
      sharesPerLeg
  | .agentWithdrawal _ _ _ sourceVault shares assetsOut assetRecipient windowId =>
    [addressWord sourceVault, shares, assetsOut, addressWord assetRecipient, windowId]

/-- The topics of an event. -/
def GatewayEvent.topics (e : GatewayEvent) : List Bytes32 := .word e.signatureHash :: e.indexed

/-- What a log says, its place on the chain and the transaction's hash apart. -/
structure LogContent where
  topics : List Bytes32
  data : List ℕ
  blockNumber : ℕ
  deriving DecidableEq

def RawLog.content (l : RawLog) : LogContent := ⟨l.topics, l.data, l.blockNumber⟩

/-- The logs that a call leaves. -/
def contentsOf (x : Tx (GatewayCall V) × Receipt) : List LogContent :=
  x.2.events.map fun e => ⟨e.topics, e.data, x.1.block.number⟩

/-- The filter of `eth_getLogs` over all blocks, with one value for each of the first topics. -/
structure LogFilter where
  address : Address
  topics : List Bytes32

/-- The content has the topics that a filter asks for. -/
def LogFilter.Takes (f : LogFilter) (c : LogContent) : Prop := f.topics <+: c.topics

instance (f : LogFilter) (c : LogContent) : Decidable (f.Takes c) :=
  inferInstanceAs (Decidable (_ <+: _))

/-- The log is one that a filter asks for. -/
def LogFilter.Matches (f : LogFilter) (l : RawLog) : Prop := l.address = f.address ∧ f.Takes l.content

instance (f : LogFilter) (l : RawLog) : Decidable (f.Matches l) := inferInstanceAs (Decidable (_ ∧ _))

/-- The signatures of the gateway's own events; those of the roles, which it inherits, are not among
them. -/
def signatureHashes : List ℕ :=
  [0x9c06dd7ccdf0ef6129805e4b729bd6d5e179a90878ae81269acf3f65335be611,
   0x4f10bd643185a6d028c857a5a6efbf01c6b3e7e936876be8666e3d3a67098ca7,
   0x3461fe378a2efca85c88ef6623ffa209efcef9051431ffca026aab841a2b4f89,
   0x3855bc4f5f7ba28049e0abd622b6ffbbf63cb46e6b09593b9213c9fd38db5cad,
   0x62e78cea01bee320cd4e420270b5ea74000d11b0c9f74754ebdbfc544b05a258,
   0x5db9ee0a495bf2e6ff9c91a7834c1ba4fdd244a5e8aa4e537bd38aeae4b073aa,
   agentDepositHash,
   0xe44d3b0b5883711c2d55d69feccfe60e0ca81f38ba91f02b506bde89e88d333a,
   0x5fb42bba5add49752cfadf2acd1a6766af263661f5caca0577015c183fcce4ee]

theorem signatureHash_mem (e : GatewayEvent) : e.signatureHash ∈ signatureHashes := by
  cases e <;> simp [GatewayEvent.signatureHash, signatureHashes]

/-- The log is of one of the gateway's own events. -/
def RawLog.Own (env : Env V) (l : RawLog) : Prop :=
  l.address = env.self ∧ l.topics.head? ∈ signatureHashes.map fun h => some (Bytes32.word h)

instance (env : Env V) (l : RawLog) : Decidable (l.Own env) := inferInstanceAs (Decidable (_ ∧ _))

/-- The chain has the logs that a run of the gateway left, in their order, among others. -/
def Logged (env : Env V) (log : Log V) (chain : List RawLog) : Prop :=
  (chain.filter fun l => l.Own env).map RawLog.content = log.flatMap contentsOf

/-- What a filter for one of the gateway's events finds. -/
theorem Logged.found {log : Log V} {chain : List RawLog} (h : Logged env log chain) {f : LogFilter}
    {hash : ℕ} (haddr : f.address = env.self) (htopic : f.topics.head? = some (.word hash))
    (hmem : hash ∈ signatureHashes) :
    (chain.filter fun l => f.Matches l).map RawLog.content =
      (log.flatMap contentsOf).filter fun c => f.Takes c := by
  have hown : ∀ l, f.Matches l → l.Own env := by
    rintro l ⟨hl, htakes⟩
    refine ⟨hl.trans haddr, List.mem_map.mpr ⟨hash, hmem, ?_⟩⟩
    obtain ⟨rest, hrest⟩ := htakes
    cases htopics : f.topics with
    | nil => simp [htopics] at htopic
    | cons t ts =>
      rw [htopics] at htopic hrest
      have hl : l.topics = t :: ts ++ rest := hrest.symm
      rw [hl]
      exact htopic.symm
  have hfilter : (chain.filter fun l => f.Matches l) =
      (chain.filter fun l => l.Own env).filter fun l => f.Takes l.content := by
    rw [List.filter_filter]
    refine List.filter_congr fun l _ => ?_
    rw [← Bool.decide_and]
    refine decide_eq_decide.mpr ⟨fun hm => ⟨hm.2, hown l hm⟩, fun hm => ⟨?_, hm.1⟩⟩
    rw [haddr]
    exact hm.2.1
  rw [hfilter, ← h, List.filter_map]
  rfl

/-! ### What leaves an `AgentDeposit` -/

/-- The call is a deposit that goes through the router. -/
def Routed (env : Env V) (tx : Tx (GatewayCall V)) : Prop :=
  match tx.call with
  | .depositTo _ _ _ _ destination _ => env.routerContract ≠ 0 ∧ destination = env.routerContract
  | _ => False

/-- The event of a deposit into a vault. -/
def depositEvent (env : Env V) (s : State V) (tx : Tx (GatewayCall V)) (pay : Payment)
    (sharesMinted : ℕ) : GatewayEvent :=
  .agentDeposit (paymentId env tx.sender pay.orderId pay.amount pay.key) pay.orderId tx.sender
    (s.agents tx.sender).shareReceiver pay.amount sharesMinted (tx.block.timestamp / windowSeconds)

/-- Its log. -/
def depositContent (env : Env V) (s : State V) (tx : Tx (GatewayCall V)) (pay : Payment)
    (sharesMinted : ℕ) : LogContent where
  topics := (depositEvent env s tx pay sharesMinted).topics
  data := (depositEvent env s tx pay sharesMinted).data
  blockNumber := tx.block.number

/-- None of the events is an `AgentDeposit`. -/
def NoDeposit (events : List GatewayEvent) : Prop := ∀ e ∈ events, e.signatureHash ≠ agentDepositHash

instance (events : List GatewayEvent) : Decidable (NoDeposit events) :=
  inferInstanceAs (Decidable (∀ e ∈ events, _))

theorem noDeposit_nil : NoDeposit [] := fun _ h => by cases h

theorem noDeposit_cons {e : GatewayEvent} {events : List GatewayEvent} :
    NoDeposit (e :: events) ↔ e.signatureHash ≠ agentDepositHash ∧ NoDeposit events :=
  List.forall_mem_cons

/-- The events of a call that pays nothing. -/
def plainEvents (tx : Tx (GatewayCall V)) : List GatewayEvent :=
  match tx.call with
  | .commitAuthorization commitHash => [.commitSubmitted tx.sender commitHash tx.block.number]
  | .revealAuthorization agent salt p =>
    [.commitRevealed tx.sender (.commitHash agent tx.sender salt) agent, authorizedEvent agent tx.sender p]
  | .authorizeAgent agent p => [authorizedEvent agent tx.sender p]
  | .setPolicy agent p => [authorizedEvent agent tx.sender p]
  | .revokeAgent agent => [.agentRevoked agent tx.sender]
  | .pause => [.paused tx.sender]
  | .unpause => [.unpaused tx.sender]
  | _ => []

theorem exec_plainEvents (hpay : tx.call.payment = none) (hx : exec env s tx = .ok (s', r)) :
    r.events = plainEvents tx := by
  obtain ⟨b, sender, call, hsender⟩ := tx
  unfold State.exec at hx
  cases call with
  | commitAuthorization commitHash =>
    obtain ⟨rfl, rfl⟩ := Prod.mk.injEq .. ▸ pure_eq_ok.mp hx
    rfl
  | revealAuthorization agent salt p =>
    obtain ⟨-, -, -, rfl⟩ := revealAuthorization_eq_ok.mp hx
    rfl
  | authorizeAgent agent p =>
    obtain ⟨⟨s₁, events⟩, h₁, hx⟩ := bind_eq_ok.mp hx
    obtain ⟨-, -, rfl⟩ := authorizeAgentInternal_eq_ok.mp h₁
    obtain ⟨rfl, rfl⟩ := Prod.mk.injEq .. ▸ pure_eq_ok.mp hx
    rfl
  | setPolicy agent p =>
    simp only [State.setPolicy, bind_eq_ok] at hx
    obtain ⟨_, -, _, -, _, -, hx⟩ := hx
    obtain ⟨rfl, rfl⟩ := Prod.mk.injEq .. ▸ pure_eq_ok.mp hx
    rfl
  | revokeAgent agent =>
    simp only [State.revokeAgent, bind_eq_ok, revertIf_eq_ok, exists_const, not_not] at hx
    obtain ⟨-, howner, hx⟩ := hx
    obtain ⟨rfl, rfl⟩ := Prod.mk.injEq .. ▸ pure_eq_ok.mp hx
    show [GatewayEvent.agentRevoked agent (s.agentOwner agent)] = [.agentRevoked agent sender]
    rw [howner]
  | pause =>
    simp only [State.pause, bind_eq_ok] at hx
    obtain ⟨_, -, _, -, hx⟩ := hx
    obtain ⟨rfl, rfl⟩ := Prod.mk.injEq .. ▸ pure_eq_ok.mp hx
    rfl
  | unpause =>
    simp only [State.unpause, bind_eq_ok] at hx
    obtain ⟨_, -, _, -, hx⟩ := hx
    obtain ⟨rfl, rfl⟩ := Prod.mk.injEq .. ▸ pure_eq_ok.mp hx
    rfl
  | deposit | depositTo | withdraw => cases hpay
  | grantRole role account | revokeRole role account | renounceRole role account =>
    obtain ⟨roles, -, rfl⟩ := onRoles_eq_ok hx
    rfl
  | elsewhere world =>
    cases hx
    rfl

/-- They are no payments. -/
theorem exec_noDeposit (hpay : tx.call.payment = none) (hx : exec env s tx = .ok (s', r)) :
    NoDeposit r.events := by
  rw [exec_plainEvents hpay hx]
  unfold plainEvents
  split <;>
    simp [noDeposit_cons, noDeposit_nil, GatewayEvent.signatureHash, agentDepositHash, authorizedEvent]

/-- The event of a payment. -/
inductive PaidEvent (env : Env V) (s : State V) (tx : Tx (GatewayCall V)) (pay : Payment) : GatewayEvent → Prop
  | deposit (minted : ℕ) (hside : pay.side = .deposit) (hrouted : ¬ Routed env tx) :
    PaidEvent env s tx pay (depositEvent env s tx pay minted)
  | routed {id orderId : Bytes32} {agent receiver router : Address} {amount windowId : ℕ} {legs : List ℕ}
      (hrouted : Routed env tx) :
    PaidEvent env s tx pay (.agentDepositRouted id orderId agent receiver router amount legs windowId)
  | withdrawal {id orderId : Bytes32} {agent vault recipient : Address} {shares assets windowId : ℕ}
      (hside : pay.side = .withdraw) :
    PaidEvent env s tx pay (.agentWithdrawal id orderId agent vault shares assets recipient windowId)

theorem exec_paidEvent {pay : Payment} (hpay : tx.call.payment = some pay)
    (hx : exec env s tx = .ok (s', r)) : ∃ e, r.events = [e] ∧ PaidEvent env s tx pay e := by
  obtain ⟨b, sender, call, hsender⟩ := tx
  unfold State.exec at hx
  cases call with
  | deposit orderId amount deadline key =>
    simp only [State.deposit, bind_eq_ok, Prod.exists, accrueRollingDeposit_eq_ok] at hx
    obtain ⟨_, -, _, -, _, -, _, -, _, -, _, -, _, -, _, -, _, ⟨w, -, rfl⟩, w₁, -, w₂, minted, -, _, -,
      _, -, hx⟩ := hx
    obtain ⟨rfl, rfl⟩ := Prod.mk.injEq .. ▸ pure_eq_ok.mp hx
    cases hpay
    exact ⟨_, rfl, .deposit minted rfl fun h => h⟩
  | depositTo orderId amount deadline key destination mins =>
    simp only [State.depositTo, bind_eq_ok, Prod.exists, accrueRollingDeposit_eq_ok] at hx
    obtain ⟨_, -, _, -, _, -, _, -, _, -, _, -, isRouter, hdest, _, -, _, ⟨w, -, rfl⟩, w₁, -, w₂,
      receipt, hdep, hx⟩ := hx
    obtain ⟨rfl, rfl⟩ := Prod.mk.injEq .. ▸ pure_eq_ok.mp hx
    obtain ⟨-, -, hrouter⟩ := validateDestination_eq_ok.mp hdest
    cases hpay
    unfold State.executeDeposit at hdep
    split at hdep
    · -- through the router
      rename_i htrue
      rw [htrue, eq_comm, decide_eq_true_iff] at hrouter
      simp only [State.executeRouterDeposit, bind_eq_ok, Prod.exists] at hdep
      obtain ⟨w₃, -, w₄, legs, -, w₅, -, _, -, hdep⟩ := hdep
      obtain ⟨rfl, rfl⟩ := Prod.mk.injEq .. ▸ pure_eq_ok.mp hdep
      exact ⟨_, rfl, .routed hrouter⟩
    · rename_i hfalse
      rw [Bool.not_eq_true] at hfalse
      rw [hfalse, eq_comm, decide_eq_false_iff_not] at hrouter
      simp only [State.executeVaultDeposit, bind_eq_ok, Prod.exists] at hdep
      obtain ⟨_, -, w₃, minted, -, _, -, _, -, hdep⟩ := hdep
      obtain ⟨rfl, rfl⟩ := Prod.mk.injEq .. ▸ pure_eq_ok.mp hdep
      exact ⟨_, rfl, .deposit minted rfl hrouter⟩
  | withdraw orderId shares sourceVault deadline key =>
    simp only [State.withdraw, bind_eq_ok, Prod.exists, accrueRollingWithdraw_eq_ok] at hx
    obtain ⟨_, -, _, -, _, -, _, -, _, -, _, -, _, -, _, -, _, -, _, ⟨w, -, rfl⟩, _, -, token, -, w₁, out,
      -, _, -, _, -, hx⟩ := hx
    obtain ⟨rfl, rfl⟩ := Prod.mk.injEq .. ▸ pure_eq_ok.mp hx
    cases hpay
    exact ⟨_, rfl, .withdrawal rfl⟩
  | _ => cases hpay

/-- **Events of a call.**  A deposit into a vault leaves one event, an `AgentDeposit`; any other call leaves
none of that kind. -/
theorem exec_agentDeposits (hx : exec env s tx = .ok (s', r)) :
    (∃ pay minted, tx.call.payment = some pay ∧ pay.side = .deposit ∧ ¬ Routed env tx ∧
      r.events = [depositEvent env s tx pay minted]) ∨
    ((∀ pay, tx.call.payment = some pay → pay.side = .deposit → Routed env tx) ∧
      NoDeposit r.events) := by
  cases hpay : tx.call.payment with
  | none =>
    right
    refine ⟨fun pay h => ?_, exec_noDeposit hpay hx⟩
    cases h
  | some pay =>
    obtain ⟨e, he, hpaid⟩ := exec_paidEvent hpay hx
    rw [he]
    cases hpaid with
    | deposit minted hside hrouted =>
      left
      exact ⟨pay, minted, rfl, hside, hrouted, rfl⟩
    | routed hrouted =>
      right
      refine ⟨fun _ _ _ => hrouted, ?_⟩
      simp [noDeposit_cons, noDeposit_nil, GatewayEvent.signatureHash, agentDepositHash]
    | withdrawal hside =>
      right
      refine ⟨fun pay' h hdeposit => ?_, ?_⟩
      · cases h
        rw [hside] at hdeposit
        cases hdeposit
      · simp [noDeposit_cons, noDeposit_nil, GatewayEvent.signatureHash, agentDepositHash]

/-! ### Runs -/

/-- A call that succeeds in a run is in its history. -/
theorem mem_history {s₀ : State V} {txs pre post : List (Tx (GatewayCall V))}
    (hsplit : txs = pre ++ tx :: post) (hx : exec env (run (exec env) s₀ pre) tx = .ok (s', r)) :
    (tx, r) ∈ history (exec env) s₀ txs := by
  rw [hsplit, history_append]
  simp [history, hx]

/-- A deposit that succeeded in a run: the call meets `P`, and the id, the agent, the receiver of the shares
by the agent's policy at that time, and the amount are these. -/
def PaidIn (env : Env V) (s₀ : State V) (txs : List (Tx (GatewayCall V)))
    (P : Tx (GatewayCall V) → Prop) (id : Bytes32) (agent receiver : Address) (amount : ℕ) : Prop :=
  ∃ pre tx post s' r pay, txs = pre ++ tx :: post ∧
    exec env (run (exec env) s₀ pre) tx = .ok (s', r) ∧ P tx ∧ tx.call.payment = some pay ∧
    pay.side = .deposit ∧ paymentId env tx.sender pay.orderId pay.amount pay.key = id ∧
    agent = tx.sender ∧ receiver = ((run (exec env) s₀ pre).agents tx.sender).shareReceiver ∧
    amount = pay.amount

/-- The filter for the `AgentDeposit` of a payment id. -/
def depositFilter (gateway : Address) (id : Bytes32) : LogFilter where
  address := gateway
  topics := [.word agentDepositHash, id]

/-- The logs of a call that the filter takes. -/
def depositsOf (gateway : Address) (id : Bytes32) (x : Tx (GatewayCall V) × Receipt) : List LogContent :=
  (contentsOf x).filter fun c => (depositFilter gateway id).Takes c

theorem depositFilter_takes {gateway : Address} {id : Bytes32} {e : GatewayEvent} {blockNumber : ℕ} :
    (depositFilter gateway id).Takes ⟨e.topics, e.data, blockNumber⟩ ↔
      e.signatureHash = agentDepositHash ∧ [id] <+: e.indexed := by
  unfold LogFilter.Takes depositFilter GatewayEvent.topics
  rw [List.cons_prefix_cons, Bytes32.word.injEq]
  exact and_congr_left' eq_comm

theorem depositsOf_noDeposit {gateway : Address} {id : Bytes32} (h : NoDeposit r.events) :
    depositsOf gateway id (tx, r) = [] := by
  unfold depositsOf contentsOf
  rw [List.filter_eq_nil_iff]
  intro c hc
  obtain ⟨e, he, rfl⟩ := List.mem_map.mp hc
  simp only [decide_eq_true_eq, depositFilter_takes, not_and]
  exact fun hsig => absurd hsig (h e he)

/-- What is found of a deposit into a vault. -/
theorem depositsOf_deposit {gateway : Address} {id : Bytes32} {pay : Payment} {minted : ℕ}
    (h : r.events = [depositEvent env s tx pay minted]) :
    depositsOf gateway id (tx, r) =
      if paymentId env tx.sender pay.orderId pay.amount pay.key = id then
        [depositContent env s tx pay minted] else [] := by
  have htakes : (depositFilter gateway id).Takes (depositContent env s tx pay minted) ↔
      paymentId env tx.sender pay.orderId pay.amount pay.key = id := by
    unfold depositContent
    rw [depositFilter_takes]
    simp [depositEvent, GatewayEvent.signatureHash, GatewayEvent.indexed, List.cons_prefix_cons, eq_comm]
  have hcontents : contentsOf (tx, r) = [depositContent env s tx pay minted] := by
    unfold contentsOf
    rw [h]
    rfl
  unfold depositsOf
  rw [hcontents]
  by_cases hid : paymentId env tx.sender pay.orderId pay.amount pay.key = id
  · rw [if_pos hid]
    exact List.filter_cons_of_pos (decide_eq_true (htakes.mpr hid))
  · rw [if_neg hid]
    exact List.filter_cons_of_neg (by simpa using mt htakes.mp hid)

/-- A call leaves at most one log with the id, and none unless it took the id. -/
theorem length_depositsOf_le (gateway : Address) (id : Bytes32) (hx : exec env s tx = .ok (s', r)) :
    (depositsOf gateway id (tx, r)).length ≤ if r.paymentId = some id then 1 else 0 := by
  rcases exec_agentDeposits hx with ⟨pay, minted, hpay, -, -, hevents⟩ | ⟨-, hnone⟩
  · have hid := ((exec_effect hx).paid_of_payment hpay).paymentId_eq
    rw [depositsOf_deposit hevents, hid]
    by_cases heq : paymentId env tx.sender pay.orderId pay.amount pay.key = id
    · simp [heq]
    · rw [if_neg heq]
      exact Nat.zero_le _
  · rw [depositsOf_noDeposit hnone]
    exact Nat.zero_le _

/-- What is found in a run. -/
def foundDeposits (gateway : Address) (id : Bytes32) (log : Log V) : List LogContent :=
  (log.flatMap contentsOf).filter fun c => (depositFilter gateway id).Takes c

theorem foundDeposits_eq (gateway : Address) (id : Bytes32) (log : Log V) :
    foundDeposits gateway id log = log.flatMap (depositsOf gateway id) := by
  unfold foundDeposits
  rw [List.filter_flatMap]
  rfl

/-- As many logs with an id as payments that took it, at most. -/
theorem length_foundDeposits_le (gateway : Address) (id : Bytes32) (s₀ : State V)
    (txs : List (Tx (GatewayCall V))) :
    (foundDeposits gateway id (history (exec env) s₀ txs)).length ≤
      (paymentIds (history (exec env) s₀ txs)).count id := by
  rw [foundDeposits_eq]
  refine run_invariant (P := fun _ (log : Log V) =>
    (log.flatMap (depositsOf gateway id)).length ≤ (paymentIds log).count id) le_rfl ?_
  intro pre tx post s' r _ ih hx
  have hstep := length_depositsOf_le gateway id hx
  rw [paymentIds_snoc, List.flatMap_append, List.length_append, List.count_append, List.flatMap_singleton]
  refine Nat.add_le_add ih (hstep.trans ?_)
  cases hr : r.paymentId with
  | none => simp
  | some id' => by_cases hid : id' = id <;> simp [hid]

end RobotMoney.Gateway
