import RobotMoney.Client.Nonce
import RobotMoney.Gateway.Surroundings

/-!
# The replay cache

`rmpc deposit` keeps a file of the payments it has broadcast, by their payment id, and refuses to make one of
them again, so that no gas is paid to learn that the gateway refuses it.  The entry is written once the node has
answered the broadcast, whatever has become of the transaction by then, and is not removed when the transaction
reverts.

Any number of deposits run in one world (`Net`): the gateways of all chains, the transactions in flight, and the
caches by their state directory.  The world goes on by itself: a transaction in flight is included in a block,
and anybody calls a gateway.  A refusal is justified if the gateway has used the payment id or a transaction
with it is in flight.  This is kept by a run just as long as every entry that is written is of such a payment, and
no transaction of a recorded payment reverts that is alone with it (`Justified.written_iff`,
`Justified.mine_iff`); then all refusals are justified (`refusals_justified`).  `refused_after_revert` is a
payment that is refused after it reverted, and that would succeed.
-/

namespace RobotMoney.Client.Commands

open RobotMoney.Lib Program
open RobotMoney.Gateway (Bytes32 Env GatewayError Paid Receipt State Surroundings)

/-! ### The cache -/

/-- The entries of the file, by their payment id. -/
abbrev ReplayCache : Type := Bytes32 → Option Entry

/-- `lookup`, by the payment id -/
def ReplayCache.lookup (cache : ReplayCache) (id : Bytes32) : Option ℕ :=
  (cache id).map fun e => e.txHash

/-- `insert`: an entry with the same payment id is replaced. -/
def ReplayCache.insert (cache : ReplayCache) (e : Entry) : ReplayCache :=
  Function.update cache e.paymentId (some e)

/-! ### Payments -/

/-- What a payment id is the hash of. -/
structure PaymentIdInputs where
  chainId : ℕ
  gateway : Address
  agent : Address
  orderId : Bytes32
  amount : ℕ
  idempotencyKey : Bytes32
  deriving DecidableEq

namespace PaymentIdInputs

/-- The gateway of the payment, by its chain and its address. -/
def site (p : PaymentIdInputs) : ℕ × Address := (p.chainId, p.gateway)

def id (p : PaymentIdInputs) : Bytes32 :=
  computePaymentId p.chainId p.gateway p.agent p.orderId p.amount p.idempotencyKey

theorem id_injective : Function.Injective id := by
  intro p q h
  unfold id computePaymentId at h
  injection h with hchain hgateway hagent horder hamount hkey
  cases p
  cases q
  simp only [mk.injEq]
  exact ⟨hchain, hgateway, hagent, horder, hamount, hkey⟩

end PaymentIdInputs

/-- The payment of an invocation, at the gateway of its configuration. -/
def Invocation.payment (inv : Invocation) (gateway : Address) : PaymentIdInputs :=
  ⟨inv.cfg.chainId, gateway, inv.agent, inv.args.orderId, inv.args.amount, inv.args.key⟩

/-- A transaction in flight, of an agent. -/
structure Pending where
  agent : Address
  raw : SignedTx
  deriving DecidableEq

def Pending.payment (p : Pending) : PaymentIdInputs :=
  match p.raw.tx.input with
  | .deposit orderId amount _ key => ⟨p.raw.tx.chainId, p.raw.tx.target, p.agent, orderId, amount, key⟩
  | .withdraw orderId shares _ _ key => ⟨p.raw.tx.chainId, p.raw.tx.target, p.agent, orderId, shares, key⟩

/-- Its call of the gateway, in a block. -/
def Pending.exec {V : Type} (p : Pending) (env : ℕ × Address → Env V) (s : State V) (b : Block) :
    Call GatewayError (State V × Receipt) :=
  match p.raw.tx.input with
  | .deposit orderId amount deadline key =>
    s.deposit (env p.payment.site) b p.agent orderId amount deadline key
  | .withdraw orderId shares sourceVault deadline key =>
    s.withdraw (env p.payment.site) b p.agent orderId shares sourceVault deadline key

/-! ### The world -/

structure Net (V : Type) where
  gateways : ℕ × Address → State V
  /-- the transactions in flight -/
  pool : List Pending
  /-- the replay caches, by the state directory -/
  caches : String → ReplayCache
  /-- whether what a process is sending has reached the node -/
  delivered : ℕ → Bool

variable {V : Type}

namespace Net

def setCache (s : Net V) (stateDir : String) (cache : ReplayCache) : Net V :=
  { s with caches := Function.update s.caches stateDir cache }

/-- The gateway after a transaction is included: unchanged if it reverts, or if its gas does not suffice. -/
def included (env : ℕ × Address → Env V) (s : Net V) (p : Pending) (b : Block) (outOfGas : Bool) : State V :=
  match outOfGas, p.exec env (s.gateways p.payment.site) b with
  | false, .ok (g, _) => g
  | _, _ => s.gateways p.payment.site

/-- The transaction number `n` is included in a block. -/
def mine (env : ℕ × Address → Env V) (s : Net V) (n : ℕ) (p : Pending) (b : Block) (outOfGas : Bool) : Net V :=
  { s with
    pool := s.pool.eraseIdx n
    gateways := Function.update s.gateways p.payment.site (s.included env p b outOfGas) }

/-- There is an entry of the payment id. -/
def Recorded (s : Net V) (id : Bytes32) : Prop := ∃ stateDir, s.caches stateDir id ≠ none

/-- The gateway has used the payment id. -/
def Used (s : Net V) (p : PaymentIdInputs) : Prop := (s.gateways p.site).usedPaymentIds p.id = true

/-- The gateway has used the payment id, or a transaction with it is in flight. -/
def Covered (s : Net V) (p : PaymentIdInputs) : Prop := s.Used p ∨ ∃ q ∈ s.pool, q.payment.id = p.id

end Net

/-- The files and the nodes, for processes of these agents.  An insert that fails may have cut the file, or have
written all of it. -/
def files (agents : ℕ → Address) : World Query Query.Answer (Net V) where
  works i s
    | .sendRawTransaction raw, s' => s.delivered i = false ∧
        s' = { s with
          delivered := Function.update s.delivered i true
          pool := s.pool ++ [⟨agents i, raw⟩] }
    | _, _ => False
  answers i s
    | .replayLookup stateDir id, r, s' => (∀ x, r = .ok x → x = (s.caches stateDir).lookup id) ∧ s' = s
    | .replayInsert stateDir e, .ok _, s' => s' = s.setCache stateDir ((s.caches stateDir).insert e)
    | .replayInsert stateDir e, .error _, s' =>
      s' = s ∨ s' = s.setCache stateDir ((s.caches stateDir).insert e) ∨ s' = s.setCache stateDir fun _ => none
    | .sendRawTransaction _, r, s' => (∀ txHash, r = .ok txHash → s.delivered i = true) ∧
        s' = { s with delivered := Function.update s.delivered i false }
    | _, _, s' => s' = s
  ends _ s := s

/-- Which entries are written, and which inclusions there are, in a run. -/
structure Rules (V : Type) where
  writes : Net V → Net V → Prop
  mines : Net V → ℕ → Pending → Block → Bool → Prop

/-- What happens by itself. -/
inductive Moves (env : ℕ × Address → Env V) (rules : Rules V) : Net V → Net V → Prop
  | mine {s : Net V} {n : ℕ} {p : Pending} (b : Block) (outOfGas : Bool) (hp : s.pool[n]? = some p)
      (hmines : rules.mines s n p b outOfGas) : Moves env rules s (s.mine env n p b outOfGas)
  | call {s : Net V} (site : ℕ × Address) (tx : Tx (State.GatewayCall V)) :
    Moves env rules s
      { s with
        gateways := Function.update s.gateways site (next (State.exec (env site)) (s.gateways site) tx) }

/-- The deposits of an installation, none of which has begun. -/
def deposits (c : Crates) (invs : ℕ → Invocation) (s : Net V) : Running Query Query.Answer Outcome (Net V) :=
  ⟨fun i => some (deposit c (invs i)), s⟩

/-- The files and the nodes, in a run with these rules. -/
def net (invs : ℕ → Invocation) (rules : Rules V) : World Query Query.Answer (Net V) :=
  (files fun i => (invs i).agent).restrict rules.writes

/-- A run, of any number of deposits that go on in any order, or stay where they are. -/
def Run (env : ℕ × Address → Env V) (invs : ℕ → Invocation) (rules : Rules V) :
    Running Query Query.Answer Outcome (Net V) → Running Query Query.Answer Outcome (Net V) → Prop :=
  (net invs rules).Evolves (Moves env rules)

/-- Everything may happen. -/
def Rules.any : Rules V := ⟨fun _ _ => True, fun _ _ _ _ _ => True⟩

/-- A payment that is newly recorded is used or in flight. -/
def Written (s s' : Net V) : Prop := ∀ p : PaymentIdInputs, s'.Recorded p.id → s.Recorded p.id ∨ s.Covered p

/-- A transaction of a recorded payment does not revert, unless its payment id is used, or another transaction with
it is in flight. -/
def Harmless (env : ℕ × Address → Env V) (s : Net V) (n : ℕ) (p : Pending) (b : Block) (outOfGas : Bool) : Prop :=
  s.Recorded p.payment.id →
    (outOfGas = false ∧ ∃ r, p.exec env (s.gateways p.payment.site) b = .ok r) ∨ s.Used p.payment ∨
      ∃ q ∈ s.pool.eraseIdx n, q.payment.id = p.payment.id

def Rules.keeping (env : ℕ × Address → Env V) : Rules V := ⟨Written, Harmless env⟩

section Step

variable {env : ℕ × Address → Env V} {s s' : Net V} {g g' : State V} {r : Receipt} {n : ℕ} {p : Pending}
  {q : PaymentIdInputs} {b : Block} {outOfGas : Bool} {id : Bytes32}

/-! ### Used payment ids stay used -/

theorem used_of_exec {e : Env V} {tx : Tx (State.GatewayCall V)} (h : g.usedPaymentIds id = true) :
    (next (State.exec e) g tx).usedPaymentIds id = true := by
  rcases hx : State.exec e g tx with err | ⟨g', r⟩
  · rw [next_of_error hx]
    exact h
  · rw [next_of_ok hx]
    rcases (Gateway.exec_effect hx).used with ⟨-, hsame⟩ | ⟨id', -, -, hupdate⟩
    · rw [hsame]
      exact h
    · rw [hupdate]
      by_cases hid : id = id'
      · rw [hid, Function.update_self]
      · rw [Function.update_of_ne hid]
        exact h

theorem Pending.exec_paid (h : p.exec env g b = .ok (g', r)) :
    ∃ side, Paid (env p.payment.site) g b p.payment.agent
      ⟨side, p.payment.orderId, p.payment.amount, p.payment.idempotencyKey⟩ g' r := by
  obtain ⟨agent, ⟨⟨chainId, nonce, target, gasLimit, fees, value, input⟩, signature⟩⟩ := p
  cases input with
  | deposit orderId amount deadline key => exact ⟨.deposit, Gateway.deposit_paid h⟩
  | withdraw orderId shares sourceVault deadline key => exact ⟨.withdraw, Gateway.withdraw_paid h⟩

/-- The payment id that the gateway computes is the client's. -/
theorem paymentId_eq (henv : ∀ site, (env site).chainid = site.1 ∧ (env site).self = site.2) :
    State.paymentId (env q.site) q.agent q.orderId q.amount q.idempotencyKey = q.id := by
  obtain ⟨hchain, hself⟩ := henv q.site
  unfold State.paymentId PaymentIdInputs.id computePaymentId
  rw [hchain, hself]
  rfl

/-- A transaction that succeeds marks its payment id, and keeps the marks there were. -/
theorem Pending.exec_used (henv : ∀ site, (env site).chainid = site.1 ∧ (env site).self = site.2)
    (h : p.exec env g b = .ok (g', r)) :
    g'.usedPaymentIds = Function.update g.usedPaymentIds p.payment.id true := by
  obtain ⟨side, hpaid⟩ := p.exec_paid h
  obtain ⟨w, -, hg'⟩ := hpaid.state
  rw [hg', ← paymentId_eq henv]
  unfold State.markUsed
  rw [Gateway.Side.setWindow_usedPaymentIds]

/-- What an inclusion makes of the gateway. -/
theorem included_cases (env : ℕ × Address → Env V) (s : Net V) (p : Pending) (b : Block) (outOfGas : Bool) :
    s.included env p b outOfGas = s.gateways p.payment.site ∨
      outOfGas = false ∧ ∃ r, p.exec env (s.gateways p.payment.site) b = .ok (s.included env p b outOfGas, r) := by
  unfold Net.included
  cases outOfGas with
  | true => exact .inl rfl
  | false =>
    rcases hx : p.exec env (s.gateways p.payment.site) b with e | ⟨g, r⟩
    · exact .inl rfl
    · exact .inr ⟨rfl, r, rfl⟩

theorem used_mine_iff : (s.mine env n p b outOfGas).Used q ↔
    (Function.update s.gateways p.payment.site (s.included env p b outOfGas) q.site).usedPaymentIds q.id = true :=
  .rfl

theorem Net.Used.mine (henv : ∀ site, (env site).chainid = site.1 ∧ (env site).self = site.2) (h : s.Used q) :
    (s.mine env n p b outOfGas).Used q := by
  rw [used_mine_iff]
  unfold Net.Used at h
  by_cases hsite : q.site = p.payment.site
  · rw [hsite] at h ⊢
    rw [Function.update_self]
    rcases included_cases env s p b outOfGas with hsame | ⟨-, r, hok⟩
    · rwa [hsame]
    · rw [p.exec_used henv hok]
      by_cases hid : q.id = p.payment.id
      · rw [hid, Function.update_self]
      · rwa [Function.update_of_ne hid]
  · rwa [Function.update_of_ne hsite]

/-- The payment of a transaction that succeeds. -/
theorem used_of_ok (henv : ∀ site, (env site).chainid = site.1 ∧ (env site).self = site.2)
    (h : ∃ r, p.exec env (s.gateways p.payment.site) b = .ok r) : (s.mine env n p b false).Used p.payment := by
  obtain ⟨⟨g, r⟩, hok⟩ := h
  have hincluded : s.included env p b false = g := by
    unfold Net.included
    rw [hok]
  rw [used_mine_iff, Function.update_self, hincluded, p.exec_used henv hok, Function.update_self]

/-! ### The invariant -/

/-- Every payment that a cache has an entry of is used or in flight. -/
def Justified (s : Net V) : Prop := ∀ p : PaymentIdInputs, s.Recorded p.id → s.Covered p

/-- What is answered keeps it just if what is written is used or in flight. -/
theorem Justified.written_iff (h : Justified s) (hgateways : s'.gateways = s.gateways) (hpool : s'.pool = s.pool) :
    Justified s' ↔ Written s s' := by
  have hcovered : ∀ p, s'.Covered p ↔ s.Covered p := by
    intro p
    unfold Net.Covered Net.Used
    rw [hgateways, hpool]
  constructor
  · intro h' p hp
    exact .inr ((hcovered p).mp (h' p hp))
  · intro hwritten p hp
    rcases hwritten p hp with hp | hp
    · exact (hcovered p).mpr (h p hp)
    · exact (hcovered p).mpr hp

/-- Where nothing is written. -/
theorem written_quiet (s s' : Net V) (h : s'.caches = s.caches) : Written s s' := by
  rintro p ⟨stateDir, hp⟩
  rw [h] at hp
  exact .inl ⟨stateDir, hp⟩

/-- The entry of a payment that is used or in flight may be written. -/
theorem written_insert {s : Net V} {stateDir : String} {e : Entry}
    (h : ∀ p : PaymentIdInputs, p.id = e.paymentId → s.Covered p) :
    Written s (s.setCache stateDir ((s.caches stateDir).insert e)) := by
  rintro p ⟨dir, hp⟩
  by_cases hid : p.id = e.paymentId
  · exact .inr (h p hid)
  · left
    change Function.update s.caches stateDir ((s.caches stateDir).insert e) dir p.id ≠ none at hp
    by_cases hdir : dir = stateDir
    · subst hdir
      rw [Function.update_self, ReplayCache.insert, Function.update_of_ne hid] at hp
      exact ⟨dir, hp⟩
    · rw [Function.update_of_ne hdir] at hp
      exact ⟨dir, hp⟩

/-- An inclusion keeps it just if it is harmless. -/
theorem Justified.mine_iff (henv : ∀ site, (env site).chainid = site.1 ∧ (env site).self = site.2)
    (h : Justified s) (hp : s.pool[n]? = some p) :
    Justified (s.mine env n p b outOfGas) ↔ Harmless env s n p b outOfGas := by
  constructor
  · intro h' hrecorded
    rcases h' p.payment hrecorded with hused | hother
    · rcases included_cases env s p b outOfGas with hsame | ⟨hgas, r, hok⟩
      · right
        left
        rwa [used_mine_iff, Function.update_self, hsame] at hused
      · exact .inl ⟨hgas, _, hok⟩
    · exact .inr (.inr hother)
  · intro hharmless q hrecorded
    rcases h q hrecorded with hused | ⟨q', hq', hid⟩
    · exact .inl (hused.mine henv)
    obtain ⟨j, hj⟩ := List.mem_iff_getElem?.mp hq'
    by_cases hjn : j = n
    · -- the transaction that is included is the one that carries the payment
      subst hjn
      obtain rfl := Option.some.inj (hp.symm.trans hj)
      obtain rfl := PaymentIdInputs.id_injective hid
      rcases hharmless hrecorded with ⟨rfl, hok⟩ | hused | hother
      · exact .inl (used_of_ok henv hok)
      · exact .inl (hused.mine henv)
      · exact .inr hother
    · exact .inr ⟨q', List.mem_eraseIdx_iff_getElem?.mpr ⟨j, hjn, hj⟩, hid⟩

theorem Justified.call (h : Justified s) (site : ℕ × Address) (tx : Tx (State.GatewayCall V)) :
    Justified { s with
      gateways := Function.update s.gateways site (next (State.exec (env site)) (s.gateways site) tx) } := by
  intro p hp
  rcases h p hp with hused | hflight
  · left
    show (Function.update s.gateways site _ p.site).usedPaymentIds p.id = true
    by_cases hsite : p.site = site
    · subst hsite
      rw [Function.update_self]
      exact used_of_exec hused
    · rw [Function.update_of_ne hsite]
      exact hused
  · exact .inr hflight

/-- An answer changes the caches and what is being sent, and nothing else. -/
theorem files_answers {agents : ℕ → Address} {i : ℕ} {x : Query} {a : x.Answer}
    (h : (files agents).answers i s x a s') : s'.gateways = s.gateways ∧ s'.pool = s.pool := by
  cases x with
  | replayLookup stateDir id => exact h.2 ▸ ⟨rfl, rfl⟩
  | replayInsert stateDir e =>
    cases a with
    | ok u => exact (show s' = _ from h) ▸ ⟨rfl, rfl⟩
    | error message =>
      rcases h with rfl | rfl | rfl
      · exact ⟨rfl, rfl⟩
      · exact ⟨rfl, rfl⟩
      · exact ⟨rfl, rfl⟩
  | sendRawTransaction raw => exact h.2 ▸ ⟨rfl, rfl⟩
  | _ => exact (show s' = s from h) ▸ ⟨rfl, rfl⟩

theorem Justified.works (h : Justified s) {agents : ℕ → Address} {i : ℕ} {x : Query}
    (hworks : (files agents).works i s x s') : Justified s' := by
  cases x with
  | sendRawTransaction raw =>
    obtain ⟨-, rfl⟩ := hworks
    intro p hp
    rcases h p hp with hused | ⟨q, hq, hid⟩
    · exact .inl hused
    · exact .inr ⟨q, List.mem_append_left _ hq, hid⟩
  | _ => cases hworks

end Step

/-! ### A deposit that is refused -/

section Looked

variable {c : Crates} {inv : Invocation} {audit : AuditRecordBuilder} {stateDir : String} {k : Command}

/-- A deposit that is refused as already submitted has been told the hash by the cache, for its own payment. -/
def Looked (c : Crates) (inv : Invocation) (p : Command) : Prop :=
  ∀ t txHash, p.Runs t (.refused (.errOrderIdAlreadySubmitted txHash)) →
    ∃ stateDir gateway, c.addressFromStr inv.cfg.gatewayAddress = .ok gateway ∧
      (⟨.replayLookup stateDir (inv.payment gateway).id, .ok (some txHash)⟩ : Exchange) ∈ t

theorem looked_ask {q : Query} {k : q.Answer → Command} (hk : ∀ a, Looked c inv (k a)) :
    Looked c inv (.ask q k) := by
  intro t txHash hrun
  cases hrun with
  | ask hrest =>
    obtain ⟨stateDir, gateway, hgateway, hmem⟩ := hk _ _ _ hrest
    exact ⟨stateDir, gateway, hgateway, List.mem_cons_of_mem _ hmem⟩

theorem looked_done {o : Outcome} (h : ∀ txHash, o ≠ .refused (.errOrderIdAlreadySubmitted txHash)) :
    Looked c inv (.done o) := by
  intro t txHash hrun
  cases hrun
  exact absurd rfl (h txHash)

theorem looked_stagewise : Stagewise (Looked c inv) where
  startupFail := looked_done (by simp)
  refused := looked_done (by simp)
  refuse he := by
    refine looked_ask fun _ => looked_done ?_
    rintro txHash ⟨⟩
    exact he trivial
  ask _ hk := looked_ask hk

/-- The one question after which a payment is refused as already submitted. -/
theorem lookup_looked {gateway : Address} (hgateway : c.addressFromStr inv.cfg.gatewayAddress = .ok gateway)
    (hk : Looked c inv k) : Looked c inv (lookup audit stateDir (inv.payment gateway).id k) := by
  refine looked_ask ?_
  rintro (e | _)
  · exact looked_stagewise.startupFail
  intro t txHash hrun
  cases hrun with
  | @ask _ _ a _ _ hrest =>
    rcases a with e | _ | priorTx
    · cases hrest
    · obtain ⟨stateDir, gateway, hgateway, hmem⟩ := hk _ _ hrest
      exact ⟨stateDir, gateway, hgateway, List.mem_cons_of_mem _ hmem⟩
    · cases hrest with
      | ask hdone =>
        cases hdone
        exact ⟨stateDir, gateway, hgateway, List.mem_cons_self⟩

theorem transmit_looked {fees : FeeBid} {input : Calldata} {k : ℕ → Command}
    (hk : ∀ txHash, Looked c inv (k txHash)) : Looked c inv (transmit audit inv fees input k) := by
  refine looked_ask ?_
  rintro (e | nonce)
  · exact looked_stagewise.startupFail
  refine looked_ask ?_
  rintro (e | signature)
  · exact looked_stagewise.startupFail
  refine looked_ask ?_
  rintro (e | txHash)
  · exact looked_stagewise.refuse id
  · exact hk txHash

theorem deposit_looked (c : Crates) (inv : Invocation) : Looked c inv (deposit c inv) := by
  have h : Stagewise (Looked c inv) := looked_stagewise
  refine h.start ?_
  intro audit stateDir hstarted
  have hid : computePaymentId inv.cfg.chainId audit.gateway audit.agent audit.orderId audit.amount
      audit.idempotencyKey = (inv.payment audit.gateway).id := by
    rw [hstarted.agent, hstarted.orderId, hstarted.amount, hstarted.idempotencyKey]
    rfl
  refine h.acquire (fun hk => looked_ask hk) ?_
  rw [hid]
  refine lookup_looked hstarted.gateway (h.connect (h.preflight (h.bidFees ?_)))
  intro fees
  refine transmit_looked fun txHash => looked_ask fun _ => ?_
  exact h.settle (fun hk => looked_ask hk) id fun _ _ => looked_ask fun _ => looked_done (by simp)

end Looked

/-! ### Every run -/

section Runs

variable {c : Crates} {env : ℕ × Address → Env V} {invs : ℕ → Invocation} {s₀ : Net V}
  {s : Running Query Query.Answer Outcome (Net V)}

/-- In a run that keeps to the rules every recorded payment is used or in flight. -/
theorem Run.justified (henv : ∀ site, (env site).chainid = site.1 ∧ (env site).self = site.2)
    (h₀ : Justified s₀) (h : Run env invs (.keeping env) (deposits c invs s₀) s) : Justified s.shared := by
  refine World.Evolves.invariant h h₀ ?_ ?_ ?_
  · intro i s q s' hs hworks
    exact hs.works (show (files fun i => (invs i).agent).works i s q s' from hworks)
  · rintro i s q a s' hs ⟨hanswers, hwritten⟩
    obtain ⟨hgateways, hpool⟩ := files_answers hanswers
    exact (hs.written_iff hgateways hpool).mpr hwritten
  · rintro s s' hs hmoves
    cases hmoves with
    | mine b outOfGas hp hharmless => exact (hs.mine_iff henv hp).mpr hharmless
    | call site tx => exact hs.call site tx

/-- **Refusals are justified.**  In a run in which every payment that is newly recorded is used or in flight, and no
transaction of a recorded payment reverts, unless its payment id is used or in flight again, a deposit that is
refused as already submitted has looked its payment up at a point of the run at which the gateway had used the
payment id or a transaction with it was in flight. -/
theorem refusals_justified (c : Crates) (env : ℕ × Address → Env V)
    (henv : ∀ site, (env site).chainid = site.1 ∧ (env site).self = site.2) (invs : ℕ → Invocation) (s₀ : Net V)
    (hempty : ∀ stateDir id, s₀.caches stateDir id = none)
    (h : Run env invs (.keeping env) (deposits c invs s₀) s) {i txHash : ℕ}
    (hrefused : s.programs i = some (.done (.refused (.errOrderIdAlreadySubmitted txHash)))) :
    ∃ stateDir gateway s₁ s₂, c.addressFromStr (invs i).cfg.gatewayAddress = .ok gateway ∧
      (net invs (.keeping env)).AnsweredAt (Moves env (.keeping env)) (deposits c invs s₀) s i
        (.replayLookup stateDir ((invs i).payment gateway).id) (.ok (some txHash)) s₁ s₂ ∧
      s₁.shared.Covered ((invs i).payment gateway) := by
  have h₀ : Justified s₀ := fun p ⟨stateDir, hp⟩ => absurd (hempty stateDir p.id) hp
  obtain ⟨t, hruns, ht⟩ := h.exists_runs rfl hrefused
  obtain ⟨stateDir, gateway, hgateway, hmem⟩ := deposit_looked c (invs i) t txHash hruns
  obtain ⟨s₁, s₂, hat⟩ := ht _ hmem
  refine ⟨stateDir, gateway, s₁, s₂, hgateway, hat, ?_⟩
  refine Run.justified henv h₀ hat.before _ ⟨stateDir, ?_⟩
  -- the cache has answered with an entry
  have hlookup := hat.answers.1.1 _ rfl
  intro hnone
  unfold ReplayCache.lookup at hlookup
  rw [hnone] at hlookup
  cases hlookup

end Runs

/-! ### A deposit that is made again -/

section Sample

open Gateway (mockAuthorization mockGateway mockPolicy mockSetting)

/-- The gateway of `mockSetting`, on every chain and at every address. -/
def mockSites (site : ℕ × Address) : Env (Surroundings Unit) :=
  { mockSetting.env with chainid := site.1, self := site.2 }

theorem mockSites_sites (site : ℕ × Address) :
    (mockSites site).chainid = site.1 ∧ (mockSites site).self = site.2 := ⟨rfl, rfl⟩

/-- Every gateway has authorized the agent `7`; nothing is in flight, and the caches are empty. -/
def mockNet : Net (Surroundings Unit) where
  gateways _ := Lib.run (State.exec mockSetting.env) mockGateway [mockAuthorization mockPolicy]
  pool := []
  caches _ _ := none
  delivered _ := false

/-- The agent deposits 100 units on a test chain. -/
def mockRetried : Invocation :=
  { mockInvocation with agent := 7, args := ⟨100, .word 1, some (.word 2), 600⟩ }

def mockPayment : PaymentIdInputs := ⟨31337, 1, 7, .word 1, 100, .word 2⟩

/-- Its transaction, at the time 1000. -/
def mockPending : Pending :=
  ⟨7, ⟨31337, 0, 1, 200000, ⟨21 * oneGwei, oneGwei⟩, 0, .deposit (.word 1) 100 1600 (.word 2)⟩, []⟩

def mockEntry : Entry := ⟨mockPayment.id, .word 1, .word 2, 1600, 9⟩

/-- Its audit record, when it is made at a time `now`. -/
def mockRetriedAudit (now : ℕ) : AuditRecordBuilder where
  agent := 7
  requestType := "deposit"
  orderId := .word 1
  idempotencyKey := .word 2
  amount := 100
  deadline := deadlineAt now 600
  gateway := 1
  chainId := 31337
  txHash := none
  paymentId := none

/-- The deposit after its lookup. -/
def mockPays (now : ℕ) : Command :=
  connect mockRetried.cfg <|
  preflight (mockRetriedAudit now) (fun rpc now =>
    (Client.run mockCrates rpc mockRetried.cfg now ⟨7, 100⟩).mapError Refusal.rmpc) <|
  bidFees (mockRetriedAudit now) mockRetried.cfg none fun fees =>
  transmit (mockRetriedAudit now) mockRetried fees (.deposit (.word 1) 100 (deadlineAt now 600) (.word 2))
    fun txHash =>
  .ask (.replayInsert "/var/lib/rmpc" (entryOf (mockRetriedAudit now) mockPayment.id txHash)) fun _ =>
  settle { mockRetriedAudit now with txHash := some txHash } txHash .agentDeposit
    (.errAgentDepositLogMissing txHash) 60

/-- The node shows the gateway in the block 11. -/
def mockShows : Rpc := nodeAt (mockSites (31337, 1)) (mockNet.gateways (31337, 1)) (.of 11 1012) false

theorem mockShows_accepted :
    ∃ report, Client.run mockCrates mockShows mockRetried.cfg 1012 ⟨7, 100⟩ = .ok report := by
  have hok : (Client.run mockCrates mockShows mockRetried.cfg 1012 ⟨7, 100⟩).toOption.isSome = true := by
    decide +kernel
  cases hrun : Client.run mockCrates mockShows mockRetried.cfg 1012 ⟨7, 100⟩ with
  | ok report => exact ⟨report, rfl⟩
  | error e =>
    rw [hrun] at hok
    cases hok

/-- A preflight that is passed. -/
theorem preflight_serves {w : World Query Query.Answer (Net V)} {i : ℕ} {p k : Command} {s s' : Net V} {ρ : Type}
    {audit : AuditRecordBuilder} {check : Rpc → ℕ → Result ρ} {rpc : Rpc} {now : ℕ} {r : ρ}
    (h : w.Serves i p s (preflight audit (fun rpc now => (check rpc now).mapError Refusal.rmpc) k) s')
    (hanswers : w.answers i s' .readChain (rpc, now) s') (hcheck : check rpc now = .ok r) :
    w.Serves i p s k s' := by
  have hread := h.answer (rpc, now) hanswers
  simp only [hcheck] at hread
  exact hread

section Serves

variable {rules : Rules (Surroundings Unit)} {i : ℕ} {s : Net (Surroundings Unit)}

/-- Up to the lookup. -/
theorem mockRetried_looks (now : ℕ) (hquiet : ∀ s s', s'.caches = s.caches → rules.writes s s') :
    (net (fun _ => mockRetried) rules).Serves i (deposit mockCrates mockRetried) s
      (lookup (mockRetriedAudit now) "/var/lib/rmpc" mockPayment.id (mockPays now)) s := by
  have hsame := hquiet s s rfl
  have hstart := World.Serves.start (w := net (fun _ => mockRetried) rules) (i := i)
    (p := deposit mockCrates mockRetried) (s := s)
  have hsigner := (hstart.answer now ⟨rfl, hsame⟩).answer (.ok ()) ⟨rfl, hsame⟩
  have hlocked := ((hsigner.answer (.ok ()) ⟨rfl, hsame⟩).answer (.ok ()) ⟨rfl, hsame⟩).answer (.ok ())
    ⟨rfl, hsame⟩
  exact hlocked

/-- Up to the entry, where the cache has none. -/
theorem mockRetried_sends (hquiet : ∀ s s', s'.caches = s.caches → rules.writes s s')
    (hmiss : s.caches "/var/lib/rmpc" mockPayment.id = none) (hpending : s.delivered i = false) :
    ∃ k, (net (fun _ => mockRetried) rules).Serves i (deposit mockCrates mockRetried) s
      (.ask (.replayInsert "/var/lib/rmpc" mockEntry) k)
      { s with
        pool := s.pool ++ [mockPending]
        delivered := Function.update (Function.update s.delivered i true) i false } := by
  have hsame := hquiet s s rfl
  have hlookup : (s.caches "/var/lib/rmpc").lookup mockPayment.id = none := by
    unfold ReplayCache.lookup
    rw [hmiss]
    rfl
  have hlooks : (net (fun _ => mockRetried) rules).Serves i _ s _ s := mockRetried_looks 1000 hquiet
  have hmissed := (hlooks.answer (.ok ()) ⟨rfl, hsame⟩).answer (.ok none)
    ⟨⟨fun x hx => (Except.ok.inj hx).symm.trans hlookup.symm, rfl⟩, hsame⟩
  have hclient := (hmissed.answer (.ok ()) ⟨rfl, hsame⟩).answer (.ok ()) ⟨rfl, hsame⟩
  obtain ⟨report, haccepted⟩ := mockShows_accepted
  have hpreflight := preflight_serves hclient ⟨rfl, hsame⟩ haccepted
  have hfees := hpreflight.answer (.ok ⟨[10 * oneGwei], none⟩) ⟨rfl, hsame⟩
  have hsigned := (hfees.answer (.ok 0) ⟨rfl, hsame⟩).answer (.ok []) ⟨rfl, hsame⟩
  have hsent := hsigned.work ⟨hpending, rfl⟩
  exact ⟨_, hsent.answer (.ok 9) ⟨⟨fun _ _ => Function.update_self .., rfl⟩, hquiet _ _ rfl⟩⟩

end Serves

/-- The transaction is sent and recorded. -/
def mockRecorded : Net (Surroundings Unit) :=
  let sent : Net (Surroundings Unit) :=
    { mockNet with
      pool := [mockPending]
      delivered := Function.update (Function.update mockNet.delivered 0 true) 0 false }
  sent.setCache "/var/lib/rmpc" ((sent.caches "/var/lib/rmpc").insert mockEntry)

section Reaches

variable (rules : Rules (Surroundings Unit))

/-- All deposits are the same. -/
abbrev mockDeposits : Running Query Query.Answer Outcome (Net (Surroundings Unit)) :=
  deposits mockCrates (fun _ => mockRetried) mockNet

/-- The first deposit has sent its transaction, and recorded it. -/
theorem mockRecorded_reached (hquiet : ∀ s s', s'.caches = s.caches → rules.writes s s')
    (hinsert : ∀ s, s.pool = [mockPending] →
      rules.writes s (s.setCache "/var/lib/rmpc" ((s.caches "/var/lib/rmpc").insert mockEntry))) :
    ∃ s, Run mockSites (fun _ => mockRetried) rules mockDeposits s ∧ s.shared = mockRecorded ∧
      s.programs 1 = some (deposit mockCrates mockRetried) := by
  obtain ⟨k, hserves⟩ := mockRetried_sends (i := 0) (s := mockNet) hquiet rfl rfl
  have hrecorded := hserves.answer (.ok ()) ⟨rfl, hinsert _ rfl⟩
  exact ⟨_, World.Evolves.serves .start rfl hrecorded, rfl, rfl⟩

/-- The second deposit is refused where there is an entry. -/
theorem mockRetried_refused (hquiet : ∀ s s', s'.caches = s.caches → rules.writes s s')
    {s : Running Query Query.Answer Outcome (Net (Surroundings Unit))}
    (h : Run mockSites (fun _ => mockRetried) rules mockDeposits s)
    (hp : s.programs 1 = some (deposit mockCrates mockRetried))
    (hentry : s.shared.caches "/var/lib/rmpc" mockPayment.id = some mockEntry) :
    ∃ s₁ s₂ s', (net (fun _ => mockRetried) rules).AnsweredAt (Moves mockSites rules) mockDeposits s' 1
        (.replayLookup "/var/lib/rmpc" mockPayment.id) (.ok (some 9)) s₁ s₂ ∧
      s₁.shared = s.shared ∧
      s'.programs 1 = some (.done (.refused (.errOrderIdAlreadySubmitted 9))) := by
  have hlooks := World.Evolves.serves h hp ((mockRetried_looks 1055 hquiet).answer (.ok ()) ⟨rfl, hquiet _ _ rfl⟩)
  have hlookup : (s.shared.caches "/var/lib/rmpc").lookup mockPayment.id = some 9 := by
    unfold ReplayCache.lookup
    rw [hentry]
    rfl
  have hrefuses : (net (fun _ => mockRetried) rules).Serves 1
      (refuse (mockRetriedAudit 1055) .refused (.errOrderIdAlreadySubmitted 9)) s.shared
      (.done (.refused (.errOrderIdAlreadySubmitted 9))) s.shared :=
    World.Serves.start.answer () ⟨rfl, hquiet _ _ rfl⟩
  refine ⟨_, ⟨Function.update s.programs 1
    (some (refuse (mockRetriedAudit 1055) .refused (.errOrderIdAlreadySubmitted 9))), s.shared⟩, _,
    ⟨hlooks, ⟨_, rfl, ?_⟩, ⟨⟨?_, rfl⟩, hquiet _ _ rfl⟩,
      World.Evolves.serves .start (Function.update_self ..) hrefuses⟩, rfl, rfl⟩
  · exact (Function.update_idem ..).symm
  · exact fun x hx => (Except.ok.inj hx).symm.trans hlookup.symm

end Reaches

theorem any_quiet (s s' : Net V) (_ : s'.caches = s.caches) : (Rules.any : Rules V).writes s s' := trivial

/-- The transaction is included, and then the deposit is made again. -/
theorem refusals_justified_paid : ∃ s, Run mockSites (fun _ => mockRetried) (.keeping mockSites) mockDeposits s ∧
    s.programs 1 = some (.done (.refused (.errOrderIdAlreadySubmitted 9))) ∧
    ∃ stateDir gateway s₁ s₂, mockCrates.addressFromStr mockRetried.cfg.gatewayAddress = .ok gateway ∧
      (net (fun _ => mockRetried) (.keeping mockSites)).AnsweredAt (Moves mockSites (.keeping mockSites))
        mockDeposits s 1 (.replayLookup stateDir (mockRetried.payment gateway).id) (.ok (some 9)) s₁ s₂ ∧
      s₁.shared.Covered (mockRetried.payment gateway) := by
  have hinsert : ∀ s : Net (Surroundings Unit), s.pool = [mockPending] →
      Written s (s.setCache "/var/lib/rmpc" ((s.caches "/var/lib/rmpc").insert mockEntry)) := by
    intro s hpool
    refine written_insert fun p hid => .inr ⟨mockPending, ?_, hid.symm⟩
    rw [hpool]
    exact List.mem_singleton_self _
  have hharmless : Harmless mockSites mockRecorded 0 mockPending (.of 12 1024) false :=
    fun _ => .inl ⟨rfl, succeeds_iff.mp (by decide +kernel)⟩
  obtain ⟨⟨programs, shared⟩, hrecorded, rfl, hp⟩ :=
    mockRecorded_reached (.keeping mockSites) written_quiet hinsert
  have hmined := World.Evolves.move hrecorded (Moves.mine _ _ rfl hharmless)
  obtain ⟨s₁, s₂, s, hat, -, hrefused⟩ := mockRetried_refused (.keeping mockSites) written_quiet hmined hp rfl
  exact ⟨s, hat.run, hrefused, refusals_justified mockCrates mockSites mockSites_sites (fun _ => mockRetried)
    mockNet (fun _ _ => rfl) hat.run hrefused⟩

/-- Somebody calls the gateway. -/
def mockCall (s : Net (Surroundings Unit)) (tx : Tx (State.GatewayCall (Surroundings Unit))) :
    Net (Surroundings Unit) :=
  { s with
    gateways := Function.update s.gateways (31337, 1)
      (next (State.exec (mockSites (31337, 1))) (s.gateways (31337, 1)) tx) }

/-- The gateway is paused when the transaction is included, so that it reverts, and resumes. -/
def mockReverted : Net (Surroundings Unit) :=
  mockCall
    ((mockCall mockRecorded (.of 21 (.of 12 1024) .pause)).mine mockSites 0 mockPending (.of 13 1036) false)
    (.of 20 (.of 14 1048) .unpause)

/-- **A payment refused after it reverted.**  The deposit is refused as already submitted; when it looks the payment
up the gateway has not used the payment id, nothing is in flight, and the transaction would succeed. -/
theorem refused_after_revert :
    ∃ s s₁ s₂, (net (fun _ => mockRetried) .any).AnsweredAt (Moves mockSites .any) mockDeposits s 1
        (.replayLookup "/var/lib/rmpc" mockPayment.id) (.ok (some 9)) s₁ s₂ ∧
      s.programs 1 = some (.done (.refused (.errOrderIdAlreadySubmitted 9))) ∧
      ¬ s₁.shared.Covered mockPayment ∧
      ∃ r, mockPending.exec mockSites (s₁.shared.gateways mockPayment.site) (.of 15 1060) = .ok r := by
  obtain ⟨⟨programs, shared⟩, hrecorded, rfl, hp⟩ := mockRecorded_reached .any any_quiet fun _ _ => trivial
  have hpaused := World.Evolves.move hrecorded (Moves.call (31337, 1) (.of 21 (.of 12 1024) .pause))
  have hpending : (mockCall mockRecorded (.of 21 (.of 12 1024) .pause)).pool[0]? = some mockPending := rfl
  have hmined := World.Evolves.move hpaused (Moves.mine (.of 13 1036) false hpending trivial)
  have hresumed := World.Evolves.move hmined (Moves.call (31337, 1) (.of 20 (.of 14 1048) .unpause))
  obtain ⟨s₁, s₂, s, hat, hsame, hrefused⟩ := mockRetried_refused .any any_quiet hresumed hp rfl
  have hreverted : s₁.shared = mockReverted := hsame
  refine ⟨s, s₁, s₂, hat, hrefused, ?_⟩
  rw [hreverted]
  refine ⟨?_, succeeds_iff.mp (by decide +kernel)⟩
  rintro (hused | ⟨q, hq, -⟩)
  · exact absurd hused (by unfold Net.Used; decide +kernel)
  · cases hq

end Sample

end RobotMoney.Client.Commands
