import RobotMoney.Indexer.Chain
import RobotMoney.Lib.Abi

/-!
# Events on the wire

A log of a contract is a list of topics and data.  The first topic is the hash of the event's signature, the
others are its indexed parameters, the data are the rest.  `Declaration` is one event of `abi.rs`, which is
declared there as in the contract that emits it; the hash function is a parameter.

`handle_log` decodes a log by the declaration that its first topic names.  What a contract emits is read as it
was emitted (`readLog_emit`).
-/

namespace RobotMoney.Indexer

open RobotMoney.Lib RobotMoney.Lib.Abi
open Fields (nil cons nil_lawful cons_lawful)

/-! ### Signatures -/

/-- The signature that `Topics::new` hashes. -/
def Topic.signature : Topic → String
  | .agentAuthorized => "AgentAuthorized(address,address,uint64,uint256,uint256,address)"
  | .agentRevoked => "AgentRevoked(address,address)"
  | .agentDeposit => "AgentDeposit(bytes32,bytes32,address,address,uint256,uint256,uint64)"
  | .agentDepositRouted =>
    "AgentDepositRouted(bytes32,bytes32,address,address,address,uint256,uint256[],uint64)"
  | .paused => "Paused(address)"
  | .unpaused => "Unpaused(address)"
  | .vaultAllocated => "Allocated(uint256,address,uint256)"
  | .vaultPulled => "Pulled(uint256,address,uint256)"
  | .vaultRebalanced => "Rebalanced(uint256)"
  | .vaultExitFeeCharged => "ExitFeeCharged(address,address,uint256,uint256,uint256)"
  | .vaultRegistered => "VaultRegistered(address,string,address)"
  | .vaultStatusChanged => "VaultStatusChanged(address,uint8,uint256)"
  | .proposalCreated => "ProposalCreated(uint256,address,address[],uint256[],uint64)"
  | .voteCast => "VoteCast(uint256,address,uint256,uint256)"
  | .proposalExecuted => "ProposalExecuted(uint256,address)"
  | .weightsApplied => "WeightsApplied(uint256,address[],uint256[])"
  | .routerDeposit => "RouterDeposit(address,address,uint256,uint256,uint256)"
  | .erc4626Deposit => "Deposit(address,address,uint256,uint256)"
  | .erc4626Withdraw => "Withdraw(address,address,address,uint256,uint256)"

/-- `all_topic0` -/
def allTopic0 : List Topic :=
  [.agentAuthorized, .agentRevoked, .agentDeposit, .agentDepositRouted, .paused, .unpaused, .vaultAllocated,
    .vaultPulled, .vaultRebalanced, .vaultExitFeeCharged, .vaultRegistered, .vaultStatusChanged,
    .proposalCreated, .voteCast, .proposalExecuted, .weightsApplied, .routerDeposit, .erc4626Deposit,
    .erc4626Withdraw]

theorem mem_allTopic0 (t : Topic) : t ∈ allTopic0 := by
  cases t <;> decide

/-- The topic whose hash is a word. -/
def topicOf (keccak256 : String → ℕ) (word : ℕ) : Option Topic :=
  allTopic0.find? fun t => keccak256 t.signature = word

/-- The hashes of the signatures are different words. -/
structure Distinct (keccak256 : String → ℕ) : Prop where
  lt : ∀ t : Topic, keccak256 t.signature < 2 ^ 256
  inj : ∀ t u : Topic, keccak256 t.signature = keccak256 u.signature → t = u

variable {keccak256 : String → ℕ}

theorem topicOf_eq_some_iff (h : Distinct keccak256) {word : ℕ} {t : Topic} :
    topicOf keccak256 word = some t ↔ keccak256 t.signature = word := by
  unfold topicOf
  rw [List.find?_eq_some_iff_append]
  constructor
  · rintro ⟨hword, -⟩
    simpa using hword
  · rintro rfl
    obtain ⟨pre, post, hsplit⟩ := List.append_of_mem (mem_allTopic0 t)
    refine ⟨by simp, pre, post, hsplit, fun u hu => ?_⟩
    -- no topic stands twice in the list
    have hnodup : allTopic0.Nodup := by decide
    rw [hsplit] at hnodup
    have hne : u ≠ t := fun heq => (List.nodup_append.mp hnodup).2.2 u hu t (by simp) heq
    simpa using fun hsame => hne (h.inj u t hsame)

/-! ### Declarations -/

/-- A declared event: its indexed parameters with the bits of their types, its other parameters, and the event
they make. -/
structure Declaration where
  Indexed : Type
  Rest : Type
  bits : List ℕ
  indexed : Fields Indexed
  rest : Fields Rest
  make : Indexed → Rest → Event
  parts : Event → Option (Indexed × Rest)
  indexed_lawful : indexed.Lawful
  indexed_bits : ∀ i, indexed.valid i → List.Forall₂ (fun word b => word < 2 ^ b) (indexed.returns i) bits
  rest_lawful : rest.Lawful
  parts_iff : ∀ e i r, parts e = some (i, r) ↔ make i r = e

def address : Codec Address := fin (2 ^ 160)

theorem address_lawful : address.Lawful := fin_lawful _

def words : Codec (List ℕ) := array (uint 256)

theorem words_lawful : words.Lawful := array_lawful (uint_lawful 256)

def addresses : Codec (List Address) := array address

theorem addresses_lawful : addresses.Lawful := array_lawful address_lawful

namespace Declaration

def agentAuthorized : Declaration where
  Indexed := Address × Address × Unit
  Rest := ℕ × ℕ × ℕ × Address × Unit
  bits := [160, 160]
  indexed := cons address (cons address nil)
  rest := cons (uint 64) (cons (uint 256) (cons (uint 256) (cons address nil)))
  make i r := .agentAuthorized i.1 i.2.1 r.1 r.2.1 r.2.2.1 r.2.2.2.1
  parts
    | .agentAuthorized agent owner validUntil maxPerPayment maxPerWindow shareReceiver =>
      some ((agent, owner, ()), (validUntil, maxPerPayment, maxPerWindow, shareReceiver, ()))
    | _ => none
  indexed_lawful := cons_lawful address_lawful (cons_lawful address_lawful nil_lawful)
  indexed_bits i _ := .cons (Fin.isLt i.1) (.cons (Fin.isLt i.2.1) .nil)
  rest_lawful := cons_lawful (uint_lawful 64) (cons_lawful (uint_lawful 256) (cons_lawful (uint_lawful 256)
    (cons_lawful address_lawful nil_lawful)))
  parts_iff e i r := by cases e <;> simp [Prod.ext_iff, eq_comm, and_assoc]

def agentRevoked : Declaration where
  Indexed := Address × Address × Unit
  Rest := Unit
  bits := [160, 160]
  indexed := cons address (cons address nil)
  rest := nil
  make i _ := .agentRevoked i.1 i.2.1
  parts
    | .agentRevoked agent owner =>
      some ((agent, owner, ()), ())
    | _ => none
  indexed_lawful := cons_lawful address_lawful (cons_lawful address_lawful nil_lawful)
  indexed_bits i _ := .cons (Fin.isLt i.1) (.cons (Fin.isLt i.2.1) .nil)
  rest_lawful := nil_lawful
  parts_iff e i r := by cases e <;> simp [Prod.ext_iff, eq_comm]

def agentDeposit : Declaration where
  Indexed := ℕ × ℕ × Address × Unit
  Rest := Address × ℕ × ℕ × ℕ × Unit
  bits := [256, 256, 160]
  indexed := cons (uint 256) (cons (uint 256) (cons address nil))
  rest := cons address (cons (uint 256) (cons (uint 256) (cons (uint 64) nil)))
  make i r := .agentDeposit i.1 i.2.1 i.2.2.1 r.1 r.2.1 r.2.2.1 r.2.2.2.1
  parts
    | .agentDeposit paymentId orderId agent shareReceiver amount sharesMinted windowId =>
      some ((paymentId, orderId, agent, ()), (shareReceiver, amount, sharesMinted, windowId, ()))
    | _ => none
  indexed_lawful := cons_lawful (uint_lawful 256) (cons_lawful (uint_lawful 256)
    (cons_lawful address_lawful nil_lawful))
  indexed_bits i h := .cons h.1 (.cons h.2.1 (.cons (Fin.isLt i.2.2.1) .nil))
  rest_lawful := cons_lawful address_lawful (cons_lawful (uint_lawful 256) (cons_lawful (uint_lawful 256)
    (cons_lawful (uint_lawful 64) nil_lawful)))
  parts_iff e i r := by cases e <;> simp [Prod.ext_iff, eq_comm, and_assoc]

def agentDepositRouted : Declaration where
  Indexed := ℕ × ℕ × Address × Unit
  Rest := Address × Address × ℕ × List ℕ × ℕ × Unit
  bits := [256, 256, 160]
  indexed := cons (uint 256) (cons (uint 256) (cons address nil))
  rest := cons address (cons address (cons (uint 256) (cons words (cons (uint 64) nil))))
  make i r := .agentDepositRouted i.1 i.2.1 i.2.2.1 r.1 r.2.1 r.2.2.1 r.2.2.2.1 r.2.2.2.2.1
  parts
    | .agentDepositRouted paymentId orderId agent shareReceiver router amount sharesPerLeg windowId =>
      some ((paymentId, orderId, agent, ()), (shareReceiver, router, amount, sharesPerLeg, windowId, ()))
    | _ => none
  indexed_lawful := cons_lawful (uint_lawful 256) (cons_lawful (uint_lawful 256)
    (cons_lawful address_lawful nil_lawful))
  indexed_bits i h := .cons h.1 (.cons h.2.1 (.cons (Fin.isLt i.2.2.1) .nil))
  rest_lawful := cons_lawful address_lawful (cons_lawful address_lawful (cons_lawful (uint_lawful 256)
    (cons_lawful words_lawful (cons_lawful (uint_lawful 64) nil_lawful))))
  parts_iff e i r := by cases e <;> simp [Prod.ext_iff, eq_comm, and_assoc]

def vaultRegistered : Declaration where
  Indexed := Address × Address × Unit
  Rest := String × Unit
  bits := [160, 160]
  indexed := cons address (cons address nil)
  rest := cons string nil
  make i r := .vaultRegistered i.1 r.1 i.2.1
  parts
    | .vaultRegistered vault name asset =>
      some ((vault, asset, ()), (name, ()))
    | _ => none
  indexed_lawful := cons_lawful address_lawful (cons_lawful address_lawful nil_lawful)
  indexed_bits i _ := .cons (Fin.isLt i.1) (.cons (Fin.isLt i.2.1) .nil)
  rest_lawful := cons_lawful string_lawful nil_lawful
  parts_iff e i r := by cases e <;> simp [Prod.ext_iff, eq_comm, and_comm, and_left_comm]

def vaultStatusChanged : Declaration where
  Indexed := Address × ℕ × Unit
  Rest := ℕ × Unit
  bits := [160, 8]
  indexed := cons address (cons (uint 8) nil)
  rest := cons (uint 256) nil
  make i r := .vaultStatusChanged i.1 i.2.1 r.1
  parts
    | .vaultStatusChanged vault newStatus timestamp =>
      some ((vault, newStatus, ()), (timestamp, ()))
    | _ => none
  indexed_lawful := cons_lawful address_lawful (cons_lawful (uint_lawful 8) nil_lawful)
  indexed_bits i h := .cons (Fin.isLt i.1) (.cons h.2.1 .nil)
  rest_lawful := cons_lawful (uint_lawful 256) nil_lawful
  parts_iff e i r := by cases e <;> simp [Prod.ext_iff, eq_comm, and_assoc]

def proposalCreated : Declaration where
  Indexed := ℕ × Address × Unit
  Rest := List Address × List ℕ × ℕ × Unit
  bits := [256, 160]
  indexed := cons (uint 256) (cons address nil)
  rest := cons addresses (cons words (cons (uint 64) nil))
  make i r := .proposalCreated i.1 i.2.1 r.1 r.2.1 r.2.2.1
  parts
    | .proposalCreated proposalId proposer vaults bps votingDeadline =>
      some ((proposalId, proposer, ()), (vaults, bps, votingDeadline, ()))
    | _ => none
  indexed_lawful := cons_lawful (uint_lawful 256) (cons_lawful address_lawful nil_lawful)
  indexed_bits i h := .cons h.1 (.cons (Fin.isLt i.2.1) .nil)
  rest_lawful := cons_lawful addresses_lawful (cons_lawful words_lawful (cons_lawful (uint_lawful 64) nil_lawful))
  parts_iff e i r := by cases e <;> simp [Prod.ext_iff, eq_comm, and_assoc]

def voteCast : Declaration where
  Indexed := ℕ × Address × Unit
  Rest := ℕ × ℕ × Unit
  bits := [256, 160]
  indexed := cons (uint 256) (cons address nil)
  rest := cons (uint 256) (cons (uint 256) nil)
  make i r := .voteCast i.1 i.2.1 r.1 r.2.1
  parts
    | .voteCast proposalId voter power totalFor =>
      some ((proposalId, voter, ()), (power, totalFor, ()))
    | _ => none
  indexed_lawful := cons_lawful (uint_lawful 256) (cons_lawful address_lawful nil_lawful)
  indexed_bits i h := .cons h.1 (.cons (Fin.isLt i.2.1) .nil)
  rest_lawful := cons_lawful (uint_lawful 256) (cons_lawful (uint_lawful 256) nil_lawful)
  parts_iff e i r := by cases e <;> simp [Prod.ext_iff, eq_comm, and_assoc]

def proposalExecuted : Declaration where
  Indexed := ℕ × Address × Unit
  Rest := Unit
  bits := [256, 160]
  indexed := cons (uint 256) (cons address nil)
  rest := nil
  make i _ := .proposalExecuted i.1 i.2.1
  parts
    | .proposalExecuted proposalId executor =>
      some ((proposalId, executor, ()), ())
    | _ => none
  indexed_lawful := cons_lawful (uint_lawful 256) (cons_lawful address_lawful nil_lawful)
  indexed_bits i h := .cons h.1 (.cons (Fin.isLt i.2.1) .nil)
  rest_lawful := nil_lawful
  parts_iff e i r := by cases e <;> simp [Prod.ext_iff, eq_comm]

def weightsApplied : Declaration where
  Indexed := ℕ × Unit
  Rest := List Address × List ℕ × Unit
  bits := [256]
  indexed := cons (uint 256) nil
  rest := cons addresses (cons words nil)
  make i r := .weightsApplied i.1 r.1 r.2.1
  parts
    | .weightsApplied proposalId vaults bps =>
      some ((proposalId, ()), (vaults, bps, ()))
    | _ => none
  indexed_lawful := cons_lawful (uint_lawful 256) nil_lawful
  indexed_bits _ h := .cons h.1 .nil
  rest_lawful := cons_lawful addresses_lawful (cons_lawful words_lawful nil_lawful)
  parts_iff e i r := by cases e <;> simp [Prod.ext_iff, eq_comm]

def routerDeposit : Declaration where
  Indexed := Address × Address × Unit
  Rest := ℕ × ℕ × ℕ × Unit
  bits := [160, 160]
  indexed := cons address (cons address nil)
  rest := cons (uint 256) (cons (uint 256) (cons (uint 256) nil))
  make i r := .routerDeposit i.1 i.2.1 r.1 r.2.1 r.2.2.1
  parts
    | .routerDeposit depositor vault amount shares weightBps =>
      some ((depositor, vault, ()), (amount, shares, weightBps, ()))
    | _ => none
  indexed_lawful := cons_lawful address_lawful (cons_lawful address_lawful nil_lawful)
  indexed_bits i _ := .cons (Fin.isLt i.1) (.cons (Fin.isLt i.2.1) .nil)
  rest_lawful := cons_lawful (uint_lawful 256) (cons_lawful (uint_lawful 256)
    (cons_lawful (uint_lawful 256) nil_lawful))
  parts_iff e i r := by cases e <;> simp [Prod.ext_iff, eq_comm, and_assoc]

end Declaration

/-- The declaration that `handle_log` decodes a log with this first topic by. -/
def Topic.declaration : Topic → Option Declaration
  | .agentAuthorized => some .agentAuthorized
  | .agentRevoked => some .agentRevoked
  | .agentDeposit => some .agentDeposit
  | .agentDepositRouted => some .agentDepositRouted
  | .vaultRegistered => some .vaultRegistered
  | .vaultStatusChanged => some .vaultStatusChanged
  | .proposalCreated => some .proposalCreated
  | .voteCast => some .voteCast
  | .proposalExecuted => some .proposalExecuted
  | .weightsApplied => some .weightsApplied
  | .routerDeposit => some .routerDeposit
  | _ => none

/-! ### Logs -/

/-- The topics and the data of a log. -/
structure RawLog where
  topics : List ℕ
  data : List UInt8

/-- `decode_log`, which validates: the topics are cut to the bits of their types, more of them than the event has
are ignored, and the data are read strictly. -/
def Declaration.decodeLog (d : Declaration) (topics : List ℕ) (data : List UInt8) : Option Event :=
  if d.bits.length ≤ topics.length then do
    let i ← d.indexed.strict (List.zipWith (fun bits word => word % 2 ^ bits) d.bits topics)
    let words ← wordsOf data
    let r ← d.rest.strict words
    some (d.make i r)
  else none

/-- What `handle_log` sees in a log. -/
def readLog (keccak256 : String → ℕ) (raw : RawLog) : LogData :=
  match raw.topics with
  | [] => .foreign
  | topic0 :: topics =>
    match topicOf keccak256 topic0 with
    | none => .foreign
    | some t =>
      match t.declaration.bind fun d => d.decodeLog topics raw.data with
      | some e => .event e
      | none => .raw t

/-- The log a contract emits: the indexed parameters as topics behind the hash of the signature, the others as
data. -/
def Declaration.emit (d : Declaration) (keccak256 : String → ℕ) (t : Topic) (i : d.Indexed) (r : d.Rest) :
    RawLog :=
  ⟨keccak256 t.signature :: d.indexed.returns i, unpack (d.rest.returns r)⟩

def emit (keccak256 : String → ℕ) (e : Event) : RawLog :=
  (e.topic.declaration.bind fun d => (d.parts e).map fun x => d.emit keccak256 e.topic x.1 x.2).getD ⟨[], []⟩

/-- Every number of the event is in the range of its declared type, and every offset and length in the data is a
word. -/
def Event.Fits (e : Event) : Prop :=
  ∃ d i r, e.topic.declaration = some d ∧ d.parts e = some (i, r) ∧ d.indexed.valid i ∧ d.rest.valid r ∧
    ∀ w ∈ d.rest.returns r, w < 256 ^ 32

theorem emit_eq {e : Event} {d : Declaration} {i : d.Indexed} {r : d.Rest} (hd : e.topic.declaration = some d)
    (hparts : d.parts e = some (i, r)) : emit keccak256 e = d.emit keccak256 e.topic i r := by
  simp [emit, hd, hparts]

/-- What fits the bits is cut to itself. -/
theorem zipWith_mod_eq {ws bits : List ℕ} (h : List.Forall₂ (fun word b => word < 2 ^ b) ws bits) :
    List.zipWith (fun bits word => word % 2 ^ bits) bits ws = ws := by
  induction h with
  | nil => rfl
  | cons hlt _ ih => rw [List.zipWith_cons_cons, Nat.mod_eq_of_lt hlt, ih]

theorem lt_of_bits {ws bits : List ℕ} (h : List.Forall₂ (fun word b => word < 2 ^ b) ws bits)
    (hbound : ∀ b ∈ bits, b ≤ 256) : ∀ w ∈ ws, w < 2 ^ 256 := by
  induction h with
  | nil => simp
  | cons hlt _ ih =>
    rw [List.forall_mem_cons] at hbound ⊢
    exact ⟨hlt.trans_le (Nat.pow_le_pow_right (by decide) hbound.1), ih hbound.2⟩

/-- The parameters of an event are decoded from what is written for them. -/
theorem decodeLog_returns {d : Declaration} {i : d.Indexed} {r : d.Rest} (hi : d.indexed.valid i)
    (hr : d.rest.valid r) (hwords : ∀ w ∈ d.rest.returns r, w < 256 ^ 32) :
    d.decodeLog (d.indexed.returns i) (unpack (d.rest.returns r)) = some (d.make i r) := by
  have hbits := d.indexed_bits i hi
  have htopics := Fields.strict_returns d.indexed_lawful hi
  have hdata := Fields.strict_returns d.rest_lawful hr
  have hread : wordsOf (unpack (d.rest.returns r)) = some (d.rest.returns r) :=
    wordsOf_eq_some_iff.mpr ⟨rfl, hwords⟩
  unfold Declaration.decodeLog
  rw [if_pos hbits.length_eq.ge, zipWith_mod_eq hbits, htopics, hread]
  simp only [bind, Option.bind_some, hdata]

/-- What a contract emits is read as it was emitted. -/
theorem readLog_emit (h : Distinct keccak256) {e : Event} (he : e.Fits) :
    readLog keccak256 (emit keccak256 e) = .event e := by
  obtain ⟨d, i, r, hd, hparts, hi, hr, hwords⟩ := he
  have hdecode := decodeLog_returns hi hr hwords
  rw [(d.parts_iff e i r).mp hparts] at hdecode
  rw [emit_eq hd hparts]
  unfold readLog Declaration.emit
  simp [(topicOf_eq_some_iff h).mpr rfl, hd, hdecode]

/-- Every topic of an emitted log is a word. -/
theorem emit_topics_lt (h : Distinct keccak256) {e : Event} (he : e.Fits) :
    ∀ w ∈ (emit keccak256 e).topics, w < 256 ^ 32 := by
  obtain ⟨d, i, r, hd, hparts, hvi, -, -⟩ := he
  have hbits := d.indexed_bits i hvi
  rw [emit_eq hd hparts]
  intro w hw
  rcases List.mem_cons.mp hw with rfl | hw
  · exact (h.lt e.topic).trans_le (by norm_num)
  · have hle : ∀ b ∈ d.bits, b ≤ 256 := by
      cases ht : e.topic <;> rw [ht] at hd <;> cases hd <;> decide
    exact (lt_of_bits hbits hle w hw).trans_le (by norm_num)

/-! ### The hashes -/

/-- The hashes of the signatures. -/
def Topic.hash : Topic → ℕ
  | .agentAuthorized => 0x3461fe378a2efca85c88ef6623ffa209efcef9051431ffca026aab841a2b4f89
  | .agentRevoked => 0x3855bc4f5f7ba28049e0abd622b6ffbbf63cb46e6b09593b9213c9fd38db5cad
  | .agentDeposit => 0xa9d4181f9a037cd8447c2d7336d15eaf9b4424df7793889e5d155ec7cdb01965
  | .agentDepositRouted => 0xe44d3b0b5883711c2d55d69feccfe60e0ca81f38ba91f02b506bde89e88d333a
  | .paused => 0x62e78cea01bee320cd4e420270b5ea74000d11b0c9f74754ebdbfc544b05a258
  | .unpaused => 0x5db9ee0a495bf2e6ff9c91a7834c1ba4fdd244a5e8aa4e537bd38aeae4b073aa
  | .vaultAllocated => 0x257cb22e03ab252c5a562a7b4b371f420ba141f1445d13e81e7f3ba3946f601f
  | .vaultPulled => 0xc47b274de5c3e6569385361fa3dc869c98af8023c31ec785a8da75b9c91cfb99
  | .vaultRebalanced => 0xc306af072396b02bf3a9782c10065cc7ff4aa842934a43f0b76f997b291237c8
  | .vaultExitFeeCharged => 0x1445acd8acbe7f57f8180acc357a371c0d5eed1090bd4e6a1bd02ac559b76b17
  | .vaultRegistered => 0xd385bf0ddabe8ae7d30b0312a7d776534de963a382910c1e1b0074cad3102bbc
  | .vaultStatusChanged => 0x59f0898f2df0fec2756b6bd25584cac8bc6d5a277a1c12aadd6b5c1ad801bff0
  | .proposalCreated => 0x13c19321b2a404047c619ed8852fa8134b74f12f172dcb3cc8ae3040d37d2e05
  | .voteCast => 0x0271f53eebbe20450d9578f28ec279231556c34545b30e2278d754ffd39cd63c
  | .proposalExecuted => 0x9c85b616f29fca57a17eafe71cf9ff82ffef41766e2cf01ea7f8f7878dd3ec24
  | .weightsApplied => 0x7c469e3aedd0b072513bddc89a8eee0bf8d745fe771f3f6cb68ffe29793d556d
  | .routerDeposit => 0xe819a297764c8cf9fe8ba09afbcd298d022dde4d634b768b816dc85b3a982a10
  | .erc4626Deposit => 0xdcbc1c05240f31ff3ad067ef1ee35ce4997762752e3a095284754544f4c709d7
  | .erc4626Withdraw => 0xfbde797d201c681b91056529119e0b02407c7bb96a4a2c75c01fc9667232c8db

/-- `keccak256` on the signatures. -/
def signatureHash (signature : String) : ℕ :=
  ((allTopic0.find? fun t => t.signature = signature).map Topic.hash).getD 0

theorem signatureHash_signature (t : Topic) : signatureHash t.signature = t.hash := by
  cases t <;> decide +kernel

theorem signatureHash_distinct : Distinct signatureHash where
  lt t := by
    rw [signatureHash_signature]
    cases t <;> decide
  inj t u h := by
    have hall : ∀ t ∈ allTopic0, ∀ u ∈ allTopic0, t.hash = u.hash → t = u := by decide
    rw [signatureHash_signature, signatureHash_signature] at h
    exact hall t (mem_allTopic0 t) u (mem_allTopic0 u) h

end RobotMoney.Indexer
