import RobotMoney.Client.ReadOutput
import RobotMoney.Gateway.Logs
import RobotMoney.Gateway.Surroundings

/-!
# The lookup of a payment

`rmpc status` looks for the `AgentDeposit` of a payment id among the logs of the gateway and prints what the
first one says, or that there is none.

There is at most one, and it is found exactly when a deposit into the vault, by `deposit` or by `depositTo`,
took the id (`status_vault_deposits`).  A deposit through the router leaves an `AgentDepositRouted`, which
the command does not ask for: `routed_not_found`.
-/

namespace RobotMoney.Client.Status

open RobotMoney.Lib
open RobotMoney.Gateway

/-! ### The command -/

/-- What the node answers. -/
structure Rpc where
  chainId : Result ℕ
  blockNumber : Result ℕ
  getLogs : LogFilter → Result (List RawLog)

/-- `B256::from_str`, with the text of its error, and `{:#x}` of 32 bytes. -/
structure B256Text where
  fromStr : String → Except String Bytes32
  lowerHex : Bytes32 → String

/-- The event as the client's interface of the gateway declares it. -/
structure AgentDeposit where
  paymentId : Bytes32
  orderId : Bytes32
  agent : Address
  shareReceiver : Address
  amount : ℕ
  sharesMinted : ℕ
  windowId : ℕ

/-- An address read from a word. -/
def readAddress (n : ℕ) : Option Address := if h : n < 2 ^ 160 then some (⟨n, h⟩ : Fin (2 ^ 160)) else none

/-- A topic that is a plain word. -/
def plainWord : Bytes32 → Option ℕ
  | .word n => some n
  | _ => none

/-- `AgentDeposit::decode_log_data`: four topics, the first of which is the signature's hash, and four
words of data, each in the range of its type. -/
def decodeLogData (topics : List Bytes32) (data : List ℕ) : Option AgentDeposit :=
  match topics, data with
  | [topic0, paymentId, orderId, agentTopic], [receiverWord, amount, sharesMinted, windowId] =>
    if topic0 = .word agentDepositHash ∧ windowId < 2 ^ 64 then do
      let agent ← (plainWord agentTopic).bind readAddress
      let shareReceiver ← readAddress receiverWord
      some { paymentId, orderId, agent, shareReceiver, amount, sharesMinted, windowId }
    else none
  | _, _ => none

structure StatusFound where
  paymentId : String
  orderId : String
  agent : String
  shareReceiver : String
  amount : ℕ
  sharesMinted : ℕ
  blockNumber : ℕ
  txHash : String

structure StatusNotFound where
  paymentId : String
  status : String

/-- The payload of the envelope, of one of two types. -/
inductive StatusData where
  | found (d : StatusFound)
  | notFound (d : StatusNotFound)

/-- Why the lookup failed. -/
inductive Failure where
  | ethChainId (e : RmpcError)
  | ethBlockNumber (e : RmpcError)
  | ethGetLogs (e : RmpcError)
  | agentDepositDecode

/-- The exit codes `EXIT_INPUT_FAIL` and `EXIT_STARTUP_FAIL`. -/
inductive Exit where
  | inputFail
  | startupFail
  deriving DecidableEq

section

variable (text : B256Text)

/-- The payload for a log. -/
def found (l : RawLog) (d : AgentDeposit) : StatusFound where
  paymentId := text.lowerHex d.paymentId
  orderId := text.lowerHex d.orderId
  agent := lowerHex d.agent
  shareReceiver := lowerHex d.shareReceiver
  amount := d.amount
  sharesMinted := d.sharesMinted
  blockNumber := l.blockNumber
  txHash := text.lowerHex l.transactionHash

/-- The three calls. -/
def outcome (rpc : Rpc) (gatewayAddr : Address) (paymentId : Bytes32) :
    Except Failure ((ℕ × ℕ) × Option StatusFound) := do
  let chainId ← rpc.chainId.mapError .ethChainId
  let blockNumber ← rpc.blockNumber.mapError .ethBlockNumber
  let logs ← (rpc.getLogs (depositFilter gatewayAddr paymentId)).mapError .ethGetLogs
  match logs with
  | [] => pure ((chainId, blockNumber), none)
  | raw :: _ =>
    match decodeLogData raw.topics raw.data with
    | none => .error .agentDepositDecode
    | some decoded => pure ((chainId, blockNumber), some (found text raw decoded))

/-- `run`, with the configuration loaded: the envelope that is printed, or how the command ends. -/
def run (c : Crates) (rpc : Rpc) (cfg : Config) (paymentIdHex : String) :
    Except Exit (Envelope StatusData) :=
  match text.fromStr paymentIdHex with
  | .error _ => .error .inputFail
  | .ok paymentId =>
    match c.addressFromStr cfg.gatewayAddress with
    | .error _ => .error .startupFail
    | .ok gatewayAddr =>
      match outcome text rpc gatewayAddr paymentId with
      | .error _ => .error .startupFail
      | .ok ((chainId, blockNumber), some d) =>
        .ok (PartialBuilder.new chainId blockNumber (.found d)).finish
      | .ok ((chainId, blockNumber), none) =>
        .ok (PartialBuilder.new chainId blockNumber
          (.notFound ⟨text.lowerHex paymentId, "not_found"⟩)).finish

end

/-! ### What it finds -/

section Finds

variable {V : Type} {text : B256Text} {c : Crates} {rpc : Rpc} {cfg : Config} {env : Env V} {s s₀ : State V}
  {txs : List (Tx (State.GatewayCall V))} {tx : Tx (State.GatewayCall V)} {pay : Payment} {minted : ℕ}
  {chain : List RawLog} {idHex : String} {id : Bytes32}

/-- The node answers, and its logs are those of a chain on which the run of the gateway took place. -/
structure Shows (rpc : Rpc) (env : Env V) (log : Log V) (chain : List RawLog) : Prop where
  chainId : ∃ n, rpc.chainId = .ok n
  blockNumber : ∃ n, rpc.blockNumber = .ok n
  getLogs : ∀ f, rpc.getLogs f = .ok (chain.filter fun l => f.Matches l)
  logged : Logged env log chain

theorem readAddress_addressWord (a : Address) : readAddress (addressWord a) = some a := by
  unfold readAddress addressWord
  exact dif_pos a.2

/-- The log reads as a deposit of the agent, for shares to the receiver, of the amount. -/
def Tells (x : LogContent) (agent receiver : Address) (amount : ℕ) : Prop :=
  ∃ d, decodeLogData x.topics x.data = some d ∧ d.agent = agent ∧ d.shareReceiver = receiver ∧
    d.amount = amount

/-- The client reads of a deposit's log what the gateway wrote. -/
theorem tells_depositContent : Tells (depositContent env s tx pay minted) tx.sender
    (s.agents tx.sender).shareReceiver pay.amount := by
  have hwindow : tx.block.timestamp / windowSeconds < 2 ^ 64 :=
    lt_of_le_of_lt (Nat.div_le_self _ _) tx.block.timestamp_lt
  refine ⟨⟨State.paymentId env tx.sender pay.orderId pay.amount pay.key, pay.orderId, tx.sender,
    (s.agents tx.sender).shareReceiver, pay.amount, minted, tx.block.timestamp / windowSeconds⟩, ?_, rfl,
    rfl, rfl⟩
  simp only [depositContent, depositEvent, GatewayEvent.topics, GatewayEvent.indexed, GatewayEvent.data,
    GatewayEvent.signatureHash, decodeLogData]
  rw [if_pos ⟨trivial, hwindow⟩]
  simp [plainWord, readAddress_addressWord]

/-- The call was no deposit through the router. -/
abbrev NotRouted (env : Env V) (tx : Tx (State.GatewayCall V)) : Prop := ¬ Routed env tx

/-- What is found tells of a deposit into the vault. -/
theorem tells_of_mem {x : LogContent} (h : x ∈ foundDeposits env.self id (history (State.exec env) s₀ txs)) :
    ∃ agent receiver amount, PaidIn env s₀ txs (NotRouted env) id agent receiver amount ∧
      Tells x agent receiver amount := by
  rw [foundDeposits_eq, List.mem_flatMap] at h
  obtain ⟨⟨tx, r⟩, hmem, hx⟩ := h
  obtain ⟨_, _, hsplit⟩ := List.append_of_mem hmem
  obtain ⟨pre, post, s', hsplit, -, hexec⟩ := history_eq_append hsplit
  rcases exec_agentDeposits hexec with ⟨pay, minted, hpay, hside, hrouted, hevents⟩ | ⟨-, hnone⟩
  · rw [depositsOf_deposit hevents] at hx
    by_cases hid : State.paymentId env tx.sender pay.orderId pay.amount pay.key = id
    · rw [if_pos hid] at hx
      refine ⟨_, _, _, ⟨pre, tx, post, s', r, pay, hsplit, hexec, hrouted, hpay, hside, hid, rfl, rfl,
        rfl⟩, ?_⟩
      rw [List.mem_singleton.mp hx]
      exact tells_depositContent
    · rw [if_neg hid] at hx
      cases hx
  · rw [depositsOf_noDeposit hnone] at hx
    cases hx

/-- A deposit into the vault is found. -/
theorem found_of_paidIn {agent receiver : Address} {amount : ℕ}
    (h : PaidIn env s₀ txs (NotRouted env) id agent receiver amount) :
    ∃ x ∈ foundDeposits env.self id (history (State.exec env) s₀ txs), Tells x agent receiver amount := by
  obtain ⟨pre, tx, post, s', r, pay, hsplit, hexec, hrouted, hpay, hside, hid, rfl, rfl, rfl⟩ := h
  rcases exec_agentDeposits hexec with ⟨pay', minted, hpay', -, -, hevents⟩ | ⟨hall, -⟩
  · cases hpay.symm.trans hpay'
    refine ⟨depositContent env (Lib.run (State.exec env) s₀ pre) tx pay minted, ?_, tells_depositContent⟩
    rw [foundDeposits_eq, List.mem_flatMap]
    refine ⟨(tx, r), mem_history hsplit hexec, ?_⟩
    rw [depositsOf_deposit hevents, if_pos hid]
    exact List.mem_singleton_self _
  · exact absurd (hall pay hpay hside) hrouted

/-- What is printed, by what the node finds. -/
theorem run_of_logs {log : Log V} (h : Shows rpc env log chain)
    (hgateway : c.addressFromStr cfg.gatewayAddress = .ok env.self) (hid : text.fromStr idHex = .ok id) :
    ((chain.filter fun l => (depositFilter env.self id).Matches l) = [] →
      ∃ out, run text c rpc cfg idHex = .ok out ∧
        out.data = .notFound ⟨text.lowerHex id, "not_found"⟩) ∧
    (∀ l rest d, (chain.filter fun l => (depositFilter env.self id).Matches l) = l :: rest →
      decodeLogData l.topics l.data = some d →
      ∃ out, run text c rpc cfg idHex = .ok out ∧ out.data = .found (found text l d)) := by
  obtain ⟨n, hn⟩ := h.chainId
  obtain ⟨m, hm⟩ := h.blockNumber
  have hlogs := h.getLogs (depositFilter env.self id)
  refine ⟨?_, ?_⟩
  · intro hnil
    have hout : outcome text rpc env.self id = .ok ((n, m), none) := by
      unfold outcome
      rw [hn, hm, hlogs, hnil]
      rfl
    refine ⟨(PartialBuilder.new n m (.notFound ⟨text.lowerHex id, "not_found"⟩)).finish, ?_, rfl⟩
    simp only [run, hid, hgateway, hout]
  · intro l rest d hcons hdecode
    have hout : outcome text rpc env.self id = .ok ((n, m), some (found text l d)) := by
      unfold outcome
      rw [hn, hm, hlogs, hcons]
      change (match decodeLogData l.topics l.data with
        | none => Except.error Failure.agentDepositDecode
        | some decoded => pure ((n, m), some (found text l decoded))) = _
      rw [hdecode]
      rfl
    refine ⟨(PartialBuilder.new n m (.found (found text l d))).finish, ?_, rfl⟩
    simp only [run, hid, hgateway, hout]

/-- **Lookup of a payment.**  In every run of the deployed gateway and for every payment id: at most one log
matches; `rmpc status` answers, and it answers `found` exactly when a successful `deposit`, or a successful
`depositTo` that did not go to the router, took the id; and the agent, the share receiver and the amount
that it prints are those of that deposit. -/
theorem status_vault_deposits {vaultAsset admin pauser : Address} {world : World V}
    (h₀ : deploy env vaultAsset admin pauser world = .ok s₀)
    (h : Shows rpc env (history (State.exec env) s₀ txs) chain)
    (hgateway : c.addressFromStr cfg.gatewayAddress = .ok env.self) (hid : text.fromStr idHex = .ok id) :
    (chain.filter fun l => (depositFilter env.self id).Matches l).length ≤ 1 ∧
    ∃ out, run text c rpc cfg idHex = .ok out ∧
      ((∃ d, out.data = .found d) ↔
        ∃ agent receiver amount, PaidIn env s₀ txs (NotRouted env) id agent receiver amount) ∧
      ∀ d agent receiver amount, out.data = .found d →
        PaidIn env s₀ txs (NotRouted env) id agent receiver amount →
        d.agent = lowerHex agent ∧ d.shareReceiver = lowerHex receiver ∧ d.amount = amount := by
  have hmap := h.logged.found (f := depositFilter env.self id) rfl rfl
    (signatureHash_mem (.agentDeposit id id 0 0 0 0 0))
  change _ = foundDeposits env.self id (history (State.exec env) s₀ txs) at hmap
  have hcount : (paymentIds (history (State.exec env) s₀ txs)).count id ≤ 1 :=
    List.nodup_iff_count_le_one.mp (recorded_run h₀ txs).nodup id
  have hlen := (length_foundDeposits_le env.self id s₀ txs).trans hcount
  rw [← hmap, List.length_map] at hlen
  obtain ⟨hnone, hsome⟩ := run_of_logs h hgateway hid
  refine ⟨hlen, ?_⟩
  cases hlogs : chain.filter fun l => (depositFilter env.self id).Matches l with
  | nil =>
    obtain ⟨out, hout, hdata⟩ := hnone hlogs
    rw [hlogs, List.map_nil] at hmap
    have hno : ∀ agent receiver amount, ¬ PaidIn env s₀ txs (NotRouted env) id agent receiver amount := by
      intro agent receiver amount hpaid
      obtain ⟨x, hx, -⟩ := found_of_paidIn hpaid
      rw [← hmap] at hx
      cases hx
    refine ⟨out, hout, ⟨?_, ?_⟩, ?_⟩
    · rintro ⟨d, hd⟩
      cases hdata.symm.trans hd
    · rintro ⟨agent, receiver, amount, hpaid⟩
      exact absurd hpaid (hno agent receiver amount)
    · intro d agent receiver amount _ hpaid
      exact absurd hpaid (hno agent receiver amount)
  | cons l rest =>
    rw [hlogs] at hlen hmap
    obtain rfl : rest = [] := by
      cases rest with
      | nil => rfl
      | cons _ _ => simp at hlen
    have hmem : l.content ∈ foundDeposits env.self id (history (State.exec env) s₀ txs) := by
      rw [← hmap]
      exact List.mem_singleton_self _
    obtain ⟨agent, receiver, amount, hpaid, d, hdecode, -⟩ := tells_of_mem hmem
    obtain ⟨out, hout, hdata⟩ := hsome l [] d hlogs hdecode
    refine ⟨out, hout, ⟨fun _ => ⟨agent, receiver, amount, hpaid⟩, fun _ => ⟨_, hdata⟩⟩, ?_⟩
    intro d' agent' receiver' amount' hd' hpaid'
    obtain ⟨x, hx, d'', hdecode', rfl, rfl, rfl⟩ := found_of_paidIn hpaid'
    rw [← hmap, List.map_singleton, List.mem_singleton] at hx
    subst hx
    obtain rfl : d = d'' := Option.some.inj (hdecode.symm.trans hdecode')
    obtain rfl : found text l d = d' := StatusData.found.inj (hdata.symm.trans hd')
    exact ⟨rfl, rfl, rfl⟩

end Finds

/-! ### One payment found, one not -/

section Sample

variable {V : Type} {env : Env V}

/-- The chain on which nothing but a run of the gateway took place, all in one transaction. -/
def chainOf (env : Env V) (log : Log V) : List RawLog :=
  (log.flatMap contentsOf).map fun x => ⟨env.self, x.topics, x.data, x.blockNumber, .word 0xabc⟩

theorem logged_chainOf (log : Log V) : Logged env log (chainOf env log) := by
  have hown : ∀ l ∈ chainOf env log, l.Own env := by
    intro l hl
    obtain ⟨x, hx, rfl⟩ := List.mem_map.mp hl
    obtain ⟨y, -, hy⟩ := List.mem_flatMap.mp hx
    obtain ⟨e, -, rfl⟩ := List.mem_map.mp hy
    exact ⟨rfl, List.mem_map.mpr ⟨_, signatureHash_mem e, rfl⟩⟩
  unfold Logged
  rw [List.filter_eq_self.mpr fun l hl => decide_eq_true (hown l hl)]
  unfold chainOf
  rw [List.map_map]
  exact List.map_id _

/-- A node that answers from a chain. -/
def nodeAt (chain : List RawLog) : Rpc where
  chainId := .ok 8453
  blockNumber := .ok 12
  getLogs f := .ok (chain.filter fun l => f.Matches l)

theorem shows_nodeAt (log : Log V) : Shows (nodeAt (chainOf env log)) env log (chainOf env log) :=
  ⟨⟨_, rfl⟩, ⟨_, rfl⟩, fun _ => rfl, logged_chainOf log⟩

/-- The ids of two payments of the agent `7`: 30 units by `deposit`, 100 units by `depositTo`. -/
def vaultId : Bytes32 := .paymentHash 8453 1 7 (.word 1) 30 (.word 0)

def routedId : Bytes32 := .paymentHash 8453 1 7 (.word 1) 100 (.word 2)

/-- The texts of these ids. -/
def mockText : B256Text where
  fromStr text :=
    if text = "0x3dacf06e3f7dd2abb8c4aba062ec61aaad8666aefd8a45e64333e698a5fb20c5" then .ok vaultId
    else if text = "0xe1ac232c89c7b21dfa84258c5d4cc16dc386c3cde8e59abebaa07347bbccd9f5" then .ok routedId
    else .error "invalid string length"
  lowerHex
    | .word n => "0x" ++ String.ofList (hexWord 64 n)
    | id =>
      if id = vaultId then "0x3dacf06e3f7dd2abb8c4aba062ec61aaad8666aefd8a45e64333e698a5fb20c5"
      else "0xe1ac232c89c7b21dfa84258c5d4cc16dc386c3cde8e59abebaa07347bbccd9f5"

def paid30 : List (Tx (State.GatewayCall Unit)) :=
  [.of 5 (.of 10 900) (.authorizeAgent 7 upTo100),
   .of 7 (.of 11 1000) (.deposit (.word 1) 30 1100 (.word 0))]

theorem status_vault_deposits_found :
    ∃ out d, run mockText mockCrates
        (nodeAt (chainOf mockVault (history (State.exec mockVault) deployed paid30))) mockConfig
        "0x3dacf06e3f7dd2abb8c4aba062ec61aaad8666aefd8a45e64333e698a5fb20c5" = .ok out ∧
      out.data = .found d ∧ d.agent = lowerHex 7 ∧ d.shareReceiver = lowerHex 5 ∧ d.amount = 30 := by
  have hgateway : mockCrates.addressFromStr mockConfig.gatewayAddress = .ok mockVault.self := rfl
  have hid : mockText.fromStr "0x3dacf06e3f7dd2abb8c4aba062ec61aaad8666aefd8a45e64333e698a5fb20c5" =
    .ok vaultId := rfl
  obtain ⟨-, out, hout, hfound, hfields⟩ := status_vault_deposits deploy_deployed
    (shows_nodeAt (history (State.exec mockVault) deployed paid30)) hgateway hid
  have hpaid : PaidIn mockVault deployed paid30 (NotRouted mockVault) vaultId 7 5 30 := by
    have hok : succeeds (State.exec mockVault (Lib.run (State.exec mockVault) deployed (paid30.take 1))
        (.of 7 (.of 11 1000) (.deposit (.word 1) 30 1100 (.word 0)))) = true := by decide
    obtain ⟨⟨s', r⟩, hx⟩ := succeeds_iff.mp hok
    exact ⟨_, _, [], s', r, _, rfl, hx, fun h => h, rfl, rfl, rfl, rfl, by decide, rfl⟩
  obtain ⟨d, hd⟩ := hfound.mpr ⟨_, _, _, hpaid⟩
  exact ⟨out, d, hout, hd, hfields d _ _ _ hd hpaid⟩

/-- The agent deposits 100 units through the router, and the lookup finds no payment. -/
theorem routed_not_found :
    let txs := [mockAuthorization mockPolicy, routedDeposit]
    deploy mockSetting.env 2 20 21 mockWorld = .ok mockGateway ∧
    PaidIn mockSetting.env mockGateway txs (fun _ => True) routedId 7 7 100 ∧
    ∃ out, run mockText mockCrates
        (nodeAt (chainOf mockSetting.env (history (State.exec mockSetting.env) mockGateway txs))) mockConfig
        "0xe1ac232c89c7b21dfa84258c5d4cc16dc386c3cde8e59abebaa07347bbccd9f5" = .ok out ∧
      out.data = .notFound
        ⟨"0xe1ac232c89c7b21dfa84258c5d4cc16dc386c3cde8e59abebaa07347bbccd9f5", "not_found"⟩ := by
  intro txs
  refine ⟨deploy_mockGateway, ?_, ?_⟩
  · have hok : succeeds (State.exec mockSetting.env
        (Lib.run (State.exec mockSetting.env) mockGateway (txs.take 1)) routedDeposit) = true := by decide
    obtain ⟨⟨s', r⟩, hx⟩ := succeeds_iff.mp hok
    exact ⟨_, _, [], s', r, _, rfl, hx, trivial, rfl, rfl, rfl, rfl, by decide, rfl⟩
  · have hgateway : mockCrates.addressFromStr mockConfig.gatewayAddress = .ok mockSetting.env.self := rfl
    have hid : mockText.fromStr "0xe1ac232c89c7b21dfa84258c5d4cc16dc386c3cde8e59abebaa07347bbccd9f5" =
      .ok routedId := rfl
    have hnil : ((chainOf mockSetting.env (history (State.exec mockSetting.env) mockGateway txs)).filter
        fun l => (depositFilter mockSetting.env.self routedId).Matches l) = [] := by decide
    exact (run_of_logs (shows_nodeAt _) hgateway hid).1 hnil

end Sample

end RobotMoney.Client.Status
