import RobotMoney.Client.Nonce

/-!
# The audit trail of a signature

A deposit or a withdrawal that signs leaves one record in the audit log, with the hash of the transaction if the
node has accepted it, but for two ways out: a receipt whose event is found and cannot be decoded ends the command
without a record, and where the node accepts the transaction and its answer is lost, the record of the broadcast
that failed is without the hash (`signature_audited_iff`).

What a finished command has asked and been answered is its trace, and what matters of it are the signatures, the
records, the transactions that are sent, with what is answered, and the receipts.  Whether the node has accepted a
transaction, and under which hash, is not in a trace: `accepted` is any such function.  The stages before the
signature have none of these and either go on or end; the last stage has one record, with the hash that was
answered, or none, and then a receipt that is undecodable (`Settled`).
-/

namespace RobotMoney.Client.Commands

open RobotMoney.Lib Program
open RobotMoney.Gateway (Bytes32)

/-! ### What a trace shows -/

def signed : Exchange → Option (List UInt8)
  | ⟨.signEip1559Hash _, a⟩ => a.toOption
  | _ => none

def recorded : Exchange → Option AuditRecord
  | ⟨.recordAudit rec, _⟩ => some rec
  | _ => none

def sent : Exchange → Option (SignedTx × Result ℕ)
  | ⟨.sendRawTransaction raw, a⟩ => some (raw, a)
  | _ => none

def received : Exchange → Option TransactionReceipt
  | ⟨.transactionReceipt _, a⟩ => a.toOption.join
  | _ => none

/-- Nothing of that. -/
structure Quiet (x : Exchange) : Prop where
  signed : signed x = none
  recorded : recorded x = none
  sent : sent x = none
  received : received x = none

/-- There is one record, and it has the hash of the transaction if the node has accepted that. -/
def Audited (accepted : SignedTx → Option ℕ) (t : List Exchange) : Prop :=
  ∃ rec, t.filterMap recorded = [rec] ∧
    ∀ x ∈ t.filterMap sent, ∀ txHash, accepted x.1 = some txHash → rec.txHash = some txHash

/-- A transaction that the node has accepted is answered with its hash. -/
def Answered (accepted : SignedTx → Option ℕ) (t : List Exchange) : Prop :=
  ∀ x ∈ t.filterMap sent, ∀ txHash, accepted x.1 = some txHash → x.2 = .ok txHash

/-- The transaction succeeded, and the event of the gateway is there but does not decode. -/
def Undecodable (gateway : Address) (event : GatewayEvent) (receipt : TransactionReceipt) : Prop :=
  receipt.status = true ∧ ∃ log e,
    (receipt.logs.find? fun l => l.address = gateway ∧ l.topic0 = some event) = some log ∧ log.decoded = .error e

/-- A receipt that is undecodable arrives. -/
def ArrivesUndecodable (gateway : Address) (event : GatewayEvent) (t : List Exchange) : Prop :=
  ∃ receipt ∈ t.filterMap received, Undecodable gateway event receipt

section Stages

variable {accepted : SignedTx → Option ℕ} {gateway : Address} {event : GatewayEvent} {audit : AuditRecordBuilder}
  {c : Crates} {inv : Invocation} {t : List Exchange} {x : Exchange} {txHash : ℕ}

/-! ### Up to the signature -/

/-- A signature is audited, unless an answer with a hash is lost or an undecodable receipt arrives. -/
def Tallied (accepted : SignedTx → Option ℕ) (gateway : Address) (event : GatewayEvent) (t : List Exchange) :
    Prop :=
  t.filterMap signed ≠ [] →
    (Audited accepted t ↔ Answered accepted t ∧ ¬ ArrivesUndecodable gateway event t)

theorem tallied_unsigned (h : t.filterMap signed = []) : Tallied accepted gateway event t :=
  fun hsigned => absurd h hsigned

theorem tallied_quiet (hx : Quiet x) (ht : Tallied accepted gateway event t) :
    Tallied accepted gateway event (x :: t) := by
  unfold Tallied Audited Answered ArrivesUndecodable at *
  rwa [List.filterMap_cons_none hx.signed, List.filterMap_cons_none hx.recorded,
    List.filterMap_cons_none hx.sent, List.filterMap_cons_none hx.received]

theorem tallied_ask {q : Query} {k : q.Answer → Command} (hq : ∀ a, Quiet ⟨q, a⟩)
    (hk : ∀ a, (k a).Traces (Tallied accepted gateway event)) :
    Traces (Tallied accepted gateway event) (.ask q k : Command) :=
  traces_ask fun a => (hk a).imp fun _ ht => tallied_quiet (hq a) ht

theorem tallied_refuse {decision : AuditDecision} {e : Refusal} :
    (refuse audit decision e).Traces (Tallied accepted gateway event) :=
  traces_ask fun _ => traces_done (tallied_unsigned rfl)

theorem tallied_stagewise : Stagewise (Traces (Tallied accepted gateway event)) where
  startupFail := traces_done (tallied_unsigned rfl)
  refused := traces_done (tallied_unsigned rfl)
  refuse _ := tallied_refuse
  ask {q} _ hq hk := by
    cases q with
    | systemTime | readKeystore | createDirAll | openFile | replayOpen | buildRuntime | newClient | readChain
    | feeHistory | sleep => exact tallied_ask (fun _ => ⟨rfl, rfl, rfl, rfl⟩) hk
    | tryLockExclusive | recordAudit | replayLookup | replayInsert | transactionCount | signEip1559Hash
    | sendRawTransaction | transactionReceipt => exact hq.elim

/-! ### After the broadcast -/

/-- What a command has done after the node has answered with the hash: one record, with the hash, or none, and
then an undecodable receipt has arrived. -/
structure Settled (gateway : Address) (event : GatewayEvent) (txHash : ℕ) (t : List Exchange) : Prop where
  sent : t.filterMap sent = []
  recorded : (∃ rec, t.filterMap recorded = [rec] ∧ rec.txHash = some txHash ∧
      ¬ ArrivesUndecodable gateway event t) ∨
    (t.filterMap recorded = [] ∧ ArrivesUndecodable gateway event t)

/-- The receipt, if there is one, decodes. -/
theorem not_arrives (h : ∀ receipt ∈ t.filterMap received, ¬ Undecodable gateway event receipt) :
    ¬ ArrivesUndecodable gateway event t := fun ⟨receipt, hmem, hbad⟩ => h receipt hmem hbad

theorem Settled.quiet (hx : Quiet x) (h : Settled gateway event txHash t) :
    Settled gateway event txHash (x :: t) := by
  obtain ⟨hsent, hrecorded⟩ := h
  unfold ArrivesUndecodable at hrecorded
  refine ⟨?_, ?_⟩
  · rwa [List.filterMap_cons_none hx.sent]
  · unfold ArrivesUndecodable
    rwa [List.filterMap_cons_none hx.recorded, List.filterMap_cons_none hx.received]

theorem waitForReceiptWith_traces {n : ℕ} {k : Result TransactionReceipt → Command}
    (herr : ∀ e, (k (.error e)).Traces (Settled gateway event txHash))
    (hok : ∀ receipt, (k (.ok receipt)).Traces fun t =>
      Settled gateway event txHash (⟨.transactionReceipt txHash, .ok (some receipt)⟩ :: t)) :
    (waitForReceiptWith txHash k n).Traces (Settled gateway event txHash) := by
  induction n with
  | zero => exact herr _
  | succ n ih =>
    refine traces_ask ?_
    rintro (e | _ | receipt)
    · exact (herr e).imp fun t ht => ht.quiet ⟨rfl, rfl, rfl, rfl⟩
    · refine traces_ask fun a => ih.imp fun t ht => ?_
      exact (ht.quiet ⟨rfl, rfl, rfl, rfl⟩).quiet ⟨rfl, rfl, rfl, rfl⟩
    · exact hok receipt

/-- A record with the hash, after a receipt that decodes. -/
theorem settled_of_decodes {receipt : TransactionReceipt} {rec : AuditRecord}
    {a : Query.Answer (.recordAudit rec)} (haudit : rec.txHash = some txHash)
    (hfine : ¬ Undecodable gateway event receipt) :
    Settled gateway event txHash [⟨.transactionReceipt txHash, .ok (some receipt)⟩, ⟨.recordAudit rec, a⟩] := by
  refine ⟨rfl, .inl ⟨rec, rfl, haudit, not_arrives ?_⟩⟩
  intro r hmem
  obtain rfl : r = receipt := List.mem_singleton.mp hmem
  exact hfine

theorem settle_traces {receiptTimeoutSecs : ℕ} {missing : Refusal} (haudit : audit.txHash = some txHash) :
    (settle audit txHash event missing receiptTimeoutSecs).Traces (Settled audit.gateway event txHash) := by
  refine waitForReceiptWith_traces ?_ ?_
  · intro e
    refine traces_ask fun _ => traces_done ⟨rfl, .inl ⟨_, rfl, haudit, ?_⟩⟩
    exact not_arrives fun receipt hmem => by cases hmem
  · intro receipt
    dsimp only
    split
    · next hstatus =>
      refine traces_ask fun _ => traces_done (settled_of_decodes haudit ?_)
      intro hbad
      rw [hbad.1] at hstatus
      cases hstatus
    · next hstatus =>
      split
      · next hmissing =>
        refine traces_ask fun _ => traces_done (settled_of_decodes haudit ?_)
        rintro ⟨-, log, e, hfound, -⟩
        rw [hmissing] at hfound
        cases hfound
      · next log hfound =>
        split
        · next e hdecoded =>
          refine traces_done ⟨rfl, .inr ⟨rfl, receipt, List.mem_singleton_self _, ?_, log, e, hfound, hdecoded⟩⟩
          simpa using hstatus
        · next paymentId hdecoded =>
          refine traces_ask fun _ => traces_done (settled_of_decodes haudit ?_)
          rintro ⟨-, log', e, hfound', hdecoded'⟩
          cases hfound.symm.trans hfound'
          rw [hdecoded] at hdecoded'
          cases hdecoded'

/-- The signature and the broadcast; before it there is no hash in the record. -/
theorem transmit_traces {fees : FeeBid} {input : Calldata} {k : ℕ → Command} (haudit : audit.txHash = none)
    (hk : ∀ txHash, (k txHash).Traces (Settled gateway event txHash)) :
    (transmit audit inv fees input k).Traces (Tallied accepted gateway event) := by
  refine tallied_ask (fun _ => ⟨rfl, rfl, rfl, rfl⟩) ?_
  rintro (e | nonce)
  · exact tallied_stagewise.startupFail
  refine traces_ask ?_
  rintro (e | signature)
  · exact traces_done (tallied_unsigned rfl)
  refine traces_ask ?_
  rintro (e | txHash)
  · -- the record is without a hash, which is right if the node has not accepted the transaction
    refine traces_ask fun _ => traces_done fun _ => ?_
    constructor
    · rintro ⟨rec, hrec, hhash⟩
      cases hrec
      refine ⟨?_, not_arrives fun receipt hmem => by cases hmem⟩
      intro x hx txHash haccepted
      have hlost := hhash x hx txHash haccepted
      rw [AuditRecordBuilder.build, haudit] at hlost
      cases hlost
    · rintro ⟨hanswered, -⟩
      refine ⟨_, rfl, ?_⟩
      intro x hx txHash haccepted
      have hok := hanswered x hx txHash haccepted
      obtain rfl := List.mem_singleton.mp hx
      cases hok
  · refine (hk txHash).imp fun t ht _ => ?_
    obtain ⟨hsent, hrecorded⟩ := ht
    show (∃ rec, t.filterMap recorded = [rec] ∧ ∀ x ∈ _ :: t.filterMap sent, _) ↔
      (∀ x ∈ _ :: t.filterMap sent, _) ∧ ¬ ArrivesUndecodable gateway event t
    rw [hsent]
    simp only [List.mem_singleton, forall_eq, Except.ok.injEq]
    rcases hrecorded with ⟨rec, hone, hhash, hfine⟩ | ⟨hnone, hbad⟩
    · simp only [hone, hhash, hfine, List.cons.injEq, and_true, exists_eq_left', Option.some.injEq,
        not_false_eq_true]
    · refine iff_of_false ?_ fun h => h.2 hbad
      rintro ⟨rec, hone, -⟩
      rw [hnone] at hone
      cases hone

/-! ### The two commands -/

theorem deposit_traces (hgateway : c.addressFromStr inv.cfg.gatewayAddress = .ok gateway) :
    (deposit c inv).Traces (Tallied accepted gateway .agentDeposit) := by
  have h : Stagewise (Traces (Tallied accepted gateway .agentDeposit)) := tallied_stagewise
  refine h.start ?_
  intro audit stateDir hstarted
  obtain rfl := Except.ok.inj (hgateway.symm.trans hstarted.gateway)
  refine h.acquire (fun hk => tallied_ask (fun _ => ⟨rfl, rfl, rfl, rfl⟩) hk) ?_
  refine h.lookup (fun hk => tallied_ask (fun _ => ⟨rfl, rfl, rfl, rfl⟩) hk) (fun _ => tallied_refuse) ?_
  refine h.connect (h.preflight (h.bidFees ?_))
  intro fees
  refine transmit_traces hstarted.txHash fun txHash => ?_
  refine traces_ask fun _ => (settle_traces ?_).imp fun t ht => ht.quiet ⟨rfl, rfl, rfl, rfl⟩
  rfl

theorem withdraw_traces (hgateway : c.addressFromStr inv.cfg.gatewayAddress = .ok gateway) (sourceVault : Address) :
    (withdraw c inv sourceVault).Traces (Tallied accepted gateway .agentWithdrawal) := by
  have h : Stagewise (Traces (Tallied accepted gateway .agentWithdrawal)) := tallied_stagewise
  refine h.start ?_
  intro audit stateDir hstarted
  obtain rfl := Except.ok.inj (hgateway.symm.trans hstarted.gateway)
  refine h.acquire (fun hk => tallied_ask (fun _ => ⟨rfl, rfl, rfl, rfl⟩) hk) ?_
  refine h.connect (h.preflight (h.preflight (h.bidFees ?_)))
  intro fees
  refine transmit_traces hstarted.txHash fun txHash => settle_traces ?_
  rfl

end Stages

/-- **The audit trail of a signature.**  A finished deposit or withdrawal that has signed has left exactly one
record, with the hash if the node has accepted the transaction, if and only if the hash of a transaction that the
node has accepted was also answered, and no receipt of success has arrived in which the event of the gateway does
not decode. -/
theorem signature_audited_iff (c : Crates) (inv : Invocation) (sourceVault : Address)
    (accepted : SignedTx → Option ℕ) {gateway : Address}
    (hgateway : c.addressFromStr inv.cfg.gatewayAddress = .ok gateway) :
    (∀ t o, (deposit c inv).Runs t o → t.filterMap signed ≠ [] →
      (Audited accepted t ↔ Answered accepted t ∧ ¬ ArrivesUndecodable gateway .agentDeposit t)) ∧
    ∀ t o, (withdraw c inv sourceVault).Runs t o → t.filterMap signed ≠ [] →
      (Audited accepted t ↔ Answered accepted t ∧ ¬ ArrivesUndecodable gateway .agentWithdrawal t) :=
  ⟨fun t o hrun => deposit_traces hgateway t o hrun, fun t o hrun => withdraw_traces hgateway sourceVault t o hrun⟩

/-- The receipt of a deposit of the gateway `1`, with what decoding its event gives. -/
def mockReceipt (decoded : Except String Bytes32) : TransactionReceipt :=
  ⟨true, [⟨1, some .agentDeposit, decoded⟩]⟩

/-- The audit record of a deposit, before it is sent. -/
def mockAudit : AuditRecordBuilder where
  agent := 4
  requestType := "deposit"
  orderId := .word 7
  idempotencyKey := .word 7
  amount := 100
  deadline := 960
  gateway := 1
  chainId := 31337
  txHash := none
  paymentId := none

/-- The deposit once it is sent. -/
def mockSettle (txHash : ℕ) : Command :=
  .ask (.replayInsert "/var/lib/rmpc" (entryOf mockAudit (.paymentHash 31337 1 4 (.word 7) 100 (.word 7)) txHash))
    fun _ => settle { mockAudit with txHash := some txHash } txHash .agentDeposit
      (.errAgentDepositLogMissing txHash) 60

/-- The deposit from its nonce on. -/
def mockTransmit : Command :=
  transmit mockAudit mockInvocation ⟨21 * oneGwei, oneGwei⟩ (.deposit (.word 7) 100 960 (.word 7)) mockSettle

/-- The node accepts every transaction, under the hash 9. -/
def accepting : SignedTx → Option ℕ := fun _ => some 9

/-- The deposit up to its nonce. -/
theorem mockDeposit_runs {t : List Exchange} {o : Outcome} (h : mockTransmit.Runs t o) :
    ∃ t', (deposit mockCrates mockInvocation).Runs t' o ∧ t'.filterMap signed = t.filterMap signed ∧
      t'.filterMap recorded = t.filterMap recorded ∧ t'.filterMap sent = t.filterMap sent ∧
      t'.filterMap received = t.filterMap received := by
  refine exists_runs_ask (900 : ℕ) (exists_runs_ask (.ok ()) ?_)
  -- the lock and the replay cache
  refine exists_runs_ask (.ok ()) (exists_runs_ask (.ok ()) (exists_runs_ask (.ok ()) ?_))
  refine exists_runs_ask (.ok ()) (exists_runs_ask (.ok none) ?_)
  refine exists_runs_ask (.ok ()) (exists_runs_ask (.ok ()) ?_)
  refine exists_runs_ask (mockRpc, 900) (exists_runs_ask (.ok ⟨[10 * oneGwei], none⟩) ?_)
  exact ⟨t, h, rfl, rfl, rfl, rfl⟩

/-- A receipt whose event decodes: there is one record, with the hash. -/
theorem signature_audited_iff_decoded : ∃ t, (deposit mockCrates mockInvocation).Runs t (.ok (.word 5) 9) ∧
    t.filterMap signed ≠ [] ∧ Audited accepting t := by
  have hsent : ∃ t, mockTransmit.Runs t (.ok (.word 5) 9) ∧ t.filterMap signed = [[]] ∧
      t.filterMap sent = [(mockTx 0, .ok 9)] ∧ t.filterMap received = [mockReceipt (.ok (.word 5))] := by
    refine exists_runs_ask (.ok 0) (exists_runs_ask (.ok []) (exists_runs_ask (.ok 9) ?_))
    refine exists_runs_ask (.ok ()) (exists_runs_ask (.ok (some (mockReceipt (.ok (.word 5))))) ?_)
    exact exists_runs_ask () ⟨[], .done, rfl, rfl, rfl⟩
  obtain ⟨t₀, hrun₀, hsigned₀, hsent₀, hreceived₀⟩ := hsent
  obtain ⟨t, hrun, hsigned, -, hsent, hreceived⟩ := mockDeposit_runs hrun₀
  have hne : t.filterMap signed ≠ [] := by simp [hsigned, hsigned₀]
  refine ⟨t, hrun, hne,
    ((signature_audited_iff mockCrates mockInvocation 0 accepting rfl).1 t _ hrun hne).mpr ⟨?_, ?_⟩⟩
  · intro x hx txHash haccepted
    rw [hsent, hsent₀] at hx
    obtain rfl := List.mem_singleton.mp hx
    cases haccepted
    rfl
  · rintro ⟨receipt, hmem, -, log, e, hfound, hdecoded⟩
    rw [hreceived, hreceived₀] at hmem
    obtain rfl : receipt = mockReceipt (.ok (.word 5)) := List.mem_singleton.mp hmem
    cases hfound
    cases hdecoded

/-- A receipt whose event does not: the transaction is signed and accepted, and nothing is recorded.  And an
answer that is lost: the transaction is accepted, and the one record is without its hash. -/
theorem signature_unaudited :
    (∃ t, (deposit mockCrates mockInvocation).Runs t .startupFail ∧ t.filterMap signed = [[]] ∧
      t.filterMap sent = [(mockTx 0, .ok 9)] ∧ t.filterMap recorded = []) ∧
    ∃ t o rec, (deposit mockCrates mockInvocation).Runs t o ∧ t.filterMap signed = [[]] ∧
      t.filterMap sent = [(mockTx 0, .error (.errRpcTransport "operation timed out"))] ∧
      t.filterMap recorded = [rec] ∧ accepting (mockTx 0) = some 9 ∧ rec.txHash = none := by
  constructor
  · have hsent : ∃ t, mockTransmit.Runs t .startupFail ∧ t.filterMap signed = [[]] ∧
        t.filterMap sent = [(mockTx 0, .ok 9)] ∧ t.filterMap recorded = [] := by
      refine exists_runs_ask (.ok 0) (exists_runs_ask (.ok []) (exists_runs_ask (.ok 9) ?_))
      refine exists_runs_ask (.ok ()) (exists_runs_ask (.ok (some (mockReceipt (.error "buffer overrun")))) ?_)
      exact ⟨[], .done, rfl, rfl, rfl⟩
    obtain ⟨t₀, hrun₀, hsigned₀, hsent₀, hrecorded₀⟩ := hsent
    obtain ⟨t, hrun, hsigned, hrecorded, hsent, -⟩ := mockDeposit_runs hrun₀
    exact ⟨t, hrun, hsigned.trans hsigned₀, hsent.trans hsent₀, hrecorded.trans hrecorded₀⟩
  · have hsent : ∃ t, mockTransmit.Runs t (.refused (.rmpc (.errRpcTransport "operation timed out"))) ∧
        t.filterMap signed = [[]] ∧
        t.filterMap sent = [(mockTx 0, .error (.errRpcTransport "operation timed out"))] ∧
        ∃ rec, t.filterMap recorded = [rec] ∧ rec.txHash = none := by
      refine exists_runs_ask (.ok 0) (exists_runs_ask (.ok []) ?_)
      refine exists_runs_ask (.error (.errRpcTransport "operation timed out")) ?_
      exact exists_runs_ask () ⟨[], .done, rfl, rfl, _, rfl, rfl⟩
    obtain ⟨t₀, hrun₀, hsigned₀, hsent₀, rec, hrecorded₀, hhash⟩ := hsent
    obtain ⟨t, hrun, hsigned, hrecorded, hsent, -⟩ := mockDeposit_runs hrun₀
    exact ⟨t, _, rec, hrun, hsigned.trans hsigned₀, hsent.trans hsent₀, hrecorded.trans hrecorded₀, rfl, hhash⟩

end RobotMoney.Client.Commands
