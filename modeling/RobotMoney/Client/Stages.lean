import RobotMoney.Client.Commands

/-!
# What goes through the stages of a command

A deposit and a withdrawal have their stages in common, and most of what a stage does is the same for whatever
is shown of a command: it asks for the clock, a file or the chain, and goes on, refuses or ends.  So a property
of commands is shown of the questions that it is about, and of the rest once, here: `Stagewise` are the
properties that the other questions keep and that hold where a stage ends.
-/

namespace RobotMoney.Client.Commands

open RobotMoney.Lib
open RobotMoney.Gateway (Bytes32)

/-- A question and its answer. -/
abbrev Exchange : Type := Σ q : Query, q.Answer

/-- The questions of which nothing is signed, sent, locked, recorded or looked up. -/
def Query.Routine : Query → Prop
  | .systemTime | .readKeystore _ _ | .createDirAll _ | .openFile _ | .replayOpen _ | .buildRuntime => True
  | .newClient _ | .readChain | .feeHistory _ _ _ | .sleep _ => True
  | .tryLockExclusive _ | .recordAudit _ | .replayLookup _ _ | .replayInsert _ _ => False
  | .transactionCount _ _ | .signEip1559Hash _ | .sendRawTransaction _ | .transactionReceipt _ => False

/-- The refusal of a payment that is in the replay cache. -/
def Refusal.FromCache : Refusal → Prop
  | .errOrderIdAlreadySubmitted _ => True
  | _ => False

/-- A property of commands that goes through their stages. -/
structure Stagewise (M : Command → Prop) : Prop where
  startupFail : M (.done .startupFail)
  refused : ∀ {e : RmpcError}, M (.done (.refused (.rmpc e)))
  refuse : ∀ {audit : AuditRecordBuilder} {decision : AuditDecision} {e : Refusal}, ¬ e.FromCache →
    M (refuse audit decision e)
  ask : ∀ {q : Query} {k : q.Answer → Command}, q.Routine → (∀ a, M (k a)) → M (.ask q k)

/-- What a command has read when its start is over. -/
structure Started (c : Crates) (inv : Invocation) (audit : AuditRecordBuilder) (stateDir : String) : Prop where
  gateway : c.addressFromStr inv.cfg.gatewayAddress = .ok audit.gateway
  agent : audit.agent = inv.agent
  orderId : audit.orderId = inv.args.orderId
  idempotencyKey : audit.idempotencyKey = inv.args.key
  amount : audit.amount = inv.args.amount
  txHash : audit.txHash = none
  stateDir : resolveStateDir inv.cfg inv.stateDirVar = .ok stateDir

namespace Stagewise

variable {M : Command → Prop} {c : Crates} {inv : Invocation} {audit : AuditRecordBuilder} {stateDir : String}
  {k : Command}

theorem loadWithPassphrase (h : Stagewise M) {signer : SignerConfig} {passphrase : String}
    {k : Except SignerError Unit → Command} (hk : ∀ r, M (k r)) :
    M (loadWithPassphrase signer passphrase k) := by
  unfold Commands.loadWithPassphrase
  split
  · exact h.ask trivial hk
  · exact hk _

theorem start (h : Stagewise M) {requestType : String} {k : AuditRecordBuilder → String → Command}
    (hk : ∀ audit stateDir, Started c inv audit stateDir → M (k audit stateDir)) :
    M (start c inv requestType k) := by
  unfold Commands.start
  split
  · exact h.startupFail
  · next gateway hgateway =>
    refine h.ask trivial ?_
    intro now
    split
    · exact h.refused
    · exact h.startupFail
    · refine h.loadWithPassphrase ?_
      intro r
      split
      · exact h.refused
      · exact h.startupFail
      · split
        · exact h.startupFail
        · next hdir => exact hk _ _ ⟨hgateway, rfl, rfl, rfl, rfl, rfl, hdir⟩

theorem acquire (h : Stagewise M)
    (hlock : ∀ {path : String} {k : Except IoError Unit → Command}, (∀ a, M (k a)) →
      M (.ask (.tryLockExclusive path) k))
    (hk : M k) : M (acquire audit stateDir k) := by
  refine h.ask trivial ?_
  rintro (e | _)
  · exact h.startupFail
  refine h.ask trivial ?_
  rintro (e | _)
  · exact h.startupFail
  refine hlock ?_
  rintro ((_ | e) | _)
  · exact h.refuse id
  · exact h.startupFail
  · exact hk

theorem lookup (h : Stagewise M) {paymentId : Bytes32}
    (hlookup : ∀ {k : Except String (Option ℕ) → Command}, (∀ a, M (k a)) →
      M (.ask (.replayLookup stateDir paymentId) k))
    (hhit : ∀ priorTx, M (Commands.refuse audit .refused (.errOrderIdAlreadySubmitted priorTx)))
    (hk : M k) : M (lookup audit stateDir paymentId k) := by
  refine h.ask trivial ?_
  rintro (e | _)
  · exact h.startupFail
  refine hlookup ?_
  rintro (e | _ | priorTx)
  · exact h.startupFail
  · exact hk
  · exact hhit priorTx

theorem connect (h : Stagewise M) {cfg : Config} (hk : M k) : M (connect cfg k) := by
  refine h.ask trivial ?_
  rintro (e | _)
  · exact h.startupFail
  refine h.ask trivial ?_
  rintro (e | _)
  · exact h.startupFail
  · exact hk

theorem preflight (h : Stagewise M) {ρ : Type} {check : Rpc → ℕ → Result ρ} (hk : M k) :
    M (preflight audit (fun rpc now => (check rpc now).mapError Refusal.rmpc) k) := by
  refine h.ask trivial ?_
  rintro ⟨rpc, now⟩
  cases hcheck : check rpc now with
  | error e =>
    simp only [hcheck]
    exact h.refuse id
  | ok r =>
    simp only [hcheck]
    exact hk

theorem bidFees (h : Stagewise M) {cfg : Config} {feeCapWei : Option ℕ} {k : FeeBid → Command}
    (hk : ∀ fees, M (k fees)) : M (bidFees audit cfg feeCapWei k) := by
  refine h.ask trivial ?_
  rintro (e | fh)
  · exact h.startupFail
  dsimp only
  split
  · exact h.refuse id
  · exact hk _

theorem waitForReceiptWith (h : Stagewise M) {txHash n : ℕ} {k : Result TransactionReceipt → Command}
    (hreceipt : ∀ {k : Result (Option TransactionReceipt) → Command}, (∀ a, M (k a)) →
      M (.ask (.transactionReceipt txHash) k))
    (hk : ∀ r, M (k r)) : M (waitForReceiptWith txHash k n) := by
  induction n with
  | zero => exact hk _
  | succ n ih =>
    refine hreceipt ?_
    rintro (e | _ | receipt)
    · exact hk _
    · exact h.ask trivial fun _ => ih
    · exact hk _

theorem settle (h : Stagewise M) {txHash receiptTimeoutSecs : ℕ} {event : GatewayEvent} {missing : Refusal}
    (hreceipt : ∀ {k : Result (Option TransactionReceipt) → Command}, (∀ a, M (k a)) →
      M (.ask (.transactionReceipt txHash) k))
    (hmissing : ¬ missing.FromCache)
    (hok : ∀ rec paymentId, M (.ask (.recordAudit rec) fun _ => .done (.ok paymentId txHash))) :
    M (settle audit txHash event missing receiptTimeoutSecs) := by
  refine h.waitForReceiptWith hreceipt ?_
  rintro (e | receipt)
  · exact h.refuse id
  dsimp only
  split
  · exact h.refuse id
  split
  · exact h.refuse hmissing
  split
  · exact h.startupFail
  · exact hok _ _

end Stagewise

end RobotMoney.Client.Commands
