import RobotMoney.Client.Fees
import RobotMoney.Lib.Hex
import RobotMoney.Lib.Program

/-!
# The commands that sign

`commands/deposit.rs` and `commands/withdraw.rs` as programs: every access to a file, to the clock or to the
node is a question, in the order of the source, and whatever the answers are, the program says what is asked
next and what the command exits with.  The two commands go through the same stages, each of which is given
what comes after it: the start, the lock of the agent, the connection, the preflight, the fees, the nonce with
the signature and the broadcast, the receipt.

A command starts here when its configuration and its arguments are read.  What it prints and its diagnostic
log are left out; its audit log is not.
-/

namespace RobotMoney.Client.Commands

open RobotMoney.Lib
open RobotMoney.Gateway (Bytes32)

/-! ### Refusals -/

/-- What a command refuses with: the variants of `RmpcError`. -/
inductive Refusal where
  | rmpc (e : RmpcError)
  | errOrderIdAlreadySubmitted (txHash : ℕ)
  | errTxReverted (txHash : ℕ)
  | errAgentDepositLogMissing (txHash : ℕ)
  | errAgentWithdrawLogMissing (txHash : ℕ)
  deriving DecidableEq

/-- The exit codes 0, 3 and 2; a success has the payment id of the event and the hash. -/
inductive Outcome where
  | ok (paymentId : Bytes32) (txHash : ℕ)
  | startupFail
  | refused (e : Refusal)
  deriving DecidableEq

inductive SignerError where
  | errSoftwareSignerDisallowed
  | errKeystoreIo (message : String)
  | errKeystoreFormat (message : String)
  | errKeystoreDecrypt
  | errPassphrase (message : String)
  | errSign (message : String)
  deriving DecidableEq

/-- `std::io::Error`, by the kind that matters. -/
inductive IoError where
  | wouldBlock
  | other (message : String)
  deriving DecidableEq

/-! ### The arguments and the replay cache -/

/-- The arguments of `rmpc deposit`. -/
structure Args where
  amount : ℕ
  orderId : Bytes32
  idempotencyKey : Option Bytes32
  deadlineSecs : ℕ

/-- The key that is used: the order id if there is none. -/
def Args.key (args : Args) : Bytes32 := args.idempotencyKey.getD args.orderId

/-- `MAX_DEADLINE_SKEW_SECS` -/
def maxDeadlineSkewSecs : ℕ := 600

/-- `compute_payment_id`, the hash that the gateway computes. -/
def computePaymentId (chainId : ℕ) (gateway agent : Address) (orderId : Bytes32) (amount : ℕ)
    (idempotencyKey : Bytes32) : Bytes32 :=
  .paymentHash chainId gateway agent orderId amount idempotencyKey

/-- An entry of the replay cache. -/
structure Entry where
  paymentId : Bytes32
  orderId : Bytes32
  idempotencyKey : Bytes32
  deadline : ℕ
  txHash : ℕ

/-! ### Transactions -/

/-- The calls of the gateway. -/
inductive Calldata where
  | deposit (orderId : Bytes32) (amount deadline : ℕ) (idempotencyKey : Bytes32)
  | withdraw (orderId : Bytes32) (shares : ℕ) (sourceVault : Address) (deadline : ℕ)
      (idempotencyKey : Bytes32)
  deriving DecidableEq

structure TxEip1559 where
  chainId : ℕ
  nonce : ℕ
  target : Address
  gasLimit : ℕ
  fees : FeeBid
  value : ℕ
  input : Calldata
  deriving DecidableEq

/-- What `encode_signed` encodes. -/
structure SignedTx where
  tx : TxEip1559
  signature : List UInt8
  deriving DecidableEq

/-- The nonce that it carries. -/
def SignedTx.nonce (raw : SignedTx) : ℕ := raw.tx.nonce

/-- The events that the commands look for. -/
inductive GatewayEvent where
  | agentDeposit
  | agentWithdrawal
  deriving DecidableEq

/-- A log of a receipt: where it is from, which event the first topic is of, and the payment id that decoding
it gives. -/
structure ReceiptLog where
  address : Address
  topic0 : Option GatewayEvent
  decoded : Except String Bytes32

structure TransactionReceipt where
  status : Bool
  logs : List ReceiptLog

/-! ### The audit log -/

inductive AuditDecision where
  | signed
  | refused
  | reverted
  | broadcastFailed
  deriving DecidableEq

structure AuditRecordBuilder where
  agent : Address
  requestType : String
  orderId : Bytes32
  idempotencyKey : Bytes32
  amount : ℕ
  deadline : ℕ
  gateway : Address
  chainId : ℕ
  txHash : Option ℕ
  paymentId : Option Bytes32
  deriving DecidableEq

structure AuditRecord extends AuditRecordBuilder where
  decision : AuditDecision
  rejectionReason : Option Refusal
  deriving DecidableEq

def AuditRecordBuilder.build (audit : AuditRecordBuilder) (decision : AuditDecision)
    (rejectionReason : Option Refusal) : AuditRecord :=
  { audit with decision, rejectionReason }

/-! ### Questions -/

inductive Query where
  /-- `SystemTime::now()` -/
  | systemTime
  /-- the keystore at `path` is read and decrypted -/
  | readKeystore (path passphrase : String)
  | createDirAll (dir : String)
  /-- a file is opened, and created if it is not there -/
  | openFile (path : String)
  | tryLockExclusive (path : String)
  | recordAudit (rec : AuditRecord)
  /-- `ReplayCache::open`, `lookup` and `insert` -/
  | replayOpen (stateDir : String)
  | replayLookup (stateDir : String) (paymentId : Bytes32)
  | replayInsert (stateDir : String) (entry : Entry)
  | buildRuntime
  /-- `RpcClient::new` -/
  | newClient (url : String)
  /-- the calls of a preflight, and the clock -/
  | readChain
  | feeHistory (blockCount : ℕ) (newestBlock : String) (rewardPercentile : ℕ)
  | transactionCount (address : Address) (tag : String)
  | signEip1559Hash (tx : TxEip1559)
  | sendRawTransaction (raw : SignedTx)
  | transactionReceipt (txHash : ℕ)
  | sleep (secs : ℕ)

/-- What each is answered with. -/
abbrev Query.Answer : Query → Type
  | .systemTime => ℕ
  | .readKeystore _ _ => Except SignerError Unit
  | .createDirAll _ => Except IoError Unit
  | .openFile _ => Except IoError Unit
  | .tryLockExclusive _ => Except IoError Unit
  | .recordAudit _ => Unit
  | .replayOpen _ => Except IoError Unit
  | .replayLookup _ _ => Except String (Option ℕ)
  | .replayInsert _ _ => Except String Unit
  | .buildRuntime => Except IoError Unit
  | .newClient _ => Result Unit
  | .readChain => Rpc × ℕ
  | .feeHistory _ _ _ => Result FeeHistory
  | .transactionCount _ _ => Result ℕ
  | .signEip1559Hash _ => Except SignerError (List UInt8)
  | .sendRawTransaction _ => Result ℕ
  | .transactionReceipt _ => Result (Option TransactionReceipt)
  | .sleep _ => Unit

/-- A command that runs. -/
abbrev Command : Type := Program Query Query.Answer Outcome

/-! ### The stages -/

/-- What a command is started with: the configuration, the two variables of the environment, and the
arguments; `agent` is the address of the key in the keystore.  A withdrawal has its shares as the amount. -/
structure Invocation where
  cfg : Config
  stateDirVar : Option String
  passphraseVar : Option String
  agent : Address
  args : Args
  receiptTimeoutSecs : ℕ
  gasLimit : ℕ
  feeCapWei : Option ℕ

/-- `resolve_state_dir`, with `RMPC_STATE_DIR` -/
def resolveStateDir (cfg : Config) (stateDirVar : Option String) : Result String :=
  match stateDirVar.filter (· ≠ ""), cfg.stateDir with
  | some dir, _ => .ok dir
  | none, some dir => .ok dir
  | none, none => .error (.errConfig
      "state_dir is not set: provide $RMPC_STATE_DIR or `state_dir = \"...\"` in the config TOML")

/-- `Path::join`, of a file name -/
def joinPath (dir name : String) : String :=
  if dir = "" ∨ dir.toList.getLast? = some '/' then dir ++ name else dir ++ "/" ++ name

/-- `lock_path`: the address in lower case, without `0x` -/
def lockPath (stateDir : String) (address : Address) : String :=
  joinPath stateDir ("agent-" ++ String.ofList (hexWord 40 address.val) ++ ".lock")

/-- `require_production_grade_for_write`, for the software signer: production is Base. -/
def requireProductionGradeForWrite (chainId : ℕ) : Result Unit :=
  refuseIf (chainId = 8453) .errProductionSignerRequired

/-- A refusal that is audited. -/
def refuse (audit : AuditRecordBuilder) (decision : AuditDecision) (e : Refusal) : Command :=
  .ask (.recordAudit (audit.build decision (some e))) fun _ => .done (.refused e)

/-- `SoftwareSigner::load_with_passphrase` -/
def loadWithPassphrase (signer : SignerConfig) (passphrase : String)
    (k : Except SignerError Unit → Command) : Command :=
  if signer.allowSoftwareFallback then .ask (.readKeystore signer.keystorePath passphrase) k
  else k (.error .errSoftwareSignerDisallowed)

/-- `now.saturating_add(deadline_secs)`, of `u64` -/
def deadlineAt (now deadlineSecs : ℕ) : ℕ := min (now + min deadlineSecs maxDeadlineSkewSecs) (2 ^ 64 - 1)

/-- Up to the state directory. -/
def start (c : Crates) (inv : Invocation) (requestType : String)
    (k : AuditRecordBuilder → (stateDir : String) → Command) : Command :=
  match c.addressFromStr inv.cfg.gatewayAddress with
  | .error _ => .done .startupFail
  | .ok gateway => .ask .systemTime fun now =>
    match requireProductionGradeForWrite inv.cfg.chainId, inv.passphraseVar with
    | .error e, _ => .done (.refused (.rmpc e))
    | .ok (), none => .done .startupFail
    | .ok (), some passphrase => loadWithPassphrase inv.cfg.signer passphrase fun
      | .error .errSoftwareSignerDisallowed => .done (.refused (.rmpc .errSoftwareSignerDisallowed))
      | .error _ => .done .startupFail
      | .ok () =>
        match resolveStateDir inv.cfg inv.stateDirVar with
        | .error _ => .done .startupFail
        | .ok stateDir => k
            { agent := inv.agent
              requestType
              orderId := inv.args.orderId
              idempotencyKey := inv.args.key
              amount := inv.args.amount
              deadline := deadlineAt now inv.args.deadlineSecs
              gateway
              chainId := inv.cfg.chainId
              txHash := none
              paymentId := none } stateDir

/-- `AgentLock::acquire`; the lock is held until the command exits. -/
def acquire (audit : AuditRecordBuilder) (stateDir : String) (k : Command) : Command :=
  .ask (.createDirAll stateDir) fun
  | .error _ => .done .startupFail
  | .ok () => .ask (.openFile (lockPath stateDir audit.agent)) fun
    | .error _ => .done .startupFail
    | .ok () => .ask (.tryLockExclusive (lockPath stateDir audit.agent)) fun
      | .error .wouldBlock => refuse audit .refused (.rmpc .errConcurrentInvocation)
      | .error (.other _) => .done .startupFail
      | .ok () => k

/-- The replay cache of a deposit. -/
def lookup (audit : AuditRecordBuilder) (stateDir : String) (paymentId : Bytes32) (k : Command) : Command :=
  .ask (.replayOpen stateDir) fun
  | .error _ => .done .startupFail
  | .ok () => .ask (.replayLookup stateDir paymentId) fun
    | .error _ => .done .startupFail
    | .ok (some priorTx) => refuse audit .refused (.errOrderIdAlreadySubmitted priorTx)
    | .ok none => k

/-- The runtime and the client. -/
def connect (cfg : Config) (k : Command) : Command :=
  .ask .buildRuntime fun
  | .error _ => .done .startupFail
  | .ok () => .ask (.newClient cfg.rpcUrl) fun
    | .error _ => .done .startupFail
    | .ok () => k

/-- A preflight: a check of what the node answers, at a time. -/
def preflight {ρ : Type} (audit : AuditRecordBuilder) (check : Rpc → ℕ → Except Refusal ρ) (k : Command) :
    Command :=
  .ask .readChain fun (rpc, now) =>
    match check rpc now with
    | .error e => refuse audit .refused e
    | .ok _ => k

/-- The fees. -/
def bidFees (audit : AuditRecordBuilder) (cfg : Config) (feeCapWei : Option ℕ) (k : FeeBid → Command) :
    Command :=
  .ask (.feeHistory 5 "latest" 50) fun
  | .error _ => .done .startupFail
  | .ok fh =>
    match computeFees fh (cfg.effectiveMaxFeePerGasCap feeCapWei)
        (cfg.maxPriorityFeePerGasCap.getD u128Max) with
    | .error e => refuse audit .refused (.rmpc e)
    | .ok fees => k fees

/-- The nonce, the signature and the broadcast. -/
def transmit (audit : AuditRecordBuilder) (inv : Invocation) (fees : FeeBid) (input : Calldata)
    (k : (txHash : ℕ) → Command) : Command :=
  .ask (.transactionCount audit.agent "pending") fun
  | .error _ => .done .startupFail
  | .ok nonce =>
    let tx : TxEip1559 :=
      { chainId := inv.cfg.chainId
        nonce
        target := audit.gateway
        gasLimit := inv.gasLimit
        fees
        value := 0
        input }
    .ask (.signEip1559Hash tx) fun
    | .error _ => .done .startupFail
    | .ok signature => .ask (.sendRawTransaction ⟨tx, signature⟩) fun
      | .error e => refuse audit .broadcastFailed (.rmpc e)
      | .ok txHash => k txHash

/-- `wait_for_receipt_with`, at an interval of a second -/
def waitForReceiptWith (txHash : ℕ) (k : Result TransactionReceipt → Command) : (maxAttempts : ℕ) → Command
  | 0 => k (.error (.errRpcTransport
      ("timeout waiting for receipt of 0x" ++ String.ofList (hexWord 64 txHash))))
  | n + 1 => .ask (.transactionReceipt txHash) fun
    | .error e => k (.error e)
    | .ok (some receipt) => k (.ok receipt)
    | .ok none => .ask (.sleep 1) fun _ => waitForReceiptWith txHash k n

/-- `max_attempts.max(1)`, of `u32` -/
def maxAttempts (receiptTimeoutSecs : ℕ) : ℕ := max (min receiptTimeoutSecs (2 ^ 32 - 1)) 1

/-- The receipt and its event; `audit` has the hash of the transaction. -/
def settle (audit : AuditRecordBuilder) (txHash : ℕ) (event : GatewayEvent) (missing : Refusal)
    (receiptTimeoutSecs : ℕ) : Command :=
  waitForReceiptWith txHash (fun
  | .error e => refuse audit .refused (.rmpc e)
  | .ok receipt =>
    if receipt.status = false then refuse audit .reverted (.errTxReverted txHash)
    else
      match receipt.logs.find? fun l => l.address = audit.gateway ∧ l.topic0 = some event with
      | none => refuse audit .refused missing
      | some log =>
        match log.decoded with
        | .error _ => .done .startupFail
        | .ok paymentId =>
          .ask (.recordAudit ({ audit with paymentId := some paymentId }.build .signed none)) fun _ =>
            .done (.ok paymentId txHash)) (maxAttempts receiptTimeoutSecs)

/-! ### The two commands -/

/-- The entry of the replay cache for a payment. -/
def entryOf (audit : AuditRecordBuilder) (paymentId : Bytes32) (txHash : ℕ) : Entry :=
  ⟨paymentId, audit.orderId, audit.idempotencyKey, audit.deadline, txHash⟩

/-- `rmpc deposit` -/
def deposit (c : Crates) (inv : Invocation) : Command :=
  start c inv "deposit" fun audit stateDir =>
  let paymentId := computePaymentId inv.cfg.chainId audit.gateway audit.agent audit.orderId audit.amount
    audit.idempotencyKey
  acquire audit stateDir <|
  lookup audit stateDir paymentId <|
  connect inv.cfg <|
  preflight audit (fun rpc now =>
    (run c rpc inv.cfg now ⟨audit.agent, audit.amount⟩).mapError Refusal.rmpc) <|
  bidFees audit inv.cfg inv.feeCapWei fun fees =>
  transmit audit inv fees (.deposit audit.orderId audit.amount audit.deadline audit.idempotencyKey)
    fun txHash =>
  -- an entry that cannot be written is not a failure
  .ask (.replayInsert stateDir (entryOf audit paymentId txHash)) fun _ =>
  settle { audit with txHash := some txHash } txHash .agentDeposit (.errAgentDepositLogMissing txHash)
    inv.receiptTimeoutSecs

/-- `rmpc withdraw` -/
def withdraw (c : Crates) (inv : Invocation) (sourceVault : Address) : Command :=
  start c inv "withdraw" fun audit stateDir =>
  acquire audit stateDir <|
  connect inv.cfg <|
  preflight audit (fun rpc now =>
    (runWithdrawGateway c rpc inv.cfg now ⟨audit.agent, audit.amount⟩).mapError Refusal.rmpc) <|
  preflight audit (fun rpc _ =>
    (vaultPreflight rpc sourceVault audit.gateway audit.agent audit.amount).mapError Refusal.rmpc) <|
  bidFees audit inv.cfg inv.feeCapWei fun fees =>
  transmit audit inv fees
    (.withdraw audit.orderId audit.amount sourceVault audit.deadline audit.idempotencyKey) fun txHash =>
  settle { audit with txHash := some txHash } txHash .agentWithdrawal (.errAgentWithdrawLogMissing txHash)
    inv.receiptTimeoutSecs

end RobotMoney.Client.Commands
