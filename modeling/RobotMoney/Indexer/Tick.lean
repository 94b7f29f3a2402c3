import RobotMoney.Indexer.Db
import RobotMoney.Lib.Fallible

/-!
# One tick of the indexer

`run_once` and `run_inner`: look for a reorganization at the cursor, ingest the logs of the next range
of heights, take the snapshots, and record the run.

A tick is a sequence of calls, of the node and of the database.  `Session` says, for each call by its
number, what the node shows at that moment and whether the call fails; a call that fails does nothing,
and the calls before it are done.
-/

namespace RobotMoney.Indexer

open RobotMoney.Lib Fallible

/-- `CONFIRMATIONS` -/
def confirmations : ℕ := 5

/-- `SNAPSHOT_HEARTBEAT_BLOCKS` -/
def snapshotHeartbeatBlocks : ℕ := 7200

structure IndexerConfig where
  chainId : ℤ
  chainName : String
  rpcLabel : String
  gateway : Address
  vault : Address
  registry : Option Address
  routerGovernance : Option Address
  maxBlocksPerTick : ℕ
  endBlock : Option ℕ
  featureFlags : ℕ

/-- `is_enabled(INDEXER_MULTI_VAULT_EVENTS, feature_flags)` -/
def IndexerConfig.multiVaultEvents (cfg : IndexerConfig) : Bool := cfg.featureFlags.testBit 2

/-- `watched_addresses()` -/
def IndexerConfig.watchedAddresses (cfg : IndexerConfig) : List Address :=
  [cfg.gateway, cfg.vault] ++ (if cfg.multiVaultEvents then cfg.registry.toList else []) ++
    cfg.routerGovernance.toList

structure IndexerOutcome where
  runId : ℕ := 0
  fromBlock : ℕ := 0
  toBlock : Option ℕ := none
  lastIndexedBlock : Option ℕ := none
  rowsInserted : ℕ := 0
  reorgDetected : Bool := false
  error : Option IndexerError := none
  deriving DecidableEq

/-! ### Calls -/

/-- What the node shows at each call, and which calls fail. -/
structure Session where
  node : ℕ → Node
  fails : ℕ → Bool

/-- The database, and the number of calls made. -/
structure World where
  db : Db
  calls : ℕ

abbrev Tick (α : Type) : Type := Fallible World IndexerError α

/-- The world one call later. -/
def World.next (w : World) : World := { w with calls := w.calls + 1 }

/-- A call of the node. -/
def rpc {α : Type} (sess : Session) (f : Node → Except IndexerError α) : Tick α := fun w =>
  if sess.fails w.calls then (.error .rpc, w.next) else (f (sess.node w.calls), w.next)

/-- A call of the database. -/
def sql {α : Type} (sess : Session) (f : Statement α) : Tick α := fun w =>
  if sess.fails w.calls then (.error .db, w.next)
  else
    match f w.db with
    | .ok (a, db) => (.ok a, { w.next with db })
    | .error e => (.error e, w.next)

/-- A query. -/
def select {α : Type} (sess : Session) (f : Db → α) : Tick α := sql sess fun db => .ok (f db, db)

section

variable (sess : Session) (cfg : IndexerConfig)

/-! ### The node -/

/-- `block_number()` -/
def blockNumber : Tick ℕ := rpc sess fun node => .ok node.chain.tip

/-- `block_header(n)` -/
def blockHeader (n : ℕ) : Tick (Option BlockHeader) := rpc sess fun node => .ok (node.chain.header n)

/-- `tx_status(hash)` -/
def txStatus (txHash : ℕ) : Tick ℕ := rpc sess fun node => .ok (node.chain.txStatus txHash)

/-- The transactions of a block with the status of each fetched. -/
def withStatus : List Transaction → Tick (List Transaction)
  | [] => pure []
  | t :: ts => do
    let status ← txStatus sess t.txHash
    let rest ← withStatus ts
    pure ({ t with status } :: rest)

/-- `block_with_txs(n)` -/
def blockWithTxs (n : ℕ) : Tick (BlockHeader × List Transaction) := do
  let (header, txs) ← rpc sess fun node =>
    match node.chain.header n, node.chain.blocks[n]? with
    | some header, some b => .ok (header, b.txs)
    | _, _ => .error .rpc
  let txs ← withStatus sess txs
  pure (header, txs)

/-- The filter of `eth_getLogs`: watched addresses, and the topics of `all_topic0`. -/
def watches (e : LogEntry) : Bool :=
  e.log.address ∈ cfg.watchedAddresses ∧ e.log.data.topic ≠ none

/-- The logs that `eth_getLogs` returns. -/
def watchedLogs (chain : Chain) (src dst : ℕ) : List LogEntry :=
  (chain.logsBetween src dst).filter (watches cfg)

/-- `get_logs(from_block, to_block, addresses, topic0)` -/
def getLogs (src dst : ℕ) : Tick (List LogEntry) :=
  rpc sess fun node => .ok (watchedLogs cfg node.chain src dst)

/-- `call_u256(to, data, block)` -/
def callU256 (vault : Address) (view : View) (block : ℕ) : Tick ℕ :=
  rpc sess fun node =>
    match node.ethCall vault view block with
    | .reverted => .error .rpc
    | .short => .error .shortRead
    | .word value => .ok value

/-- `call_bool(to, data, block)` -/
def callBool (vault : Address) (view : View) (block : ℕ) : Tick Bool := do
  let v ← callU256 sess vault view block
  pure (v ≠ 0)

/-! ### Logs -/

/-- `n as i64` -/
def asI64 (n : ℕ) : ℤ := if n % 2 ^ 64 < 2 ^ 63 then (n % 2 ^ 64 : ℕ) else (n % 2 ^ 64 : ℕ) - 2 ^ 64

/-- `n.try_into().unwrap_or(i64::MAX)` -/
def clampI64 (n : ℕ) : ℕ := if n < 2 ^ 63 then n else 2 ^ 63 - 1

/-- The sum of words, saturating. -/
def saturatingSum (ns : List ℕ) : ℕ := ns.foldl (fun acc n => min (acc + n) (2 ^ 256 - 1)) 0

/-- The columns of a log that every row has. -/
def LogEntry.position (e : LogEntry) : LogPosition :=
  ⟨cfg.chainId, e.blockNumber, e.log.logIndex, e.log.txHash⟩

/-- The row that `handle_log` inserts for an event, if the event has one of its own. -/
def Event.record (e : LogEntry) : Event → Option Record
  | .agentDeposit paymentId orderId agent shareReceiver amount sharesMinted windowId =>
    some (.deposit
      { e.position cfg with
        paymentId, orderId, agent, shareReceiver, amount, sharesMinted
        windowId := asI64 windowId
        vault := some cfg.vault })
  | .agentDepositRouted paymentId orderId agent shareReceiver _ amount sharesPerLeg windowId =>
    some (.deposit
      { e.position cfg with
        paymentId, orderId, agent, shareReceiver, amount
        sharesMinted := saturatingSum sharesPerLeg
        windowId := asI64 windowId
        vault := none })
  | .agentAuthorized agent _ validUntil maxPerPayment maxPerWindow shareReceiver =>
    some (.policy
      { e.position cfg with
        agent
        revoked := false
        validUntil := some (asI64 validUntil)
        maxPerPayment := some maxPerPayment
        maxPerWindow := some maxPerWindow
        shareReceiver := some shareReceiver })
  | .agentRevoked agent _ =>
    some (.policy
      { e.position cfg with
        agent
        revoked := true
        validUntil := none
        maxPerPayment := none
        maxPerWindow := none
        shareReceiver := none })
  | .routerDeposit depositor vault amount shares weightBps =>
    -- the router does not know the payment; the transaction stands in for it
    some (.leg
      { e.position cfg with paymentId := e.log.txHash, depositor, vault, amount, shares, weightBps })
  | .proposalCreated proposalId proposer _ _ votingDeadline =>
    some (.proposal
      { e.position cfg with
        proposalId := clampI64 proposalId
        proposer
        description := ""
        createdAt := e.blockNumber
        deadlineBlock := asI64 votingDeadline })
  | .voteCast proposalId voter power _ =>
    some (.vote
      { e.position cfg with
        proposalId := clampI64 proposalId
        voter
        support := true
        weight := power })
  | .weightsApplied _ vaults bps =>
    some (.weight
      { e.position cfg with
        routerAddress := e.log.address
        vaultAddresses := vaults
        bpsValues := bps.map clampI64 })
  | _ => none

/-- The part of `handle_log` for the events without a row of their own. -/
def handleUpdate (e : LogEntry) : Event → Tick ℕ
  | .vaultRegistered vault name _ => do
    let _ ← sql sess (Db.upsertContract ⟨cfg.chainId, vault, "vault", none⟩)
    sql sess (Db.upsertVault
      { chainId := cfg.chainId
        vaultAddress := vault
        name
        riskLabel := "stable-yield"
        depositCap := 0
        status := 0
        registeredAt := e.blockNumber
        registeredBlock := e.blockNumber
        registeredTx := e.log.txHash })
  | .vaultStatusChanged vault newStatus timestamp =>
    sql sess (Db.updateVaultStatus cfg.chainId vault newStatus (clampI64 timestamp))
  | .proposalExecuted proposalId _ =>
    sql sess (Db.executeProposal cfg.chainId (clampI64 proposalId) e.blockNumber)
  | _ => pure 0

/-- Whether `handle_log` decodes the logs with a topic. -/
def Topic.decoded : Topic → Bool
  | .paused | .unpaused | .vaultAllocated | .vaultPulled | .vaultRebalanced | .vaultExitFeeCharged
  | .erc4626Deposit | .erc4626Withdraw => false
  | _ => true

/-- `handle_log` -/
def handleLog (e : LogEntry) : Tick ℕ :=
  match e.log.data with
  | .event ev =>
    match ev.record cfg e with
    | some x => sql sess (Db.insertRecord x)
    | none => handleUpdate sess cfg e ev
  | .raw t => if t.decoded then fail (.decode t) else pure 0
  | .foreign => pure 0

/-! ### Snapshots -/

/-- `snapshot_vault_address`: two reads must succeed, the other three have defaults. -/
def snapshotVaultAddress (vault : Address) (block : ℕ) : Tick ℕ := do
  let totalAssets ← callU256 sess vault .totalAssets block
  let totalSupply ← callU256 sess vault .totalSupply block
  let exitFeeBps ← (callU256 sess vault .exitFeeBps block).unwrapOr 0
  let tvlCap ← (callU256 sess vault .tvlCap block).unwrapOr 0
  let paused ← (callBool sess vault .paused block).unwrapOr false
  sql sess (Db.insertVaultSnapshot
    { chainId := cfg.chainId
      contract := vault
      blockNumber := block
      totalAssets, totalSupply
      exitFeeBps := if exitFeeBps < 2 ^ 63 then exitFeeBps else 0
      tvlCap, paused })

/-- The heartbeat of one vault. -/
def heartbeat (target : ℕ) (vault : Address) : Tick ℕ := do
  let last ← select sess (Db.lastSnapshot cfg.chainId vault)
  match last with
  | some prev =>
    if prev + snapshotHeartbeatBlocks ≤ target then snapshotVaultAddress sess cfg vault target
    else pure 0
  | none => snapshotVaultAddress sess cfg vault target

/-- The configured vault, and the other active ones. -/
def heartbeatVaults (active : List Address) : List Address :=
  cfg.vault :: (active.filter fun a => a ≠ cfg.vault).dedup

/-! ### Reorganizations -/

/-- Whether the hash stored at a height is the chain's. -/
def matchesAt (n : ℕ) : Tick Bool := do
  let stored ← select sess (Db.getBlockHash cfg.chainId n)
  match stored with
  | none => pure false
  | some stored => do
    let header ← blockHeader sess n
    pure (header.map (fun h => h.hash) = some stored)

/-- `walk_back_to_match`: the greatest height up to `n` whose stored hash is the chain's, or `-1`. -/
def walkBackToMatch : ℕ → Tick ℤ
  | 0 => do
    let found ← matchesAt sess cfg 0
    pure (if found then 0 else -1)
  | n + 1 => do
    let found ← matchesAt sess cfg (n + 1)
    if found then pure ((n + 1 : ℕ) : ℤ) else walkBackToMatch n

/-- The reorganization check of `run_inner`: the height to resume after, and whether rows were rolled
back. -/
def reorgCheck : Option ℕ → Tick (Option ℕ × Bool)
  | none => pure (none, false)
  | some li => do
    let stored ← select sess (Db.getBlockHash cfg.chainId li)
    match stored with
    | none => pure (some li, false)
    | some storedHash => do
      let header ← blockHeader sess li
      match header with
      | none => pure (some li, false)
      | some header =>
        if header.hash ≠ storedHash then do
          let root ← walkBackToMatch sess cfg li
          sql sess (Db.deleteAboveBlock cfg.chainId root)
          pure (if root < 0 then none else some root.toNat, true)
        else pure (some li, false)

/-! ### The range of a tick -/

/-- The block after the last one indexed. -/
def fromBlock (lastIndexed : Option ℕ) : ℕ :=
  match lastIndexed with
  | none => 0
  | some n => n + 1

/-- `a.saturating_add(b)` -/
def saturatingAdd64 (a b : ℕ) : ℕ := min (a + b) (2 ^ 64 - 1)

/-- `a - b` of a release build. -/
def wrappingSub64 (a b : ℕ) : ℕ := (a + (2 ^ 64 - b)) % 2 ^ 64

/-- The last block to ingest, if there is one. -/
def targetOf (src tip : ℕ) : Option ℕ :=
  let safeHead := tip - confirmations
  if safeHead < src then none
  else
    let target := match cfg.endBlock with
      | some e => min safeHead e
      | none => safeHead
    let target := min target (saturatingAdd64 src (wrappingSub64 cfg.maxBlocksPerTick 1))
    if target < src then none else some target

/-- The heights of a list of logs, ascending. -/
def blocksWithEvents (logs : List LogEntry) : List ℕ :=
  (logs.map fun e => e.blockNumber).dedup.insertionSort fun a b => a ≤ b

/-- The heights and contracts of a list of logs, ascending. -/
def eventBlocksPerContract (logs : List LogEntry) : List (ℕ × Address) :=
  (logs.map fun e => (e.blockNumber, e.log.address)).dedup.insertionSort fun a b =>
    a.1 < b.1 ∨ (a.1 = b.1 ∧ a.2.val ≤ b.2.val)

/-- A header as a row. -/
def blockRow (header : BlockHeader) (n : ℕ) : BlockRow :=
  ⟨cfg.chainId, n, header.hash, header.parentHash, header.timestamp⟩

/-- A transaction as a row. -/
def transactionRow (n : ℕ) (t : Transaction) : TransactionRow :=
  ⟨cfg.chainId, t.txHash, n, t.txIndex, t.src, t.dst, t.status⟩

/-- A block with events, and its transactions. -/
def ingestBlock (n : ℕ) : Tick ℕ := do
  let (header, txs) ← blockWithTxs sess n
  let r ← sql sess (Db.insertBlock (blockRow cfg header n))
  let rs ← total (fun t => sql sess (Db.insertTransaction (transactionRow cfg n t))) txs
  pure (r + rs)

/-- The header of the last block, stored whether or not it has events. -/
def ingestCursor (logs : List LogEntry) (target : ℕ) : Tick ℕ :=
  if target ∈ blocksWithEvents logs then pure 0
  else do
    let header ← blockHeader sess target
    match header with
    | none => pure 0
    | some header => sql sess (Db.insertBlock (blockRow cfg header target))

/-- The snapshot of a contract at a block with events: the vault's. -/
def snapshotAt (e : ℕ × Address) : Tick ℕ :=
  if e.2 = cfg.vault then snapshotVaultAddress sess cfg cfg.vault e.1 else pure 0

/-- The ingestion of the range from `src` to `target`. -/
def ingest (src target : ℕ) : Tick ℕ := do
  let logs ← getLogs sess cfg src target
  let r₁ ← total (ingestBlock sess cfg) (blocksWithEvents logs)
  let r₂ ← ingestCursor sess cfg logs target
  let r₃ ← total (handleLog sess cfg) logs
  let r₄ ← total (snapshotAt sess cfg) (eventBlocksPerContract logs)
  let active ← select sess (Db.activeVaults cfg.chainId)
  let r₅ ← total (heartbeat sess cfg target) (heartbeatVaults cfg active)
  pure (r₁ + r₂ + r₃ + r₄ + r₅)

/-- `run_inner` -/
def runInner (lastIndexed : Option ℕ) : Tick IndexerOutcome := do
  let (lastIndexed, reorgDetected) ← reorgCheck sess cfg lastIndexed
  let tip ← blockNumber sess
  match targetOf cfg (fromBlock lastIndexed) tip with
  | none => pure { lastIndexedBlock := lastIndexed, reorgDetected }
  | some target => do
    let rowsInserted ← ingest sess cfg (fromBlock lastIndexed) target
    pure { toBlock := some target, lastIndexedBlock := some target, rowsInserted, reorgDetected }

/-- The rows for the chain and the watched contracts, before anything else. -/
def upsertContracts : Tick Unit := do
  let _ ← sql sess (Db.upsertChain ⟨cfg.chainId, cfg.chainName, cfg.rpcLabel⟩)
  let _ ← sql sess (Db.upsertContract ⟨cfg.chainId, cfg.gateway, "gateway", none⟩)
  let _ ← sql sess (Db.upsertContract ⟨cfg.chainId, cfg.vault, "vault", none⟩)
  let _ ← total (fun reg => sql sess (Db.upsertContract ⟨cfg.chainId, reg, "vault_registry", none⟩))
    cfg.registry.toList
  let _ ← total (fun gov => sql sess (Db.upsertContract ⟨cfg.chainId, gov, "router_governance", none⟩))
    cfg.routerGovernance.toList
  pure ()

/-- `run_inner`, and its run recorded: with its error, or with what it reached. -/
def finishTick (runId src : ℕ) (lastIndexed : Option ℕ) : Tick IndexerOutcome := do
  let r ← attempt (runInner sess cfg lastIndexed)
  match r with
  | .ok o => do
    sql sess (Db.finishRun runId o.toBlock o.lastIndexedBlock (if o.reorgDetected then 1 else 0)
      o.rowsInserted none)
    pure { o with runId, fromBlock := src }
  | .error e => do
    sql sess (Db.finishRun runId none lastIndexed 0 0 (some e))
    pure { runId, fromBlock := src, lastIndexedBlock := lastIndexed, error := some e }

/-- `run_once` -/
def runOnce : Tick IndexerOutcome := do
  upsertContracts sess cfg
  let lastIndexed ← select sess (Db.lastIndexedBlock cfg.chainId)
  let runId ← sql sess (Db.startRun cfg.chainId (fromBlock lastIndexed))
  finishTick sess cfg runId (fromBlock lastIndexed) lastIndexed

end

/-- A tick of the service on a database: what `run_once` returns, and the database after it. -/
def tick (sess : Session) (cfg : IndexerConfig) (db : Db) : Except IndexerError IndexerOutcome × Db :=
  let (r, w) := runOnce sess cfg ⟨db, 0⟩
  (r, w.db)

end RobotMoney.Indexer
