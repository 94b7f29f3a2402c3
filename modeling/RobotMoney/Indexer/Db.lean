import Mathlib.Data.List.Sort
import RobotMoney.Indexer.Chain
import RobotMoney.Lib.Table

/-!
# The database of the explorer

The tables of the indexer and the statements it runs on them.  Every insert is one that does nothing
when its primary key is taken.  Two foreign keys can be violated, and make a statement fail: a vote
refers to its proposal, and a snapshot to its contract; the chain that all rows refer to is upserted
before anything else.  The name of a vault, which is any string its registration gives, can be one that
a `TEXT` column does not take.  The `indexed_at`, `started_at` and `finished_at` columns, which nothing
reads, are left out.
-/

namespace RobotMoney.Indexer

open RobotMoney.Lib

/-! ### Rows -/

structure ChainRow where
  chainId : ℤ
  name : String
  rpcLabel : String
  deriving DecidableEq

structure ContractRow where
  chainId : ℤ
  address : Address
  kind : String
  deployedBlock : Option ℕ
  deriving DecidableEq

structure BlockRow where
  chainId : ℤ
  blockNumber : ℕ
  hash : BlockHash
  parentHash : BlockHash
  timestamp : ℕ
  deriving DecidableEq

structure TransactionRow where
  chainId : ℤ
  txHash : ℕ
  blockNumber : ℕ
  txIndex : ℕ
  fromAddr : Address
  toAddr : Option Address
  status : ℕ
  deriving DecidableEq

/-- The columns every event row has: the chain, the block, the log and the transaction. -/
structure LogPosition where
  chainId : ℤ
  blockNumber : ℕ
  logIndex : ℕ
  txHash : ℕ
  deriving DecidableEq

/-- A row of `agent_deposits` -/
structure DepositRow extends LogPosition where
  paymentId : ℕ
  orderId : ℕ
  agent : Address
  shareReceiver : Address
  amount : ℕ
  sharesMinted : ℕ
  windowId : ℤ
  vault : Option Address
  deriving DecidableEq

/-- A row of `agent_policies` -/
structure PolicyRow extends LogPosition where
  agent : Address
  revoked : Bool
  validUntil : Option ℤ
  maxPerPayment : Option ℕ
  maxPerWindow : Option ℕ
  shareReceiver : Option Address
  deriving DecidableEq

/-- A row of `router_deposit_legs` -/
structure LegRow extends LogPosition where
  paymentId : ℕ
  depositor : Address
  vault : Address
  amount : ℕ
  shares : ℕ
  weightBps : ℕ
  deriving DecidableEq

/-- A row of `router_weight_snapshots` -/
structure WeightRow extends LogPosition where
  routerAddress : Address
  vaultAddresses : List Address
  bpsValues : List ℕ
  deriving DecidableEq

/-- A row of `governance_votes` -/
structure VoteRow extends LogPosition where
  proposalId : ℕ
  voter : Address
  support : Bool
  weight : ℕ
  deriving DecidableEq

/-- The columns of `governance_proposals` that are written once. -/
structure ProposalCore extends LogPosition where
  proposalId : ℕ
  proposer : Address
  description : String
  createdAt : ℕ
  deadlineBlock : ℤ
  deriving DecidableEq

/-- A row of `governance_proposals` -/
structure ProposalRow where
  core : ProposalCore
  status : ℕ := 0
  executedBlock : Option ℕ := none
  votesFor : ℕ := 0
  votesAgainst : ℕ := 0
  deriving DecidableEq

structure SnapshotRow where
  chainId : ℤ
  contract : Address
  blockNumber : ℕ
  totalAssets : ℕ
  totalSupply : ℕ
  exitFeeBps : ℕ
  tvlCap : ℕ
  paused : Bool
  deriving DecidableEq

structure WalletPositionRow where
  chainId : ℤ
  contract : Address
  owner : Address
  blockNumber : ℕ
  shares : ℕ
  deriving DecidableEq

structure VaultRow where
  chainId : ℤ
  vaultAddress : Address
  name : String
  riskLabel : String
  depositCap : ℕ
  status : ℕ
  registeredAt : ℕ
  registeredBlock : ℕ
  registeredTx : ℕ
  statusChangedAt : Option ℕ := none
  deriving DecidableEq

inductive IndexerError where
  | rpc
  | db
  | decode (event : Topic)
  | shortRead
  deriving DecidableEq, Repr

/-- A row of `indexer_runs` -/
structure RunRow where
  runId : ℕ
  chainId : ℤ
  fromBlock : ℕ
  toBlock : Option ℕ := none
  lastIndexedBlock : Option ℕ := none
  reorgCount : ℕ := 0
  rowsInserted : ℕ := 0
  error : Option IndexerError := none
  deriving DecidableEq

/-- The tables; `nextRun` is the sequence behind `run_id`. -/
structure Db where
  chains : List ChainRow
  contracts : List ContractRow
  blocks : List BlockRow
  transactions : List TransactionRow
  agentDeposits : List DepositRow
  agentPolicies : List PolicyRow
  vaultSnapshots : List SnapshotRow
  walletPositions : List WalletPositionRow
  vaults : List VaultRow
  governanceProposals : List ProposalRow
  governanceVotes : List VoteRow
  routerWeightSnapshots : List WeightRow
  routerDepositLegs : List LegRow
  indexerRuns : List RunRow
  nextRun : ℕ
  deriving DecidableEq

/-- The database after its migrations. -/
def Db.empty : Db := ⟨[], [], [], [], [], [], [], [], [], [], [], [], [], [], 1⟩

/-! ### Primary keys -/

def ContractRow.key (r : ContractRow) : ℤ × Address := (r.chainId, r.address)

def BlockRow.key (r : BlockRow) : ℤ × ℕ := (r.chainId, r.blockNumber)

def TransactionRow.key (r : TransactionRow) : ℤ × ℕ := (r.chainId, r.txHash)

/-- The primary key of deposits, policies and legs. -/
def LogPosition.key (r : LogPosition) : ℤ × ℕ × ℕ := (r.chainId, r.blockNumber, r.logIndex)

def WeightRow.weightKey (r : WeightRow) : ℤ × Address × ℕ × ℕ :=
  (r.chainId, r.routerAddress, r.blockNumber, r.logIndex)

def VoteRow.voteKey (r : VoteRow) : ℤ × ℕ × Address := (r.chainId, r.proposalId, r.voter)

def ProposalCore.proposalKey (r : ProposalCore) : ℤ × ℕ := (r.chainId, r.proposalId)

def SnapshotRow.key (r : SnapshotRow) : ℤ × Address × ℕ := (r.chainId, r.contract, r.blockNumber)

def VaultRow.key (r : VaultRow) : ℤ × Address := (r.chainId, r.vaultAddress)

/-! ### Statements -/

/-- A statement: a result and the new tables, or a failure. -/
abbrev Statement (α : Type) : Type := Db → Except IndexerError (α × Db)

namespace Db

/-- `upsert_chain` -/
def upsertChain (r : ChainRow) : Statement ℕ := fun db =>
  .ok (Table.affected ChainRow.chainId db.chains r,
    { db with chains := Table.insertNew ChainRow.chainId db.chains r })

/-- `upsert_contract` -/
def upsertContract (r : ContractRow) : Statement ℕ := fun db =>
  .ok (Table.affected ContractRow.key db.contracts r,
    { db with contracts := Table.insertNew ContractRow.key db.contracts r })

/-- `insert_block` -/
def insertBlock (r : BlockRow) : Statement ℕ := fun db =>
  .ok (Table.affected BlockRow.key db.blocks r,
    { db with blocks := Table.insertNew BlockRow.key db.blocks r })

/-- `get_block_hash` -/
def getBlockHash (chainId : ℤ) (n : ℕ) (db : Db) : Option BlockHash :=
  (Table.lookup BlockRow.key db.blocks (chainId, n)).map fun r => r.hash

/-- Whether a row of the chain is above the height `root`, which is `-1` to take all. -/
def above (chainId root rowChain : ℤ) (rowBlock : ℕ) : Bool :=
  rowChain = chainId ∧ root < (rowBlock : ℤ)

/-- The rows `delete_above_block` leaves. -/
def belowRoot (chainId root : ℤ) (db : Db) : Db :=
  { db with
    walletPositions :=
      db.walletPositions.filter fun r => !above chainId root r.chainId r.blockNumber
    vaultSnapshots := db.vaultSnapshots.filter fun r => !above chainId root r.chainId r.blockNumber
    agentDeposits := db.agentDeposits.filter fun r => !above chainId root r.chainId r.blockNumber
    agentPolicies := db.agentPolicies.filter fun r => !above chainId root r.chainId r.blockNumber
    governanceVotes := db.governanceVotes.filter fun r => !above chainId root r.chainId r.blockNumber
    governanceProposals :=
      db.governanceProposals.filter fun r => !above chainId root r.core.chainId r.core.blockNumber
    routerWeightSnapshots :=
      db.routerWeightSnapshots.filter fun r => !above chainId root r.chainId r.blockNumber
    routerDepositLegs :=
      db.routerDepositLegs.filter fun r => !above chainId root r.chainId r.blockNumber
    transactions := db.transactions.filter fun r => !above chainId root r.chainId r.blockNumber
    blocks := db.blocks.filter fun r => !above chainId root r.chainId r.blockNumber }

/-- Whether a vote that `delete_above_block` leaves refers to a proposal that it deletes. -/
def strands (chainId root : ℤ) (db : Db) : Bool :=
  (db.belowRoot chainId root).governanceVotes.any fun v =>
    db.governanceProposals.any fun q =>
      above chainId root q.core.chainId q.core.blockNumber &&
        decide (q.core.proposalKey = (v.chainId, v.proposalId))

/-- `delete_above_block`, in one transaction. -/
def deleteAboveBlock (chainId root : ℤ) : Statement Unit := fun db =>
  if db.strands chainId root then .error .db else .ok ((), db.belowRoot chainId root)

/-- `insert_transaction` -/
def insertTransaction (r : TransactionRow) : Statement ℕ := fun db =>
  .ok (Table.affected TransactionRow.key db.transactions r,
    { db with transactions := Table.insertNew TransactionRow.key db.transactions r })

/-- `insert_agent_deposit` -/
def insertAgentDeposit (r : DepositRow) : Statement ℕ := fun db =>
  .ok (Table.affected (fun r => r.key) db.agentDeposits r,
    { db with agentDeposits := Table.insertNew (fun r => r.key) db.agentDeposits r })

/-- `insert_router_deposit_leg` -/
def insertRouterDepositLeg (r : LegRow) : Statement ℕ := fun db =>
  .ok (Table.affected (fun r => r.key) db.routerDepositLegs r,
    { db with routerDepositLegs := Table.insertNew (fun r => r.key) db.routerDepositLegs r })

/-- `insert_agent_policy` -/
def insertAgentPolicy (r : PolicyRow) : Statement ℕ := fun db =>
  .ok (Table.affected (fun r => r.key) db.agentPolicies r,
    { db with agentPolicies := Table.insertNew (fun r => r.key) db.agentPolicies r })

/-- `insert_vault_snapshot` -/
def insertVaultSnapshot (r : SnapshotRow) : Statement ℕ := fun db =>
  if Table.taken SnapshotRow.key db.vaultSnapshots r.key then .ok (0, db)
  else if Table.taken ContractRow.key db.contracts (r.chainId, r.contract) then
    .ok (1, { db with vaultSnapshots := db.vaultSnapshots ++ [r] })
  else .error .db

/-- A `TEXT` column takes every string without a NUL. -/
def isText (s : String) : Bool := s.toList.all fun ch => ch.toNat ≠ 0

/-- `upsert_vault` -/
def upsertVault (r : VaultRow) : Statement ℕ := fun db =>
  if isText r.name then
    .ok (Table.affected VaultRow.key db.vaults r,
      { db with vaults := Table.insertNew VaultRow.key db.vaults r })
  else .error .db

/-- `update_vault_status` -/
def updateVaultStatus (chainId : ℤ) (vault : Address) (newStatus changedAt : ℕ) : Statement ℕ :=
  fun db =>
    .ok ((db.vaults.filter fun r => r.key = (chainId, vault)).length,
      { db with
        vaults := db.vaults.map fun r =>
          if r.key = (chainId, vault) then
            { r with status := newStatus, statusChangedAt := some changedAt }
          else r })

/-- `insert_proposal` -/
def insertProposal (r : ProposalCore) : Statement ℕ := fun db =>
  .ok (Table.affected (fun r => r.core.proposalKey) db.governanceProposals { core := r },
    { db with
      governanceProposals :=
        Table.insertNew (fun r => r.core.proposalKey) db.governanceProposals { core := r } })

/-- A proposal with one more vote. -/
def tally (support : Bool) (r : ProposalRow) : ProposalRow :=
  if support then { r with votesFor := r.votesFor + 1 }
  else { r with votesAgainst := r.votesAgainst + 1 }

/-- `insert_vote`, in one transaction with the tally. -/
def insertVote (r : VoteRow) : Statement ℕ := fun db =>
  if Table.taken VoteRow.voteKey db.governanceVotes r.voteKey then .ok (0, db)
  else if Table.taken (fun r => r.core.proposalKey) db.governanceProposals (r.chainId, r.proposalId)
  then
    .ok (1,
      { db with
        governanceVotes := db.governanceVotes ++ [r]
        governanceProposals := db.governanceProposals.map fun p =>
          if p.core.proposalKey = (r.chainId, r.proposalId) then tally r.support p else p })
  else .error .db

/-- `execute_proposal` -/
def executeProposal (chainId : ℤ) (proposalId executedBlock : ℕ) : Statement ℕ := fun db =>
  .ok ((db.governanceProposals.filter fun p =>
      p.core.proposalKey = (chainId, proposalId) ∧ p.status < 2).length,
    { db with
      governanceProposals := db.governanceProposals.map fun p =>
        if p.core.proposalKey = (chainId, proposalId) ∧ p.status < 2 then
          { p with status := 2, executedBlock := some executedBlock }
        else p })

/-- `insert_router_weight_snapshot` -/
def insertRouterWeightSnapshot (r : WeightRow) : Statement ℕ := fun db =>
  .ok (Table.affected WeightRow.weightKey db.routerWeightSnapshots r,
    { db with
      routerWeightSnapshots := Table.insertNew WeightRow.weightKey db.routerWeightSnapshots r })

/-! ### The rows of events -/

end Db

/-- The rows that events leave, one table after the other; of a proposal, the columns written once. -/
inductive Record where
  | deposit (r : DepositRow)
  | policy (r : PolicyRow)
  | leg (r : LegRow)
  | weight (r : WeightRow)
  | vote (r : VoteRow)
  | proposal (r : ProposalCore)
  deriving DecidableEq

/-- The table and the primary key in it. -/
inductive RecordKey where
  | deposit (k : ℤ × ℕ × ℕ)
  | policy (k : ℤ × ℕ × ℕ)
  | leg (k : ℤ × ℕ × ℕ)
  | weight (k : ℤ × Address × ℕ × ℕ)
  | vote (k : ℤ × ℕ × Address)
  | proposal (k : ℤ × ℕ)
  deriving DecidableEq

def Record.key : Record → RecordKey
  | .deposit r => .deposit r.key
  | .policy r => .policy r.key
  | .leg r => .leg r.key
  | .weight r => .weight r.weightKey
  | .vote r => .vote r.voteKey
  | .proposal r => .proposal r.proposalKey

/-- The log a row comes from. -/
def Record.position : Record → LogPosition
  | .deposit r => r.toLogPosition
  | .policy r => r.toLogPosition
  | .leg r => r.toLogPosition
  | .weight r => r.toLogPosition
  | .vote r => r.toLogPosition
  | .proposal r => r.toLogPosition

namespace Db

/-- The insert of a row. -/
def insertRecord : Record → Statement ℕ
  | .deposit r => insertAgentDeposit r
  | .policy r => insertAgentPolicy r
  | .leg r => insertRouterDepositLeg r
  | .weight r => insertRouterWeightSnapshot r
  | .vote r => insertVote r
  | .proposal r => insertProposal r

/-- Whether a row is in its table. -/
def Holds (db : Db) : Record → Prop
  | .deposit r => r ∈ db.agentDeposits
  | .policy r => r ∈ db.agentPolicies
  | .leg r => r ∈ db.routerDepositLegs
  | .weight r => r ∈ db.routerWeightSnapshots
  | .vote r => r ∈ db.governanceVotes
  | .proposal r => ∃ p ∈ db.governanceProposals, p.core = r

instance (db : Db) : (x : Record) → Decidable (db.Holds x)
  | .deposit r => inferInstanceAs (Decidable (r ∈ db.agentDeposits))
  | .policy r => inferInstanceAs (Decidable (r ∈ db.agentPolicies))
  | .leg r => inferInstanceAs (Decidable (r ∈ db.routerDepositLegs))
  | .weight r => inferInstanceAs (Decidable (r ∈ db.routerWeightSnapshots))
  | .vote r => inferInstanceAs (Decidable (r ∈ db.governanceVotes))
  | .proposal r => inferInstanceAs (Decidable (∃ p ∈ db.governanceProposals, p.core = r))

/-! ### Runs -/

/-- `start_run` -/
def startRun (chainId : ℤ) (fromBlock : ℕ) : Statement ℕ := fun db =>
  .ok (db.nextRun,
    { db with
      indexerRuns := db.indexerRuns ++ [{ runId := db.nextRun, chainId, fromBlock }]
      nextRun := db.nextRun + 1 })

/-- `finish_run` -/
def finishRun (runId : ℕ) (toBlock lastIndexedBlock : Option ℕ) (reorgCount rowsInserted : ℕ)
    (error : Option IndexerError) : Statement Unit := fun db =>
  .ok ((),
    { db with
      indexerRuns := db.indexerRuns.map fun r =>
        if r.runId = runId then { r with toBlock, lastIndexedBlock, reorgCount, rowsInserted, error }
        else r })

/-- `last_indexed_block`: the greatest of the runs without error. -/
def lastIndexedBlock (chainId : ℤ) (db : Db) : Option ℕ :=
  (db.indexerRuns.filterMap fun r =>
    if r.chainId = chainId ∧ r.error = none then r.lastIndexedBlock else none).max?

/-- The active vaults of the registry, `SELECT vault_address ... WHERE status = 0 ORDER BY`. -/
def activeVaults (chainId : ℤ) (db : Db) : List Address :=
  ((db.vaults.filter fun r => r.chainId = chainId ∧ r.status = 0).map fun r =>
    r.vaultAddress).insertionSort fun a b => a.val ≤ b.val

/-- `SELECT MAX(block_number) FROM vault_snapshots` of a vault. -/
def lastSnapshot (chainId : ℤ) (vault : Address) (db : Db) : Option ℕ :=
  ((db.vaultSnapshots.filter fun r => r.chainId = chainId ∧ r.contract = vault).map fun r =>
    r.blockNumber).max?

end Db

end RobotMoney.Indexer
