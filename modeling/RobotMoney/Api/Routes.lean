import RobotMoney.Api.Database
import RobotMoney.Lib.Hex

/-!
# The routes of the explorer's API

`routes.rs` and `model.rs`: every request of the router is answered from the tables.  A query is written with
the predicate, the order and the limit of its SQL; `respond` is the router.
-/

namespace RobotMoney.Api

open RobotMoney.Lib
open RobotMoney.Indexer

/-! ### The wire -/

structure Freshness where
  blockNumber : ℕ
  indexedAt : Time
  deriving DecidableEq

structure Health where
  status : String
  lastIndexedBlock : Option ℕ
  reorgCount : ℕ
  deriving DecidableEq

structure Contract where
  chainId : ℤ
  address : String
  kind : String
  label : Option String
  deriving DecidableEq

structure VaultSnapshot where
  chainId : ℤ
  contract : String
  blockNumber : ℕ
  totalAssets : String
  totalSupply : String
  indexedAt : Time
  deriving DecidableEq

structure AgentPolicyView where
  agent : String
  authorized : Bool
  cap : Option String
  blockNumber : ℕ
  deriving DecidableEq

structure Deposit where
  chainId : ℤ
  blockNumber : ℕ
  logIndex : ℕ
  txHash : String
  paymentId : String
  agent : String
  shareReceiver : String
  amount : String
  indexedAt : Time
  deriving DecidableEq

structure Transaction where
  chainId : ℤ
  txHash : String
  blockNumber : ℕ
  fromAddress : String
  toAddress : Option String
  status : ℕ
  indexedAt : Time
  deriving DecidableEq

structure Vault where
  chainId : ℤ
  address : String
  name : String
  riskLabel : String
  status : ℕ
  depositCap : String
  totalAssets : Option String
  exitFeeBps : Option ℕ
  indexedAt : Time
  deriving DecidableEq

structure VaultTvlPoint where
  blockNumber : ℕ
  totalAssets : String
  totalSupply : String
  indexedAt : Time
  deriving DecidableEq

structure VaultDetail where
  chainId : ℤ
  address : String
  name : String
  riskLabel : String
  status : ℕ
  depositCap : String
  tvlHistory : List VaultTvlPoint
  indexedAt : Time
  deriving DecidableEq

structure VaultWeight where
  vault : String
  bps : ℕ
  deriving DecidableEq

structure WeightHistoryEntry where
  blockNumber : ℕ
  txHash : String
  weights : List VaultWeight
  indexedAt : Time
  deriving DecidableEq

structure ProposalSummary where
  chainId : ℤ
  proposalId : ℕ
  proposer : String
  description : String
  createdAt : ℕ
  deadlineBlock : ℤ
  status : String
  votesFor : ℕ
  votesAgainst : ℕ
  blockNumber : ℕ
  indexedAt : Time
  deriving DecidableEq

structure VoteEntry where
  voter : String
  support : Bool
  weight : String
  blockNumber : ℕ
  txHash : String
  deriving DecidableEq

structure ProposalDetail extends ProposalSummary where
  executedBlock : Option ℕ
  votes : List VoteEntry
  deriving DecidableEq

structure ActivityEvent where
  chainId : ℤ
  blockNumber : ℕ
  logIndex : ℕ
  txHash : String
  vault : String
  agent : String
  shareReceiver : String
  amount : String
  indexedAt : Time
  deriving DecidableEq

structure VaultPosition where
  vault : String
  shares : String
  usdcValue : Option String
  blockNumber : ℕ
  indexedAt : Time
  deriving DecidableEq

/-- An entry of an account's history; its kind is always a deposit. -/
structure AccountHistoryEntry where
  chainId : ℤ
  blockNumber : ℕ
  logIndex : ℕ
  txHash : String
  vault : String
  agent : String
  amount : String
  indexedAt : Time
  deriving DecidableEq

/-- The envelopes. -/
inductive Response where
  | health (h : Health)
  | contracts (chainId : ℤ) (contracts : List Contract) (freshness : Freshness)
  | vaultSnapshots (snapshots : List VaultSnapshot) (freshness : Freshness)
  | agent (policy : Option AgentPolicyView) (freshness : Freshness)
  | deposits (deposits : List Deposit) (freshness : Freshness)
  | transaction (transaction : Transaction) (freshness : Freshness)
  | deposit (deposit : Deposit) (freshness : Freshness)
  | vaults (vaults : List Vault) (freshness : Freshness)
  | vault (vault : VaultDetail) (freshness : Freshness)
  | routerWeights (currentWeights : List VaultWeight) (history : List WeightHistoryEntry) (freshness : Freshness)
  | proposals (proposals : List ProposalSummary) (freshness : Freshness)
  | proposal (proposal : ProposalDetail) (freshness : Freshness)
  | stats (totalTvl : String) (uniqueDepositors : ℕ) (activityFeed : List ActivityEvent) (freshness : Freshness)
  | routerState (currentWeights : List VaultWeight) (history : List WeightHistoryEntry) (freshness : Freshness)
  | accountPositions (address : String) (positions : List VaultPosition) (freshness : Freshness)
  | accountHistory (address : String) (events : List AccountHistoryEntry) (freshness : Freshness)
  deriving DecidableEq

/-- The errors of the handlers, and the answer to a path of no route. -/
inductive ApiError where
  | noSuchResource
  | notFound
  | badRequest (message : String)
  deriving DecidableEq

abbrev ApiResult (α : Type) : Type := Except ApiError α

/-- `SnapshotsQuery` -/
structure SnapshotsQuery where
  fromBlock : Option ℤ
  toBlock : Option ℤ
  chainId : Option ℤ
  contract : Option String

/-- A GET request whose path and query the router has taken apart; `other` is one of no route. -/
inductive Request where
  | health
  | listContracts (chainId : ℤ)
  | latestVaultSnapshot
  | listVaultSnapshots (q : SnapshotsQuery)
  | getAgent (address : String)
  | listAgentDeposits (address : String)
  | getTransaction (txHash : String)
  | getDeposit (depositId : String)
  | listVaults
  | getVault (address : String)
  | getRouterWeights
  | listProposals
  | getProposal (id : ℤ)
  | getStats
  | getRouterState
  | getAccountPositions (address : String)
  | getAccountHistory (address : String)
  | other

/-- `AppState` without the pool, with the wall clock, and the quotient of the crate `bigdecimal`, cut to a
whole number. -/
structure AppState where
  chainId : ℤ
  now : Time
  quotient : ℕ → ℕ → ℕ

/-! ### Texts -/

/-- `addr_to_hex` of twenty bytes -/
def addrToHex (a : Address) : String := "0x" ++ String.ofList (hexWord 40 (Fin.val a))

/-- `hash_to_hex` of thirty-two bytes -/
def hashToHex (h : ℕ) : String := "0x" ++ String.ofList (hexWord 64 h)

/-- `dec_to_string` of a `NUMERIC(78, 0)` -/
def decToString (n : ℕ) : String := n.repr

/-- `char::is_whitespace` -/
def isWhitespace (c : Char) : Bool :=
  [0x20, 0x85, 0xA0, 0x1680, 0x2028, 0x2029, 0x202F, 0x205F, 0x3000].contains c.toNat ∨
    (0x09 ≤ c.toNat ∧ c.toNat ≤ 0x0D) ∨ (0x2000 ≤ c.toNat ∧ c.toNat ≤ 0x200A)

/-- `str::trim` -/
def trim (cs : List Char) : List Char := ((cs.dropWhile isWhitespace).reverse.dropWhile isWhitespace).reverse

/-- The length of a text in bytes. -/
def byteLength (cs : List Char) : ℕ := (cs.map Char.utf8Size).sum

/-- A parameter of `width` hexadecimal digits behind `0x`. -/
def decodeHexParam (width : ℕ) (invalid : String) (s : String) : ApiResult ℕ :=
  match trim s.toList with
  | '0' :: 'x' :: digits =>
    if byteLength digits ≠ width then .error (.badRequest invalid)
    else match readHex digits with
      | some n => .ok n
      | none => .error (.badRequest (invalid ++ " hex"))
  | _ => .error (.badRequest invalid)

/-- The address of twenty bytes. -/
def addressOfNat (n : ℕ) : Address := Fin.ofNat (2 ^ 160) n

/-- `decode_address_param` -/
def decodeAddressParam (s : String) : ApiResult Address := (decodeHexParam 40 "invalid address" s).map addressOfNat

/-- `decode_hash_param` -/
def decodeHashParam (s : String) : ApiResult ℕ := decodeHexParam 64 "invalid hash" s

/-! ### Freshness -/

section Handlers

variable (state : AppState) (db : Database)

/-- The newest run of the indexer, of whatever chain. -/
def newestRun : Option FinishedRun := (descending (fun r => r.run.runId) db.indexerRuns).head?

/-- `latest_freshness` -/
def latestFreshness : Freshness :=
  match newestRun db with
  | some r => ⟨r.run.lastIndexedBlock.getD 0, r.finishedAt.getD state.now⟩
  | none => ⟨0, state.now⟩

/-- The freshness of a row if there is one, else that of the newest run. -/
def freshnessOr (row : Option Freshness) : Freshness := row.getD (latestFreshness state db)

/-! ### Handlers -/

def health : ApiResult Response :=
  match newestRun db with
  | some r => .ok (.health ⟨"ok", r.run.lastIndexedBlock, r.run.reorgCount⟩)
  | none => .ok (.health ⟨"ok", none, 0⟩)

def listContracts (chainId : ℤ) : ApiResult Response :=
  let rows := ascending (fun r => Fin.val r.address) (selectOn chainId db.contracts fun _ => true)
  .ok (.contracts chainId (rows.map fun r => ⟨chainId, addrToHex r.address, r.kind, none⟩)
    (latestFreshness state db))

def snapshotOfRow (r : Stamped SnapshotRow) : VaultSnapshot :=
  ⟨r.row.chainId, addrToHex r.row.contract, r.row.blockNumber, decToString r.row.totalAssets,
    decToString r.row.totalSupply, r.indexedAt⟩

def latestVaultSnapshot : ApiResult Response :=
  match (descending (fun r => r.row.blockNumber) db.vaultSnapshots).head? with
  | some r => .ok (.vaultSnapshots [snapshotOfRow r] ⟨r.row.blockNumber, r.indexedAt⟩)
  | none => .error .notFound

/-- The optional filters of a column. -/
def matchesOption {κ : Type} [DecidableEq κ] (wanted : Option κ) (k : κ) : Bool :=
  match wanted with
  | some w => decide (k = w)
  | none => true

def listVaultSnapshots (q : SnapshotsQuery) : ApiResult Response := do
  let fromBlock := q.fromBlock.getD 0
  let toBlock := q.toBlock.getD (2 ^ 63 - 1)
  if toBlock < fromBlock then .error (.badRequest "to_block must be >= from_block")
  else do
    let contract ← match q.contract with
      | some s => (decodeAddressParam s).map some
      | none => pure none
    let rows := (ascending (fun r => r.row.blockNumber) (db.vaultSnapshots.filter fun r =>
      decide (fromBlock ≤ (r.row.blockNumber : ℤ) ∧ (r.row.blockNumber : ℤ) ≤ toBlock) &&
        matchesOption q.chainId r.row.chainId && matchesOption contract r.row.contract)).take 500
    let snapshots := rows.map snapshotOfRow
    pure (.vaultSnapshots snapshots
      (freshnessOr state db (snapshots.getLast?.map fun s => ⟨s.blockNumber, s.indexedAt⟩)))

def getAgent (address : String) : ApiResult Response := do
  let agent ← decodeAddressParam address
  let row := (descending₂ (fun r => r.row.blockNumber) (fun r => r.row.logIndex)
    (selectOn state.chainId db.agentPolicies fun r => decide (r.row.agent = agent))).head?
  let policy := row.map fun r =>
    (⟨addrToHex agent, !r.row.revoked, r.row.maxPerWindow.map decToString, r.row.blockNumber⟩ : AgentPolicyView)
  pure (.agent policy (latestFreshness state db))

/-- `deposit_from_row` -/
def depositFromRow (r : Stamped DepositRow) : Deposit :=
  ⟨r.row.chainId, r.row.blockNumber, r.row.logIndex, hashToHex r.row.txHash, hashToHex r.row.paymentId,
    addrToHex r.row.agent, addrToHex r.row.shareReceiver, decToString r.row.amount, r.indexedAt⟩

def listAgentDeposits (address : String) : ApiResult Response := do
  let agent ← decodeAddressParam address
  let rows := (descending₂ (fun r => r.row.blockNumber) (fun r => r.row.logIndex)
    (selectOn state.chainId db.agentDeposits fun r => decide (r.row.agent = agent))).take 500
  let deposits := rows.map depositFromRow
  pure (.deposits deposits (freshnessOr state db (deposits.head?.map fun d => ⟨d.blockNumber, d.indexedAt⟩)))

def getTransaction (txHash : String) : ApiResult Response := do
  let hash ← decodeHashParam txHash
  match (selectOn state.chainId db.transactions fun r => decide (r.row.txHash = hash)).head? with
  | some r => pure (.transaction
      ⟨r.row.chainId, hashToHex hash, r.row.blockNumber, addrToHex r.row.fromAddr, r.row.toAddr.map addrToHex,
        r.row.status, r.indexedAt⟩ ⟨r.row.blockNumber, r.indexedAt⟩)
  | none => .error .notFound

def getDeposit (depositId : String) : ApiResult Response := do
  let paymentId ← decodeHashParam depositId
  match (selectOn state.chainId db.agentDeposits fun r => decide (r.row.paymentId = paymentId)).head? with
  | some r => pure (.deposit (depositFromRow r) ⟨r.row.blockNumber, r.indexedAt⟩)
  | none => .error .notFound

/-- The newest snapshot of a vault of a chain: the lateral subquery. -/
def latestSnapshotOf (chainId : ℤ) (contract : Address) : Option (Stamped SnapshotRow) :=
  (descending (fun r => r.row.blockNumber)
    (selectOn chainId db.vaultSnapshots fun r => decide (r.row.contract = contract))).head?

def listVaults : ApiResult Response :=
  let rows := ascending (fun r => Fin.val r.row.vaultAddress) (selectOn state.chainId db.vaults fun _ => true)
  .ok (.vaults (rows.map fun v =>
    ⟨v.row.chainId, addrToHex v.row.vaultAddress, v.row.name, v.row.riskLabel, v.row.status,
      decToString v.row.depositCap,
      (latestSnapshotOf db v.row.chainId v.row.vaultAddress).map fun s => decToString s.row.totalAssets,
      (latestSnapshotOf db v.row.chainId v.row.vaultAddress).map fun s => s.row.exitFeeBps, v.indexedAt⟩)
    (latestFreshness state db))

def getVault (address : String) : ApiResult Response := do
  let vault ← decodeAddressParam address
  match (selectOn state.chainId db.vaults fun r => decide (r.row.vaultAddress = vault)).head? with
  | none => .error .notFound
  | some v =>
    let tvlRows := (ascending (fun r => r.row.blockNumber)
      (selectOn state.chainId db.vaultSnapshots fun r => decide (r.row.contract = vault))).take 500
    let tvlHistory := tvlRows.map fun r =>
      (⟨r.row.blockNumber, decToString r.row.totalAssets, decToString r.row.totalSupply, r.indexedAt⟩ :
        VaultTvlPoint)
    pure (.vault ⟨state.chainId, addrToHex v.row.vaultAddress, v.row.name, v.row.riskLabel, v.row.status,
        decToString v.row.depositCap, tvlHistory, v.indexedAt⟩
      (freshnessOr state db (tvlHistory.getLast?.map fun p => ⟨p.blockNumber, p.indexedAt⟩)))

/-- The rows of both weight endpoints, at most the first five hundred. -/
def weightRows : List (Stamped WeightRow) :=
  (ascending₂ (fun r => r.row.blockNumber) (fun r => r.row.logIndex)
    (selectOn state.chainId db.routerWeightSnapshots fun _ => true)).take 500

def weightHistory : List WeightHistoryEntry :=
  (weightRows state db).map fun r =>
    ⟨r.row.blockNumber, hashToHex r.row.txHash,
      (r.row.vaultAddresses.zip r.row.bpsValues).map fun x => ⟨addrToHex x.1, x.2⟩, r.indexedAt⟩

def currentWeights (history : List WeightHistoryEntry) : List VaultWeight :=
  (history.getLast?.map fun e => e.weights).getD []

def historyFreshness (history : List WeightHistoryEntry) : Freshness :=
  freshnessOr state db (history.getLast?.map fun e => ⟨e.blockNumber, e.indexedAt⟩)

def getRouterWeights : ApiResult Response :=
  let history := weightHistory state db
  -- `sort_by_key`, after the current weights are taken
  let sorted := ascending (fun e : WeightHistoryEntry => e.blockNumber) history
  .ok (.routerWeights (currentWeights history) sorted (historyFreshness state db sorted))

/-- `proposal_status_label` -/
def proposalStatusLabel (status : ℕ) : String :=
  match status with
  | 0 => "open"
  | 1 => "passed"
  | 2 => "executed"
  | _ => "expired"

def summaryOfRow (r : Stamped ProposalRow) : ProposalSummary :=
  ⟨r.row.core.chainId, r.row.core.proposalId, addrToHex r.row.core.proposer, r.row.core.description,
    r.row.core.createdAt, r.row.core.deadlineBlock, proposalStatusLabel r.row.status, r.row.votesFor,
    r.row.votesAgainst, r.row.core.blockNumber, r.indexedAt⟩

def listProposals : ApiResult Response :=
  let rows := (descending₂ (fun r => r.row.core.blockNumber) (fun r => r.row.core.proposalId)
    (selectOn state.chainId db.governanceProposals fun _ => true)).take 500
  let proposals := rows.map summaryOfRow
  .ok (.proposals proposals (freshnessOr state db (proposals.head?.map fun p => ⟨p.blockNumber, p.indexedAt⟩)))

def getProposal (id : ℤ) : ApiResult Response :=
  match (selectOn state.chainId db.governanceProposals fun r => decide ((r.row.core.proposalId : ℤ) = id)).head? with
  | none => .error .notFound
  | some r =>
    let votes := (ascending₂ (fun v => v.blockNumber) (fun v => Fin.val v.voter)
      (selectOn state.chainId db.governanceVotes fun v => decide (v.proposalId = r.row.core.proposalId))).map
        fun v => (⟨addrToHex v.voter, v.support, decToString v.weight, v.blockNumber, hashToHex v.txHash⟩ :
          VoteEntry)
    .ok (.proposal { summaryOfRow r with executedBlock := r.row.executedBlock, votes := votes }
      ⟨r.row.core.blockNumber, r.indexedAt⟩)

def activityOfRow (r : Stamped DepositRow) : ActivityEvent :=
  ⟨r.row.chainId, r.row.blockNumber, r.row.logIndex, hashToHex r.row.txHash,
    addrToHex (r.row.vault.getD r.row.shareReceiver), addrToHex r.row.agent, addrToHex r.row.shareReceiver,
    decToString r.row.amount, r.indexedAt⟩

def getStats : ApiResult Response :=
  let latest := distinctOn (fun r => r.row.contract) (descending (fun r => r.row.blockNumber)
    (selectOn state.chainId db.vaultSnapshots fun _ => true))
  let totalTvl := decToString (latest.map fun r => r.row.totalAssets).sum
  let uniqueDepositors :=
    ((selectOn state.chainId db.agentDeposits fun _ => true).map fun r => r.row.shareReceiver).dedup.length
  let feed := (descending₂ (fun r => r.row.blockNumber) (fun r => r.row.logIndex)
    (selectOn state.chainId db.agentDeposits fun _ => true)).take 50
  .ok (.stats totalTvl uniqueDepositors (feed.map activityOfRow) (latestFreshness state db))

def getRouterState : ApiResult Response :=
  let history := weightHistory state db
  .ok (.routerState (currentWeights history) history (historyFreshness state db history))

def positionOfRow (r : Stamped WalletPositionRow) : VaultPosition :=
  ⟨addrToHex r.row.contract, decToString r.row.shares,
    (latestSnapshotOf db r.row.chainId r.row.contract).bind fun s =>
      if s.row.totalSupply ≠ 0 then
        some (decToString (state.quotient (r.row.shares * s.row.totalAssets) s.row.totalSupply))
      else none,
    r.row.blockNumber, r.indexedAt⟩

def getAccountPositions (address : String) : ApiResult Response := do
  let owner ← decodeAddressParam address
  let latest := distinctOn (fun r => r.row.contract) (descending (fun r => r.row.blockNumber)
    (selectOn state.chainId db.walletPositions fun r => decide (r.row.owner = owner)))
  let positions := (ascending (fun r => Fin.val r.row.contract) latest).map (positionOfRow state db)
  pure (.accountPositions (addrToHex owner) positions
    (freshnessOr state db (positions.head?.map fun p => ⟨p.blockNumber, p.indexedAt⟩)))

def getAccountHistory (address : String) : ApiResult Response := do
  let receiver ← decodeAddressParam address
  let rows := (ascending₂ (fun r => r.row.blockNumber) (fun r => r.row.logIndex)
    (selectOn state.chainId db.agentDeposits fun r => decide (r.row.shareReceiver = receiver))).take 500
  let events := rows.map fun r =>
    (⟨r.row.chainId, r.row.blockNumber, r.row.logIndex, hashToHex r.row.txHash,
      addrToHex (r.row.vault.getD r.row.shareReceiver), addrToHex r.row.agent, decToString r.row.amount,
      r.indexedAt⟩ : AccountHistoryEntry)
  pure (.accountHistory (addrToHex receiver) events
    (freshnessOr state db (events.getLast?.map fun e => ⟨e.blockNumber, e.indexedAt⟩)))

/-- `router` -/
def respond : Request → ApiResult Response
  | .health => health db
  | .listContracts chainId => listContracts state db chainId
  | .latestVaultSnapshot => latestVaultSnapshot db
  | .listVaultSnapshots q => listVaultSnapshots state db q
  | .getAgent address => getAgent state db address
  | .listAgentDeposits address => listAgentDeposits state db address
  | .getTransaction txHash => getTransaction state db txHash
  | .getDeposit depositId => getDeposit state db depositId
  | .listVaults => listVaults state db
  | .getVault address => getVault state db address
  | .getRouterWeights => getRouterWeights state db
  | .listProposals => listProposals state db
  | .getProposal id => getProposal state db id
  | .getStats => getStats state db
  | .getRouterState => getRouterState state db
  | .getAccountPositions address => getAccountPositions state db address
  | .getAccountHistory address => getAccountHistory state db address
  | .other => .error .noSuchResource

end Handlers

end RobotMoney.Api
