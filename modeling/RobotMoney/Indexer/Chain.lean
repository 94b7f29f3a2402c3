import RobotMoney.Lib.Address

/-!
# The chain as its node shows it

Blocks with their logs and transactions, and the answers of a JSON-RPC node: the tip, headers, logs of a
range of heights, receipts, and view calls.

A block hash commits to the block and to all blocks below it, so it is modelled as what it commits to:
the initial segment of the chain that ends with the block.  Two chains with the same hash at a height
then have the same blocks up to it.

Heights, log indices and transaction indices are positions in lists; they are far below the ranges of
the integer types the service casts them to.
-/

namespace RobotMoney.Indexer

open RobotMoney.Lib

/-! ### Events and logs -/

/-- The events the service asks for, by their first topic, in the order of `all_topic0`. -/
inductive Topic where
  | agentAuthorized
  | agentRevoked
  | agentDeposit
  | agentDepositRouted
  | paused
  | unpaused
  | vaultAllocated
  | vaultPulled
  | vaultRebalanced
  | vaultExitFeeCharged
  | vaultRegistered
  | vaultStatusChanged
  | proposalCreated
  | voteCast
  | proposalExecuted
  | weightsApplied
  | routerDeposit
  | erc4626Deposit
  | erc4626Withdraw
  deriving DecidableEq, Repr

/-- The events the service decodes, with the fields of their declarations. -/
inductive Event where
  | agentAuthorized (agent owner : Address) (validUntil maxPerPayment maxPerWindow : ℕ)
      (shareReceiver : Address)
  | agentRevoked (agent owner : Address)
  | agentDeposit (paymentId orderId : ℕ) (agent shareReceiver : Address)
      (amount sharesMinted windowId : ℕ)
  | agentDepositRouted (paymentId orderId : ℕ) (agent shareReceiver router : Address) (amount : ℕ)
      (sharesPerLeg : List ℕ) (windowId : ℕ)
  | vaultRegistered (vault : Address) (name : String) (asset : Address)
  | vaultStatusChanged (vault : Address) (newStatus timestamp : ℕ)
  | proposalCreated (proposalId : ℕ) (proposer : Address) (vaults : List Address) (bps : List ℕ)
      (votingDeadline : ℕ)
  | voteCast (proposalId : ℕ) (voter : Address) (power totalFor : ℕ)
  | proposalExecuted (proposalId : ℕ) (executor : Address)
  | weightsApplied (proposalId : ℕ) (vaults : List Address) (bps : List ℕ)
  | routerDeposit (depositor vault : Address) (amount shares weightBps : ℕ)
  deriving DecidableEq

/-- The first topic of an event. -/
def Event.topic : Event → Topic
  | .agentAuthorized .. => .agentAuthorized
  | .agentRevoked .. => .agentRevoked
  | .agentDeposit .. => .agentDeposit
  | .agentDepositRouted .. => .agentDepositRouted
  | .vaultRegistered .. => .vaultRegistered
  | .vaultStatusChanged .. => .vaultStatusChanged
  | .proposalCreated .. => .proposalCreated
  | .voteCast .. => .voteCast
  | .proposalExecuted .. => .proposalExecuted
  | .weightsApplied .. => .weightsApplied
  | .routerDeposit .. => .routerDeposit

/-- Topics and data of a log: an event; or one of the first topics asked for, with data that is not
decoded, because it does not decode or because nobody tries to; or anything else. -/
inductive LogData where
  | event (e : Event)
  | raw (t : Topic)
  | foreign
  deriving DecidableEq

/-- The first topic, if it is one of those asked for. -/
def LogData.topic : LogData → Option Topic
  | .event e => some e.topic
  | .raw t => some t
  | .foreign => none

/-- A log of a block. -/
structure Log where
  address : Address
  data : LogData
  txHash : ℕ
  txIndex : ℕ
  logIndex : ℕ
  deriving DecidableEq

/-- A transaction of a block, with the status of its receipt. -/
structure Transaction where
  txHash : ℕ
  txIndex : ℕ
  src : Address
  dst : Option Address
  status : ℕ
  deriving DecidableEq

/-! ### Blocks and chains -/

structure Block where
  timestamp : ℕ
  txs : List Transaction
  logs : List Log
  deriving DecidableEq

/-- The hash of a block: the chain up to and with it. -/
structure BlockHash where
  ancestry : List Block
  deriving DecidableEq

/-- A chain: its blocks by height, the genesis block at height zero. -/
structure Chain where
  blocks : List Block
  nonempty : blocks ≠ [] := by decide
  deriving DecidableEq

structure BlockHeader where
  number : ℕ
  hash : BlockHash
  parentHash : BlockHash
  timestamp : ℕ
  deriving DecidableEq

/-- `eth_getLogs` returns the log, the block it is in, and its hash. -/
structure LogEntry where
  log : Log
  blockNumber : ℕ
  blockHash : BlockHash
  deriving DecidableEq

/-- The logs of the block at a height of a chain with the blocks `bs`. -/
def logsAt (bs : List Block) (n : ℕ) : List LogEntry :=
  match bs[n]? with
  | none => []
  | some b => b.logs.map fun l => ⟨l, n, ⟨bs.take (n + 1)⟩⟩

/-- The logs at a height are those of any chain with the same blocks up to it. -/
theorem logsAt_take {bs : List Block} {n k : ℕ} (h : n < k) : logsAt (bs.take k) n = logsAt bs n := by
  unfold logsAt
  rw [List.getElem?_take_of_lt h, List.take_take, Nat.min_eq_left h]

theorem logsAt_blockNumber {bs : List Block} {n : ℕ} {e : LogEntry} (h : e ∈ logsAt bs n) :
    e.blockNumber = n ∧ n < bs.length := by
  unfold logsAt at h
  split at h
  · cases h
  · rename_i b hb
    obtain ⟨l, -, rfl⟩ := List.mem_map.mp h
    exact ⟨rfl, (List.getElem?_eq_some_iff.mp hb).1⟩

namespace Chain

/-- The height of the tip. -/
def tip (c : Chain) : ℕ := c.blocks.length - 1

/-- The hash of the block at a height. -/
def hashAt (c : Chain) (n : ℕ) : Option BlockHash :=
  if n < c.blocks.length then some ⟨c.blocks.take (n + 1)⟩ else none

/-- The header of the block at a height; below genesis there is the empty chain. -/
def header (c : Chain) (n : ℕ) : Option BlockHeader :=
  c.blocks[n]?.map fun b =>
    { number := n
      hash := ⟨c.blocks.take (n + 1)⟩
      parentHash := ⟨c.blocks.take n⟩
      timestamp := b.timestamp }

/-- The logs of the heights from `src` to `dst`. -/
def logsBetween (c : Chain) (src dst : ℕ) : List LogEntry :=
  (List.range' src (dst + 1 - src)).flatMap (logsAt c.blocks)

/-- The status in the receipt of a transaction; zero if there is no receipt. -/
def txStatus (c : Chain) (txHash : ℕ) : ℕ :=
  match (c.blocks.flatMap fun b => b.txs).find? fun t => t.txHash = txHash with
  | none => 0
  | some t => t.status

variable {c : Chain} {n : ℕ}

theorem tip_lt (c : Chain) : c.tip < c.blocks.length := by
  have h := List.length_pos_iff.mpr c.nonempty
  unfold tip
  omega

theorem lt_length_iff : n < c.blocks.length ↔ n ≤ c.tip := by
  have h := c.tip_lt
  unfold tip at *
  omega

theorem header_hash : (c.header n).map (fun h => h.hash) = c.hashAt n := by
  unfold header hashAt
  split
  · rename_i h
    rw [List.getElem?_eq_getElem h]
    rfl
  · rename_i h
    rw [List.getElem?_eq_none (by omega)]
    rfl

end Chain

/-! ### Nodes -/

/-- The views of a vault that snapshots read. -/
inductive View where
  | totalAssets
  | totalSupply
  | exitFeeBps
  | tvlCap
  | paused
  deriving DecidableEq, Repr

/-- The answer of `eth_call`: an error, fewer than 32 bytes, or the word in the first 32 bytes. -/
inductive CallAnswer where
  | reverted
  | short
  | word (value : ℕ)
  deriving DecidableEq, Repr

/-- What a node shows at one moment. -/
structure Node where
  chain : Chain
  ethCall : Address → View → (block : ℕ) → CallAnswer

end RobotMoney.Indexer
