import RobotMoney.Indexer.Db

/-!
# The database as the API reads it

The rows of the indexer, with the moments the API shows beside them.  A table is the list of its rows in the
order they were stored, and a query that leaves an order open follows it.
-/

namespace RobotMoney.Api

open RobotMoney.Lib
open RobotMoney.Indexer

/-- A moment, `DateTime<Utc>`, in microseconds. -/
abbrev Time : Type := ℤ

/-- A row with its `indexed_at`. -/
structure Stamped (ρ : Type) where
  row : ρ
  indexedAt : Time
  deriving DecidableEq

/-- A row of `indexer_runs` with its `finished_at`. -/
structure FinishedRun where
  run : RunRow
  finishedAt : Option Time
  deriving DecidableEq

structure Database where
  contracts : List ContractRow
  transactions : List (Stamped TransactionRow)
  agentDeposits : List (Stamped DepositRow)
  agentPolicies : List (Stamped PolicyRow)
  vaults : List (Stamped VaultRow)
  vaultSnapshots : List (Stamped SnapshotRow)
  walletPositions : List (Stamped WalletPositionRow)
  governanceProposals : List (Stamped ProposalRow)
  governanceVotes : List VoteRow
  routerWeightSnapshots : List (Stamped WeightRow)
  indexerRuns : List FinishedRun

def Database.empty : Database := ⟨[], [], [], [], [], [], [], [], [], [], []⟩

/-! ### Rows of a chain -/

/-- The column `chain_id` of a table. -/
class HasChain (ρ : Type) where
  chainId : ρ → ℤ

instance : HasChain ContractRow := ⟨fun r => r.chainId⟩
instance : HasChain TransactionRow := ⟨fun r => r.chainId⟩
instance : HasChain DepositRow := ⟨fun r => r.chainId⟩
instance : HasChain PolicyRow := ⟨fun r => r.chainId⟩
instance : HasChain VaultRow := ⟨fun r => r.chainId⟩
instance : HasChain SnapshotRow := ⟨fun r => r.chainId⟩
instance : HasChain WalletPositionRow := ⟨fun r => r.chainId⟩
instance : HasChain ProposalRow := ⟨fun r => r.core.chainId⟩
instance : HasChain VoteRow := ⟨fun r => r.chainId⟩
instance : HasChain WeightRow := ⟨fun r => r.chainId⟩
instance : HasChain FinishedRun := ⟨fun r => r.run.chainId⟩
instance {ρ : Type} [HasChain ρ] : HasChain (Stamped ρ) := ⟨fun r => HasChain.chainId r.row⟩

section Queries

variable {ρ κ : Type}

/-- `chain_id = c` -/
def onChain [HasChain ρ] (c : ℤ) (r : ρ) : Bool := decide (HasChain.chainId r = c)

/-- `WHERE chain_id = c AND ..` -/
def selectOn [HasChain ρ] (c : ℤ) (t : List ρ) (p : ρ → Bool) : List ρ := t.filter fun r => onChain c r && p r

/-- `ORDER BY k ASC` -/
def ascending (k : ρ → ℕ) (t : List ρ) : List ρ := t.mergeSort fun a b => decide (k a ≤ k b)

/-- `ORDER BY k DESC` -/
def descending (k : ρ → ℕ) (t : List ρ) : List ρ := t.mergeSort fun a b => decide (k b ≤ k a)

/-- The order by two columns, both ascending. -/
def lexLe (k l : ρ → ℕ) (a b : ρ) : Bool := decide (k a < k b ∨ (k a = k b ∧ l a ≤ l b))

/-- `ORDER BY k ASC, l ASC` -/
def ascending₂ (k l : ρ → ℕ) (t : List ρ) : List ρ := t.mergeSort (lexLe k l)

/-- `ORDER BY k DESC, l DESC` -/
def descending₂ (k l : ρ → ℕ) (t : List ρ) : List ρ := t.mergeSort fun a b => lexLe k l b a

/-- `DISTINCT ON (k)`: the first row of each group. -/
def distinctOn [DecidableEq κ] (k : ρ → κ) : List ρ → List ρ
  | [] => []
  | r :: rs => r :: (distinctOn k rs).filter fun x => decide (k x ≠ k r)

/-- Only the rows of the chain matter to a query that asks for them. -/
theorem selectOn_eq [HasChain ρ] (c : ℤ) (t : List ρ) (p : ρ → Bool) :
    selectOn c t p = (t.filter (onChain c)).filter p := by
  rw [selectOn, List.filter_filter]
  congr 1
  funext r
  exact Bool.and_comm _ _

theorem chainId_of_mem_selectOn [HasChain ρ] {c : ℤ} {t : List ρ} {p : ρ → Bool} {r : ρ}
    (h : r ∈ selectOn c t p) : HasChain.chainId r = c := by
  have hon := (List.mem_filter.mp h).2
  simp only [Bool.and_eq_true] at hon
  exact of_decide_eq_true hon.1

end Queries

end RobotMoney.Api
