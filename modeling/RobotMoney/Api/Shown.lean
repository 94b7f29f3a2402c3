import RobotMoney.Api.Routes
import RobotMoney.Indexer.Numbered
import RobotMoney.Lib.Sorted

/-!
# The rows that the API reads

The API reads the tables that the indexer fills (`Reads`).  A query that sorts the rows of a chain by their
positions returns them as the indexer inserted them, or the other way round, however the table is stored
(`ascending₂_rows`, `descending₂_rows`).
-/

namespace RobotMoney.Api

open RobotMoney.Lib
open RobotMoney.Indexer

/-- The rows of the API's chain are those of the indexer, stored in whatever order. -/
structure Reads (state : AppState) (cfg : IndexerConfig) (db : Db) (api : Database) : Prop where
  chain : state.chainId = cfg.chainId
  weights : ((api.routerWeightSnapshots.filter (onChain state.chainId)).map Stamped.row).Perm
    db.routerWeightSnapshots
  policies : ((api.agentPolicies.filter (onChain state.chainId)).map Stamped.row).Perm db.agentPolicies

section Sorted

variable {ρ : Type} {k l : ρ → ℕ} {t : List (Stamped ρ)} {rows : List ρ}

theorem lexLe_trans (k l : ρ → ℕ) (a b c : ρ) (hab : lexLe k l a b = true) (hbc : lexLe k l b c = true) :
    lexLe k l a c = true := by
  unfold lexLe at *
  simp only [decide_eq_true_eq] at *
  omega

theorem lexLe_total (k l : ρ → ℕ) (a b : ρ) : (lexLe k l a b || lexLe k l b a) = true := by
  unfold lexLe
  simp only [Bool.or_eq_true, decide_eq_true_eq]
  omega

/-- Strictly before, in the order by two columns. -/
theorem lexLe_eq_false {a b : ρ} : lexLe k l b a = false ↔ k a < k b ∨ (k a = k b ∧ l a < l b) := by
  unfold lexLe
  simp only [decide_eq_false_iff_not]
  omega

/-- Rows with ascending positions are sorted into that order. -/
theorem ascending₂_rows (hperm : (t.map Stamped.row).Perm rows)
    (hrows : rows.Pairwise fun a b => k a < k b ∨ (k a = k b ∧ l a < l b)) :
    (ascending₂ (fun r => k r.row) (fun r => l r.row) t).map Stamped.row = rows := by
  have hmap : (t.mergeSort (lexLe (fun r => k r.row) fun r => l r.row)).map Stamped.row =
      (t.map Stamped.row).mergeSort (lexLe k l) := List.map_mergeSort fun a _ b _ => rfl
  unfold ascending₂
  rw [hmap]
  exact mergeSort_eq_of_perm (lexLe_trans k l) (lexLe_total k l) hperm
    (hrows.imp fun hab => lexLe_eq_false.mpr hab)

/-- And into the opposite one. -/
theorem descending₂_rows (hperm : (t.map Stamped.row).Perm rows)
    (hrows : rows.Pairwise fun a b => k a < k b ∨ (k a = k b ∧ l a < l b)) :
    (descending₂ (fun r => k r.row) (fun r => l r.row) t).map Stamped.row = rows.reverse := by
  have hmap : (t.mergeSort fun a b => lexLe (fun r => k r.row) (fun r => l r.row) b a).map Stamped.row =
      (t.map Stamped.row).mergeSort fun a b => lexLe k l b a := List.map_mergeSort fun a _ b _ => rfl
  unfold descending₂
  rw [hmap]
  refine mergeSort_eq_of_perm (fun a b c hab hbc => lexLe_trans k l c b a hbc hab)
    (fun a b => lexLe_total k l b a) (hperm.trans rows.reverse_perm.symm) ?_
  rw [List.pairwise_reverse]
  exact hrows.imp fun hab => lexLe_eq_false.mpr hab

end Sorted

/-- Addresses are told apart by their texts. -/
theorem addrToHex_inj {a b : Address} (h : addrToHex a = addrToHex b) : a = b := by
  unfold addrToHex at h
  have hdigits : hexWord 40 (Fin.val a) = hexWord 40 (Fin.val b) := by
    simpa using congrArg String.toList h
  exact Fin.ext (hexWord_inj a.isLt b.isLt hdigits)

end RobotMoney.Api
