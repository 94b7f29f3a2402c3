import RobotMoney.Indexer.Fold

/-!
# The search for the root of a reorganization

`walk_back_to_match` stops at the greatest height whose stored hash is the chain's (`root_search`).
Heights without a stored hash, and heights above the chain, are passed over.
-/

namespace RobotMoney.Indexer

open RobotMoney.Lib Fallible

variable {cfg : IndexerConfig} {p : Poll} {d : Db} {stored : ℕ → Option BlockHash} {chain : Chain}
  {n m : ℕ} {w w' : World}

/-- A hash is stored at a height, and is the chain's. -/
def SharesBlock (stored : ℕ → Option BlockHash) (chain : Chain) (n : ℕ) : Prop :=
  ∃ P, stored n = some P ∧ chain.hashAt n = some P

/-- The root is the greatest height up to `start` with the same block, or `-1` if there is none. -/
def IsRoot (stored : ℕ → Option BlockHash) (chain : Chain) (start : ℕ) (root : ℤ) : Prop :=
  (∃ n : ℕ, root = n ∧ IsGreatest {n | n ≤ start ∧ SharesBlock stored chain n} n) ∨
    (root = -1 ∧ ∀ n ≤ start, ¬ SharesBlock stored chain n)

/-- The walk goes on below a height without a match. -/
theorem IsRoot.succ {root : ℤ} (h : IsRoot stored chain n root) (hno : ¬ SharesBlock stored chain (n + 1)) :
    IsRoot stored chain (n + 1) root := by
  have hle : ∀ m, m ≤ n + 1 → SharesBlock stored chain m → m ≤ n := by
    intro m hm hshares
    rcases Nat.le_succ_iff.mp hm with hm | rfl
    · exact hm
    · exact absurd hshares hno
  rcases h with ⟨m, rfl, ⟨hm, hshares⟩, hbound⟩ | ⟨rfl, hnone⟩
  · refine .inl ⟨m, rfl, ⟨Nat.le_succ_of_le hm, hshares⟩, ?_⟩
    rintro k ⟨hk, hkshares⟩
    exact hbound ⟨hle k hk hkshares, hkshares⟩
  · refine .inr ⟨rfl, ?_⟩
    intro m hm hshares
    exact hnone m (hle m hm hshares) hshares

theorem isRoot_reorgRoot : IsRoot stored chain n (reorgRoot stored chain n) := by
  have hshares : ∀ n, storedMatches stored chain n = true ↔ SharesBlock stored chain n :=
    fun n => storedMatches_iff
  induction n with
  | zero =>
    unfold reorgRoot
    split
    · rename_i hmatch
      refine .inl ⟨0, rfl, ⟨le_refl 0, (hshares 0).mp hmatch⟩, ?_⟩
      rintro k ⟨hk, -⟩
      exact hk
    · rename_i hmatch
      refine .inr ⟨rfl, ?_⟩
      intro m hm hm'
      obtain rfl : m = 0 := Nat.le_zero.mp hm
      exact hmatch ((hshares 0).mpr hm')
  | succ n ih =>
    unfold reorgRoot
    split
    · rename_i hmatch
      refine .inl ⟨n + 1, rfl, ⟨le_refl _, (hshares (n + 1)).mp hmatch⟩, ?_⟩
      rintro k ⟨hk, -⟩
      exact hk
    · rename_i hmatch
      exact ih.succ fun h => hmatch ((hshares (n + 1)).mpr h)

/-! ### The walk -/

theorem matchesAt_returns (hcalls : ∀ k, p.fails k = false) :
    Triple (fun _ => True) (matchesAt p.session cfg n) (fun _ _ => True) fun _ => False := by
  have hread : ∀ {α : Type} {f : Node → α}, Triple (fun _ => True) (rpc p.session fun node => .ok (f node))
      (fun _ _ => True) fun _ => False := by
    intro α f w _
    unfold rpc
    rw [if_neg (by simp [Poll.session, hcalls])]
    trivial
  unfold matchesAt
  refine triple_bind (Q := fun _ _ => True) ?_ ?_
  · intro w _
    unfold select sql
    rw [if_neg (by simp [Poll.session, hcalls])]
    trivial
  intro hash
  cases hash with
  | none => exact triple_pure fun _ _ => trivial
  | some hash =>
    refine triple_bind hread ?_
    intro header
    exact triple_pure fun _ _ => trivial

/-- Without failures of calls the walk returns. -/
theorem walkBackToMatch_returns (hcalls : ∀ k, p.fails k = false) :
    Triple (fun _ => True) (walkBackToMatch p.session cfg n) (fun _ _ => True) fun _ => False := by
  induction n with
  | zero =>
    unfold walkBackToMatch
    refine triple_bind (matchesAt_returns hcalls) ?_
    intro found
    exact triple_pure fun _ _ => trivial
  | succ n ih =>
    unfold walkBackToMatch
    refine triple_bind (matchesAt_returns hcalls) ?_
    intro found
    split
    · exact triple_pure fun _ _ => trivial
    · exact ih

/-- The walk reads, and finds the root. -/
theorem walkBackToMatch_finds (hcalls : ∀ k, p.fails k = false) :
    Triple (On (· = d)) (walkBackToMatch p.session cfg n)
      (fun root => On fun db => db = d ∧ root = rootOf cfg d p.chain n) fun _ => False := by
  have hreturns : Triple (On (· = d)) (walkBackToMatch p.session cfg n) (fun _ _ => True) fun _ => False :=
    triple_pre (walkBackToMatch_returns hcalls) fun _ _ => trivial
  have h := triple_and walkBackToMatch_stands hreturns
  refine triple_conseq h (fun _ hs => hs) ?_ fun _ hs => hs.2
  rintro root w ⟨⟨hroot, hdb⟩, -⟩
  exact ⟨hdb, hroot⟩

/-- **The search for the root.**  What it returns is the root, and it returns unless a call fails. -/
theorem root_search (cfg : IndexerConfig) (p : Poll) (start : ℕ) (w : World) :
    (∀ root w', walkBackToMatch p.session cfg start w = (.ok root, w') →
      IsRoot (w.db.stored cfg) p.chain start root) ∧
    ((∀ k, p.fails k = false) → ∃ root w', walkBackToMatch p.session cfg start w = (.ok root, w')) := by
  constructor
  · intro root w' hok
    have hstands : Triple (On (· = w.db)) (walkBackToMatch p.session cfg start) _ _ :=
      walkBackToMatch_stands
    have h := hstands w rfl
    rw [hok] at h
    obtain ⟨rfl, -⟩ := h
    exact isRoot_reorgRoot
  · intro hcalls
    have hreturns : Triple _ (walkBackToMatch p.session cfg start) _ _ := walkBackToMatch_returns hcalls
    have h := hreturns w trivial
    rcases hrun : walkBackToMatch p.session cfg start w with ⟨e | root, w'⟩
    · rw [hrun] at h
      cases h
    · exact ⟨root, w', rfl⟩

/-- Hashes are stored at the heights zero, three, and eleven, which is above the chain; the one at zero is
the chain's. -/
def gapped : Db :=
  { Db.empty with
    blocks :=
      [⟨8453, 0, ⟨newChain.blocks.take 1⟩, ⟨[]⟩, 0⟩, ⟨8453, 3, ⟨oldChain.blocks.take 4⟩, ⟨[]⟩, 3⟩,
        ⟨8453, 11, ⟨oldChain.blocks⟩, ⟨[]⟩, 11⟩] }

theorem root_search_gapped :
    ∃ w', walkBackToMatch (steady newChain).session (deployment 100) 12 ⟨gapped, 0⟩ = (.ok 0, w') ∧
      IsRoot (gapped.stored (deployment 100)) newChain 12 0 := by
  obtain ⟨hroot, hreturns⟩ := root_search (deployment 100) (steady newChain) 12 ⟨gapped, 0⟩
  obtain ⟨root, w', hok⟩ := hreturns fun _ => rfl
  have hzero : (walkBackToMatch (steady newChain).session (deployment 100) 12 ⟨gapped, 0⟩).1.toOption =
      some 0 := by decide +kernel
  rw [hok] at hzero
  cases hzero
  exact ⟨w', hok, hroot 0 w' hok⟩

end RobotMoney.Indexer
