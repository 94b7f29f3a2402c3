import RobotMoney.Indexer.Ingest

/-!
# Rollback to the last common block

`walk_back_to_match` and `delete_above_block`.  `reorgRoot` says in one line which height the walk
finds; below it the stored headers are those of both chains, so what is settled for the old chain up to
the cursor is settled for the new one up to the root (`Settled.rollback`).

The calls before the first write are counted: `Clean p k` holds of a tick that has made `k` calls, none
of which failed.
-/

namespace RobotMoney.Indexer

open RobotMoney.Lib Fallible

/-! ### The root of a reorganization -/

section Root

variable (stored : ℕ → Option BlockHash) (chain : Chain)

/-- Whether the header stored at a height is the chain's. -/
def storedMatches (n : ℕ) : Bool :=
  match stored n with
  | none => false
  | some P => chain.hashAt n = some P

/-- The last height up to `n` whose stored header is the chain's, or `-1`. -/
def reorgRoot : ℕ → ℤ
  | 0 => if storedMatches stored chain 0 then 0 else -1
  | n + 1 => if storedMatches stored chain (n + 1) then ((n + 1 : ℕ) : ℤ) else reorgRoot n

/-- The calls for one height of the walk: the stored hash, and the header if there is one. -/
def lookups (n : ℕ) : ℕ := if stored n = none then 1 else 2

/-- The calls of the walk. -/
def walkCalls : ℕ → ℕ
  | 0 => lookups stored 0
  | n + 1 => lookups stored (n + 1) + if storedMatches stored chain (n + 1) then 0 else walkCalls n

end Root

/-- The cursor after a rollback. -/
def resumeAt (root : ℤ) : Option ℕ := if root < 0 then none else some root.toNat

variable {stored : ℕ → Option BlockHash} {chain : Chain} {cfg : IndexerConfig} {p : Poll} {c : Option ℕ}
  {known : Address → Prop} {runs : List RunRow × ℕ} {bs bs' : List Block} {db d : Db} {n k : ℕ} {root : ℤ}

theorem storedMatches_iff :
    storedMatches stored chain n = true ↔ ∃ P, stored n = some P ∧ chain.hashAt n = some P := by
  unfold storedMatches
  cases stored n with
  | none => simp
  | some P => simp

theorem hashAt_eq_some {P : BlockHash} (h : chain.hashAt n = some P) :
    n < chain.blocks.length ∧ P = ⟨chain.blocks.take (n + 1)⟩ := by
  unfold Chain.hashAt at h
  split at h
  · rename_i hlt
    cases h
    exact ⟨hlt, rfl⟩
  · cases h

theorem reorgRoot_le : reorgRoot stored chain n ≤ (n : ℤ) := by
  induction n with
  | zero =>
    unfold reorgRoot
    split <;> omega
  | succ n ih =>
    unfold reorgRoot
    split
    · exact le_refl _
    · omega

/-- The stored header at the root is the chain's. -/
theorem storedMatches_reorgRoot {m : ℕ} (h : reorgRoot stored chain n = (m : ℤ)) :
    storedMatches stored chain m = true := by
  induction n with
  | zero =>
    unfold reorgRoot at h
    split at h
    · obtain rfl : m = 0 := by omega
      assumption
    · omega
  | succ n ih =>
    unfold reorgRoot at h
    split at h
    · obtain rfl : m = n + 1 := by omega
      assumption
    · exact ih h

/-- Heights below the cursor after a rollback are up to the root. -/
theorem lt_fromBlock_resumeAt : n < fromBlock (resumeAt root) ↔ (n : ℤ) ≤ root := by
  unfold resumeAt
  split
  · rename_i h
    simp only [fromBlock]
    omega
  · rename_i h
    simp only [fromBlock]
    omega

/-! ### Settled databases -/

theorem take_eq_of_le {n m : ℕ} (h : bs'.take n = bs.take n) (hle : m ≤ n) :
    bs'.take m = bs.take m := by
  have h := congrArg (List.take m) h
  rwa [List.take_take, List.take_take, Nat.min_eq_left hle] at h

/-- What is settled for a chain is settled for every chain with the same blocks up to the cursor. -/
theorem Settled.transfer (h : Settled cfg bs c db) (hlen : fromBlock c ≤ bs'.length)
    (heq : bs'.take (fromBlock c) = bs.take (fromBlock c)) : Settled cfg bs' c db where
  headers n P hn hP := by
    obtain ⟨-, rfl⟩ := h.headers n P hn hP
    rw [take_eq_of_le heq (Nat.succ_le_of_lt hn)]
    exact ⟨by omega, rfl⟩
  cursor n hn := by
    subst hn
    have hlt : n < fromBlock (some n) := Nat.lt_succ_self n
    obtain ⟨-, hP⟩ := h.cursor n rfl
    rw [take_eq_of_le heq (Nat.succ_le_of_lt hlt)]
    exact ⟨by omega, hP⟩
  rows := h.rows
  complete n hn x hx := by
    refine h.complete n hn x ?_
    rw [← recordsAt_take hn] at hx ⊢
    rwa [← heq]
  keyed := h.keyed

/-- A vote that is left has its proposal left: no rollback fails. -/
theorem Settled.not_strands (h : Settled cfg bs (some n) db) (hsound : Sound cfg bs)
    (hroot : root ≤ (n : ℤ)) : db.strands cfg.chainId root = false := by
  rw [Bool.eq_false_iff]
  intro hstrands
  obtain ⟨v, hv, hq⟩ := List.any_eq_true.mp hstrands
  obtain ⟨q, hq, habove⟩ := List.any_eq_true.mp hq
  obtain ⟨habove, hkey⟩ := Bool.and_eq_true_iff.mp habove
  obtain ⟨hqchain, hqroot⟩ := above_iff.mp habove
  have hkey : q.core.proposalKey = (v.chainId, v.proposalId) := of_decide_eq_true hkey
  have hvchain : v.chainId = cfg.chainId := (congrArg Prod.fst hkey).symm.trans hqchain
  obtain ⟨hholds, hvroot⟩ := (holds_belowRoot (.vote v)).mp hv
  have hvroot : (v.blockNumber : ℤ) ≤ root := by
    by_contra hlt
    exact hvroot ⟨hvchain, by simpa [Record.position] using hlt⟩
  -- the vote is one of the chain, its proposal comes before it
  obtain ⟨P, hP, hmem⟩ := h.rows (.vote v) hholds hvchain
  obtain ⟨-, rfl⟩ := h.headers v.blockNumber P (Nat.lt_succ_of_le (by omega)) hP
  have hmem : .vote v ∈ recordsAt cfg bs v.blockNumber := by
    rw [← recordsAt_take (Nat.lt_succ_self _)]
    exact hmem
  obtain ⟨pre, post, hsplit⟩ := List.append_of_mem (mem_records.mpr ⟨_, hmem⟩)
  obtain ⟨r, hr, hrkey⟩ := hsound.votes pre v post hsplit
  have hrle : r.blockNumber ≤ v.blockNumber := by
    have hsorted : (records cfg bs).Pairwise _ := records_pairwise
    rw [hsplit] at hsorted
    exact (List.pairwise_append.mp hsorted).2.2 _ hr _ List.mem_cons_self
  have hrmem : .proposal r ∈ records cfg bs := by
    rw [hsplit]
    exact List.mem_append_left _ hr
  obtain ⟨m, hrmem⟩ := mem_records.mp hrmem
  obtain rfl : r.blockNumber = m := (recordsAt_position hrmem).2.1
  have hrholds := h.complete r.blockNumber (Nat.lt_succ_of_le (by omega)) _ hrmem
  have hsame := h.keyed (.proposal r) (.proposal q.core) hrholds ⟨q, hq, rfl⟩
    (congrArg RecordKey.proposal (hrkey.trans hkey.symm))
  cases hsame
  omega

theorem Settled.deleteAboveBlock_ok (h : Settled cfg bs (some n) db) (hsound : Sound cfg bs)
    (hroot : root ≤ (n : ℤ)) :
    Db.deleteAboveBlock cfg.chainId root db = .ok ((), db.belowRoot cfg.chainId root) := by
  unfold Db.deleteAboveBlock
  rw [h.not_strands hsound hroot]
  rfl

/-- Up to the root, all is as it was for the old chain. -/
theorem Settled.belowRoot (h : Settled cfg bs (some n) db) (hle : root ≤ (n : ℤ))
    (hstored : ∀ m : ℕ, root = (m : ℤ) → ∃ P, db.getBlockHash cfg.chainId m = some P) :
    Settled cfg bs (resumeAt root) (db.belowRoot cfg.chainId root) where
  headers m P _ hP := by
    rw [getBlockHash_belowRoot] at hP
    split at hP
    · cases hP
    · exact h.headers m P (Nat.lt_succ_of_le (by omega)) hP
  cursor m hm := by
    have hmroot : root = (m : ℤ) := by
      unfold resumeAt at hm
      split at hm
      · cases hm
      · cases hm
        omega
    obtain ⟨P, hP⟩ := hstored m hmroot
    obtain ⟨hlt, rfl⟩ := h.headers m P (Nat.lt_succ_of_le (by omega)) hP
    rw [getBlockHash_belowRoot, if_neg (by omega)]
    exact ⟨hlt, hP⟩
  rows x hx hc := by
    obtain ⟨hx, hbelow⟩ := (holds_belowRoot x).mp hx
    rw [getBlockHash_belowRoot, if_neg fun hlt => hbelow ⟨hc, hlt⟩]
    exact h.rows x hx hc
  complete m hm x hx := by
    have hm := lt_fromBlock_resumeAt.mp hm
    refine (holds_belowRoot x).mpr ⟨h.complete m (Nat.lt_succ_of_le (by omega)) x hx, ?_⟩
    rintro ⟨-, hlt⟩
    rw [(recordsAt_position hx).2.1] at hlt
    omega
  keyed x y hx hy := h.keyed x y ((holds_belowRoot x).mp hx).1 ((holds_belowRoot y).mp hy).1

section Rollback

variable (hs : ∀ n, db.getBlockHash cfg.chainId n = stored n)

include hs

/-- Up to the root, the old chain and the new one have the same blocks. -/
theorem Settled.agree_at_root (h : Settled cfg bs (some n) db)
    (hroot : root = reorgRoot stored p.chain n) :
    fromBlock (resumeAt root) ≤ p.chain.blocks.length ∧
      p.chain.blocks.take (fromBlock (resumeAt root)) = bs.take (fromBlock (resumeAt root)) := by
  have hle : root ≤ (n : ℤ) := hroot ▸ reorgRoot_le
  by_cases hneg : root < 0
  · have hresume : resumeAt root = none := if_pos hneg
    rw [hresume]
    exact ⟨Nat.zero_le _, rfl⟩
  · obtain ⟨m, hm⟩ := Int.eq_ofNat_of_zero_le (not_lt.mp hneg)
    obtain ⟨P, hP, hhash⟩ := storedMatches_iff.mp (storedMatches_reorgRoot (hroot.symm.trans hm))
    obtain ⟨hlt, rfl⟩ := hashAt_eq_some hhash
    obtain ⟨-, heq⟩ := h.headers m _ (Nat.lt_succ_of_le (by omega)) ((hs m).trans hP)
    have hresume : resumeAt root = some m := by
      rw [hm]
      exact if_neg (by omega)
    rw [hresume]
    exact ⟨hlt, BlockHash.mk.inj heq⟩

/-- **A rollback** leaves what is settled for the new chain up to the root. -/
theorem Settled.rollback (h : Settled cfg bs (some n) db)
    (hroot : root = reorgRoot stored p.chain n) (hv : Vaults cfg known db) :
    Stage cfg p.chain (resumeAt root) known (db.indexerRuns, db.nextRun)
      (db.belowRoot cfg.chainId root) := by
  obtain ⟨hlen, hagree⟩ := h.agree_at_root hs hroot
  have hstored : ∀ m : ℕ, root = (m : ℤ) → ∃ P, db.getBlockHash cfg.chainId m = some P := by
    intro m hm
    obtain ⟨P, hP, -⟩ := storedMatches_iff.mp (storedMatches_reorgRoot (hroot.symm.trans hm))
    exact ⟨P, (hs m).trans hP⟩
  have hnew := (h.belowRoot (hroot ▸ reorgRoot_le) hstored).transfer hlen hagree
  refine { toSettled := hnew, current := ?_, vaults := ⟨hv.configured, hv.registered⟩, runs_eq := rfl }
  intro m P hP
  refine hnew.headers m P (lt_fromBlock_resumeAt.mpr ?_) hP
  rw [getBlockHash_belowRoot] at hP
  split at hP
  · cases hP
  · omega

end Rollback

/-! ### Counted calls -/

/-- `k` calls were made, and none of them failed. -/
structure Clean (p : Poll) (k : ℕ) (P : Db → Prop) (w : World) : Prop where
  calls : w.calls = k
  ok : ∀ j < k, p.fails j = false
  db : P w.db

section Calls

variable {α : Type} {P : Db → Prop} {Q : α → Db → Prop}

theorem Clean.next {w : World} (h : Clean p k P w) (hk : p.fails w.calls = false) {P' : Db → Prop}
    {db' : Db} (hP' : P' db') : Clean p (k + 1) P' ⟨db', w.calls + 1⟩ where
  calls := congrArg (· + 1) h.calls
  ok j hj := by
    rcases Nat.lt_succ_iff_lt_or_eq.mp hj with hj | rfl
    · exact h.ok j hj
    · exact h.calls ▸ hk
  db := hP'

/-- A statement that succeeds unless its call fails. -/
theorem clean_sql {f : Statement α} (hf : ∀ db, P db → ∃ a db', f db = .ok (a, db') ∧ Q a db') :
    Triple (Clean p k P) (sql p.session f) (fun a => Clean p (k + 1) (Q a)) (On P) := by
  intro w hw
  unfold sql
  by_cases hk : p.session.fails w.calls = true
  · rw [if_pos hk]
    exact hw.db
  · obtain ⟨a, db', hok, hQ⟩ := hf w.db hw.db
    rw [if_neg hk, hok]
    exact hw.next (Bool.eq_false_iff.mpr hk) hQ

theorem clean_select {f : Db → α} :
    Triple (Clean p k (· = d)) (select p.session f)
      (fun a => Clean p (k + 1) fun db => db = d ∧ a = f d) (On (· = d)) := by
  refine clean_sql ?_
  rintro db rfl
  exact ⟨f db, db, rfl, rfl, rfl⟩

theorem clean_ask {f : Chain → α} :
    Triple (Clean p k P) (rpc p.session fun node => .ok (f node.chain))
      (fun a => Clean p (k + 1) fun db => P db ∧ a = f p.chain) (On P) := by
  intro w hw
  unfold rpc
  by_cases hk : p.session.fails w.calls = true
  · rw [if_pos hk]
    exact hw.db
  · rw [if_neg hk]
    exact hw.next (Bool.eq_false_iff.mpr hk) ⟨hw.db, rfl⟩

/-- A fact that a query established is used in what follows. -/
theorem clean_fact {A : Prop} {m : Tick α} {R : α → World → Prop} {E : World → Prop}
    (h : A → Triple (Clean p k P) m R E) : Triple (Clean p k fun db => P db ∧ A) m R E := by
  intro w hw
  exact h hw.db.2 w ⟨hw.calls, hw.ok, hw.db.1⟩

end Calls

/-! ### The walk -/

theorem lookups_of_none (h : stored n = none) : lookups stored n = 1 := if_pos h

theorem lookups_of_some {P : BlockHash} (h : stored n = some P) : lookups stored n = 2 := by
  refine if_neg ?_
  rw [h]
  exact Option.some_ne_none P

section Walk

variable (hs : ∀ n, d.getBlockHash cfg.chainId n = stored n)

include hs

/-- One height: the tables are only read. -/
theorem matchesAt_triple : Triple (Clean p k (· = d)) (matchesAt p.session cfg n)
    (fun found => Clean p (k + lookups stored n) fun db =>
      db = d ∧ found = storedMatches stored p.chain n) (On (· = d)) := by
  unfold matchesAt
  refine triple_bind clean_select ?_
  intro hash
  refine clean_fact ?_
  rintro rfl
  rw [hs]
  unfold storedMatches
  cases hstored : stored n with
  | none =>
    rw [lookups_of_none hstored]
    refine triple_pure ?_
    intro w hw
    exact ⟨hw.calls, hw.ok, hw.db, rfl⟩
  | some P =>
    rw [lookups_of_some hstored]
    refine triple_bind (clean_ask (f := fun chain => chain.header n)) ?_
    intro header
    refine clean_fact ?_
    rintro rfl
    refine triple_pure ?_
    intro w hw
    refine ⟨hw.calls, hw.ok, hw.db, ?_⟩
    simp only [Chain.header_hash]

/-- **The walk** finds the root. -/
theorem walkBackToMatch_triple : Triple (Clean p k (· = d)) (walkBackToMatch p.session cfg n)
    (fun root => Clean p (k + walkCalls stored p.chain n) fun db =>
      db = d ∧ root = reorgRoot stored p.chain n) (On (· = d)) := by
  induction n generalizing k with
  | zero =>
    unfold walkBackToMatch
    refine triple_bind (matchesAt_triple hs) ?_
    intro found
    refine clean_fact ?_
    rintro rfl
    refine triple_pure ?_
    intro w hw
    exact ⟨hw.calls, hw.ok, hw.db, rfl⟩
  | succ n ih =>
    unfold walkBackToMatch walkCalls reorgRoot
    refine triple_bind (matchesAt_triple hs) ?_
    intro found
    refine clean_fact ?_
    rintro rfl
    split
    · refine triple_pure ?_
      intro w hw
      exact ⟨hw.calls, hw.ok, hw.db, rfl⟩
    · rw [← Nat.add_assoc]
      exact ih

end Walk

/-! ### The check -/

/-- Another header is on the chain at the cursor than the one stored. -/
def Reorganized (stored : ℕ → Option BlockHash) (chain : Chain) (c : Option ℕ) : Prop :=
  ∃ n P Q, c = some n ∧ stored n = some P ∧ chain.hashAt n = some Q ∧ Q ≠ P

/-- The calls of the check when it does not roll back. -/
def checkCalls (stored : ℕ → Option BlockHash) : Option ℕ → ℕ
  | none => 0
  | some n => lookups stored n

section Check

variable (hs : ∀ n, d.getBlockHash cfg.chainId n = stored n)

include hs

theorem reorgCheck_quiet (h : ¬ Reorganized stored p.chain c) :
    Triple (Clean p k (· = d)) (reorgCheck p.session cfg c)
      (fun r => Clean p (k + checkCalls stored c) fun db => db = d ∧ r = (c, false)) (On (· = d)) := by
  cases c with
  | none =>
    refine triple_pure ?_
    intro w hw
    exact ⟨hw.calls, hw.ok, hw.db, rfl⟩
  | some n =>
    unfold reorgCheck checkCalls
    refine triple_bind clean_select ?_
    intro hash
    refine clean_fact ?_
    rintro rfl
    rw [hs]
    cases hstored : stored n with
    | none =>
      dsimp only
      rw [lookups_of_none hstored]
      refine triple_pure ?_
      intro w hw
      exact ⟨hw.calls, hw.ok, hw.db, rfl⟩
    | some P =>
      dsimp only
      rw [lookups_of_some hstored]
      refine triple_bind (clean_ask (f := fun chain => chain.header n)) ?_
      intro header
      refine clean_fact ?_
      rintro rfl
      have hhash : (p.chain.header n).map (fun h => h.hash) = p.chain.hashAt n := Chain.header_hash
      cases hheader : p.chain.header n with
      | none =>
        refine triple_pure ?_
        intro w hw
        exact ⟨hw.calls, hw.ok, hw.db, rfl⟩
      | some header =>
        rw [hheader] at hhash
        have hsame : ¬ header.hash ≠ P := by
          intro hne
          exact h ⟨n, P, header.hash, rfl, hstored, hhash.symm, hne⟩
        dsimp only
        rw [if_neg hsame]
        refine triple_pure ?_
        intro w hw
        exact ⟨hw.calls, hw.ok, hw.db, rfl⟩

theorem reorgCheck_rollback {P Q : BlockHash} (hstored : stored n = some P)
    (hhash : p.chain.hashAt n = some Q) (hne : Q ≠ P) (hroot : root = reorgRoot stored p.chain n)
    (hdelete : Db.deleteAboveBlock cfg.chainId root d = .ok ((), d.belowRoot cfg.chainId root)) :
    Triple (Clean p k (· = d)) (reorgCheck p.session cfg (some n))
      (fun r => Clean p (k + 3 + walkCalls stored p.chain n) fun db =>
        db = d.belowRoot cfg.chainId root ∧ r = (resumeAt root, true)) (On (· = d)) := by
  unfold reorgCheck
  refine triple_bind clean_select ?_
  intro hash
  refine clean_fact ?_
  rintro rfl
  rw [hs, hstored]
  refine triple_bind (clean_ask (f := fun chain => chain.header n)) ?_
  intro header
  refine clean_fact ?_
  rintro rfl
  obtain ⟨header, hheader, rfl⟩ := Option.map_eq_some_iff.mp (Chain.header_hash.trans hhash)
  rw [hheader]
  dsimp only
  rw [if_pos hne]
  refine triple_bind (walkBackToMatch_triple hs) ?_
  intro root'
  refine clean_fact ?_
  rintro rfl
  rw [← hroot]
  refine triple_bind (clean_sql (Q := fun _ db => db = d.belowRoot cfg.chainId root) ?_) ?_
  · rintro db rfl
    exact ⟨(), _, hdelete, rfl⟩
  · intro _
    refine triple_pure ?_
    intro w hw
    have hcount : k + 1 + 1 + walkCalls stored p.chain n + 1 =
        k + 3 + walkCalls stored p.chain n := by omega
    exact ⟨hcount ▸ hw.calls, hcount ▸ hw.ok, hw.db, rfl⟩

end Check

end RobotMoney.Indexer
