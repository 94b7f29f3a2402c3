import RobotMoney.Indexer.Tick

/-!
# What the statements do to the rows of events

The tables of events are seen through `Db.Holds`, and the headers through `Db.getBlockHash`: one lemma
for each statement that changes what they show, and `Unmoved` for those that do not.  `recordsAt` are
the rows that the events at a height of a chain ought to have.
-/

namespace RobotMoney.Indexer

open RobotMoney.Lib

variable {db db' : Db} {x y : Record} {cfg : IndexerConfig}

/-! ### Statements -/

/-- The headers and the rows of events are as before. -/
structure Unmoved (db db' : Db) : Prop where
  blocks : db'.blocks = db.blocks
  holds : ∀ x, db'.Holds x ↔ db.Holds x

theorem Unmoved.getBlockHash (h : Unmoved db db') {chainId : ℤ} {n : ℕ} :
    db'.getBlockHash chainId n = db.getBlockHash chainId n := by
  unfold Db.getBlockHash
  rw [h.blocks]

theorem Unmoved.trans {db'' : Db} (h : Unmoved db db') (h' : Unmoved db' db'') : Unmoved db db'' :=
  ⟨h'.blocks.trans h.blocks, fun x => (h'.holds x).trans (h.holds x)⟩

/-- Headers and rows are in other tables. -/
theorem unmoved_of_tables (hb : db'.blocks = db.blocks) (h₁ : db'.agentDeposits = db.agentDeposits)
    (h₂ : db'.agentPolicies = db.agentPolicies) (h₃ : db'.routerDepositLegs = db.routerDepositLegs)
    (h₄ : db'.routerWeightSnapshots = db.routerWeightSnapshots)
    (h₅ : db'.governanceVotes = db.governanceVotes)
    (h₆ : db'.governanceProposals = db.governanceProposals) : Unmoved db db' := by
  refine ⟨hb, ?_⟩
  intro x
  cases x with
  | deposit r => exact Eq.to_iff (congrArg (r ∈ ·) h₁)
  | policy r => exact Eq.to_iff (congrArg (r ∈ ·) h₂)
  | leg r => exact Eq.to_iff (congrArg (r ∈ ·) h₃)
  | weight r => exact Eq.to_iff (congrArg (r ∈ ·) h₄)
  | vote r => exact Eq.to_iff (congrArg (r ∈ ·) h₅)
  | proposal r =>
    unfold Db.Holds
    rw [h₆]

/-- An update of proposals that leaves what is written once. -/
theorem mem_map_core {ps : List ProposalRow} {f : ProposalRow → ProposalRow}
    (hf : ∀ p, (f p).core = p.core) {c : ProposalCore} :
    (∃ p ∈ ps.map f, p.core = c) ↔ ∃ p ∈ ps, p.core = c := by
  constructor
  · rintro ⟨q, hq, rfl⟩
    obtain ⟨p, hp, rfl⟩ := List.mem_map.mp hq
    exact ⟨p, hp, (hf p).symm⟩
  · rintro ⟨p, hp, rfl⟩
    exact ⟨f p, List.mem_map_of_mem hp, hf p⟩

theorem Record.forall_iff {P : Record → Prop} :
    (∀ z, P z) ↔ (∀ r, P (.deposit r)) ∧ (∀ r, P (.policy r)) ∧ (∀ r, P (.leg r)) ∧
      (∀ r, P (.weight r)) ∧ (∀ r, P (.vote r)) ∧ (∀ r, P (.proposal r)) := by
  constructor
  · intro h
    exact ⟨fun r => h _, fun r => h _, fun r => h _, fun r => h _, fun r => h _, fun r => h _⟩
  · rintro ⟨h₁, h₂, h₃, h₄, h₅, h₆⟩ (r | r | r | r | r | r)
    · exact h₁ r
    · exact h₂ r
    · exact h₃ r
    · exact h₄ r
    · exact h₅ r
    · exact h₆ r

/-- A key names its chain. -/
theorem chainId_of_key (h : x.key = y.key) : x.position.chainId = y.position.chainId := by
  cases x <;> cases y <;> first
    | (injection h with h; exact congrArg Prod.fst h)
    | cases h

/-- A vote is inserted, unless its key is taken, and its proposal is tallied. -/
theorem insertVote_eq_ok {r : VoteRow} {n : ℕ} (h : Db.insertVote r db = .ok (n, db')) :
    (db' = db ∧ ∃ v ∈ db.governanceVotes, v.voteKey = r.voteKey) ∨
      (db' = { db with
          governanceVotes := db.governanceVotes ++ [r]
          governanceProposals := db.governanceProposals.map fun p =>
            if p.core.proposalKey = (r.chainId, r.proposalId) then Db.tally r.support p else p } ∧
        ∀ v ∈ db.governanceVotes, v.voteKey ≠ r.voteKey) := by
  unfold Db.insertVote at h
  split at h
  · rename_i htaken
    cases h
    exact .inl ⟨rfl, Table.taken_iff.mp htaken⟩
  · rename_i hfree
    split at h
    · cases h
      refine .inr ⟨rfl, ?_⟩
      intro v hv hk
      exact hfree (Table.taken_iff.mpr ⟨v, hv, hk⟩)
    · cases h

theorem tally_core {k : ℤ × ℕ} {support : Bool} (p : ProposalRow) :
    (if p.core.proposalKey = k then Db.tally support p else p).core = p.core := by
  unfold Db.tally
  split
  · split <;> rfl
  · rfl

/-- What an insert of a row does: nothing when the key is taken. -/
theorem holds_insertRecord {n : ℕ} (h : Db.insertRecord x db = .ok (n, db')) (y : Record) :
    db'.Holds y ↔ db.Holds y ∨ (y = x ∧ ∀ z, db.Holds z → z.key ≠ x.key) := by
  rw [Record.forall_iff]
  cases x with
  | vote r =>
    rcases insertVote_eq_ok h with ⟨rfl, v, hv, hk⟩ | ⟨rfl, hfree⟩
    · constructor
      · exact .inl
      · rintro (hy | ⟨-, hnone⟩)
        · exact hy
        · exact absurd (congrArg RecordKey.vote hk) (hnone.2.2.2.2.1 v hv)
    · cases y with
      | proposal c =>
        refine (mem_map_core tally_core).trans ?_
        simp [Db.Holds]
      | vote v =>
        have hnone : (∀ v ∈ db.governanceVotes, ¬ v.voteKey = r.voteKey) ↔ True :=
          iff_of_true hfree trivial
        simp [Db.Holds, Record.key, hnone]
      | _ => simp [Db.Holds]
  | proposal r =>
    cases h
    cases y with
    | proposal c =>
      simp only [Db.Holds, Record.key, Table.mem_insertNew]
      constructor
      · rintro ⟨p, hp | ⟨rfl, hfree⟩, rfl⟩
        · exact .inl ⟨p, hp, rfl⟩
        · right
          simpa using hfree
      · rintro (⟨p, hp, rfl⟩ | ⟨hc, hfree⟩)
        · exact ⟨p, .inl hp, rfl⟩
        · cases hc
          refine ⟨{ core := r }, .inr ⟨rfl, ?_⟩, rfl⟩
          simpa using hfree
    | _ => simp [Db.Holds]
  | _ =>
    cases h
    cases y <;> simp [Db.Holds, Record.key, Table.mem_insertNew]

/-- Which parts an insert of a row leaves. -/
theorem insertRecord_frame {n : ℕ} (h : Db.insertRecord x db = .ok (n, db')) :
    db'.blocks = db.blocks ∧ db'.contracts = db.contracts ∧ db'.vaults = db.vaults ∧
      (db'.indexerRuns, db'.nextRun) = (db.indexerRuns, db.nextRun) := by
  cases x with
  | vote r =>
    rcases insertVote_eq_ok h with ⟨rfl, -⟩ | ⟨rfl, -⟩
    · exact ⟨rfl, rfl, rfl, rfl⟩
    · exact ⟨rfl, rfl, rfl, rfl⟩
  | _ =>
    cases h
    exact ⟨rfl, rfl, rfl, rfl⟩

theorem insertRecord_snapshots {n : ℕ} (h : Db.insertRecord x db = .ok (n, db')) :
    db'.vaultSnapshots = db.vaultSnapshots := by
  cases x with
  | vote r =>
    rcases insertVote_eq_ok h with ⟨rfl, -⟩ | ⟨rfl, -⟩
    · rfl
    · rfl
  | _ =>
    cases h
    rfl

/-- Keys stay keys. -/
theorem keyed_insertRecord {n : ℕ} (hok : Db.insertRecord x db = .ok (n, db'))
    (h : ∀ y z, db.Holds y → db.Holds z → y.key = z.key → y = z) :
    ∀ y z, db'.Holds y → db'.Holds z → y.key = z.key → y = z := by
  intro y z hy hz hkey
  rcases (holds_insertRecord hok y).mp hy with hy | ⟨rfl, hfree⟩
  · rcases (holds_insertRecord hok z).mp hz with hz | ⟨rfl, hfree⟩
    · exact h y z hy hz hkey
    · exact absurd hkey (hfree y hy)
  · rcases (holds_insertRecord hok z).mp hz with hz | ⟨rfl, -⟩
    · exact absurd hkey.symm (hfree z hz)
    · rfl

/-- An insert fails only for a vote without its proposal. -/
theorem insertRecord_ok
    (h : ∀ v, x = .vote v → ∃ c, db.Holds (.proposal c) ∧ c.proposalKey = (v.chainId, v.proposalId)) :
    ∃ r, Db.insertRecord x db = .ok r := by
  cases x with
  | vote v =>
    obtain ⟨c, ⟨p, hp, rfl⟩, hk⟩ := h v rfl
    have htaken : Table.taken (fun r : ProposalRow => r.core.proposalKey) db.governanceProposals
        (v.chainId, v.proposalId) = true := Table.taken_iff.mpr ⟨p, hp, hk⟩
    show ∃ r, Db.insertVote v db = .ok r
    unfold Db.insertVote
    rw [if_pos htaken]
    split
    · exact ⟨_, rfl⟩
    · exact ⟨_, rfl⟩
  | _ => exact ⟨_, rfl⟩

theorem upsertVault_eq_ok {r : VaultRow} {n : ℕ} (h : Db.upsertVault r db = .ok (n, db')) :
    Db.isText r.name = true ∧ db' = { db with vaults := Table.insertNew VaultRow.key db.vaults r } := by
  unfold Db.upsertVault at h
  split at h
  · rename_i htext
    cases h
    exact ⟨htext, rfl⟩
  · cases h

theorem unmoved_executeProposal {chainId : ℤ} {proposalId executedBlock n : ℕ}
    (h : Db.executeProposal chainId proposalId executedBlock db = .ok (n, db')) : Unmoved db db' := by
  cases h
  refine ⟨rfl, ?_⟩
  intro x
  cases x with
  | proposal c =>
    refine mem_map_core ?_
    intro p
    split <;> rfl
  | _ => exact Iff.rfl

/-! ### Headers -/

theorem getBlockHash_insertBlock {r : BlockRow} {n : ℕ} (h : Db.insertBlock r db = .ok (n, db'))
    (chainId : ℤ) (k : ℕ) : db'.getBlockHash chainId k =
      (db.getBlockHash chainId k).or (if r.key = (chainId, k) then some r.hash else none) := by
  cases h
  unfold Db.getBlockHash
  rw [Table.lookup_insertNew]
  cases Table.lookup BlockRow.key db.blocks (chainId, k) with
  | some z => rfl
  | none =>
    rw [Option.none_or]
    split <;> rfl

/-! ### Rollback -/

theorem above_iff {chainId root rowChain : ℤ} {rowBlock : ℕ} :
    Db.above chainId root rowChain rowBlock = true ↔ rowChain = chainId ∧ root < (rowBlock : ℤ) := by
  simp [Db.above]

/-- A rollback deletes the rows above its root. -/
theorem holds_belowRoot {chainId root : ℤ} (y : Record) :
    (db.belowRoot chainId root).Holds y ↔ db.Holds y ∧
      ¬ (y.position.chainId = chainId ∧ root < (y.position.blockNumber : ℤ)) := by
  rw [← above_iff, Bool.not_eq_true]
  cases y with
  | proposal c =>
    constructor
    · rintro ⟨p, hp, rfl⟩
      obtain ⟨hp, hroot⟩ := List.mem_filter.mp hp
      refine ⟨⟨p, hp, rfl⟩, ?_⟩
      show Db.above chainId root p.core.chainId p.core.blockNumber = false
      simpa using hroot
    · rintro ⟨⟨p, hp, rfl⟩, hroot⟩
      have hroot : Db.above chainId root p.core.chainId p.core.blockNumber = false := hroot
      exact ⟨p, List.mem_filter.mpr ⟨hp, by simp [hroot]⟩, rfl⟩
  | _ =>
    refine List.mem_filter.trans (and_congr_right fun _ => ?_)
    rw [Bool.not_eq_true']
    rfl

theorem getBlockHash_belowRoot {chainId root : ℤ} {n : ℕ} :
    (db.belowRoot chainId root).getBlockHash chainId n =
      if root < (n : ℤ) then none else db.getBlockHash chainId n := by
  unfold Db.getBlockHash
  show Option.map _ (Table.lookup BlockRow.key (db.blocks.filter _) (chainId, n)) = _
  split
  · rename_i hroot
    rw [Table.lookup_filter_none]
    · rfl
    · intro r _ hk
      obtain ⟨hc, hb⟩ := Prod.mk.injEq .. ▸ hk
      have habove := above_iff.mpr (⟨hc, hb ▸ hroot⟩ :
        r.chainId = chainId ∧ root < (r.blockNumber : ℤ))
      simp [habove]
  · rename_i hroot
    rw [Table.lookup_filter]
    intro r _ hk
    obtain ⟨hc, hb⟩ := Prod.mk.injEq .. ▸ hk
    have hkeep : Db.above chainId root r.chainId r.blockNumber = false := by
      rw [← Bool.not_eq_true, above_iff, hb]
      exact fun h => hroot h.2
    simp [hkeep]

/-! ### The rows a chain ought to have -/

/-- The row of a log, if it decodes to an event that has one. -/
def recordOf (cfg : IndexerConfig) (e : LogEntry) : Option Record :=
  match e.log.data with
  | .event ev => ev.record cfg e
  | _ => none

/-- The rows of the watched events at a height. -/
def recordsAt (cfg : IndexerConfig) (bs : List Block) (n : ℕ) : List Record :=
  ((logsAt bs n).filter (watches cfg)).filterMap (recordOf cfg)

/-- The rows of all watched events, in their order on the chain. -/
def records (cfg : IndexerConfig) (bs : List Block) : List Record :=
  (List.range bs.length).flatMap (recordsAt cfg bs)

variable {bs : List Block} {chain : Chain} {n k src dst : ℕ}

theorem recordsAt_take (h : n < k) : recordsAt cfg (bs.take k) n = recordsAt cfg bs n := by
  unfold recordsAt
  rw [logsAt_take h]

theorem recordOf_position {e : LogEntry} (h : recordOf cfg e = some x) :
    x.position = e.position cfg := by
  unfold recordOf at h
  split at h
  · rename_i ev _
    cases ev <;> cases h <;> rfl
  · cases h

theorem recordsAt_position (h : x ∈ recordsAt cfg bs n) :
    x.position.chainId = cfg.chainId ∧ x.position.blockNumber = n ∧ n < bs.length := by
  obtain ⟨e, he, hx⟩ := List.mem_filterMap.mp h
  obtain ⟨hnum, hlt⟩ := logsAt_blockNumber (List.mem_filter.mp he).1
  rw [recordOf_position hx]
  exact ⟨rfl, hnum, hlt⟩

theorem mem_records : x ∈ records cfg bs ↔ ∃ n, x ∈ recordsAt cfg bs n := by
  unfold records
  rw [List.mem_flatMap]
  constructor
  · rintro ⟨n, -, hx⟩
    exact ⟨n, hx⟩
  · rintro ⟨n, hx⟩
    exact ⟨n, List.mem_range.mpr (recordsAt_position hx).2.2, hx⟩

/-- The rows come in the order of their heights. -/
theorem records_pairwise : (records cfg bs).Pairwise fun x y =>
    x.position.blockNumber ≤ y.position.blockNumber := by
  unfold records
  rw [List.pairwise_flatMap]
  constructor
  · intro n _
    refine List.pairwise_of_forall_mem_list ?_
    intro x hx y hy
    rw [(recordsAt_position hx).2.1, (recordsAt_position hy).2.1]
  · refine List.pairwise_lt_range.imp ?_
    intro n m hlt x hx y hy
    rw [(recordsAt_position hx).2.1, (recordsAt_position hy).2.1]
    omega

theorem mem_watchedLogs {e : LogEntry} : e ∈ watchedLogs cfg chain src dst ↔
    watches cfg e = true ∧ ∃ n, src ≤ n ∧ n ≤ dst ∧ e ∈ logsAt chain.blocks n := by
  unfold watchedLogs Chain.logsBetween
  rw [List.mem_filter, List.mem_flatMap, and_comm]
  refine and_congr_right fun _ => ?_
  constructor
  · rintro ⟨n, hn, he⟩
    obtain ⟨h₁, h₂⟩ := List.mem_range'_1.mp hn
    exact ⟨n, h₁, by omega, he⟩
  · rintro ⟨n, h₁, h₂, he⟩
    exact ⟨n, List.mem_range'_1.mpr ⟨h₁, by omega⟩, he⟩

/-- The rows of a range of logs. -/
theorem filterMap_watchedLogs : (watchedLogs cfg chain src dst).filterMap (recordOf cfg) =
    (List.range' src (dst + 1 - src)).flatMap (recordsAt cfg chain.blocks) := by
  unfold watchedLogs Chain.logsBetween recordsAt
  rw [List.filter_flatMap, List.filterMap_flatMap]

/-- A range of the chain, with what is before and after it. -/
theorem records_split (h : src ≤ dst) (hdst : dst < chain.blocks.length) :
    records cfg chain.blocks =
      (List.range src).flatMap (recordsAt cfg chain.blocks) ++
        (watchedLogs cfg chain src dst).filterMap (recordOf cfg) ++
        (List.range' (dst + 1) (chain.blocks.length - (dst + 1))).flatMap
          (recordsAt cfg chain.blocks) := by
  rw [filterMap_watchedLogs, ← List.flatMap_append, ← List.flatMap_append]
  unfold records
  congr 1
  have h₁ : List.range' 0 src ++ List.range' src (dst + 1 - src) = List.range' 0 (dst + 1) := by
    have := List.range'_append_1 (s := 0) (m := src) (n := dst + 1 - src)
    rwa [Nat.zero_add, Nat.add_sub_cancel' (by omega)] at this
  have h₂ : List.range' 0 (dst + 1) ++ List.range' (dst + 1) (chain.blocks.length - (dst + 1)) =
      List.range' 0 chain.blocks.length := by
    have := List.range'_append_1 (s := 0) (m := dst + 1) (n := chain.blocks.length - (dst + 1))
    rwa [Nat.zero_add, Nat.add_sub_cancel' (by omega)] at this
  rw [List.range_eq_range', List.range_eq_range', h₁, h₂]

end RobotMoney.Indexer
