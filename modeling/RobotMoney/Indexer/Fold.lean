import RobotMoney.Indexer.Freshness

/-!
# What a tick does to the tables of events

`EventTables` are the tables that `handle_log` writes, and `handle` is what it does to them when it does
not fail.  A tick that ends without an error has handled the logs of its range in their order, after a
rollback if there was one (`Ticked.quiet`, `Ticked.rolled`).  So after any number of such ticks on one
chain, the tables are those of its logs up to the cursor (`Indexes.events`).
-/

namespace RobotMoney.Indexer

open RobotMoney.Lib Fallible

/-- The tables that `handle_log` writes. -/
structure EventTables where
  agentDeposits : List DepositRow
  agentPolicies : List PolicyRow
  routerDepositLegs : List LegRow
  routerWeightSnapshots : List WeightRow
  governanceVotes : List VoteRow
  governanceProposals : List ProposalRow
  vaults : List VaultRow

def Db.events (db : Db) : EventTables :=
  ⟨db.agentDeposits, db.agentPolicies, db.routerDepositLegs, db.routerWeightSnapshots,
    db.governanceVotes, db.governanceProposals, db.vaults⟩

/-- The row of a vault that a log registers. -/
def registeredRow (cfg : IndexerConfig) (e : LogEntry) (vault : Address) (name : String) : VaultRow :=
  { chainId := cfg.chainId
    vaultAddress := vault
    name
    riskLabel := "stable-yield"
    depositCap := 0
    status := 0
    registeredAt := e.blockNumber
    registeredBlock := e.blockNumber
    registeredTx := e.log.txHash }

/-- The row of a vote that a log tells of. -/
def voteRow (cfg : IndexerConfig) (e : LogEntry) (i : ℕ) (voter : Address) (power : ℕ) : VoteRow :=
  { e.position cfg with proposalId := clampI64 i, voter, support := true, weight := power }

/-- A vault after a change of status of the one with the key `k`. -/
def VaultRow.withStatus (k : ℤ × Address) (newStatus changedAt : ℕ) (r : VaultRow) : VaultRow :=
  if r.key = k then { r with status := newStatus, statusChangedAt := some changedAt } else r

/-- A proposal after a vote. -/
def ProposalRow.counted (v : VoteRow) (p : ProposalRow) : ProposalRow :=
  if p.core.proposalKey = (v.chainId, v.proposalId) then Db.tally v.support p else p

/-- A proposal after the execution of the one with the key `k`. -/
def ProposalRow.executedAt (k : ℤ × ℕ) (n : ℕ) (p : ProposalRow) : ProposalRow :=
  if p.core.proposalKey = k ∧ p.status < 2 then { p with status := 2, executedBlock := some n } else p

namespace EventTables

def empty : EventTables := ⟨[], [], [], [], [], [], []⟩

/-- The tables after the insert of a row. -/
def insert (t : EventTables) : Record → EventTables
  | .deposit r => { t with agentDeposits := Table.insertNew (fun r => r.key) t.agentDeposits r }
  | .policy r => { t with agentPolicies := Table.insertNew (fun r => r.key) t.agentPolicies r }
  | .leg r => { t with routerDepositLegs := Table.insertNew (fun r => r.key) t.routerDepositLegs r }
  | .weight r =>
    { t with routerWeightSnapshots := Table.insertNew WeightRow.weightKey t.routerWeightSnapshots r }
  | .vote r =>
    if Table.taken VoteRow.voteKey t.governanceVotes r.voteKey then t
    else
      { t with
        governanceVotes := t.governanceVotes ++ [r]
        governanceProposals := t.governanceProposals.map (ProposalRow.counted r) }
  | .proposal r =>
    { t with
      governanceProposals :=
        Table.insertNew (fun r => r.core.proposalKey) t.governanceProposals { core := r } }

/-- The tables after an event without a row of its own. -/
def update (cfg : IndexerConfig) (t : EventTables) (e : LogEntry) : Event → EventTables
  | .vaultRegistered vault name _ =>
    { t with vaults := Table.insertNew VaultRow.key t.vaults (registeredRow cfg e vault name) }
  | .vaultStatusChanged vault newStatus timestamp =>
    { t with
      vaults := t.vaults.map (VaultRow.withStatus (cfg.chainId, vault) newStatus (clampI64 timestamp)) }
  | .proposalExecuted proposalId _ =>
    { t with
      governanceProposals := t.governanceProposals.map
        (ProposalRow.executedAt (cfg.chainId, clampI64 proposalId) e.blockNumber) }
  | _ => t

/-- The tables after a log. -/
def handle (cfg : IndexerConfig) (t : EventTables) (e : LogEntry) : EventTables :=
  match e.log.data with
  | .event ev =>
    match ev.record cfg e with
    | some x => t.insert x
    | none => t.update cfg e ev
  | _ => t

/-- The tables after some logs. -/
def handleAll (cfg : IndexerConfig) (t : EventTables) (logs : List LogEntry) : EventTables :=
  logs.foldl (handle cfg) t

/-- The rows that a rollback leaves; vaults are not rolled back. -/
def belowRoot (chainId root : ℤ) (t : EventTables) : EventTables :=
  { t with
    agentDeposits := t.agentDeposits.filter fun r => !Db.above chainId root r.chainId r.blockNumber
    agentPolicies := t.agentPolicies.filter fun r => !Db.above chainId root r.chainId r.blockNumber
    routerDepositLegs :=
      t.routerDepositLegs.filter fun r => !Db.above chainId root r.chainId r.blockNumber
    routerWeightSnapshots :=
      t.routerWeightSnapshots.filter fun r => !Db.above chainId root r.chainId r.blockNumber
    governanceVotes := t.governanceVotes.filter fun r => !Db.above chainId root r.chainId r.blockNumber
    governanceProposals := t.governanceProposals.filter fun r =>
      !Db.above chainId root r.core.chainId r.core.blockNumber }

variable {cfg : IndexerConfig} {t : EventTables} {e : LogEntry} {logs logs' : List LogEntry}

theorem handleAll_cons : t.handleAll cfg (e :: logs) = (t.handle cfg e).handleAll cfg logs := rfl

theorem handleAll_append :
    t.handleAll cfg (logs ++ logs') = (t.handleAll cfg logs).handleAll cfg logs' :=
  List.foldl_append

theorem handleAll_snoc : t.handleAll cfg (logs ++ [e]) = (t.handleAll cfg logs).handle cfg e :=
  handleAll_append

end EventTables

variable {cfg : IndexerConfig} {sess : Session} {p : Poll} {db db' d : Db} {x : Record}
  {t : EventTables} {runs : List RunRow × ℕ} {n : ℕ} {c : Option ℕ}

/-! ### Statements -/

theorem events_belowRoot {root : ℤ} :
    (db.belowRoot cfg.chainId root).events = db.events.belowRoot cfg.chainId root := rfl

theorem events_insertRecord (h : Db.insertRecord x db = .ok (n, db')) :
    db'.events = db.events.insert x := by
  cases x with
  | vote r =>
    have h : Db.insertVote r db = .ok (n, db') := h
    unfold Db.insertVote at h
    show db'.events = if Table.taken VoteRow.voteKey db.governanceVotes r.voteKey then db.events else _
    split at h
    · rename_i htaken
      cases h
      rw [if_pos htaken]
    · rename_i hfree
      rw [if_neg hfree]
      split at h
      · cases h
        rfl
      · cases h
  | _ =>
    cases h
    rfl

/-- The tables of events, and the runs. -/
def Stands (t : EventTables) (runs : List RunRow × ℕ) (db : Db) : Prop :=
  db.events = t ∧ (db.indexerRuns, db.nextRun) = runs

theorem stands_self : Stands db.events (db.indexerRuns, db.nextRun) db := ⟨rfl, rfl⟩

/-- A statement in a computation whose failures do not matter. -/
theorem triple_stands {α : Type} {f : Statement α} {t' : EventTables}
    (hf : ∀ db a db', Stands t runs db → f db = .ok (a, db') → Stands t' runs db') :
    Triple (On (Stands t runs)) (sql sess f) (fun _ => On (Stands t' runs)) (fun _ => True) :=
  triple_conseq (past_sql (Q := fun _ => Stands t' runs) (k := 0) hf) (fun _ hs => ⟨Nat.zero_le _, hs⟩)
    (fun _ _ hs => hs.2) fun _ _ => trivial

theorem triple_lenient {α : Type} {P : World → Prop} {Q : α → World → Prop} {E : World → Prop}
    {m : Tick α} (h : Triple P m Q E) : Triple P m Q (fun _ => True) :=
  triple_error h fun _ _ => trivial

/-! ### Logs -/

theorem handleUpdate_stands {e : LogEntry} {ev : Event} (hnone : ev.record cfg e = none) :
    Triple (On (Stands t runs)) (handleUpdate sess cfg e ev)
      (fun _ => On (Stands (t.update cfg e ev) runs)) (fun _ => True) := by
  cases ev with
  | vaultRegistered vault name asset =>
    unfold handleUpdate
    refine triple_bind (Q := fun _ => On (Stands t runs)) (triple_stands ?_) ?_
    · rintro db r db' ⟨rfl, rfl⟩ hok
      cases hok
      exact ⟨rfl, rfl⟩
    · intro r
      refine triple_stands ?_
      rintro db r db' ⟨rfl, rfl⟩ hok
      obtain ⟨-, rfl⟩ := upsertVault_eq_ok hok
      exact ⟨rfl, rfl⟩
  | vaultStatusChanged vault newStatus timestamp =>
    unfold handleUpdate
    refine triple_stands ?_
    rintro db r db' ⟨rfl, rfl⟩ hok
    cases hok
    exact ⟨rfl, rfl⟩
  | proposalExecuted proposalId executor =>
    unfold handleUpdate
    refine triple_stands ?_
    rintro db r db' ⟨rfl, rfl⟩ hok
    cases hok
    exact ⟨rfl, rfl⟩
  | _ => cases hnone

theorem handleLog_stands {e : LogEntry} :
    Triple (On (Stands t runs)) (handleLog sess cfg e)
      (fun _ => On (Stands (t.handle cfg e) runs)) (fun _ => True) := by
  unfold handleLog EventTables.handle
  cases e.log.data with
  | foreign => exact triple_pure fun _ hs => hs
  | raw tp =>
    dsimp only
    split
    · exact triple_fail fun _ _ => trivial
    · exact triple_pure fun _ hs => hs
  | event ev =>
    dsimp only
    cases hrecord : ev.record cfg e with
    | none => exact handleUpdate_stands hrecord
    | some x =>
      refine triple_stands ?_
      rintro db r db' ⟨rfl, rfl⟩ hok
      obtain ⟨-, -, -, hruns⟩ := insertRecord_frame hok
      exact ⟨events_insertRecord hok, hruns⟩

/-! ### Ranges -/

theorem ingestBlock_stands :
    Triple (On (Stands t runs)) (ingestBlock sess cfg n) (fun _ => On (Stands t runs))
      (fun _ => True) := by
  unfold ingestBlock
  refine triple_bind (Q := fun _ => On (Stands t runs)) (triple_lenient (triple_conseq
    (blockWithTxs_past (k := 0)) (fun _ hs => ⟨Nat.zero_le _, hs⟩) (fun _ _ hs => hs.2.2)
    fun _ hs => hs)) ?_
  rintro ⟨header, txs⟩
  refine triple_bind (Q := fun _ => On (Stands t runs)) (triple_stands ?_) ?_
  · rintro db r db' ⟨rfl, rfl⟩ hok
    cases hok
    exact ⟨rfl, rfl⟩
  intro r
  refine triple_bind (Q := fun _ => On (Stands t runs)) (triple_total_keeps ?_) ?_
  · intro tx _
    refine triple_stands ?_
    rintro db r db' ⟨rfl, rfl⟩ hok
    cases hok
    exact ⟨rfl, rfl⟩
  · intro rs
    exact triple_pure fun _ hs => hs

theorem ingestCursor_stands {logs : List LogEntry} :
    Triple (On (Stands t runs)) (ingestCursor sess cfg logs n) (fun _ => On (Stands t runs))
      (fun _ => True) := by
  unfold ingestCursor
  split
  · exact triple_pure fun _ hs => hs
  · refine triple_bind (triple_lenient read_keeps) ?_
    intro header
    cases header with
    | none => exact triple_pure fun _ hs => hs
    | some header =>
      refine triple_stands ?_
      rintro db r db' ⟨rfl, rfl⟩ hok
      cases hok
      exact ⟨rfl, rfl⟩

theorem stands_insertVaultSnapshot (r : SnapshotRow) (n : ℕ) (db db' : Db) (h : Stands t runs db)
    (hok : Db.insertVaultSnapshot r db = .ok (n, db')) : Stands t runs db' := by
  unfold Db.insertVaultSnapshot at hok
  split at hok
  · cases hok
    exact h
  · split at hok
    · cases hok
      exact h
    · cases hok

/-- The ingestion of logs handles them in their order. -/
theorem ingestLogs_stands {logs : List LogEntry} :
    Triple (On (Stands t runs)) (ingestLogs sess cfg logs n)
      (fun _ => On (Stands (t.handleAll cfg logs) runs)) (fun _ => True) := by
  unfold ingestLogs
  refine triple_bind (triple_total_keeps fun n _ => ingestBlock_stands) ?_
  intro r₁
  refine triple_bind ingestCursor_stands ?_
  intro r₂
  refine triple_bind (Q := fun _ => On (Stands (t.handleAll cfg logs) runs))
    (triple_total (I := fun pre => On (Stands (t.handleAll cfg pre) runs)) ?_) ?_
  · intro pre e post _
    rw [EventTables.handleAll_snoc]
    exact handleLog_stands
  intro r₃
  refine triple_bind (triple_total_keeps fun b _ =>
    triple_lenient (snapshotAt_keeps stands_insertVaultSnapshot)) ?_
  intro r₄
  refine triple_bind (triple_lenient select_keeps) ?_
  intro active
  refine triple_bind (triple_total_keeps fun a _ =>
    triple_lenient (heartbeat_keeps stands_insertVaultSnapshot)) ?_
  intro r₅
  exact triple_pure fun _ hs => hs

/-! ### The check -/

/-- The headers of a database, by height. -/
def Db.stored (db : Db) (cfg : IndexerConfig) (n : ℕ) : Option BlockHash :=
  db.getBlockHash cfg.chainId n

/-- Where a check rolls back to, from the cursor `n`. -/
def rootOf (cfg : IndexerConfig) (db : Db) (chain : Chain) (n : ℕ) : ℤ :=
  reorgRoot (db.stored cfg) chain n

section Check

variable {P : Db → Prop}

theorem lenient_select {α : Type} {f : Db → α} :
    Triple (On (· = d)) (select p.session f) (fun a w => a = f d ∧ On (· = d) w) (fun _ => True) := by
  refine triple_error (triple_post (triple_select (E := fun _ => True) (Q := fun a db => a = f d ∧ db = d)
    (fun _ _ _ _ => trivial) ?_) fun _ _ hs => hs) fun _ _ => trivial
  rintro db rfl
  exact ⟨rfl, rfl⟩

theorem lenient_ask {α : Type} {f : Chain → α} :
    Triple (On P) (rpc p.session fun node => .ok (f node.chain)) (fun a w => a = f p.chain ∧ On P w)
      (fun _ => True) := by
  refine triple_error (triple_post (triple_ask (E := fun _ => True) fun _ _ _ _ => trivial) ?_)
    fun _ _ => trivial
  rintro a w ⟨hP, ha⟩
  exact ⟨ha, hP⟩

theorem matchesAt_stands : Triple (On (· = d)) (matchesAt p.session cfg n)
    (fun found w => found = storedMatches (d.stored cfg) p.chain n ∧ On (· = d) w) (fun _ => True) := by
  unfold matchesAt storedMatches Db.stored
  refine triple_bind lenient_select ?_
  intro hash
  refine triple_of_fact (fun _ hs => hs.1) ?_
  rintro rfl
  refine triple_pre (P := On (· = d)) ?_ fun _ hs => hs.2
  cases d.getBlockHash cfg.chainId n with
  | none => exact triple_pure fun _ hs => ⟨rfl, hs⟩
  | some Q =>
    refine triple_bind (lenient_ask (f := fun chain => chain.header n)) ?_
    intro header
    refine triple_pure ?_
    rintro w ⟨rfl, hw⟩
    refine ⟨?_, hw⟩
    simp only [Chain.header_hash]

theorem walkBackToMatch_stands : Triple (On (· = d)) (walkBackToMatch p.session cfg n)
    (fun root w => root = rootOf cfg d p.chain n ∧ On (· = d) w) (fun _ => True) := by
  unfold rootOf
  induction n with
  | zero =>
    unfold walkBackToMatch reorgRoot
    refine triple_bind matchesAt_stands ?_
    intro found
    refine triple_pure ?_
    rintro w ⟨rfl, hw⟩
    exact ⟨rfl, hw⟩
  | succ n ih =>
    unfold walkBackToMatch reorgRoot
    refine triple_bind matchesAt_stands ?_
    intro found
    refine triple_of_fact (fun _ hs => hs.1) ?_
    rintro rfl
    refine triple_pre (P := On (· = d)) ?_ fun _ hs => hs.2
    split
    · exact triple_pure fun _ hs => ⟨rfl, hs⟩
    · exact ih

end Check

/-- What the check leaves, from the cursor `c` and the tables `d`. -/
inductive CheckedTo (cfg : IndexerConfig) (chain : Chain) (c : Option ℕ) (d : Db) : Option ℕ → Db → Prop where
  | quiet (h : ¬ Reorganized (d.stored cfg) chain c) : CheckedTo cfg chain c d c d
  | rolled {n : ℕ} (h : Reorganized (d.stored cfg) chain c) (hn : c = some n) :
      CheckedTo cfg chain c d (resumeAt (rootOf cfg d chain n))
        (d.belowRoot cfg.chainId (rootOf cfg d chain n))

theorem reorgCheck_stands : Triple (On (· = d)) (reorgCheck p.session cfg c)
    (fun r => On (CheckedTo cfg p.chain c d r.1)) (fun _ => True) := by
  cases c with
  | none =>
    refine triple_pure ?_
    rintro w rfl
    refine .quiet ?_
    rintro ⟨n, P, Q, hn, -⟩
    cases hn
  | some n =>
    unfold reorgCheck
    refine triple_bind lenient_select ?_
    intro hash
    refine triple_of_fact (fun _ hs => hs.1) ?_
    rintro rfl
    refine triple_pre (P := On (· = d)) ?_ fun _ hs => hs.2
    cases hstored : d.getBlockHash cfg.chainId n with
    | none =>
      refine triple_pure ?_
      rintro w rfl
      refine .quiet ?_
      rintro ⟨n', P, Q, hn, hP, -⟩
      cases hn
      cases hstored.symm.trans hP
    | some P =>
      refine triple_bind (lenient_ask (f := fun chain => chain.header n)) ?_
      intro header
      refine triple_of_fact (fun _ hs => hs.1) ?_
      rintro rfl
      refine triple_pre (P := On (· = d)) ?_ fun _ hs => hs.2
      have hhash : (p.chain.header n).map (fun h => h.hash) = p.chain.hashAt n := Chain.header_hash
      cases hheader : p.chain.header n with
      | none =>
        refine triple_pure ?_
        rintro w rfl
        refine .quiet ?_
        rintro ⟨n', P', Q, hn, -, hQ, -⟩
        cases hn
        rw [hheader] at hhash
        cases hhash.trans hQ
      | some header =>
        rw [hheader] at hhash
        dsimp only
        split
        · rename_i hne
          refine triple_bind walkBackToMatch_stands ?_
          intro root
          refine triple_of_fact (fun _ hs => hs.1) ?_
          rintro rfl
          refine triple_bind (triple_conseq (past_sql (k := 0) (P := (· = d)) (Q := fun _ db =>
            db = d.belowRoot cfg.chainId (rootOf cfg d p.chain n)) ?_)
            (fun _ hs => ⟨Nat.zero_le _, hs.2⟩) (fun _ _ hs => hs) fun _ _ => trivial) ?_
          · rintro db a db' rfl hok
            unfold Db.deleteAboveBlock at hok
            split at hok
            · cases hok
            · cases hok
              rfl
          · intro _
            refine triple_pure ?_
            rintro w ⟨-, hw⟩
            show CheckedTo cfg p.chain (some n) d _ w.db
            rw [hw]
            exact .rolled ⟨n, P, header.hash, rfl, hstored, hhash.symm, hne⟩ rfl
        · rename_i hsame
          refine triple_pure ?_
          rintro w rfl
          refine .quiet ?_
          rintro ⟨n', P', Q, hn, hP, hQ, hne⟩
          cases hn
          cases hstored.symm.trans hP
          have hsameHash : header.hash = Q := Option.some.inj (hhash.trans hQ)
          exact hsame (hsameHash ▸ hne)

/-! ### Ticks -/

/-- The watched logs of the heights from `lo` on, below `hi`. -/
def logsIn (cfg : IndexerConfig) (chain : Chain) (lo hi : ℕ) : List LogEntry :=
  ((List.range' lo (hi - lo)).flatMap (logsAt chain.blocks)).filter (watches cfg)

/-- From the cursor `c` and the tables `t`, the logs up to the cursor `c'` were handled. -/
structure Advances (cfg : IndexerConfig) (chain : Chain) (c : Option ℕ) (t : EventTables) (c' : Option ℕ)
    (t' : EventTables) : Prop where
  le : fromBlock c ≤ fromBlock c'
  bound : c' = c ∨ fromBlock c' ≤ chain.blocks.length
  tables : t' = t.handleAll cfg (logsIn cfg chain (fromBlock c) (fromBlock c'))

theorem logsIn_self {chain : Chain} : logsIn cfg chain n n = [] := by
  unfold logsIn
  rw [Nat.sub_self]
  rfl

/-- `run_inner`, when it returns. -/
theorem runInner_stands : Triple (On (· = d)) (runInner p.session cfg c)
    (fun o => On fun db => ∃ c₁ d₁, CheckedTo cfg p.chain c d c₁ d₁ ∧
      Advances cfg p.chain c₁ d₁.events o.lastIndexedBlock db.events ∧
      (db.indexerRuns, db.nextRun) = (d₁.indexerRuns, d₁.nextRun)) (fun _ => True) := by
  unfold runInner
  refine triple_bind reorgCheck_stands ?_
  rintro ⟨c₁, reorg⟩ w hcheck
  have hcheck : CheckedTo cfg p.chain c d c₁ w.db := hcheck
  refine triple_bind (P := On (· = w.db)) (lenient_ask (f := fun chain => chain.tip)) ?_ w rfl
  intro tip
  refine triple_of_fact (fun _ hs => hs.1) ?_
  rintro rfl
  refine triple_pre (P := On (· = w.db)) ?_ fun _ hs => hs.2
  cases htarget : targetOf cfg (fromBlock c₁) p.chain.tip with
  | none =>
    refine triple_pure ?_
    rintro w' hw
    refine ⟨c₁, w.db, hcheck, ⟨le_refl _, .inl rfl, ?_⟩, ?_⟩
    · show w'.db.events = w.db.events.handleAll cfg (logsIn cfg p.chain (fromBlock c₁) (fromBlock c₁))
      rw [logsIn_self, hw]
      rfl
    · rw [hw]
  | some target =>
    obtain ⟨hle, htip⟩ := targetOf_eq_some htarget
    dsimp only
    rw [ingest_eq, bind_assoc]
    refine triple_bind (lenient_ask (f := fun chain => watchedLogs cfg chain (fromBlock c₁) target)) ?_
    intro logs
    refine triple_of_fact (fun _ hs => hs.1) ?_
    rintro rfl
    refine triple_bind (triple_pre (P := On (Stands w.db.events (w.db.indexerRuns, w.db.nextRun)))
      ingestLogs_stands ?_) ?_
    · rintro w' ⟨-, hw⟩
      have hw : w'.db = w.db := hw
      show Stands _ _ w'.db
      rw [hw]
      exact stands_self
    · intro rows
      refine triple_pure ?_
      rintro w' ⟨hevents, hruns⟩
      refine ⟨c₁, w.db, hcheck, ⟨?_, .inr ?_, hevents⟩, hruns⟩
      · show fromBlock c₁ ≤ target + 1
        omega
      · show target + 1 ≤ p.chain.blocks.length
        have := Chain.lt_length_iff.mpr htip
        omega

/-- Before the run of a tick is opened: headers, rows and runs are as they were. -/
def Untouched (db d : Db) : Prop :=
  d.blocks = db.blocks ∧ d.events = db.events ∧ (d.indexerRuns, d.nextRun) = (db.indexerRuns, db.nextRun)

/-- The row of the run that a tick opens. -/
def openRow (cfg : IndexerConfig) (db : Db) : RunRow :=
  { runId := db.nextRun, chainId := cfg.chainId,
    fromBlock := fromBlock (db.lastIndexedBlock cfg.chainId) }

/-- When the run of a tick is open. -/
structure OpenRun (cfg : IndexerConfig) (db d : Db) : Prop where
  blocks : d.blocks = db.blocks
  events : d.events = db.events
  runs : d.indexerRuns = db.indexerRuns ++ [openRow cfg db]
  next : d.nextRun = db.nextRun + 1

theorem OpenRun.stored (h : OpenRun cfg db d) : d.stored cfg = db.stored cfg := by
  funext n
  unfold Db.stored Db.getBlockHash
  rw [h.blocks]

/-- A tick opens its run, or leaves headers, rows and runs as they were. -/
theorem openRun_opens : Triple (On (· = db)) (openRun sess cfg)
    (fun r => On fun d => OpenRun cfg db d ∧ r = (db.lastIndexedBlock cfg.chainId, db.nextRun))
    (On (Untouched db)) := by
  have hupsert : ∀ {r : ContractRow}, Triple (On (Untouched db)) (sql sess (Db.upsertContract r))
      (fun _ => On (Untouched db)) (On (Untouched db)) := by
    intro r
    refine sql_keeps ?_
    rintro d a d' h hok
    cases hok
    exact h
  unfold openRun upsertContracts
  simp only [bind_assoc, pure_bind]
  refine triple_bind (Q := fun _ => On (Untouched db)) (triple_pre (P := On (Untouched db))
    (sql_keeps ?_) ?_) ?_
  · intro d a d' h hok
    cases hok
    exact h
  · rintro w rfl
    exact ⟨rfl, rfl, rfl⟩
  intro _
  refine triple_bind hupsert ?_
  intro _
  refine triple_bind hupsert ?_
  intro _
  refine triple_bind (triple_total_keeps fun _ _ => hupsert) ?_
  intro _
  refine triple_bind (triple_total_keeps fun _ _ => hupsert) ?_
  intro _
  refine triple_bind (triple_conseq (past_sql (k := 0) (P := Untouched db) (Q := fun c d =>
    c = db.lastIndexedBlock cfg.chainId ∧ Untouched db d) ?_) (fun _ hs => ⟨Nat.zero_le _, hs⟩)
    (fun _ _ hs => hs.2) fun _ hs => hs) ?_
  · rintro d c d' h hok
    cases hok
    refine ⟨?_, h⟩
    obtain ⟨hruns, -⟩ := Prod.mk.injEq .. ▸ h.2.2
    rw [lastIndexedBlock_eq, lastIndexedBlock_eq, hruns]
  intro c
  refine triple_of_fact (fun _ hs => hs.1) ?_
  rintro rfl
  refine triple_bind (triple_conseq (past_sql (k := 0) (P := Untouched db) (Q := fun runId d =>
    runId = db.nextRun ∧ OpenRun cfg db d) ?_) (fun _ hs => ⟨Nat.zero_le _, hs.2⟩)
    (fun _ _ hs => hs.2) fun _ hs => hs) ?_
  · rintro d runId d' ⟨hblocks, hevents, hruns⟩ hok
    obtain ⟨hruns, hnext⟩ := Prod.mk.injEq .. ▸ hruns
    cases hok
    refine ⟨hnext, hblocks, hevents, ?_, congrArg (· + 1) hnext⟩
    show d.indexerRuns ++ _ = _
    rw [hruns, hnext]
    rfl
  intro runId
  refine triple_pure ?_
  rintro w ⟨rfl, h⟩
  exact ⟨h, rfl⟩

theorem openRun_stands : Triple (On (· = db)) (openRun sess cfg)
    (fun r => On fun d => OpenRun cfg db d ∧ r = (db.lastIndexedBlock cfg.chainId, db.nextRun))
    (fun _ => True) := triple_lenient openRun_opens

/-- The identifiers of runs are below the next one. -/
def FreshRuns (db : Db) : Prop := ∀ r ∈ db.indexerRuns, r.runId < db.nextRun

/-- How a tick that ends without an error got from `db` to `db'`. -/
structure Ticked (cfg : IndexerConfig) (chain : Chain) (db : Db) (o : IndexerOutcome) (db' : Db) :
    Prop where
  fresh : FreshRuns db'
  cursor : fromBlock (db.lastIndexedBlock cfg.chainId) ≤ fromBlock o.lastIndexedBlock →
    db'.lastIndexedBlock cfg.chainId = o.lastIndexedBlock
  tables : ∃ d c₁ d₁, OpenRun cfg db d ∧ CheckedTo cfg chain (db.lastIndexedBlock cfg.chainId) d c₁ d₁ ∧
    Advances cfg chain c₁ d₁.events o.lastIndexedBlock db'.events

theorem CheckedTo.runs_eq {chain : Chain} {c₁ : Option ℕ} {d₁ : Db} (h : CheckedTo cfg chain c d c₁ d₁) :
    (d₁.indexerRuns, d₁.nextRun) = (d.indexerRuns, d.nextRun) := by
  cases h with
  | quiet => rfl
  | rolled => rfl

/-- The record of a run that returned. -/
theorem OpenRun.finish {o : IndexerOutcome} {db₁ : Db} {reorgs : ℕ} (h : OpenRun cfg db d)
    (hfresh : FreshRuns db) (hruns : (db₁.indexerRuns, db₁.nextRun) = (d.indexerRuns, d.nextRun))
    (hok : Db.finishRun db.nextRun o.toBlock o.lastIndexedBlock reorgs o.rowsInserted none db₁ =
      .ok ((), db')) :
    db'.events = db₁.events ∧ FreshRuns db' ∧
      (fromBlock (db.lastIndexedBlock cfg.chainId) ≤ fromBlock o.lastIndexedBlock →
        db'.lastIndexedBlock cfg.chainId = o.lastIndexedBlock) := by
  obtain ⟨hruns, hnext⟩ := Prod.mk.injEq .. ▸ hruns
  rw [h.runs] at hruns
  rw [h.next] at hnext
  have hrow : Db.finishRun (openRow cfg db).runId o.toBlock o.lastIndexedBlock reorgs o.rowsInserted none
      db₁ = .ok ((), _) := finishRun_snoc hruns hfresh
  cases hrow.symm.trans hok
  refine ⟨rfl, ?_, ?_⟩
  · show ∀ r ∈ db.indexerRuns ++ _, r.runId < db₁.nextRun
    rw [hnext]
    exact fresh_snoc hfresh
  · intro hle
    have hreached : RunRow.reached cfg.chainId { openRow cfg db with
        toBlock := o.toBlock, lastIndexedBlock := o.lastIndexedBlock, reorgCount := reorgs,
        rowsInserted := o.rowsInserted, error := none } = o.lastIndexedBlock := if_pos ⟨rfl, rfl⟩
    rw [lastIndexedBlock_eq, filterMap_reached_snoc, hreached]
    exact max?_snoc hle

/-- A run that `run_inner` opened and returned from. -/
theorem finishTick_stands (h : OpenRun cfg db d) (hfresh : FreshRuns db) {src : ℕ} :
    Triple (On (· = d))
      (finishTick p.session cfg db.nextRun src (db.lastIndexedBlock cfg.chainId))
      (fun o => On fun db' => o.error = none → Ticked cfg p.chain db o db') (fun _ => True) := by
  unfold finishTick
  refine triple_bind (triple_attempt (R := fun r w => ∀ o, r = .ok o → ∃ c₁ d₁,
    CheckedTo cfg p.chain (db.lastIndexedBlock cfg.chainId) d c₁ d₁ ∧
      Advances cfg p.chain c₁ d₁.events o.lastIndexedBlock w.db.events ∧
      (w.db.indexerRuns, w.db.nextRun) = (d₁.indexerRuns, d₁.nextRun)) runInner_stands ?_ ?_) ?_
  · rintro o w hw o' ⟨⟩
    exact hw
  · rintro e w _ o ⟨⟩
  intro r
  cases r with
  | ok o =>
    intro w hw
    obtain ⟨c₁, d₁, hcheck, hadv, hruns⟩ := hw o rfl
    refine triple_bind (P := On (· = w.db)) (Q := fun _ => On (Ticked cfg p.chain db o)) ?_ ?_ w rfl
    · refine triple_conseq (past_sql (k := 0) (P := (· = w.db)) (Q := fun _ => Ticked cfg p.chain db o) ?_)
        (fun _ hs => ⟨Nat.zero_le _, hs⟩) (fun _ _ hs => hs.2) fun _ _ => trivial
      rintro db₁ a db' rfl hok
      obtain ⟨hevents, hfresh', hcursor⟩ := h.finish hfresh (hruns.trans hcheck.runs_eq) hok
      exact ⟨hfresh', hcursor, d, c₁, d₁, h, hcheck, hevents ▸ hadv⟩
    · intro _
      refine triple_pure ?_
      intro w' h' _
      exact ⟨h'.fresh, h'.cursor, h'.tables⟩
  | error e =>
    refine triple_bind (Q := fun _ _ => True) ?_ ?_
    · intro w _
      split <;> trivial
    · intro _
      refine triple_pure ?_
      intro w _ herr
      cases herr

/-- **One tick.**  If it ends without an error, it has checked for a reorganization, and handled the logs
of its range. -/
theorem tick_stands {o : IndexerOutcome} (hfresh : FreshRuns db)
    (hok : tick p.session cfg db = (.ok o, db')) (herr : o.error = none) :
    Ticked cfg p.chain db o db' := by
  have h : Triple (On (· = db)) (runOnce p.session cfg)
      (fun o => On fun db' => o.error = none → Ticked cfg p.chain db o db') (fun _ => True) := by
    rw [runOnce_eq]
    refine triple_bind openRun_stands ?_
    rintro r w ⟨hopen, rfl⟩
    exact finishTick_stands hopen hfresh w rfl
  have h := h ⟨db, 0⟩ rfl
  unfold tick at hok
  rcases hrun : runOnce p.session cfg ⟨db, 0⟩ with ⟨e | o', w⟩
  · rw [hrun] at hok
    cases hok
  · rw [hrun] at h hok
    cases hok
    exact h herr

theorem Ticked.quiet {chain : Chain} {o : IndexerOutcome} (h : Ticked cfg chain db o db')
    (hno : ¬ Reorganized (db.stored cfg) chain (db.lastIndexedBlock cfg.chainId)) :
    Advances cfg chain (db.lastIndexedBlock cfg.chainId) db.events o.lastIndexedBlock db'.events := by
  obtain ⟨d, c₁, d₁, hopen, hcheck, hadv⟩ := h.tables
  cases hcheck with
  | quiet => exact hopen.events ▸ hadv
  | rolled hre =>
    rw [hopen.stored] at hre
    exact absurd hre hno

theorem Ticked.rolled {chain : Chain} {o : IndexerOutcome} (h : Ticked cfg chain db o db')
    (hcursor : db.lastIndexedBlock cfg.chainId = some n)
    (hre : Reorganized (db.stored cfg) chain (some n)) :
    Advances cfg chain (resumeAt (rootOf cfg db chain n))
      (db.events.belowRoot cfg.chainId (rootOf cfg db chain n)) o.lastIndexedBlock db'.events := by
  obtain ⟨d, c₁, d₁, hopen, hcheck, hadv⟩ := h.tables
  have hroot : ∀ n, rootOf cfg d chain n = rootOf cfg db chain n := by
    intro n
    unfold rootOf
    rw [hopen.stored]
  cases hcheck with
  | quiet hno =>
    rw [hopen.stored, hcursor] at hno
    exact absurd hre hno
  | rolled hre' hn =>
    cases hcursor.symm.trans hn
    rw [hroot, events_belowRoot, hopen.events] at hadv
    exact hadv

/-! ### Runs of ticks on one chain -/

section Grown

variable {chain chain' : Chain} (hgrown : chain.blocks <+: chain'.blocks)

include hgrown

theorem take_of_grown (hn : n ≤ chain.blocks.length) : chain'.blocks.take n = chain.blocks.take n := by
  obtain ⟨rest, hrest⟩ := hgrown
  rw [← hrest, List.take_append_of_le_length hn]

theorem hashAt_of_grown {P : BlockHash} (h : chain.hashAt n = some P) : chain'.hashAt n = some P := by
  obtain ⟨hlt, rfl⟩ := hashAt_eq_some h
  have hlen := hgrown.length_le
  unfold Chain.hashAt
  rw [if_pos (by omega), take_of_grown hgrown (by omega)]

theorem logsAt_of_grown (hn : n < chain.blocks.length) :
    logsAt chain.blocks n = logsAt chain'.blocks n := by
  rw [← logsAt_take (Nat.lt_succ_self n), ← take_of_grown hgrown (by omega),
    logsAt_take (Nat.lt_succ_self n)]

theorem logsIn_of_grown {lo hi : ℕ} (hhi : hi ≤ chain.blocks.length) :
    logsIn cfg chain lo hi = logsIn cfg chain' lo hi := by
  unfold logsIn
  congr 1
  refine List.flatMap_congr ?_
  intro m hm
  obtain ⟨h₁, h₂⟩ := List.mem_range'_1.mp hm
  exact logsAt_of_grown hgrown (by omega)

/-- What holds of a chain holds of one that has grown from it. -/
theorem Advances.grown {c c' : Option ℕ} {t t' : EventTables} (h : Advances cfg chain c t c' t') :
    Advances cfg chain' c t c' t' := by
  rcases h.bound with rfl | hbound
  · refine ⟨h.le, .inl rfl, ?_⟩
    rw [h.tables, logsIn_self, logsIn_self]
  · refine ⟨h.le, .inr (hbound.trans hgrown.length_le), ?_⟩
    rw [h.tables, logsIn_of_grown hgrown hbound]

end Grown

theorem logsIn_append {chain : Chain} {lo mid hi : ℕ} (h₁ : lo ≤ mid) (h₂ : mid ≤ hi) :
    logsIn cfg chain lo hi = logsIn cfg chain lo mid ++ logsIn cfg chain mid hi := by
  unfold logsIn
  rw [← List.filter_append, ← List.flatMap_append]
  have hsplit := List.range'_append_1 (s := lo) (m := mid - lo) (n := hi - mid)
  rw [show lo + (mid - lo) = mid by omega, show mid - lo + (hi - mid) = hi - lo by omega] at hsplit
  rw [hsplit]

theorem Advances.trans {chain : Chain} {c c' c'' : Option ℕ} {t t' t'' : EventTables}
    (h : Advances cfg chain c t c' t') (h' : Advances cfg chain c' t' c'' t'') :
    Advances cfg chain c t c'' t'' := by
  refine ⟨h.le.trans h'.le, ?_, ?_⟩
  · rcases h'.bound with rfl | hbound
    · exact h.bound
    · exact .inr hbound
  · rw [h'.tables, h.tables, logsIn_append h.le h'.le, EventTables.handleAll_append]

/-- Rows and headers are of one chain. -/
def OnChain (cfg : IndexerConfig) (chain : Chain) (db : Db) : Prop :=
  ∃ S, Origin cfg S (HeadersOf chain) db

theorem OnChain.headers {chain : Chain} (h : OnChain cfg chain db) {P : BlockHash}
    (hP : db.stored cfg n = some P) : chain.hashAt n = some P := by
  obtain ⟨S, ho⟩ := h
  exact ho.headers n P hP

theorem onChain_empty {chain : Chain} : OnChain cfg chain Db.empty := ⟨noSource, origin_empty⟩

theorem OnChain.grown {chain chain' : Chain} (h : OnChain cfg chain db)
    (hgrown : chain.blocks <+: chain'.blocks) : OnChain cfg chain' db := by
  obtain ⟨S, ho⟩ := h
  exact ⟨S, ho.regard fun n P hP => hashAt_of_grown hgrown (ho.headers n P hP)⟩

/-- A tick on the chain, as far as it had grown. -/
theorem OnChain.tick {chain : Chain} (h : OnChain cfg chain db)
    (hgrown : p.chain.blocks <+: chain.blocks) : OnChain cfg chain (tick p.session cfg db).2 := by
  obtain ⟨S, ho⟩ := h
  have hlogs : ∀ n, ∀ e ∈ logsAt p.chain.blocks n, ∀ P, chain.hashAt n = some P →
      P = e.blockHash := by
    intro n e he P hP
    obtain ⟨-, hlt⟩ := logsAt_blockNumber he
    obtain ⟨-, rfl⟩ := hashAt_eq_some hP
    rw [logsAt_blockHash he, take_of_grown hgrown (by omega)]
  have hcons : Consistent cfg db p.session := by
    refine ⟨?_, .inr ?_⟩
    · intro m m' _ _ n e he _ P hP
      exact hlogs n e he P (hashAt_of_grown hgrown hP)
    · intro m _ n _ e he _ P hP
      exact hlogs n e he P (ho.headers n P hP)
  have hnew : ∀ m, startCalls cfg ≤ m → ∀ n P, (p.session.node m).chain.hashAt n = some P →
      HeadersOf chain n P := fun m _ n P hP => hashAt_of_grown hgrown hP
  have hold : ∀ d r db', Unmoved db d →
      AfterCheck cfg p.session (startCalls cfg) (db.lastIndexedBlock cfg.chainId) d r db' →
      ∀ n P, db'.getBlockHash cfg.chainId n = some P → HeadersOf chain n P := by
    intro d r db' hun hcheck n P hP
    exact (hcheck.origin (ho.unmoved hun)).headers n P hP
  rcases (tick_origin hnew hold ho hcons).1 with h | h
  · exact ⟨_, h⟩
  · exact ⟨_, h⟩

/-- There is no reorganization on a chain that only grows. -/
theorem OnChain.not_reorganized {chain : Chain} (h : OnChain cfg chain db)
    (hgrown : p.chain.blocks <+: chain.blocks) : ¬ Reorganized (db.stored cfg) p.chain c := by
  rintro ⟨n, P, Q, -, hP, hQ, hne⟩
  have hsame := (h.headers hP).symm.trans (hashAt_of_grown hgrown hQ)
  exact hne (Option.some.inj hsame).symm

/-- Ticks on a chain, as far as it had grown at each, all of which end without an error. -/
inductive Indexes (cfg : IndexerConfig) (chain : Chain) (db₀ : Db) : Db → Prop where
  | start : Indexes cfg chain db₀ db₀
  | tick {db db' : Db} {p : Poll} {o : IndexerOutcome} (h : Indexes cfg chain db₀ db)
      (hgrown : p.chain.blocks <+: chain.blocks) (hok : tick p.session cfg db = (.ok o, db'))
      (herr : o.error = none) : Indexes cfg chain db₀ db'

/-- One more tick, told to end without an error by its outcome alone. -/
theorem Indexes.after {chain : Chain} {db₀ : Db} (h : Indexes cfg chain db₀ db)
    (hgrown : p.chain.blocks <+: chain.blocks)
    (hok : (Indexer.tick p.session cfg db).1.toOption.map (fun o => o.error) = some none) :
    Indexes cfg chain db₀ (Indexer.tick p.session cfg db).2 := by
  rcases htick : Indexer.tick p.session cfg db with ⟨e | o, db'⟩
  · rw [htick] at hok
    cases hok
  · rw [htick] at hok
    exact h.tick hgrown htick (Option.some.inj hok)

/-- **A run of ticks on one chain** handles the logs from the cursor it starts from to the one it ends
at. -/
theorem Indexes.advances {chain : Chain} {db₀ : Db} (h : Indexes cfg chain db₀ db)
    (hfresh : FreshRuns db₀) (hon : OnChain cfg chain db₀) :
    FreshRuns db ∧ OnChain cfg chain db ∧
      Advances cfg chain (db₀.lastIndexedBlock cfg.chainId) db₀.events (db.lastIndexedBlock cfg.chainId)
        db.events := by
  induction h with
  | start =>
    refine ⟨hfresh, hon, le_refl _, .inl rfl, ?_⟩
    rw [logsIn_self]
    rfl
  | @tick db db' p o h hgrown hok herr ih =>
    obtain ⟨hfresh', hon', hadv⟩ := ih
    have hticked := tick_stands hfresh' hok herr
    have hstep := (hticked.quiet (hon'.not_reorganized hgrown)).grown hgrown
    have hon'' := hon'.tick hgrown
    rw [hok] at hon''
    refine ⟨hticked.fresh, hon'', ?_⟩
    rw [hticked.cursor hstep.le]
    exact hadv.trans hstep

theorem freshRuns_empty : FreshRuns Db.empty := by
  intro r hr
  cases hr

/-- On a new database: the tables are those of the logs up to the cursor. -/
theorem Indexes.events {chain : Chain} (h : Indexes cfg chain Db.empty db) :
    db.events = EventTables.empty.handleAll cfg
      (logsIn cfg chain 0 (fromBlock (db.lastIndexedBlock cfg.chainId))) :=
  (h.advances freshRuns_empty onChain_empty).2.2.tables

end RobotMoney.Indexer
