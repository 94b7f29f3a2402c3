import RobotMoney.Indexer.Rollback

/-!
# What `run_inner` leaves behind

The cursor is not stored: it is the greatest height of the runs without an error, and a rollback deletes
rows, not runs.  So a rollback whose tick does not come back to the old cursor leaves a gap, and the
next tick goes on above it.

`Inv` is the invariant of the service: the database is settled up to its cursor.  `Regular` says of a
tick, from the chain it meets, the calls that fail and the database it starts from, that it leaves no
gap, and `runInner_triple` that `run_inner` then ends settled up to the height it returns, or fails
settled up to the old cursor.
-/

namespace RobotMoney.Indexer

open RobotMoney.Lib Fallible

variable {cfg : IndexerConfig} {p : Poll} {c : Option ℕ} {known : Address → Prop}
  {runs : List RunRow × ℕ} {bs : List Block} {db db' d : Db} {n k : ℕ}

/-! ### Runs -/

/-- The height a run counts for. -/
def RunRow.reached (chainId : ℤ) (r : RunRow) : Option ℕ :=
  if r.chainId = chainId ∧ r.error = none then r.lastIndexedBlock else none

theorem lastIndexedBlock_eq {chainId : ℤ} :
    db.lastIndexedBlock chainId = (db.indexerRuns.filterMap (RunRow.reached chainId)).max? := rfl

theorem filterMap_reached_snoc {chainId : ℤ} {rs : List RunRow} {row : RunRow} :
    (rs ++ [row]).filterMap (RunRow.reached chainId) =
      rs.filterMap (RunRow.reached chainId) ++ (row.reached chainId).toList := by
  rw [List.filterMap_append, List.filterMap_cons, List.filterMap_nil]
  cases row.reached chainId <;> rfl

/-- A maximum that is not passed. -/
theorem max?_snoc {ns : List ℕ} {c' : Option ℕ} (h : fromBlock ns.max? ≤ fromBlock c') :
    (ns ++ c'.toList).max? = c' := by
  cases c' with
  | none =>
    cases hmax : ns.max? with
    | none => simpa using hmax
    | some m =>
      rw [hmax] at h
      simp [fromBlock] at h
  | some t =>
    refine List.max?_eq_some_iff.mpr ⟨by simp, ?_⟩
    intro m hm
    rcases List.mem_append.mp hm with hm | hm
    · cases hmax : ns.max? with
      | none =>
        rw [List.max?_eq_none_iff.mp hmax] at hm
        cases hm
      | some m' =>
        rw [hmax] at h
        have h₁ : m ≤ m' := (List.max?_eq_some_iff.mp hmax).2 m hm
        have h₂ : m' + 1 ≤ t + 1 := h
        omega
    · have hm : m = t := by simpa using hm
      omega

/-- The run of a tick, the last of `runs`, is open: it has reached nothing, and `c` is the cursor of
those before it. -/
structure Opened (cfg : IndexerConfig) (c : Option ℕ) (runId : ℕ) (runs : List RunRow × ℕ) : Prop where
  split : ∃ rs src, runs = (rs ++ [{ runId, chainId := cfg.chainId, fromBlock := src }], runId + 1) ∧
    (∀ r ∈ rs, r.runId < runId) ∧ (rs.filterMap (RunRow.reached cfg.chainId)).max? = c

/-! ### The invariant -/

/-- The database is settled up to `c` for some chain, the vaults have their contracts, and the runs are
as they were. -/
structure Kept (cfg : IndexerConfig) (c : Option ℕ) (runs : List RunRow × ℕ) (db : Db) : Prop where
  settled : ∃ bs, Sound cfg bs ∧ Settled cfg bs c db
  registered : ∀ r ∈ db.vaults, r.chainId = cfg.chainId →
    Table.taken ContractRow.key db.contracts (cfg.chainId, r.vaultAddress) = true
  runs_eq : (db.indexerRuns, db.nextRun) = runs

/-- The invariant of the service: the database is settled up to its cursor. -/
structure Inv (cfg : IndexerConfig) (db : Db) : Prop where
  kept : Kept cfg (db.lastIndexedBlock cfg.chainId) (db.indexerRuns, db.nextRun) db
  fresh : ∀ r ∈ db.indexerRuns, r.runId < db.nextRun

theorem Kept.unmoved (h : Kept cfg c runs db) (hun : Unmoved db db') (hv : db'.vaults = db.vaults)
    (hc : ∀ k, Table.taken ContractRow.key db.contracts k = true →
      Table.taken ContractRow.key db'.contracts k = true) :
    Kept cfg c (db'.indexerRuns, db'.nextRun) db' where
  settled := by
    obtain ⟨bs, hsound, hsettled⟩ := h.settled
    exact ⟨bs, hsound, hsettled.unmoved hun⟩
  registered r hr hchain := hc _ (h.registered r (hv ▸ hr) hchain)
  runs_eq := rfl

theorem Stage.kept (h : Stage cfg p.chain c known runs db) (hsound : Sound cfg p.chain.blocks) :
    Kept cfg c runs db where
  settled := ⟨p.chain.blocks, hsound, h.toSettled⟩
  registered r hr hchain := (h.vaults.registered r hr hchain).2
  runs_eq := h.runs_eq

/-- A chain without a vote, and with at most one event. -/
theorem sound_of_records (xs : List Record) (h : records cfg bs = xs) (hlen : xs.length ≤ 1)
    (hvotes : ∀ v, .vote v ∉ xs) : Sound cfg bs where
  unique := by
    subst h
    intro x hx y hy _
    match hxs : records cfg bs, hlen with
    | [], _ =>
      rw [hxs] at hx
      cases hx
    | [z], _ =>
      rw [hxs] at hx hy
      rw [List.mem_singleton.mp hx, List.mem_singleton.mp hy]
  votes pre v post hsplit := by
    refine absurd ?_ (hvotes v)
    rw [← h, hsplit]
    simp

/-- It holds of the database after its migrations. -/
theorem inv_empty : Inv cfg Db.empty where
  kept := by
    refine ⟨⟨[], sound_of_records [] rfl (Nat.zero_le 1) (fun v hv => by cases hv), ?_⟩, ?_, rfl⟩
    · refine { headers := ?_, cursor := ?_, rows := ?_, complete := ?_, keyed := ?_ }
      · intro n P hn
        exact absurd hn (Nat.not_lt_zero n)
      · intro n hn
        cases hn
      · intro x hx
        cases x <;> simp [Db.Holds, Db.empty] at hx
      · intro n hn
        exact absurd hn (Nat.not_lt_zero n)
      · intro x y hx
        cases x <;> simp [Db.Holds, Db.empty] at hx
    · intro r hr
      cases hr
  fresh r hr := by cases hr

/-! ### The end of a tick -/

/-- The identifier of a run is new. -/
theorem fresh_snoc {rs : List RunRow} {row : RunRow} (hfresh : ∀ r ∈ rs, r.runId < row.runId) :
    ∀ r ∈ rs ++ [row], r.runId < row.runId + 1 := by
  intro r hr
  rcases List.mem_append.mp hr with hr | hr
  · exact Nat.lt_succ_of_lt (hfresh r hr)
  · rw [List.mem_singleton.mp hr]
    exact Nat.lt_succ_self row.runId

theorem unmoved_finishRun {runId rows reorgs : ℕ} {toBlock last : Option ℕ} {e : Option IndexerError}
    (h : Db.finishRun runId toBlock last reorgs rows e db = .ok ((), db')) : Unmoved db db' := by
  cases h
  exact unmoved_of_tables rfl rfl rfl rfl rfl rfl rfl

/-- The record of the run opened last. -/
theorem finishRun_snoc {rs : List RunRow} {row : RunRow} {rows reorgs : ℕ} {toBlock last : Option ℕ}
    {e : Option IndexerError} (hruns : db.indexerRuns = rs ++ [row])
    (hfresh : ∀ r ∈ rs, r.runId < row.runId) :
    Db.finishRun row.runId toBlock last reorgs rows e db = .ok ((), { db with
      indexerRuns := rs ++ [{ row with toBlock, lastIndexedBlock := last, reorgCount := reorgs,
                                       rowsInserted := rows, error := e }] }) := by
  have hleft : rs.map (fun r => if r.runId = row.runId then
      { r with toBlock, lastIndexedBlock := last, reorgCount := reorgs, rowsInserted := rows, error := e }
      else r) = rs := by
    refine (List.map_congr_left ?_).trans (List.map_id rs)
    intro r hr
    exact if_neg (Nat.ne_of_lt (hfresh r hr))
  unfold Db.finishRun
  rw [hruns, List.map_append, hleft]
  simp

/-- A tick that leaves its run open leaves the cursor. -/
theorem Opened.inv {runId : ℕ} (ho : Opened cfg c runId runs) (h : Kept cfg c runs db) : Inv cfg db := by
  obtain ⟨rs, src, rfl, hfresh, hcursor⟩ := ho.split
  obtain ⟨hruns, hnext⟩ := Prod.mk.injEq .. ▸ h.runs_eq
  refine ⟨?_, ?_⟩
  · have hsame : db.lastIndexedBlock cfg.chainId = c := by
      rw [lastIndexedBlock_eq, hruns, filterMap_reached_snoc]
      simpa [RunRow.reached] using hcursor
    rw [hsame]
    exact ⟨h.settled, h.registered, rfl⟩
  · rw [hruns, hnext]
    exact fresh_snoc hfresh

/-- A tick that closes its run moves the cursor, or leaves it when there is an error. -/
theorem Opened.finish {runId rows reorgs : ℕ} {toBlock last : Option ℕ} {e : Option IndexerError}
    (ho : Opened cfg c runId runs) (h : Kept cfg (if e = none then last else c) runs db)
    (hle : e = none → fromBlock c ≤ fromBlock last) :
    ∃ db', Db.finishRun runId toBlock last reorgs rows e db = .ok ((), db') ∧ Inv cfg db' ∧
      Unmoved db db' ∧ db'.lastIndexedBlock cfg.chainId = if e = none then last else c := by
  obtain ⟨rs, src, rfl, hfresh, hcursor⟩ := ho.split
  obtain ⟨hruns, hnext⟩ := Prod.mk.injEq .. ▸ h.runs_eq
  set row : RunRow := ⟨runId, cfg.chainId, src, toBlock, last, reorgs, rows, e⟩ with hrow
  set db' : Db := { db with indexerRuns := rs ++ [row] } with hdb'
  have hok : Db.finishRun runId toBlock last reorgs rows e db = .ok ((), db') :=
    finishRun_snoc hruns hfresh
  have hun : Unmoved db db' := unmoved_finishRun hok
  have hlast : db'.lastIndexedBlock cfg.chainId = if e = none then last else c := by
    rw [lastIndexedBlock_eq]
    show ((rs ++ [row]).filterMap _).max? = _
    rw [filterMap_reached_snoc]
    by_cases he : e = none
    · have hreached : row.reached cfg.chainId = last := if_pos ⟨rfl, he⟩
      rw [if_pos he, hreached]
      exact max?_snoc (hcursor ▸ hle he)
    · have hreached : row.reached cfg.chainId = none := if_neg fun h => he h.2
      rw [if_neg he, hreached]
      simpa using hcursor
  refine ⟨db', hok, ⟨?_, ?_⟩, hun, hlast⟩
  · rw [hlast]
    exact h.unmoved hun rfl fun _ hk => hk
  · show ∀ r ∈ rs ++ [row], r.runId < db.nextRun
    rw [hnext]
    exact fresh_snoc hfresh

/-! ### The start of a tick -/

/-- Contracts may have been added; headers, rows and vaults are as they were. -/
structure Grown (db₀ db : Db) : Prop where
  unmoved : Unmoved db₀ db
  vaults : db.vaults = db₀.vaults
  contracts : ∀ k, Table.taken ContractRow.key db₀.contracts k = true →
    Table.taken ContractRow.key db.contracts k = true

/-- Before the run of a tick is opened. -/
structure Prepared (db₀ db : Db) : Prop extends Grown db₀ db where
  runs : (db.indexerRuns, db.nextRun) = (db₀.indexerRuns, db₀.nextRun)

/-- When the run of a tick is open. -/
structure Begun (cfg : IndexerConfig) (db₀ db : Db) : Prop extends Grown db₀ db where
  configured : Table.taken ContractRow.key db.contracts (cfg.chainId, cfg.vault) = true
  opened : Opened cfg (db₀.lastIndexedBlock cfg.chainId) db₀.nextRun (db.indexerRuns, db.nextRun)

/-- The calls of a tick up to the one that opens its run. -/
def startCalls (cfg : IndexerConfig) : ℕ :=
  5 + cfg.registry.toList.length + cfg.routerGovernance.toList.length

variable {db₀ : Db}

theorem Prepared.refl : Prepared db₀ db₀ := ⟨⟨⟨rfl, fun _ => Iff.rfl⟩, rfl, fun _ h => h⟩, rfl⟩

theorem Prepared.upsertContract {r : ContractRow} (h : Prepared db₀ db) :
    Prepared db₀ { db with contracts := Table.insertNew ContractRow.key db.contracts r } where
  unmoved := h.unmoved.trans (unmoved_of_tables rfl rfl rfl rfl rfl rfl rfl)
  vaults := h.vaults
  contracts k hk := by
    obtain ⟨y, hy, rfl⟩ := Table.taken_iff.mp (h.contracts k hk)
    exact Table.taken_iff.mpr ⟨y, Table.subset_insertNew hy, rfl⟩
  runs := h.runs

theorem Prepared.cursor {chainId : ℤ} (h : Prepared db₀ db) :
    db.lastIndexedBlock chainId = db₀.lastIndexedBlock chainId := by
  obtain ⟨hruns, -⟩ := Prod.mk.injEq .. ▸ h.runs
  rw [lastIndexedBlock_eq, lastIndexedBlock_eq, hruns]

theorem Prepared.inv (h : Prepared db₀ db) (hinv : Inv cfg db₀) : Inv cfg db := by
  obtain ⟨hruns, hnext⟩ := Prod.mk.injEq .. ▸ h.runs
  refine ⟨?_, ?_⟩
  · rw [h.cursor]
    exact hinv.kept.unmoved h.unmoved h.vaults h.contracts
  · rw [hruns, hnext]
    exact hinv.fresh

/-- The upserts of contracts, with a property that each keeps. -/
theorem clean_upserts {P : Db → Prop} {kind : String}
    (hP : ∀ db r, P db →
      P { db with contracts := Table.insertNew ContractRow.key db.contracts r })
    (o : Option Address) :
    Triple (Clean p k P)
      (total (fun a => sql p.session (Db.upsertContract ⟨cfg.chainId, a, kind, none⟩)) o.toList)
      (fun _ => Clean p (k + o.toList.length) P) (On P) := by
  cases o with
  | none => exact triple_pure fun _ hs => hs
  | some a =>
    refine triple_bind (clean_sql (Q := fun _ => P) ?_) ?_
    · intro db h
      exact ⟨_, _, rfl, hP db _ h⟩
    · intro r
      refine triple_bind (Q := fun _ => Clean p (k + 1) P) (triple_pure fun _ hs => hs) ?_
      intro r'
      exact triple_pure fun _ hs => hs

/-- The contract of the configured vault is there after the upserts. -/
theorem upsertContracts_triple :
    Triple (Clean p 0 (· = db₀)) (upsertContracts p.session cfg)
      (fun _ => Clean p (3 + cfg.registry.toList.length + cfg.routerGovernance.toList.length) fun db =>
        Prepared db₀ db ∧ Table.taken ContractRow.key db.contracts (cfg.chainId, cfg.vault) = true)
      (On (Prepared db₀)) := by
  have hkeep : ∀ (db : Db) r, (Prepared db₀ db ∧
      Table.taken ContractRow.key db.contracts (cfg.chainId, cfg.vault) = true) →
      Prepared db₀ { db with contracts := Table.insertNew ContractRow.key db.contracts r } ∧
        Table.taken ContractRow.key (Table.insertNew ContractRow.key db.contracts r)
          (cfg.chainId, cfg.vault) = true := by
    rintro db r ⟨h, ht⟩
    refine ⟨h.upsertContract, ?_⟩
    obtain ⟨y, hy, hk⟩ := Table.taken_iff.mp ht
    exact Table.taken_iff.mpr ⟨y, Table.subset_insertNew hy, hk⟩
  unfold upsertContracts
  refine triple_bind (Q := fun _ => Clean p 1 (Prepared db₀))
    (triple_pre (clean_sql ?_) fun w hw => ⟨hw.calls, hw.ok, hw.db ▸ Prepared.refl⟩) ?_
  · intro db h
    exact ⟨_, _, rfl, ⟨h.unmoved.trans (unmoved_of_tables rfl rfl rfl rfl rfl rfl rfl), h.vaults,
      h.contracts⟩, h.runs⟩
  intro _
  refine triple_bind (clean_sql (Q := fun _ => Prepared db₀) ?_) ?_
  · intro db h
    exact ⟨_, _, rfl, h.upsertContract⟩
  intro _
  refine triple_bind (clean_sql (Q := fun _ db => Prepared db₀ db ∧
    Table.taken ContractRow.key db.contracts (cfg.chainId, cfg.vault) = true) ?_) ?_
  · intro db h
    exact ⟨_, _, rfl, h.upsertContract, Table.taken_iff.mpr Table.exists_key_insertNew⟩
  intro _
  refine triple_error (triple_bind (clean_upserts hkeep _) fun _ => triple_bind
    (clean_upserts hkeep _) fun _ => triple_pure fun _ hs => hs) fun _ hs => hs.1

/-- The run of a tick is opened, with its identifier. -/
theorem startRun_triple (hinv : Inv cfg db₀) :
    Triple (Clean p k fun db => Prepared db₀ db ∧
        Table.taken ContractRow.key db.contracts (cfg.chainId, cfg.vault) = true)
      (sql p.session (Db.startRun cfg.chainId n))
      (fun runId => Clean p (k + 1) fun db => Begun cfg db₀ db ∧ runId = db₀.nextRun)
      (On (Prepared db₀)) := by
  refine triple_error (clean_sql ?_) fun _ hs => hs.1
  rintro db ⟨h, ht⟩
  obtain ⟨hruns, hnext⟩ := Prod.mk.injEq .. ▸ h.runs
  refine ⟨_, _, rfl, ⟨⟨h.unmoved.trans (unmoved_of_tables rfl rfl rfl rfl rfl rfl rfl), h.vaults,
    h.contracts⟩, ht, ?_⟩, hnext⟩
  refine ⟨db₀.indexerRuns, n, ?_, hinv.fresh, rfl⟩
  show (db.indexerRuns ++ _, db.nextRun + 1) = _
  rw [hruns, hnext]

/-! ### Regular ticks -/

/-- The vaults that the snapshots of a tick can be of: the configured one, and those registered before
it or in its range. -/
def knownVaults (cfg : IndexerConfig) (vaults : List VaultRow) (p : Poll) (src dst : ℕ) (a : Address) :
    Prop :=
  a = cfg.vault ∨ (∃ r ∈ vaults, r.chainId = cfg.chainId ∧ r.vaultAddress = a) ∨
    ∃ e ∈ watchedLogs cfg p.chain src dst, ∃ name asset,
      e.log.data = .event (.vaultRegistered a name asset)

/-- A tick that leaves no gap, by the cursor and the stored headers and vaults it starts from. -/
inductive Regular (cfg : IndexerConfig) (p : Poll) (vaults : List VaultRow)
    (stored : ℕ → Option BlockHash) : Option ℕ → Prop where
  /-- There is no reorganization at the cursor, and a call fails before anything is written. -/
  | idle {c : Option ℕ} {k : ℕ} (hno : ¬ Reorganized stored p.chain c)
      (hk : k < startCalls cfg + checkCalls stored c + 2) (hfail : p.fails k = true) :
      Regular cfg p vaults stored c
  /-- There is one, and a call fails before the rollback, or the rollback does. -/
  | stopped {n k : ℕ} {P Q : BlockHash} (hstored : stored n = some P) (hhash : p.chain.hashAt n = some Q)
      (hne : Q ≠ P) (hk : k < startCalls cfg + 3 + walkCalls stored p.chain n)
      (hfail : p.fails k = true) : Regular cfg p vaults stored (some n)
  /-- There is nothing to ingest, and the chain has the blocks below the cursor, up to its tip. -/
  | waits {c : Option ℕ} (htarget : targetOf cfg (fromBlock c) p.chain.tip = none)
      (hbelow : ∀ n P, c = some n → stored n = some P →
        p.chain.blocks.take (n + 1) <+: P.ancestry) : Regular cfg p vaults stored c
  /-- The headers stored at the cursor and above it are the chain's; calls may fail. -/
  | level {c : Option ℕ} (hsound : Sound cfg p.chain.blocks)
      (hlevel : ∀ n P, (∀ m, c = some m → m ≤ n) → stored n = some P → p.chain.hashAt n = some P) :
      Regular cfg p vaults stored c
  /-- There is a reorganization, and the tick that rolls back ingests again up to the old cursor. -/
  | recovers {n t src : ℕ} {P Q : BlockHash} (hsound : Sound cfg p.chain.blocks)
      (hstored : stored n = some P) (hhash : p.chain.hashAt n = some Q) (hne : Q ≠ P)
      (hsrc : src = fromBlock (resumeAt (reorgRoot stored p.chain n)))
      (htarget : targetOf cfg src p.chain.tip = some t) (hreach : n ≤ t)
      (hsmooth : Smooth cfg p src t (knownVaults cfg vaults p src t)) :
      Regular cfg p vaults stored (some n)

/-- The database a tick works on once its run is open. -/
structure Opening (cfg : IndexerConfig) (bs : List Block) (c : Option ℕ) (vaults : List VaultRow)
    (stored : ℕ → Option BlockHash) (runs : List RunRow × ℕ) (d : Db) : Prop where
  sound : Sound cfg bs
  settled : Settled cfg bs c d
  hashes : ∀ n, d.getBlockHash cfg.chainId n = stored n
  vaults_eq : d.vaults = vaults
  configured : Table.taken ContractRow.key d.contracts (cfg.chainId, cfg.vault) = true
  registered : ∀ r ∈ d.vaults, r.chainId = cfg.chainId →
    Table.taken ContractRow.key d.contracts (cfg.chainId, r.vaultAddress) = true
  runs_eq : (d.indexerRuns, d.nextRun) = runs

/-- What a tick has reached when `run_inner` returns; a failure to record it costs nothing, or cannot
happen. -/
structure Done (cfg : IndexerConfig) (p : Poll) (c : Option ℕ) (runs : List RunRow × ℕ)
    (o : IndexerOutcome) (db : Db) : Prop where
  kept : Kept cfg o.lastIndexedBlock runs db
  forward : fromBlock c ≤ fromBlock o.lastIndexedBlock
  complete : ∀ n < fromBlock o.lastIndexedBlock, ∀ x ∈ recordsAt cfg p.chain.blocks n, db.Holds x
  back : Kept cfg c runs db ∨ ∀ k, p.fails k = false

variable {vaults : List VaultRow} {stored : ℕ → Option BlockHash} {src t : ℕ}

theorem Opening.kept (h : Opening cfg bs c vaults stored runs d) : Kept cfg c runs d :=
  ⟨⟨bs, h.sound, h.settled⟩, h.registered, h.runs_eq⟩

theorem Opening.contracts (h : Opening cfg bs c vaults stored runs d) :
    Vaults cfg (knownVaults cfg vaults p src t) d where
  configured := h.configured
  registered r hr hchain := by
    refine ⟨.inr (.inl ⟨r, h.vaults_eq ▸ hr, hchain, rfl⟩), h.registered r hr hchain⟩

theorem targetOf_eq_some {tip : ℕ} (h : targetOf cfg src tip = some t) : src ≤ t ∧ t ≤ tip := by
  unfold targetOf at h
  dsimp only at h
  generalize saturatingAdd64 src (wrappingSub64 cfg.maxBlocksPerTick 1) = limit at h
  split at h
  · cases h
  · cases hend : cfg.endBlock with
    | none =>
      simp only [hend] at h
      split at h
      · cases h
      · cases h
        omega
    | some e =>
      simp only [hend] at h
      split at h
      · cases h
      · cases h
        omega

/-- A chain with the headers stored from the cursor on. -/
theorem Opening.stage (h : Opening cfg bs c vaults stored runs d)
    (hlevel : ∀ n P, (∀ m, c = some m → m ≤ n) → stored n = some P → p.chain.hashAt n = some P) :
    Stage cfg p.chain c (knownVaults cfg vaults p src t) runs d := by
  have hagree : fromBlock c ≤ p.chain.blocks.length ∧
      p.chain.blocks.take (fromBlock c) = bs.take (fromBlock c) := by
    cases c with
    | none => exact ⟨Nat.zero_le _, rfl⟩
    | some n =>
      obtain ⟨-, hP⟩ := h.settled.cursor n rfl
      rw [h.hashes] at hP
      obtain ⟨hlt, heq⟩ := hashAt_eq_some (hlevel n _ (fun m hm => by cases hm; exact le_refl _) hP)
      exact ⟨hlt, (BlockHash.mk.inj heq).symm⟩
  have hsettled := h.settled.transfer hagree.1 hagree.2
  refine { toSettled := hsettled, current := ?_, vaults := h.contracts, runs_eq := h.runs_eq }
  intro n P hP
  by_cases hn : n < fromBlock c
  · exact hsettled.headers n P hn hP
  · rw [h.hashes] at hP
    refine hashAt_eq_some (hlevel n P ?_ hP)
    rintro m rfl
    have hn : ¬ n < m + 1 := hn
    omega

/-! ### `run_inner` -/

/-- Either the tick is done, or the call that would record it fails. -/
def Returned (cfg : IndexerConfig) (p : Poll) (c : Option ℕ) (runs : List RunRow × ℕ)
    (o : IndexerOutcome) (w : World) : Prop :=
  Done cfg p c runs o w.db ∨ (p.fails w.calls = true ∧ Kept cfg c runs w.db)

/-- The rule for `run_inner` when nothing is rolled back. -/
theorem runInner_quiet {Q : IndexerOutcome → World → Prop} {E : World → Prop}
    (hs : ∀ n, d.getBlockHash cfg.chainId n = stored n) (hno : ¬ Reorganized stored p.chain c)
    (hE : ∀ w, w.db = d → E w)
    (hnone : targetOf cfg (fromBlock c) p.chain.tip = none →
      ∀ w, Clean p (k + checkCalls stored c + 1) (· = d) w →
        Q { lastIndexedBlock := c, reorgDetected := false } w)
    (hsome : ∀ t, targetOf cfg (fromBlock c) p.chain.tip = some t →
      Triple (Clean p (k + checkCalls stored c + 1) (· = d)) (ingest p.session cfg (fromBlock c) t)
        (fun r => Q { toBlock := some t, lastIndexedBlock := some t, rowsInserted := r,
                      reorgDetected := false }) E) :
    Triple (Clean p k (· = d)) (runInner p.session cfg c) Q E := by
  unfold runInner
  refine triple_bind (triple_error (reorgCheck_quiet hs hno) hE) ?_
  rintro r
  refine clean_fact ?_
  rintro rfl
  refine triple_bind (triple_error (clean_ask (f := fun chain => chain.tip)) hE) ?_
  intro tip
  refine clean_fact ?_
  rintro rfl
  cases htarget : targetOf cfg (fromBlock c) p.chain.tip with
  | none => exact triple_pure (hnone htarget)
  | some t =>
    refine triple_bind (hsome t htarget) ?_
    intro r
    exact triple_pure fun _ hs => hs

/-- A call fails before the range is read. -/
theorem runInner_idle (h : Opening cfg bs c vaults stored runs d)
    (hno : ¬ Reorganized stored p.chain c) {j : ℕ} (hj : j < k + checkCalls stored c + 2)
    (hfail : p.fails j = true) :
    Triple (Clean p k (· = d)) (runInner p.session cfg c) (Returned cfg p c runs)
      (On (Kept cfg c runs)) := by
  have hlast : ∀ w, Clean p (k + checkCalls stored c + 1) (· = d) w → p.fails w.calls = true := by
    intro w hw
    rw [hw.calls]
    by_cases hlt : j < k + checkCalls stored c + 1
    · rw [hw.ok j hlt] at hfail
      cases hfail
    · obtain rfl : j = k + checkCalls stored c + 1 := by omega
      exact hfail
  refine runInner_quiet h.hashes hno ?_ ?_ ?_
  · rintro w rfl
    exact h.kept
  · intro _ w hw
    exact .inr ⟨hlast w hw, hw.db ▸ h.kept⟩
  · intro t _
    unfold ingest
    refine triple_bind (Q := fun _ _ => False) ?_ ?_
    · intro w hw
      have hcall : p.session.fails w.calls = true := hlast w hw
      unfold getLogs rpc
      rw [if_pos hcall]
      exact (hw.db ▸ h.kept : Kept cfg c runs w.db)
    · intro logs w hw
      exact hw.elim

/-- A call fails up to the rollback. -/
theorem runInner_stopped (h : Opening cfg bs (some n) vaults stored runs d) {P Q : BlockHash}
    (hstored : stored n = some P) (hhash : p.chain.hashAt n = some Q) (hne : Q ≠ P) {j : ℕ}
    (hj : j < k + 3 + walkCalls stored p.chain n) (hfail : p.fails j = true) :
    Triple (Clean p k (· = d)) (runInner p.session cfg (some n)) (Returned cfg p (some n) runs)
      (On (Kept cfg (some n) runs)) := by
  have hdelete := h.settled.deleteAboveBlock_ok h.sound (reorgRoot_le : reorgRoot stored p.chain n ≤ n)
  unfold runInner
  refine triple_bind (triple_error (reorgCheck_rollback h.hashes hstored hhash hne rfl hdelete) ?_) ?_
  · rintro w rfl
    exact h.kept
  · intro r w hw
    rw [hw.ok j hj] at hfail
    cases hfail

/-- Nothing is ingested. -/
theorem runInner_waits (h : Opening cfg bs c vaults stored runs d)
    (htarget : targetOf cfg (fromBlock c) p.chain.tip = none)
    (hbelow : ∀ n P, c = some n → stored n = some P → p.chain.blocks.take (n + 1) <+: P.ancestry) :
    Triple (Clean p k (· = d)) (runInner p.session cfg c) (Returned cfg p c runs)
      (On (Kept cfg c runs)) := by
  have hno : ¬ Reorganized stored p.chain c := by
    rintro ⟨n, P, Q, rfl, hstored, hhash, hne⟩
    obtain ⟨hlt, rfl⟩ := hashAt_eq_some hhash
    obtain ⟨hlt', hP⟩ := h.settled.cursor n rfl
    rw [h.hashes, hstored] at hP
    cases hP
    refine hne (congrArg BlockHash.mk ((hbelow n _ rfl hstored).eq_of_length ?_))
    simp only [List.length_take]
    omega
  refine runInner_quiet h.hashes hno ?_ ?_ ?_
  · rintro w rfl
    exact h.kept
  · intro _ w hw
    left
    refine ⟨hw.db ▸ h.kept, le_refl _, ?_, .inl (hw.db ▸ h.kept)⟩
    show ∀ n < fromBlock c, _
    intro m hm x hx
    rw [hw.db]
    refine h.settled.complete m hm x ?_
    cases c with
    | none => exact absurd hm (Nat.not_lt_zero m)
    | some n =>
      obtain ⟨-, hP⟩ := h.settled.cursor n rfl
      rw [h.hashes] at hP
      -- at a height with events, the chain is the beginning of the stored one
      obtain ⟨rest, hrest⟩ := hbelow n _ rfl hP
      rw [← recordsAt_take hm] at hx ⊢
      have hlt : m < (p.chain.blocks.take (n + 1)).length := (recordsAt_position hx).2.2
      have hrest : p.chain.blocks.take (n + 1) ++ rest = bs.take (fromBlock (some n)) := hrest
      rw [← recordsAt_take hlt, ← hrest, List.take_left' rfl]
      exact hx
  · intro t ht
    rw [htarget] at ht
    cases ht

/-- The range of a tick, from a stage: the vaults that its logs register are known. -/
theorem ingest_from (hstage : Stage cfg p.chain c (knownVaults cfg vaults p src t) runs d)
    (hsound : Sound cfg p.chain.blocks) (hsrc : src = fromBlock c)
    (htarget : targetOf cfg src p.chain.tip = some t) :
    Triple (On (· = d)) (ingest p.session cfg src t)
      (fun _ => On fun db => Stage cfg p.chain c (knownVaults cfg vaults p src t) runs db ∧
        Stage cfg p.chain (some t) (knownVaults cfg vaults p src t) runs db)
      (On (Broken cfg p src t (knownVaults cfg vaults p src t)
        (Stage cfg p.chain c (knownVaults cfg vaults p src t) runs))) := by
  obtain ⟨hle, htip⟩ := targetOf_eq_some htarget
  refine triple_pre (ingest_triple hsound (.inl rfl) ?_ (Chain.lt_length_iff.mpr htip) hsrc hle) ?_
  · intro e he v name asset hev
    exact .inr (.inr ⟨e, he, name, asset, hev⟩)
  · intro w hw
    have hw : w.db = d := hw
    show Stage _ _ _ _ _ w.db
    rw [hw]
    exact hstage

/-- A range is ingested on top of the cursor. -/
theorem runInner_level (h : Opening cfg bs c vaults stored runs d) (hsound : Sound cfg p.chain.blocks)
    (hlevel : ∀ n P, (∀ m, c = some m → m ≤ n) → stored n = some P → p.chain.hashAt n = some P) :
    Triple (Clean p k (· = d)) (runInner p.session cfg c) (Returned cfg p c runs)
      (On (Kept cfg c runs)) := by
  have hno : ¬ Reorganized stored p.chain c := by
    rintro ⟨n, P, Q, rfl, hstored, hhash, hne⟩
    have hsame := hlevel n P (fun m hm => by cases hm; exact le_refl _) hstored
    rw [hhash] at hsame
    exact hne (Option.some.inj hsame)
  have hstage : ∀ t, Stage cfg p.chain c (knownVaults cfg vaults p (fromBlock c) t) runs d :=
    fun t => h.stage hlevel
  refine runInner_quiet h.hashes hno ?_ ?_ ?_
  · rintro w rfl
    exact h.kept
  · intro _ w hw
    left
    refine ⟨hw.db ▸ h.kept, le_refl _, ?_, .inl (hw.db ▸ h.kept)⟩
    rw [hw.db]
    exact (hstage 0).complete
  · intro t ht
    refine triple_conseq (ingest_from (hstage t) hsound rfl ht) (fun _ hs => hs.db) ?_ ?_
    · rintro r w ⟨hback, hdone⟩
      left
      have hle := (targetOf_eq_some ht).1
      exact ⟨hdone.kept hsound, Nat.le_succ_of_le hle, hdone.complete, .inl (hback.kept hsound)⟩
    · rintro w ⟨hback, -⟩
      exact hback.kept hsound

/-- Rows are rolled back, and the range ingested again comes to the old cursor. -/
theorem runInner_recovers (h : Opening cfg bs (some n) vaults stored runs d)
    (hsound : Sound cfg p.chain.blocks) {P Q : BlockHash} (hstored : stored n = some P)
    (hhash : p.chain.hashAt n = some Q) (hne : Q ≠ P)
    (hsrc : src = fromBlock (resumeAt (reorgRoot stored p.chain n)))
    (htarget : targetOf cfg src p.chain.tip = some t) (hreach : n ≤ t)
    (hsmooth : Smooth cfg p src t (knownVaults cfg vaults p src t)) :
    Triple (Clean p k (· = d)) (runInner p.session cfg (some n)) (Returned cfg p (some n) runs)
      (On (Kept cfg (some n) runs)) := by
  have hdelete := h.settled.deleteAboveBlock_ok h.sound (reorgRoot_le : reorgRoot stored p.chain n ≤ n)
  have hstage : Stage cfg p.chain _ (knownVaults cfg vaults p src t) _ _ :=
    h.settled.rollback h.hashes rfl h.contracts
  rw [h.runs_eq] at hstage
  have hnever : ∀ k, p.fails k = true → False := by
    intro k hk
    rw [hsmooth.calls k] at hk
    cases hk
  unfold runInner
  refine triple_bind (triple_error (reorgCheck_rollback h.hashes hstored hhash hne rfl hdelete) ?_) ?_
  · rintro w rfl
    exact h.kept
  intro r
  refine clean_fact ?_
  rintro rfl
  refine triple_bind (triple_pre (triple_ask (P := (· = d.belowRoot cfg.chainId _))
    (f := fun chain => chain.tip) fun k hk => (hnever k hk).elim) fun _ hs => hs.db) ?_
  intro tip
  refine triple_of_fact (p := tip = p.chain.tip) (fun _ hs => hs.2) ?_
  rintro rfl
  rw [← hsrc, htarget]
  refine triple_bind (triple_conseq (ingest_from hstage hsound hsrc htarget) (fun _ hs => hs.1)
    (fun _ _ hs => hs) ?_) ?_
  · rintro w ⟨-, hrough⟩
    exact (hrough hsmooth).elim
  · intro r
    refine triple_pure ?_
    rintro w ⟨-, hdone⟩
    left
    exact ⟨hdone.kept hsound, Nat.succ_le_succ hreach, hdone.complete, .inr hsmooth.calls⟩

/-- **`run_inner` of a regular tick.** -/
theorem runInner_triple (h : Opening cfg bs c vaults stored runs d)
    (hreg : Regular cfg p vaults stored c) :
    Triple (Clean p (startCalls cfg) (· = d)) (runInner p.session cfg c) (Returned cfg p c runs)
      (On (Kept cfg c runs)) := by
  cases hreg with
  | idle hno hk hfail => exact runInner_idle h hno hk hfail
  | stopped hstored hhash hne hk hfail => exact runInner_stopped h hstored hhash hne hk hfail
  | waits htarget hbelow => exact runInner_waits h htarget hbelow
  | level hsound hlevel => exact runInner_level h hsound hlevel
  | recovers hsound hstored hhash hne hsrc htarget hreach hsmooth =>
    exact runInner_recovers h hsound hstored hhash hne hsrc htarget hreach hsmooth

end RobotMoney.Indexer
