import RobotMoney.Indexer.RunInner

/-!
# No event is missed

After a tick that ends with the cursor at `T`, the database ought to hold the row of every event up to
`T`.  In a run of regular ticks it does (`indexer_complete`); a rollback whose tick does not come back
to the old cursor leaves a gap that no later tick fills (`rollback_skips`).
-/

namespace RobotMoney.Indexer

open RobotMoney.Lib Fallible

variable {cfg : IndexerConfig} {p : Poll} {c : Option ℕ} {runs : List RunRow × ℕ} {db db₀ d : Db} {src : ℕ}

/-! ### The whole tick -/

/-- A tick without an error has the rows of all events up to its cursor, and the cursor is the one that
the next tick starts from. -/
structure Complete (cfg : IndexerConfig) (p : Poll) (o : IndexerOutcome) (db : Db) : Prop where
  rows : o.error = none → ∀ T, o.lastIndexedBlock = some T →
    ∀ n ≤ T, ∀ x ∈ recordsAt cfg p.chain.blocks n, db.Holds x
  cursor : db.lastIndexedBlock cfg.chainId = o.lastIndexedBlock

/-- How `run_inner` ends, with an outcome or with an error. -/
def Ended (cfg : IndexerConfig) (p : Poll) (c : Option ℕ) (runs : List RunRow × ℕ) :
    Except IndexerError IndexerOutcome → World → Prop
  | .ok o => Returned cfg p c runs o
  | .error _ => On (Kept cfg c runs)

/-- The record of a run that returned. -/
theorem finishRun_returned {runId reorgs : ℕ} {o : IndexerOutcome} (ho : Opened cfg c runId runs) :
    Triple (Returned cfg p c runs o)
      (sql p.session (Db.finishRun runId o.toBlock o.lastIndexedBlock reorgs o.rowsInserted none))
      (fun _ => On fun db => Inv cfg db ∧ Complete cfg p o db) (On (Inv cfg)) := by
  intro w hw
  unfold sql
  by_cases hk : p.session.fails w.calls = true
  · rw [if_pos hk]
    rcases hw with hdone | ⟨-, hkept⟩
    · rcases hdone.back with hkept | hnever
      · exact ho.inv hkept
      · have hk : p.fails w.calls = true := hk
        rw [hnever] at hk
        cases hk
    · exact ho.inv hkept
  · rcases hw with hdone | ⟨hfail, -⟩
    · obtain ⟨db', hok, hinv, hun, hlast⟩ := ho.finish (e := none) hdone.kept fun _ => hdone.forward
      rw [if_neg hk, hok]
      refine ⟨hinv, ?_, hlast⟩
      intro _ T hT m hm x hx
      refine (hun.holds x).mpr (hdone.complete m ?_ x hx)
      rw [hT]
      exact Nat.lt_succ_of_le hm
    · exact absurd hfail hk

/-- The record of a run that failed. -/
theorem finishRun_failed {runId : ℕ} {e : IndexerError} (ho : Opened cfg c runId runs) :
    Triple (On (Kept cfg c runs)) (sql p.session (Db.finishRun runId none c 0 0 (some e)))
      (fun _ => On fun db => Inv cfg db ∧ db.lastIndexedBlock cfg.chainId = c) (On (Inv cfg)) := by
  refine triple_sql_ok (fun _ _ db h => ho.inv h) ?_
  intro db h
  obtain ⟨db', hok, hinv, -, hlast⟩ : ∃ db', Db.finishRun runId none c 0 0 (some e) db =
      .ok ((), db') ∧ Inv cfg db' ∧ Unmoved db db' ∧ db'.lastIndexedBlock cfg.chainId = c :=
    ho.finish h fun he => by cases he
  exact ⟨(), db', hok, hinv, hlast⟩

/-- `run_inner` and the record of its run. -/
theorem finishTick_triple {A : World → Prop} {runId : ℕ} (ho : Opened cfg c runId runs)
    (h : Triple A (runInner p.session cfg c) (Returned cfg p c runs) (On (Kept cfg c runs))) :
    Triple A (finishTick p.session cfg runId src c)
      (fun o => On fun db => Inv cfg db ∧ Complete cfg p o db) (On (Inv cfg)) := by
  unfold finishTick
  refine triple_bind (triple_attempt (R := Ended cfg p c runs) h (fun _ _ hs => hs) fun _ _ hs => hs) ?_
  intro r
  cases r with
  | ok o =>
    refine triple_bind (finishRun_returned ho) ?_
    intro _
    refine triple_pure ?_
    rintro w ⟨hinv, hcomplete⟩
    exact ⟨hinv, hcomplete.rows, hcomplete.cursor⟩
  | error e =>
    refine triple_bind (finishRun_failed ho) ?_
    intro _
    refine triple_pure ?_
    rintro w ⟨hinv, hlast⟩
    refine ⟨hinv, ?_, hlast⟩
    intro he
    cases he

/-- A tick that leaves no gap, by the database it starts from. -/
def RegularTick (cfg : IndexerConfig) (db : Db) (p : Poll) : Prop :=
  Regular cfg p db.vaults (fun n => db.getBlockHash cfg.chainId n) (db.lastIndexedBlock cfg.chainId)

/-- Once its run is open, a tick starts where the last one ended. -/
theorem Begun.opening (h : Begun cfg db₀ d) (hinv : Inv cfg db₀) :
    ∃ bs, Opening cfg bs (db₀.lastIndexedBlock cfg.chainId) db₀.vaults
      (fun n => db₀.getBlockHash cfg.chainId n) (d.indexerRuns, d.nextRun) d := by
  have hkept := hinv.kept.unmoved h.unmoved h.vaults h.contracts
  obtain ⟨bs, hsound, hsettled⟩ := hkept.settled
  exact ⟨bs, hsound, hsettled, fun n => h.unmoved.getBlockHash, h.vaults, h.configured,
    hkept.registered, rfl⟩

theorem runOnce_triple (hinv : Inv cfg db₀) (hreg : RegularTick cfg db₀ p) :
    Triple (Clean p 0 (· = db₀)) (runOnce p.session cfg)
      (fun o => On fun db => Inv cfg db ∧ Complete cfg p o db) (On (Inv cfg)) := by
  have hprepared : ∀ w, On (Prepared db₀) w → On (Inv cfg) w := fun w hw => hw.inv hinv
  unfold runOnce
  refine triple_bind (triple_error upsertContracts_triple hprepared) ?_
  intro _
  refine triple_bind (triple_error (clean_sql (Q := fun c db => (Prepared db₀ db ∧
    Table.taken ContractRow.key db.contracts (cfg.chainId, cfg.vault) = true) ∧
    c = db₀.lastIndexedBlock cfg.chainId) ?_) fun w hw => hprepared w hw.1) ?_
  · rintro db ⟨h, ht⟩
    exact ⟨_, _, rfl, ⟨h, ht⟩, h.cursor⟩
  intro c
  refine clean_fact ?_
  rintro rfl
  refine triple_bind (triple_error (startRun_triple hinv) hprepared) ?_
  intro runId
  refine clean_fact ?_
  rintro rfl w hw
  obtain ⟨bs, hopening⟩ := hw.db.opening hinv
  refine finishTick_triple hw.db.opened (runInner_triple hopening hreg) w ⟨?_, ?_, rfl⟩
  · rw [hw.calls]
    unfold startCalls
    omega
  · intro j hj
    unfold startCalls at hj
    exact hw.ok j (by omega)

/-- **One tick.**  A regular tick keeps the invariant, and is complete when it returns. -/
theorem tick_regular (hinv : Inv cfg db) (hreg : RegularTick cfg db p) :
    Inv cfg (tick p.session cfg db).2 ∧
      ∀ o, (tick p.session cfg db).1 = .ok o → Complete cfg p o (tick p.session cfg db).2 := by
  have hstart : Clean p 0 (· = db) ⟨db, 0⟩ := ⟨rfl, fun j hj => absurd hj (Nat.not_lt_zero j), rfl⟩
  have h := runOnce_triple hinv hreg ⟨db, 0⟩ hstart
  unfold tick
  rcases hr : runOnce p.session cfg ⟨db, 0⟩ with ⟨e | o, w⟩
  · rw [hr] at h
    refine ⟨h, ?_⟩
    intro o ho
    cases ho
  · rw [hr] at h
    refine ⟨h.1, ?_⟩
    intro o' ho
    cases ho
    exact h.2

/-! ### Runs of ticks -/

/-- The database after some ticks. -/
def afterTicks (cfg : IndexerConfig) : Db → List Poll → Db
  | db, [] => db
  | db, p :: ps => afterTicks cfg (tick p.session cfg db).2 ps

/-- Every tick of a run is regular. -/
def RegularRun (cfg : IndexerConfig) : Db → List Poll → Prop
  | _, [] => True
  | db, p :: ps => RegularTick cfg db p ∧ RegularRun cfg (tick p.session cfg db).2 ps

/-- After some ticks on a new database, one more is complete if it returns without an error. -/
def CompleteAfter (cfg : IndexerConfig) (polls : List Poll) (p : Poll) : Prop :=
  ∀ o db', tick p.session cfg (afterTicks cfg Db.empty polls) = (.ok o, db') → o.error = none →
    ∀ T, o.lastIndexedBlock = some T →
      ∀ n ≤ T, ∀ x ∈ recordsAt cfg p.chain.blocks n, db'.Holds x

/-- The invariant along a run. -/
theorem RegularRun.inv {polls rest : List Poll} (hinv : Inv cfg db)
    (h : RegularRun cfg db (polls ++ rest)) :
    Inv cfg (afterTicks cfg db polls) ∧ RegularRun cfg (afterTicks cfg db polls) rest := by
  induction polls generalizing db with
  | nil => exact ⟨hinv, h⟩
  | cons p ps ih =>
    obtain ⟨hp, hps⟩ := h
    exact ih (tick_regular hinv hp).1 hps

/-- **No event is missed.**  In a run of regular ticks, every tick that returns without an error has the
row of every event up to its cursor. -/
theorem indexer_complete (cfg : IndexerConfig) (polls : List Poll) (p : Poll)
    (h : RegularRun cfg Db.empty (polls ++ [p])) : CompleteAfter cfg polls p := by
  obtain ⟨hinv, hp, -⟩ := h.inv inv_empty
  intro o db' htick herr
  have hcomplete := (tick_regular hinv hp).2 o (congrArg Prod.fst htick)
  rw [htick] at hcomplete
  exact hcomplete.rows herr

/-! ### A reorganization, with and without room to recover -/

/-- A deployment that ingests a number of blocks in a tick. -/
def deployment (maxBlocksPerTick : ℕ) : IndexerConfig where
  chainId := 8453
  chainName := "base"
  rpcLabel := "public"
  gateway := 1
  vault := 2
  registry := none
  routerGovernance := none
  maxBlocksPerTick := maxBlocksPerTick
  endBlock := none
  featureFlags := 0

/-- A deployment that watches `RouterGovernance` at the account `3`. -/
def governed : IndexerConfig := { deployment 100 with routerGovernance := some 3 }

def quietBlock (timestamp : ℕ) : Block := ⟨timestamp, [], []⟩

/-- A block with a deposit of the agent `5` through the gateway. -/
def depositBlock (timestamp : ℕ) : Block :=
  ⟨timestamp, [⟨77, 0, 5, some 1, 1⟩], [⟨1, .event (.agentDeposit 11 12 5 6 100 100 0), 77, 0, 0⟩]⟩

/-- Nine blocks without events. -/
def oldChain : Chain := ⟨(List.range 9).map quietBlock, by decide⟩

/-- The chain that replaces them from height one on, with a deposit at height two. -/
def newChain : Chain :=
  ⟨[quietBlock 0, quietBlock 101, depositBlock 102, quietBlock 103, quietBlock 104, quietBlock 105,
    quietBlock 106, quietBlock 107, quietBlock 108], by decide⟩

/-- A tick without failures. -/
def steady (chain : Chain) : Poll := ⟨chain, fun _ _ _ _ => .word 0, fun _ => false⟩

/-- With room for the whole range, the tick that rolls back recovers. -/
theorem indexer_complete_recovered :
    RegularRun (deployment 100) Db.empty [steady oldChain, steady newChain] ∧
      CompleteAfter (deployment 100) [steady oldChain] (steady newChain) := by
  have hold : Sound (deployment 100) oldChain.blocks :=
    sound_of_records [] (by decide +kernel) (Nat.zero_le 1) fun v hv => by cases hv
  have hnew : Sound (deployment 100) newChain.blocks := by
    refine sound_of_records
      [.deposit { chainId := 8453, blockNumber := 2, logIndex := 0, txHash := 77, paymentId := 11,
                  orderId := 12, agent := 5, shareReceiver := 6, amount := 100, sharesMinted := 100,
                  windowId := 0, vault := some 2 }] (by decide +kernel) (le_refl 1) ?_
    intro v hv
    cases List.mem_singleton.mp hv
  have hlogs : watchedLogs (deployment 100) newChain 0 3 = [⟨⟨1, .event (.agentDeposit 11 12 5 6 100 100 0),
      77, 0, 0⟩, 2, ⟨newChain.blocks.take 3⟩⟩] := by decide +kernel
  have hrun : RegularRun (deployment 100) Db.empty [steady oldChain, steady newChain] := by
    refine ⟨.level hold ?_, ?_, trivial⟩
    · intro n P _ hP
      cases hP
    · unfold RegularTick
      have hcursor : (tick (steady oldChain).session (deployment 100) Db.empty).2.lastIndexedBlock 8453 =
          some 3 := by decide +kernel
      rw [show (deployment 100).chainId = 8453 from rfl, hcursor]
      have hsrc : 0 = fromBlock (resumeAt (reorgRoot (fun n => Db.getBlockHash 8453 n
          (tick (steady oldChain).session (deployment 100) Db.empty).2) newChain 3)) := by decide +kernel
      refine .recovers (t := 3) (P := ⟨oldChain.blocks.take 4⟩) (Q := ⟨newChain.blocks.take 4⟩) hnew
        (by decide +kernel) (by decide +kernel) (by decide +kernel) hsrc (by decide +kernel) (le_refl 3)
        ⟨fun _ => rfl, ?_, ?_, fun _ _ _ _ _ _ => ⟨⟨0, rfl⟩, ⟨0, rfl⟩⟩⟩
      · intro e he t ht
        have he : e ∈ watchedLogs (deployment 100) newChain 0 3 := he
        rw [hlogs, List.mem_singleton] at he
        subst he
        cases ht
      · intro e he v name asset hev
        have he : e ∈ watchedLogs (deployment 100) newChain 0 3 := he
        rw [hlogs, List.mem_singleton] at he
        subst he
        cases hev
  exact ⟨hrun, indexer_complete (deployment 100) [steady oldChain] (steady newChain) hrun⟩

/-- **A rollback that is not made up for.**  With two blocks in a tick, the tick after the one that
rolled back goes on from the old cursor, and the deposit below it is missing. -/
theorem rollback_skips :
    ¬ CompleteAfter (deployment 2) [steady oldChain, steady oldChain, steady newChain]
      (steady newChain) := by
  intro h
  have hok : (tick (steady newChain).session (deployment 2) (afterTicks (deployment 2) Db.empty
      [steady oldChain, steady oldChain, steady newChain])).1.toOption =
      some { runId := 4, fromBlock := 4, lastIndexedBlock := some 3 } := by decide +kernel
  have hmissing : ∃ x ∈ recordsAt (deployment 2) newChain.blocks 2,
      ¬ (tick (steady newChain).session (deployment 2) (afterTicks (deployment 2) Db.empty
        [steady oldChain, steady oldChain, steady newChain])).2.Holds x := by decide +kernel
  obtain ⟨x, hx, hmissing⟩ := hmissing
  unfold CompleteAfter at h
  rcases htick : tick (steady newChain).session (deployment 2) (afterTicks (deployment 2) Db.empty
      [steady oldChain, steady oldChain, steady newChain]) with ⟨e | o, db'⟩
  · rw [htick] at hok
    cases hok
  · rw [htick] at hok hmissing
    cases hok
    exact hmissing (h _ db' htick rfl 3 rfl 2 (by decide) x hx)

end RobotMoney.Indexer
