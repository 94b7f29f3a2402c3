import RobotMoney.Indexer.Daemon

/-!
# Ticks that may fail

A tick that fails has inserted and handled as much as it came to, and leaves the cursor where it was.  On
a chain that only grows nothing is rolled back, so each call of a tick, up to the one that fails, leaves
the tables of events or handles a log above the cursor (`tick_handles`).

`Polled` are the databases that ticks on one chain lead to, whatever calls fail.  They have all logs up to
their cursor (`Polled.has`, `Polled.covers`).
-/

namespace RobotMoney.Indexer

open RobotMoney.Lib Fallible

variable {cfg : IndexerConfig} {p : Poll} {sess : Session} {db db' d : Db} {c : Option ℕ} {n : ℕ} {e : LogEntry}
  {t : EventTables} {logs : List LogEntry} {chain : Chain}

/-! ### What every call keeps -/

section Keeps

/-- `P` depends on the tables of events, and on rows that are there. -/
def Lasting (P : Db → Prop) : Prop := ∀ db db', P db → Extends db db' → db'.events = db.events → P db'

/-- The handling of a log keeps `P`. -/
def Handles (cfg : IndexerConfig) (P : Db → Prop) (e : LogEntry) : Prop :=
  ∀ db db', P db → Extends db db' → db'.events = db.events.handle cfg e → P db'

variable {P : Db → Prop} (hlasting : Lasting P)

include hlasting

theorem Lasting.fills : Fills P where
  block r := by
    intro db a db' h hok
    cases hok
    exact hlasting db _ h ⟨fun _ hk => Table.taken_insertNew hk, fun _ hk => hk, fun _ hk => hk⟩ rfl
  transaction r := by
    intro db a db' h hok
    cases hok
    exact hlasting db _ h ⟨fun _ hk => hk, fun _ hk => Table.taken_insertNew hk, fun _ hk => hk⟩ rfl

theorem Lasting.brackets : Brackets P where
  chain r := by
    intro db a db' h hok
    cases hok
    exact hlasting db _ h (extends_of_tables rfl rfl rfl) rfl
  contract r := by
    intro db a db' h hok
    have hext := extends_upsertContract hok
    cases hok
    exact hlasting db _ h hext rfl
  start chainId src := by
    intro db a db' h hok
    cases hok
    exact hlasting db _ h (extends_of_tables rfl rfl rfl) rfl
  finish runId toBlock last reorgs rows err := by
    intro db a db' h hok
    cases hok
    exact hlasting db _ h (extends_of_tables rfl rfl rfl) rfl

theorem Lasting.snapshot (r : SnapshotRow) : KeptBy P (Db.insertVaultSnapshot r) := by
  intro db a db' h hok
  have hstands := stands_insertVaultSnapshot r a db db' stands_self hok
  exact hlasting db db' h (extends_insertVaultSnapshot hok) hstands.1

/-- A log is handled, or the call that would do it fails. -/
theorem handleLog_keeps (hhandles : Handles cfg P e) :
    Triple (On P) (handleLog sess cfg e) (fun _ => On P) (On P) := by
  unfold handleLog
  cases hdata : e.log.data with
  | foreign => exact triple_pure fun _ hs => hs
  | raw tp =>
    dsimp only
    split
    · exact triple_fail fun _ hs => hs
    · exact triple_pure fun _ hs => hs
  | event ev =>
    dsimp only
    cases hrecord : ev.record cfg e with
    | some x =>
      refine sql_keeps ?_
      intro db a db' h hok
      refine hhandles db db' h (extends_insertRecord hok) ?_
      rw [events_insertRecord hok, handle_of_record hdata hrecord]
    | none =>
      dsimp only
      have hupdate := fun t : EventTables => handle_of_update (t := t) hdata hrecord
      unfold handleUpdate
      cases ev with
      | vaultRegistered vault name asset =>
        refine triple_bind (sql_keeps (hlasting.brackets.contract _)) ?_
        intro _
        refine sql_keeps ?_
        intro db a db' h hok
        have hext := extends_upsertVault hok
        obtain ⟨-, rfl⟩ := upsertVault_eq_ok hok
        exact hhandles db _ h hext (hupdate db.events).symm
      | vaultStatusChanged vault newStatus timestamp =>
        refine sql_keeps ?_
        intro db a db' h hok
        cases hok
        exact hhandles db _ h (extends_of_tables rfl rfl rfl) (hupdate db.events).symm
      | proposalExecuted proposalId executor =>
        refine sql_keeps ?_
        intro db a db' h hok
        cases hok
        exact hhandles db _ h (extends_of_tables rfl rfl rfl) (hupdate db.events).symm
      | _ => exact triple_pure fun _ hs => hs

omit hlasting in
/-- Without a reorganization the check leaves all as it is. -/
theorem reorgCheck_unmoved (hno : ¬ Reorganized (d.stored cfg) p.chain c) :
    Triple (On (· = d)) (reorgCheck p.session cfg c) (fun r w => r.1 = c ∧ On (· = d) w) (On (· = d)) := by
  intro w hw
  have hat : Triple (At w.calls (· = d)) (reorgCheck p.session cfg c) _ _ := reorgCheck_at
  have hat := hat w ⟨rfl, hw⟩
  have hstands : Triple (On (· = d)) (reorgCheck p.session cfg c) _ _ := reorgCheck_stands
  have hstands := hstands w hw
  rcases hcheck : reorgCheck p.session cfg c w with ⟨err | ⟨c₁, reorg⟩, w'⟩
  · rw [hcheck] at hat
    exact hat
  · rw [hcheck] at hstands
    have hstands : CheckedTo cfg p.chain c d c₁ w'.db := hstands
    show c₁ = c ∧ w'.db = d
    generalize w'.db = d' at hstands
    cases hstands with
    | quiet => exact ⟨rfl, rfl⟩
    | rolled hre => exact absurd hre hno

/-- `run_inner` handles logs above the cursor. -/
theorem runInner_handles
    (hhandles : ∀ e ∈ logsIn cfg p.chain (fromBlock c) p.chain.blocks.length, Handles cfg P e)
    (hno : ¬ Reorganized (d.stored cfg) p.chain c) (h : P d) :
    Triple (On (· = d)) (runInner p.session cfg c) (fun _ => On P) (On P) := by
  have hkept : ∀ w : World, On (· = d) w → On P w := by
    rintro w rfl
    exact h
  unfold runInner
  refine triple_bind (triple_error (reorgCheck_unmoved hno) hkept) ?_
  rintro ⟨c₁, reorg⟩
  refine triple_of_fact (fun _ hs => hs.1) ?_
  rintro rfl
  refine triple_pre (P := On P) ?_ fun w hs => hkept w hs.2
  refine triple_bind (triple_ask (f := fun chain => chain.tip) fun _ _ _ hs => hs) ?_
  intro tip
  refine triple_of_fact (p := tip = p.chain.tip) (fun _ hs => hs.2) ?_
  rintro rfl
  refine triple_pre (P := On P) ?_ fun w hs => hs.1
  cases htarget : targetOf cfg (fromBlock c₁) p.chain.tip with
  | none => exact triple_pure fun _ hs => hs
  | some target =>
    obtain ⟨hle, htip⟩ := targetOf_eq_some htarget
    have hlen : target + 1 ≤ p.chain.blocks.length := Chain.lt_length_iff.mpr htip
    dsimp only
    rw [ingest_eq, bind_assoc]
    refine triple_bind (triple_ask (f := fun chain => watchedLogs cfg chain (fromBlock c₁) target)
      fun _ _ _ hs => hs) ?_
    intro logs
    refine triple_of_fact (p := logs = watchedLogs cfg p.chain (fromBlock c₁) target) (fun _ hs => hs.2) ?_
    rintro rfl
    refine triple_bind (triple_pre (hlasting.fills.ingestLogs ?_ hlasting.snapshot) fun w hs => hs.1) ?_
    · intro e he
      refine handleLog_keeps hlasting (hhandles e ?_)
      rw [logsIn_append (Nat.le_succ_of_le hle) hlen]
      exact List.mem_append_left _ he
    · intro rows
      exact triple_pure fun _ hs => hs

/-- **Any tick** without a reorganization, failing or not, handles logs above the cursor. -/
theorem tick_handles (hhandles : ∀ e ∈ logsIn cfg p.chain (fromBlock (db.lastIndexedBlock cfg.chainId))
      p.chain.blocks.length, Handles cfg P e)
    (hno : ¬ Reorganized (db.stored cfg) p.chain (db.lastIndexedBlock cfg.chainId)) (h : P db) :
    P (tick p.session cfg db).2 := by
  refine hlasting.brackets.tick h ?_
  intro r w hopened hw
  have hopen : Triple (On (· = db)) (openRun p.session cfg) _ _ := openRun_stands
  have hopen := hopen ⟨db, 0⟩ rfl
  rw [hopened] at hopen
  obtain ⟨hopen, rfl⟩ := hopen
  refine triple_pre (runInner_handles hlasting hhandles ?_ hw) ?_
  · rw [hopen.stored]
    exact hno
  · rintro w' rfl
    rfl

omit hlasting in
/-- So does a property of the tables of events. -/
theorem tick_handles_events {Q : EventTables → Prop}
    (hhandles : ∀ e ∈ logsIn cfg p.chain (fromBlock (db.lastIndexedBlock cfg.chainId)) p.chain.blocks.length,
      ∀ t, Q t → Q (t.handle cfg e))
    (hno : ¬ Reorganized (db.stored cfg) p.chain (db.lastIndexedBlock cfg.chainId)) (h : Q db.events) :
    Q (tick p.session cfg db).2.events := by
  refine tick_handles (P := fun db => Q db.events) ?_ ?_ hno h
  · intro db db' h _ hevents
    show Q db'.events
    rw [hevents]
    exact h
  · intro e he db db' h _ hevents
    show Q db'.events
    rw [hevents]
    exact hhandles e he _ h

end Keeps

/-! ### Runs of ticks -/

/-- Ticks on a chain, as far as it had grown at each, whatever calls fail. -/
inductive Polled (cfg : IndexerConfig) (chain : Chain) : Db → Prop where
  | new : Polled cfg chain Db.empty
  | tick {db : Db} {p : Poll} (h : Polled cfg chain db) (hgrown : p.chain.blocks <+: chain.blocks) :
      Polled cfg chain (tick p.session cfg db).2

theorem Indexes.polled (h : Indexes cfg chain Db.empty db) : Polled cfg chain db := by
  induction h with
  | start => exact .new
  | @tick db db' p o h hgrown hok herr ih =>
    have hnext := ih.tick hgrown
    rw [hok] at hnext
    exact hnext

/-- The logs that a tick can meet. -/
theorem logsIn_grown_subset (hgrown : p.chain.blocks <+: chain.blocks) {lo : ℕ} :
    logsIn cfg p.chain lo p.chain.blocks.length ⊆ logsIn cfg chain lo chain.blocks.length := by
  intro e he
  rw [logsIn_of_grown hgrown (le_refl _)] at he
  by_cases hlo : lo ≤ p.chain.blocks.length
  · rw [logsIn_append hlo hgrown.length_le]
    exact List.mem_append_left _ he
  · unfold logsIn at he
    rw [Nat.sub_eq_zero_of_le (Nat.le_of_not_le hlo)] at he
    cases he

theorem Polled.reached (h : Polled cfg chain db) : Reached db := by
  induction h with
  | new => exact .new
  | tick h hgrown ih => exact ih.tick _ _

theorem Polled.fresh (h : Polled cfg chain db) : FreshRuns db := by
  induction h with
  | new => exact freshRuns_empty
  | tick h hgrown ih => exact fresh_tick ih

theorem Polled.onChain (h : Polled cfg chain db) : OnChain cfg chain db := by
  induction h with
  | new => exact onChain_empty
  | tick h hgrown ih => exact ih.tick hgrown

theorem Polled.not_reorganized (h : Polled cfg chain db) (hgrown : p.chain.blocks <+: chain.blocks) :
    ¬ Reorganized (db.stored cfg) p.chain (db.lastIndexedBlock cfg.chainId) :=
  h.onChain.not_reorganized hgrown

/-- A tick leaves the cursor, or ends without an error and has handled the logs up to the new one. -/
theorem Polled.cursor (h : Polled cfg chain db) (hgrown : p.chain.blocks <+: chain.blocks) :
    (Indexer.tick p.session cfg db).2.lastIndexedBlock cfg.chainId = db.lastIndexedBlock cfg.chainId ∨
      ∃ o, Indexer.tick p.session cfg db = (.ok o, (Indexer.tick p.session cfg db).2) ∧ o.error = none ∧
        (Indexer.tick p.session cfg db).2.lastIndexedBlock cfg.chainId = o.lastIndexedBlock ∧
        Advances cfg chain (db.lastIndexedBlock cfg.chainId) db.events o.lastIndexedBlock
          (Indexer.tick p.session cfg db).2.events := by
  have htells := tick_tells p.session cfg h.fresh
  generalize hr : (Indexer.tick p.session cfg db).1 = r at htells
  cases htells with
  | lost hcursor => exact .inl hcursor
  | failed herr hlast hcursor => exact .inl hcursor
  | reached herr hopen hrun hlast hcursor =>
    rename_i o o' w w'
    right
    have hok : Indexer.tick p.session cfg db = (.ok o, (Indexer.tick p.session cfg db).2) := by
      rw [← hr]
    have hticked := tick_stands h.fresh hok herr
    have hadvances := hticked.quiet (h.not_reorganized hgrown)
    exact ⟨o, hok, herr, hticked.cursor hadvances.le, hadvances.grown hgrown⟩

theorem Polled.fromBlock_le (h : Polled cfg chain db) :
    fromBlock (db.lastIndexedBlock cfg.chainId) ≤ chain.blocks.length := by
  induction h with
  | new => exact Nat.zero_le _
  | tick h hgrown ih =>
    rcases h.cursor hgrown with hcursor | ⟨o, -, -, hcursor, hadvances⟩
    · rw [hcursor]
      exact ih
    · rw [hcursor]
      rcases hadvances.bound with hsame | hbound
      · rw [hsame]
        exact ih
      · exact hbound

theorem lasting_hasUpTo : Lasting (Db.HasUpTo cfg chain c) := fun _ _ h hext _ => h.mono hext

/-- **The logs up to the cursor** are there, whatever has failed. -/
theorem Polled.has (h : Polled cfg chain db) : db.HasUpTo cfg chain (db.lastIndexedBlock cfg.chainId) := by
  induction h with
  | new =>
    intro e he
    cases he
  | @tick db p h hgrown ih =>
    have hno := h.not_reorganized hgrown
    rcases h.cursor hgrown with hcursor | ⟨o, hok, herr, hcursor, -⟩
    · rw [hcursor]
      exact tick_handles lasting_hasUpTo (fun e _ db db' h hext _ => h.mono hext) hno ih
    · rw [hcursor]
      exact tick_hasUpTo hgrown hno ih hok herr

/-- So are their rows in the tables of events. -/
theorem Polled.covers (h : Polled cfg chain db) :
    ∀ e ∈ logsIn cfg chain 0 (fromBlock (db.lastIndexedBlock cfg.chainId)), db.events.Covers cfg e := by
  induction h with
  | new =>
    intro e he
    cases he
  | @tick db p h hgrown ih =>
    rcases h.cursor hgrown with hcursor | ⟨o, -, -, hcursor, hadvances⟩
    · rw [hcursor]
      exact tick_handles_events (Q := fun t => ∀ e ∈ _, t.Covers cfg e) (fun _ _ t h e he => (h e he).handle)
        (h.not_reorganized hgrown) ih
    · rw [hcursor, hadvances.tables]
      intro e he
      rw [logsIn_append (Nat.zero_le _) hadvances.le] at he
      rcases List.mem_append.mp he with he | he
      · exact (ih e he).handleAll
      · exact covers_handleAll he

/-- The vaults that are there are ones that the chain registers. -/
theorem Polled.registered (h : Polled cfg chain db) :
    ∀ k r, db.events.vault k = some r → ∃ e ∈ logsIn cfg chain 0 chain.blocks.length, Registers cfg e k := by
  induction h with
  | new =>
    intro k r hr
    cases hr
  | @tick db p h hgrown ih =>
    refine tick_handles_events (Q := fun t => ∀ k r, t.vault k = some r → ∃ e ∈ _, Registers cfg e k)
      ?_ (h.not_reorganized hgrown) ih
    intro e he t hlisted k r hr
    rcases vault_cases hr with ⟨r₀, hr₀, -⟩ | ⟨-, hregisters⟩
    · exact hlisted k r₀ hr₀
    · refine ⟨e, ?_, hregisters⟩
      rw [logsIn_append (Nat.zero_le _) h.fromBlock_le]
      exact List.mem_append_right _ (logsIn_grown_subset hgrown he)

end RobotMoney.Indexer
