import RobotMoney.Indexer.Order
import RobotMoney.Indexer.Passable
import RobotMoney.Indexer.Range
import RobotMoney.Indexer.RootSearch

/-!
# Ticks that are wedged

A tick that fails leaves the cursor, and the next one meets the same chain.  `tick_moves_iff` says exactly
when a tick ends without an error and moves the cursor; an account that is registered as a vault and does
not answer is one way not to (`registered_account_wedges`).
-/

namespace RobotMoney.Indexer

open RobotMoney.Lib Fallible

/-- The tick ends without an error, and moves the cursor. -/
def Moves (cfg : IndexerConfig) (p : Poll) (db : Db) : Prop :=
  ∃ o db', tick p.session cfg db = (.ok o, db') ∧ o.error = none ∧
    fromBlock (db.lastIndexedBlock cfg.chainId) < fromBlock (db'.lastIndexedBlock cfg.chainId)

/-- No vote is left without its proposal by the rollback, if there is one. -/
def Unstranded (cfg : IndexerConfig) (chain : Chain) (c : Option ℕ) (db : Db) : Prop :=
  ∀ n, c = some n → Reorganized (db.stored cfg) chain c →
    db.strands cfg.chainId (rootOf cfg db chain n) = false

variable {cfg : IndexerConfig} {chain : Chain} {views : Address → View → ℕ → CallAnswer} {db db' d : Db}
  {src dst : ℕ} {c : Option ℕ}

/-! ### The check -/

theorem unstranded_of_not_reorganized (h : ¬ Reorganized (d.stored cfg) chain c) :
    Unstranded cfg chain c d := fun _ _ hre => absurd hre h

/-- A rollback fails exactly if it leaves a vote without its proposal. -/
theorem reorgCheck_unstranded :
    Decides (On (· = d)) (reorgCheck (answering chain views).session cfg c) (Unstranded cfg chain c d)
      fun _ _ => True := by
  have hquiet : ∀ {α : Type} {a : α}, ¬ Reorganized (d.stored cfg) chain c →
      Decides (On (· = d)) (pure a : Tick α) (Unstranded cfg chain c d) fun _ _ => True := by
    intro α a hno
    exact (decides_pure fun _ _ => trivial).congr (iff_of_true trivial (unstranded_of_not_reorganized hno))
  cases c with
  | none =>
    refine hquiet ?_
    rintro ⟨n, P, Q, hn, -⟩
    cases hn
  | some n =>
    unfold reorgCheck
    refine Decides.bind_ok select_answered fun hash => ?_
    refine Decides.of_fact (p := hash = d.stored cfg n) ?_ ?_
    · rintro w ⟨hw, rfl⟩
      rw [show w.db = d from hw]
      rfl
    rintro rfl
    refine Decides.pre (P := On (· = d)) ?_ fun _ hs => hs.1
    cases hstored : d.stored cfg n with
    | none =>
      refine hquiet ?_
      rintro ⟨n', P, Q, hn, hP, -⟩
      cases hn
      cases hstored.symm.trans hP
    | some P =>
      refine Decides.bind_ok (ask_answered (f := fun chain => chain.header n)) fun header => ?_
      refine Decides.of_fact (fun _ hs => hs.2) ?_
      rintro rfl
      refine Decides.pre (P := On (· = d)) ?_ fun _ hs => hs.1
      have hhash : (chain.header n).map (fun h => h.hash) = chain.hashAt n := Chain.header_hash
      cases hheader : chain.header n with
      | none =>
        refine hquiet ?_
        rintro ⟨n', P', Q, hn, -, hQ, -⟩
        cases hn
        rw [hheader] at hhash
        cases hhash.trans hQ
      | some header =>
        rw [hheader] at hhash
        dsimp only
        split
        · rename_i hne
          have hre : Reorganized (d.stored cfg) chain (some n) :=
            ⟨n, P, header.hash, rfl, hstored, hhash.symm, hne⟩
          have hiff : d.strands cfg.chainId (rootOf cfg d chain n) = false ↔
              Unstranded cfg chain (some n) d := by
            constructor
            · rintro h n' ⟨⟩ -
              exact h
            · intro h
              exact h n rfl hre
          refine Decides.bind_ok (walkBackToMatch_finds (p := answering chain views) fun _ => rfl)
            fun root => ?_
          refine Decides.of_fact (fun _ hs => hs.2) ?_
          rintro rfl
          refine (Decides.congr (C := _ ∧ True) ?_ (iff_of_eq (and_true _))).congr hiff
          refine Decides.bind (Q := fun _ => On fun _ => True) (sql_decides ?_ ?_) fun _ _ =>
            decides_pure fun _ _ => trivial
          · rintro db a db' ⟨rfl, -⟩ hok
            unfold Db.deleteAboveBlock at hok
            split at hok
            · cases hok
            · rename_i hstrands
              exact ⟨trivial, Bool.eq_false_iff.mpr hstrands⟩
          · rintro db err ⟨rfl, -⟩ herr hstrands
            unfold Db.deleteAboveBlock at herr
            split at herr
            · rename_i hyes
              exact Bool.eq_false_iff.mp hstrands hyes
            · cases herr
        · rename_i hsame
          refine hquiet ?_
          rintro ⟨n', P', Q, hn, hP, hQ, hne⟩
          cases hn
          cases hstored.symm.trans hP
          have hsameHash : header.hash = Q := Option.some.inj (hhash.trans hQ)
          exact hsame (hsameHash ▸ hne)

/-- What the check leaves is determined. -/
theorem CheckedTo.unique {c₁ c₂ : Option ℕ} {d₁ d₂ : Db} (h₁ : CheckedTo cfg chain c d c₁ d₁)
    (h₂ : CheckedTo cfg chain c d c₂ d₂) : c₁ = c₂ ∧ d₁ = d₂ := by
  cases h₁ with
  | quiet hno =>
    cases h₂ with
    | quiet => exact ⟨rfl, rfl⟩
    | rolled hre => exact absurd hre hno
  | rolled hre hn =>
    cases h₂ with
    | quiet hno => exact absurd hre hno
    | rolled hre' hn' =>
      cases hn.symm.trans hn'
      exact ⟨rfl, rfl⟩

theorem reorgCheck_decides {c₁ : Option ℕ} {d₁ : Db} (hcheck : CheckedTo cfg chain c d c₁ d₁) :
    Decides (On (· = d)) (reorgCheck (answering chain views).session cfg c) (Unstranded cfg chain c d)
      fun r => On fun db => r.1 = c₁ ∧ db = d₁ := by
  have hunstranded : Decides (On (· = d)) (reorgCheck (answering chain views).session cfg c) _ _ :=
    reorgCheck_unstranded
  refine triple_conseq (triple_and hunstranded reorgCheck_stands) (fun _ hs => hs) ?_ fun _ hs => hs.1
  rintro r w ⟨⟨-, hC⟩, hchecked⟩
  obtain ⟨hc, hd⟩ := hchecked.unique hcheck
  exact ⟨⟨hc, hd⟩, hC⟩

/-! ### The tick -/

/-- **`run_inner`** fails exactly if the rollback strands a vote, or something in the range makes its
ingestion fail. -/
theorem runInner_decides {c₁ : Option ℕ} {d₁ : Db} (hintact : Intact d)
    (hconfigured : Table.taken ContractRow.key d.contracts (cfg.chainId, cfg.vault) = true)
    (hcheck : CheckedTo cfg chain c d c₁ d₁) (hdst : dst < chain.blocks.length)
    (htarget : targetOf cfg (fromBlock c₁) chain.tip = some dst) :
    Decides (On (· = d)) (runInner (answering chain views).session cfg c)
      (Unstranded cfg chain c d ∧ Passable cfg chain views d₁ (fromBlock c₁) dst)
      fun o => On fun db => (o.lastIndexedBlock = some dst ∧ o.error = none) ∧
        (db.indexerRuns, db.nextRun) = (d.indexerRuns, d.nextRun) := by
  have hsite : Unstranded cfg chain c d → Site cfg d₁.events (d.indexerRuns, d.nextRun) (Snapped cfg d₁) []
      d₁ := by
    intro hun
    cases hcheck with
    | quiet => exact ⟨stands_self, hintact, hconfigured, fun _ _ _ => Iff.rfl⟩
    | @rolled n hre hn =>
      have hok : Db.deleteAboveBlock cfg.chainId (rootOf cfg d chain n) d =
          .ok ((), d.belowRoot cfg.chainId (rootOf cfg d chain n)) := by
        unfold Db.deleteAboveBlock
        rw [hun n hn hre]
        rfl
      exact ⟨stands_self, hintact.rollback hok, hconfigured, fun _ _ _ => Iff.rfl⟩
  unfold runInner
  refine Decides.bind (reorgCheck_decides hcheck) fun hun r => ?_
  refine Decides.bind_ok (ask_answered (f := fun chain => chain.tip)) fun tip => ?_
  refine Decides.of_fact (p := tip = chain.tip ∧ r.1 = c₁) (fun _ hs => ⟨hs.2, hs.1.1⟩) ?_
  rintro ⟨rfl, rfl⟩
  rw [htarget]
  refine Decides.congr (C := _ ∧ True) ?_ (iff_of_eq (and_true _))
  refine Decides.bind (Q := fun _ => On fun db => (db.indexerRuns, db.nextRun) =
    (d.indexerRuns, d.nextRun)) ((ingest_decides hdst).pre ?_) fun _ rows => ?_
  · rintro w ⟨⟨-, hw⟩, -⟩
    have hw : w.db = d₁ := hw
    show Site _ _ _ _ _ w.db
    rw [hw]
    exact hsite hun
  · refine decides_pure ?_
    intro w hw
    exact ⟨⟨rfl, rfl⟩, hw⟩

/-- Up to the run that a tick opens: contracts are added, and nothing else but the run changes. -/
structure Started (cfg : IndexerConfig) (db d : Db) : Prop extends OpenRun cfg db d where
  intact : Intact d
  configured : Table.taken ContractRow.key d.contracts (cfg.chainId, cfg.vault) = true
  snapshots : d.vaultSnapshots = db.vaultSnapshots

theorem openRun_answered (hintact : Intact db) :
    Triple (On (· = db)) (openRun (answering chain views).session cfg)
      (fun r => On fun d => Started cfg db d ∧ r = (db.lastIndexedBlock cfg.chainId, db.nextRun))
      fun _ => False := by
  have hupsert : ∀ {r : ContractRow} {C : Db → Prop}, (∀ d, C d →
      C { d with contracts := Table.insertNew ContractRow.key d.contracts r }) →
      Triple (On C) (sql (answering chain views).session (Db.upsertContract r)) (fun _ => On C)
        fun _ => False := by
    intro r C hC
    refine sql_answered ?_
    intro d h
    exact ⟨_, _, rfl, hC d h⟩
  have hsnap : Triple (On fun d => d.vaultSnapshots = db.vaultSnapshots)
      (openRun (answering chain views).session cfg)
      (fun _ => On fun d => d.vaultSnapshots = db.vaultSnapshots ∧
        Table.taken ContractRow.key d.contracts (cfg.chainId, cfg.vault) = true) fun _ => False := by
    have hsame : ∀ {r : ContractRow}, Triple (On fun d => d.vaultSnapshots = db.vaultSnapshots ∧
        Table.taken ContractRow.key d.contracts (cfg.chainId, cfg.vault) = true)
        (sql (answering chain views).session (Db.upsertContract r))
        (fun _ => On fun d => d.vaultSnapshots = db.vaultSnapshots ∧
          Table.taken ContractRow.key d.contracts (cfg.chainId, cfg.vault) = true) fun _ => False :=
      hupsert fun d h => ⟨h.1, Table.taken_insertNew h.2⟩
    unfold openRun upsertContracts
    simp only [bind_assoc, pure_bind]
    refine triple_bind (Q := fun _ => On fun d => d.vaultSnapshots = db.vaultSnapshots)
      (sql_answered fun d h => ⟨_, _, rfl, h⟩) fun _ => ?_
    refine triple_bind (hupsert fun d h => h) fun _ => ?_
    refine triple_bind (Q := fun _ => On fun d => d.vaultSnapshots = db.vaultSnapshots ∧
      Table.taken ContractRow.key d.contracts (cfg.chainId, cfg.vault) = true)
      (sql_answered fun d h => ⟨_, _, rfl, h, ?_⟩) fun _ => ?_
    · exact Table.taken_insertNew_self (r := (⟨cfg.chainId, cfg.vault, "vault", none⟩ : ContractRow))
    refine triple_bind (triple_total_keeps fun _ _ => hsame) fun _ => ?_
    refine triple_bind (triple_total_keeps fun _ _ => hsame) fun _ => ?_
    refine triple_bind select_answered fun c => ?_
    refine triple_bind (sql_answered ?_) fun runId => triple_pure fun _ hs => hs
    rintro d ⟨h, -⟩
    exact ⟨_, _, rfl, h⟩
  have hsnap : Triple (On (· = db)) (openRun (answering chain views).session cfg) _ fun _ => False :=
    triple_pre hsnap fun w hw => congrArg Db.vaultSnapshots hw
  have hkept : Triple (On (· = db)) (openRun (answering chain views).session cfg) _ _ :=
    triple_pre intact_brackets.openRun fun w (hw : w.db = db) => show Intact w.db from hw ▸ hintact
  refine triple_conseq (triple_and hsnap (triple_and openRun_stands hkept)) (fun _ hs => hs) ?_
    fun _ hs => hs.1
  rintro r w ⟨⟨hsnapshots, hconfigured⟩, ⟨hopen, rfl⟩, hintact⟩
  exact ⟨⟨hopen, hintact, hconfigured, hsnapshots⟩, rfl⟩

/-- The cursor after a run that returned. -/
theorem OpenRun.moved {o : IndexerOutcome} {d' db' : Db} {reorgs : ℕ} (h : OpenRun cfg db d)
    (hfresh : FreshRuns db) (hruns : (d'.indexerRuns, d'.nextRun) = (d.indexerRuns, d.nextRun))
    (ho : o.lastIndexedBlock = some dst)
    (hok : Db.finishRun db.nextRun o.toBlock o.lastIndexedBlock reorgs o.rowsInserted none d' =
      .ok ((), db')) :
    fromBlock (db.lastIndexedBlock cfg.chainId) < fromBlock (db'.lastIndexedBlock cfg.chainId) ↔
      fromBlock (db.lastIndexedBlock cfg.chainId) ≤ dst := by
  obtain ⟨hruns, -⟩ := Prod.mk.injEq .. ▸ hruns
  rw [h.runs] at hruns
  have hrow : Db.finishRun (openRow cfg db).runId o.toBlock o.lastIndexedBlock reorgs o.rowsInserted none
      d' = .ok ((), _) := finishRun_snoc hruns hfresh
  cases hrow.symm.trans hok
  have hreached : RunRow.reached cfg.chainId { openRow cfg db with
      toBlock := o.toBlock, lastIndexedBlock := o.lastIndexedBlock, reorgCount := reorgs,
      rowsInserted := o.rowsInserted, error := none } = some dst := (if_pos ⟨rfl, rfl⟩).trans ho
  rw [lastIndexedBlock_eq, lastIndexedBlock_eq, filterMap_reached_snoc, hreached]
  show fromBlock (db.indexerRuns.filterMap (RunRow.reached cfg.chainId)).max? < fromBlock
    ((db.indexerRuns.filterMap (RunRow.reached cfg.chainId)) ++ [dst]).max? ↔ _
  generalize db.indexerRuns.filterMap (RunRow.reached cfg.chainId) = ns
  constructor
  · intro hlt
    by_contra hgt
    cases hmax : ns.max? with
    | none =>
      rw [hmax] at hgt
      exact hgt (Nat.zero_le dst)
    | some m =>
      obtain ⟨hm, hbound⟩ := List.max?_eq_some_iff.mp hmax
      rw [hmax] at hgt hlt
      have hsame : (ns ++ [dst]).max? = some m := by
        refine List.max?_eq_some_iff.mpr ⟨List.mem_append_left _ hm, ?_⟩
        intro k hk
        rcases List.mem_append.mp hk with hk | hk
        · exact hbound k hk
        · rw [List.mem_singleton.mp hk]
          have hgt : ¬ m + 1 ≤ dst := hgt
          omega
      rw [hsame] at hlt
      exact Nat.lt_irrefl _ hlt
  · intro hle
    have hmax : (ns ++ (some dst).toList).max? = some dst :=
      max?_snoc (Nat.le_succ_of_le hle)
    rw [show ns ++ [dst] = ns ++ (some dst).toList from rfl, hmax]
    exact Nat.lt_succ_of_le hle

/-- The check does not depend on the run that was opened before it. -/
theorem CheckedTo.started {c₁ : Option ℕ} {d₁ : Db} (h : CheckedTo cfg chain c db c₁ d₁)
    (hs : Started cfg db d) :
    ∃ d₂, CheckedTo cfg chain c d c₁ d₂ ∧ d₂.events = d₁.events ∧ d₂.vaultSnapshots = d₁.vaultSnapshots := by
  have hstored : d.stored cfg = db.stored cfg := hs.stored
  have hroot : ∀ n, rootOf cfg d chain n = rootOf cfg db chain n := by
    intro n
    unfold rootOf
    rw [hstored]
  cases h with
  | quiet hno => exact ⟨d, .quiet (hstored ▸ hno), hs.events, hs.snapshots⟩
  | @rolled n hre hn =>
    rw [← hroot]
    refine ⟨_, .rolled (hstored ▸ hre) hn, ?_, ?_⟩
    · rw [events_belowRoot, events_belowRoot, hs.events]
    · show (Db.belowRoot _ _ d).vaultSnapshots = (Db.belowRoot _ _ db).vaultSnapshots
      unfold Db.belowRoot
      rw [hs.snapshots]

theorem Started.unstranded_iff (hs : Started cfg db d) :
    Unstranded cfg chain c d ↔ Unstranded cfg chain c db := by
  have hstored : d.stored cfg = db.stored cfg := hs.stored
  have hstrands : ∀ root, d.strands cfg.chainId root = db.strands cfg.chainId root := by
    intro root
    have hvotes : d.governanceVotes = db.governanceVotes := congrArg (fun t => t.governanceVotes) hs.events
    have hproposals : d.governanceProposals = db.governanceProposals :=
      congrArg (fun t => t.governanceProposals) hs.events
    unfold Db.strands Db.belowRoot
    rw [hvotes, hproposals]
  unfold Unstranded rootOf
  simp only [hstored, hstrands]

theorem Passable.congr {d' : Db} (h : Passable cfg chain views d src dst) (hevents : d'.events = d.events)
    (hsnapshots : d'.vaultSnapshots = d.vaultSnapshots) : Passable cfg chain views d' src dst := by
  have hsnapped : ∀ a n, Snapped cfg d' a n ↔ Snapped cfg d a n := by
    intro a n
    unfold Snapped
    rw [hsnapshots]
  refine ⟨hevents ▸ h.logs, h.events, ?_⟩
  intro a hbeats hdue
  refine h.heartbeats a (hevents ▸ hbeats) ?_
  intro n hn
  refine hdue n ?_
  unfold SnappedAfter at hn ⊢
  rw [hsnapped]
  exact hn

/-- A tick whose first block is confirmed and not above the end has a range. -/
theorem targetOf_bound (htip : chain.tip < 2 ^ 64) (hhead : src ≤ chain.tip - confirmations)
    (hend : ∀ e, cfg.endBlock = some e → src ≤ e) :
    targetOf cfg src chain.tip = some (bound cfg src chain.tip) := by
  rw [targetOf_eq_some_iff]
  refine ⟨hhead, ?_, rfl⟩
  unfold bound
  refine le_min ?_ ?_
  · split
    · rename_i e he
      exact le_min hhead (hend e he)
    · exact hhead
  · unfold saturatingAdd64
    omega

/-- What a tick that has a range comes to, from any database that ticks lead to and with a node that answers. -/
theorem tick_answered (views : Address → View → ℕ → CallAnswer) (hdb : Reached db) (htip : chain.tip < 2 ^ 64)
    {c₁ : Option ℕ} {d₁ : Db}
    (hcheck : CheckedTo cfg chain (db.lastIndexedBlock cfg.chainId) db c₁ d₁)
    (hhead : fromBlock c₁ ≤ chain.tip - confirmations)
    (hend : ∀ e, cfg.endBlock = some e → fromBlock c₁ ≤ e) :
    ∃ o db', tick (answering chain views).session cfg db = (.ok o, db') ∧
      (o.error = none ↔ Unstranded cfg chain (db.lastIndexedBlock cfg.chainId) db ∧
        Passable cfg chain views d₁ (fromBlock c₁) (bound cfg (fromBlock c₁) chain.tip)) ∧
      (o.error = none →
        (fromBlock (db.lastIndexedBlock cfg.chainId) < fromBlock (db'.lastIndexedBlock cfg.chainId) ↔
          fromBlock (db.lastIndexedBlock cfg.chainId) ≤ bound cfg (fromBlock c₁) chain.tip)) := by
  have htarget := targetOf_bound htip hhead hend
  have hdst : bound cfg (fromBlock c₁) chain.tip < chain.blocks.length :=
    Chain.lt_length_iff.mpr (bound_le_head.trans (Nat.sub_le _ _))
  have hintact := hdb.intact
  set dst := bound cfg (fromBlock c₁) chain.tip with hdst'
  set C := Unstranded cfg chain (db.lastIndexedBlock cfg.chainId) db ∧
    Passable cfg chain views d₁ (fromBlock c₁) dst with hC
  -- what the tick returns, and the cursor it leaves
  have hrun : Triple (On (· = db)) (runOnce (answering chain views).session cfg)
      (fun o => On fun db' => (o.error = none ↔ C) ∧ (o.error = none →
        (fromBlock (db.lastIndexedBlock cfg.chainId) < fromBlock (db'.lastIndexedBlock cfg.chainId) ↔
          fromBlock (db.lastIndexedBlock cfg.chainId) ≤ dst))) fun _ => False := by
    rw [runOnce_eq]
    refine triple_bind (openRun_answered hintact) ?_
    rintro r w ⟨hstarted, rfl⟩
    obtain ⟨d₂, hcheck₂, hevents, hsnapshots⟩ := hcheck.started hstarted
    have hinner : Decides _ (runInner (answering chain views).session cfg
        (db.lastIndexedBlock cfg.chainId)) C _ :=
      (runInner_decides hstarted.intact hstarted.configured hcheck₂ hdst htarget).congr (by
        rw [hC, hstarted.unstranded_iff]
        exact and_congr_right fun _ => ⟨fun h => h.congr hevents.symm hsnapshots.symm,
          fun h => h.congr hevents hsnapshots⟩)
    refine triple_bind (P := On (· = w.db)) (triple_attempt (R := fun r w' =>
      (∀ o, r = .ok o → ((o.lastIndexedBlock = some dst ∧ o.error = none) ∧
        (w'.db.indexerRuns, w'.db.nextRun) = (w.db.indexerRuns, w.db.nextRun)) ∧ C) ∧
      ∀ e, r = .error e → ¬ C) hinner ?_ ?_) ?_ w rfl
    · intro o w' hs
      refine ⟨?_, by rintro e ⟨⟩⟩
      rintro o' ⟨⟩
      exact hs
    · intro e w' hs
      exact ⟨by rintro o ⟨⟩, fun _ _ => hs⟩
    intro r
    cases r with
    | ok o =>
      refine triple_pre (P := On fun db' => ((o.lastIndexedBlock = some dst ∧ o.error = none) ∧
        (db'.indexerRuns, db'.nextRun) = (w.db.indexerRuns, w.db.nextRun)) ∧ C) ?_ fun w' hs => hs.1 o rfl
      refine triple_bind (Q := fun _ => On fun db' => (C ∧ o.error = none) ∧
        (fromBlock (db.lastIndexedBlock cfg.chainId) < fromBlock (db'.lastIndexedBlock cfg.chainId) ↔
          fromBlock (db.lastIndexedBlock cfg.chainId) ≤ dst)) ?_ ?_
      · refine sql_answered (P := fun db' => ((o.lastIndexedBlock = some dst ∧ o.error = none) ∧
          (db'.indexerRuns, db'.nextRun) = (w.db.indexerRuns, w.db.nextRun)) ∧ C) ?_
        rintro d' ⟨⟨⟨ho, herr⟩, hruns⟩, hC⟩
        exact ⟨_, _, rfl, ⟨hC, herr⟩, hstarted.toOpenRun.moved hintact.runs hruns ho rfl⟩
      · intro _
        refine triple_pure ?_
        rintro w' ⟨⟨hC, herr⟩, hmoved⟩
        exact ⟨iff_of_true herr hC, fun _ => hmoved⟩
    | error err =>
      refine triple_pre (P := On fun _ => ¬ C) ?_ fun w' hs => hs.2 err rfl
      refine triple_bind (Q := fun _ _ => ¬ C) ?_ ?_
      · exact sql_answered (P := fun _ => ¬ C) (Q := fun _ _ => ¬ C) fun d' hC => ⟨_, _, rfl, hC⟩
      · intro _
        refine triple_pure ?_
        intro w' hC
        refine ⟨iff_of_false ?_ hC, ?_⟩
        · intro herr
          cases herr
        · intro herr
          cases herr
  have hrun := hrun ⟨db, 0⟩ rfl
  unfold tick
  rcases hr : runOnce (answering chain views).session cfg ⟨db, 0⟩ with ⟨err | o, w⟩
  · rw [hr] at hrun
    cases hrun
  · rw [hr] at hrun
    exact ⟨o, w.db, rfl, hrun⟩

/-- **The tick.**  From any database that ticks lead to, and with a node that answers, a tick that has a
range ends without an error and moves the cursor exactly if its rollback strands no vote, nothing in its
range makes the ingestion fail, and its range reaches beyond the old cursor. -/
theorem tick_moves_iff (hdb : Reached db) (htip : chain.tip < 2 ^ 64) {c₁ : Option ℕ} {d₁ : Db}
    (hcheck : CheckedTo cfg chain (db.lastIndexedBlock cfg.chainId) db c₁ d₁)
    (hhead : fromBlock c₁ ≤ chain.tip - confirmations)
    (hend : ∀ e, cfg.endBlock = some e → fromBlock c₁ ≤ e) :
    Moves cfg (answering chain views) db ↔
      (Unstranded cfg chain (db.lastIndexedBlock cfg.chainId) db ∧
        Passable cfg chain views d₁ (fromBlock c₁) (bound cfg (fromBlock c₁) chain.tip)) ∧
      fromBlock (db.lastIndexedBlock cfg.chainId) ≤ bound cfg (fromBlock c₁) chain.tip := by
  obtain ⟨o, db', hok, hiff, hmoved⟩ := tick_answered views hdb htip hcheck hhead hend
  constructor
  · rintro ⟨o', db'', hok', herr, hlt⟩
    rw [hok] at hok'
    cases hok'
    exact ⟨hiff.mp herr, (hmoved herr).mp hlt⟩
  · rintro ⟨hC, hle⟩
    have herr := hiff.mpr hC
    exact ⟨o, db', hok, herr, (hmoved herr).mpr hle⟩

/-! ### A vault that does not answer -/

/-- The events are those of a run of the registry. -/
def RegistryRun (events : List Event) : Prop :=
  ∃ admin r₀, Portfolio.Registry.deploy admin = .ok r₀ ∧
    ∃ calls : List Listed, events = listingIn (history Portfolio.Registry.exec r₀ calls)

/-- The events are those of a run of the governance. -/
def GovernanceRun (events : List Event) : Prop :=
  ∃ (router admin : Address) (votingPeriod executionDelay quorum : ℕ) (g₀ : Governance.Storage),
    Governance.Storage.deploy router admin votingPeriod executionDelay quorum = .ok g₀ ∧
    ∃ (V : Type) (env : Governance.Env V) (p₀ : Portfolio.RouterState V)
      (acts : List (Governance.Action V)),
      events = announcedIn (history (Governance.State.act env) ⟨g₀, p₀⟩ acts)

/-- From any database that ticks lead to, on any chain with the events of the contracts, and whatever the
answers to view calls, a tick that has a range moves the cursor. -/
def NeverWedged : Prop :=
  ∀ (cfg : IndexerConfig) (chain : Chain) (views : Address → View → ℕ → CallAnswer) (db : Db)
    (registry governance : List Event) (c₁ : Option ℕ) (d₁ : Db),
    RegistryRun registry → GovernanceRun governance →
    OfContracts cfg chain chain.blocks.length registry governance → Reached db →
    1 ≤ cfg.maxBlocksPerTick → chain.tip < 2 ^ 64 →
    CheckedTo cfg chain (db.lastIndexedBlock cfg.chainId) db c₁ d₁ →
    fromBlock c₁ ≤ chain.tip - confirmations → (∀ e, cfg.endBlock = some e → fromBlock c₁ ≤ e) →
    Moves cfg (answering chain views) db

/-- A deployment that watches the registry at the account `4`. -/
def registering : IndexerConfig := { deployment 100 with registry := some 4, featureFlags := 4 }

/-- The account `10` is registered. -/
def registersOne : List Listed := [(.of 3 (.of 1 1000) (.registerVault 10 "stable" 7), fun _ => none)]

/-- At height one, that is. -/
def registersChain : Chain where
  blocks :=
    [quietBlock 0,
      ⟨1, [⟨77, 0, 3, some 4, 1⟩], [⟨4, .event (.vaultRegistered 10 "stable" 7), 77, 0, 0⟩]⟩,
      quietBlock 2, quietBlock 3, quietBlock 4, quietBlock 5, quietBlock 6, quietBlock 7]

/-- Everything answers, except for the account `10`, which has no code. -/
def codeless (a : Address) (_ : View) (_ : ℕ) : CallAnswer := if a = 10 then .short else .word 0

/-- No cursor, no reorganization. -/
theorem checkedTo_new : CheckedTo cfg chain (Db.empty.lastIndexedBlock cfg.chainId) Db.empty none Db.empty := by
  refine .quiet ?_
  rintro ⟨n, P, Q, hn, -⟩
  cases hn

/-- Of a vault that answers, the snapshot is taken, and the tick goes through. -/
theorem tick_moves_iff_registered :
    Moves registering (answering registersChain fun _ _ _ => .word 0) Db.empty ∧
      Passable registering registersChain (fun _ _ _ => .word 0) Db.empty 0 2 := by
  have hmoves : Moves registering (answering registersChain fun _ _ _ => .word 0) Db.empty := by
    have hok : (tick (answering registersChain fun _ _ _ => .word 0).session registering
        Db.empty).1.toOption.map (fun o => o.error) = some none ∧
        fromBlock (Db.empty.lastIndexedBlock registering.chainId) <
          fromBlock ((tick (answering registersChain fun _ _ _ => .word 0).session registering
            Db.empty).2.lastIndexedBlock registering.chainId) := by decide +kernel
    obtain ⟨hok, hlt⟩ := hok
    rcases htick : tick (answering registersChain fun _ _ _ => .word 0).session registering Db.empty with
      ⟨err | o, db'⟩
    · rw [htick] at hok
      cases hok
    · rw [htick] at hok hlt
      exact ⟨o, db', htick, Option.some.inj hok, hlt⟩
  have hiff : Moves registering (answering registersChain fun _ _ _ => .word 0) Db.empty ↔ _ :=
    tick_moves_iff .new (by decide) checkedTo_new (by decide) fun e he => by cases he
  exact ⟨hmoves, (hiff.mp hmoves).1.2⟩

/-- **A tick is wedged** by a registered account that does not answer, and the next one is too. -/
theorem registered_account_wedges :
    ¬ NeverWedged ∧ ¬ Moves registering (answering registersChain codeless)
      (tick (answering registersChain codeless).session registering Db.empty).2 := by
  have hstops : ∀ {db : Db}, (tick (answering registersChain codeless).session registering
      db).1.toOption.map (fun o => o.error) = some (some .shortRead) →
      ¬ Moves registering (answering registersChain codeless) db := by
    rintro db h ⟨o, db', hok, herr, -⟩
    rw [hok] at h
    have h : o.error = some .shortRead := Option.some.inj h
    rw [herr] at h
    cases h
  have hregistry : RegistryRun (listingIn (history Portfolio.Registry.exec Portfolio.Registry.newRegistry
      registersOne)) := ⟨3, _, rfl, registersOne, rfl⟩
  have hgovernance : GovernanceRun [] :=
    ⟨1, 20, 3600, 60, 5, _, rfl, _, Governance.ballotEnv, Governance.deployed.portfolio, [], rfl⟩
  have hchain : OfContracts registering registersChain registersChain.blocks.length
      (listingIn (history Portfolio.Registry.exec Portfolio.Registry.newRegistry registersOne)) [] := by
    refine ⟨?_, ?_, by decide +kernel⟩
    · rintro reg ⟨⟩
      decide +kernel
    · intro gov hgov
      cases hgov
  refine ⟨?_, hstops (by decide +kernel)⟩
  intro h
  refine hstops (by decide +kernel) (h registering registersChain codeless Db.empty _ [] none Db.empty
    hregistry hgovernance hchain .new (by decide) (by decide) checkedTo_new (by decide) ?_)
  intro e he
  cases he

end RobotMoney.Indexer
