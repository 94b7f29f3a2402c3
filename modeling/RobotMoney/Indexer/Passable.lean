import RobotMoney.Indexer.Reached

/-!
# What stands in the way of an ingestion

A node that answers every call still makes the ingestion of a range fail, by what it answers: a log that
does not decode, a name that the database does not take, a vote whose proposal is not stored, a vault
that does not answer.  `ingest_decides` says exactly when it fails.
-/

namespace RobotMoney.Indexer

open RobotMoney.Lib Fallible

/-- A tick that meets a chain and a node that answers every call. -/
def answering (chain : Chain) (views : Address → View → ℕ → CallAnswer) : Poll :=
  ⟨chain, fun _ => views, fun _ => false⟩

/-! ### The conditions -/

/-- A vault answers at a height with its assets and its supply. -/
def Answers (views : Address → View → ℕ → CallAnswer) (a : Address) (n : ℕ) : Prop :=
  (∃ v, views a .totalAssets n = .word v) ∧ ∃ v, views a .totalSupply n = .word v

/-- A log is handled, after the logs `pre` on the tables `t`: it decodes, the name that it registers is
text, and the proposal that it votes for is stored or created by one of the logs before it. -/
structure Accepts (cfg : IndexerConfig) (t : EventTables) (pre : List LogEntry) (e : LogEntry) : Prop where
  decodes : ∀ tp, e.log.data = .raw tp → tp.decoded = false
  text : ∀ vault name asset, e.log.data = .event (.vaultRegistered vault name asset) →
    Db.isText name = true
  proposed : ∀ v, recordOf cfg e = some (.vote v) → (t.proposal (v.chainId, v.proposalId)).isSome = true ∨
    ∃ e' ∈ pre, (createdBy cfg (v.chainId, v.proposalId) e').isSome = true

/-- The vaults of a heartbeat after some logs: the configured one, and those that are listed as active. -/
def Beats (cfg : IndexerConfig) (t : EventTables) (logs : List LogEntry) (a : Address) : Prop :=
  a = cfg.vault ∨ ∃ r, vaultAfter cfg (cfg.chainId, a) (t.vault (cfg.chainId, a)) logs = some r ∧ r.status = 0

/-- There is a snapshot of a vault at a height. -/
def Snapped (cfg : IndexerConfig) (db : Db) (a : Address) (n : ℕ) : Prop :=
  ∃ r ∈ db.vaultSnapshots, r.key = (cfg.chainId, a, n)

/-- With snapshots `S`, the next one of a vault is due at a height. -/
def Due (S : Address → ℕ → Prop) (dst : ℕ) (a : Address) : Prop :=
  ∀ n, S a n → n + snapshotHeartbeatBlocks ≤ dst

/-- The snapshots after those at the events of the configured vault. -/
def SnappedAfter (cfg : IndexerConfig) (db : Db) (logs : List LogEntry) (a : Address) (n : ℕ) : Prop :=
  Snapped cfg db a n ∨ (a = cfg.vault ∧ ∃ e ∈ logs, e.log.address = cfg.vault ∧ e.blockNumber = n)

/-- Nothing in a range makes its ingestion fail: all logs are handled, and the vaults that a snapshot is
due of answer. -/
structure Passable (cfg : IndexerConfig) (chain : Chain) (views : Address → View → ℕ → CallAnswer)
    (db : Db) (src dst : ℕ) : Prop where
  logs : ∀ pre e post, watchedLogs cfg chain src dst = pre ++ e :: post → Accepts cfg db.events pre e
  events : ∀ e ∈ watchedLogs cfg chain src dst, e.log.address = cfg.vault →
    Answers views cfg.vault e.blockNumber
  heartbeats : ∀ a, Beats cfg db.events (watchedLogs cfg chain src dst) a →
    Due (SnappedAfter cfg db (watchedLogs cfg chain src dst)) dst a → Answers views a dst

variable {cfg : IndexerConfig} {chain : Chain} {views : Address → View → ℕ → CallAnswer} {db db' d : Db}
  {t t' : EventTables} {runs : List RunRow × ℕ} {S : Address → ℕ → Prop} {done : List Address}
  {e : LogEntry} {pre logs : List LogEntry} {n src dst : ℕ} {c : Option ℕ} {a : Address}

/-! ### Calls that are answered -/

section Calls

variable {α : Type} {P : Db → Prop} {Q : α → Db → Prop}

theorem answered {E : Db → Prop} (k : ℕ) (hk : (answering chain views).fails k = true) (db : Db)
    (_ : P db) : E db := by cases hk

theorem ask_answered {f : Chain → α} :
    Triple (On P) (rpc (answering chain views).session fun node => .ok (f node.chain))
      (fun a => On fun db => P db ∧ a = f chain) fun _ => False :=
  triple_ask (E := fun _ => False) answered

theorem select_answered {f : Db → α} :
    Triple (On P) (select (answering chain views).session f) (fun a => On fun db => P db ∧ a = f db)
      fun _ => False :=
  triple_select (E := fun _ => False) answered fun _ h => ⟨h, rfl⟩

theorem sql_answered {f : Statement α} (hf : ∀ db, P db → ∃ a db', f db = .ok (a, db') ∧ Q a db') :
    Triple (On P) (sql (answering chain views).session f) (fun a => On (Q a)) fun _ => False :=
  triple_sql_ok (E := fun _ => False) answered hf

/-- A statement that fails exactly where `C` does not hold. -/
theorem sql_decides {f : Statement α} {C : Prop} (hok : ∀ db a db', P db → f db = .ok (a, db') → Q a db' ∧ C)
    (herr : ∀ db err, P db → f db = .error err → ¬ C) :
    Decides (On P) (sql (answering chain views).session f) C fun a => On (Q a) :=
  triple_sql (Q := fun a db => Q a db ∧ C) (E := fun _ => ¬ C) answered hok herr

theorem callU256_decides {view : View} :
    Decides (On P) (callU256 (answering chain views).session a view n) (∃ v, views a view n = .word v)
      fun _ => On P := by
  refine triple_rpc (Q := fun _ db => P db ∧ ∃ v, views a view n = .word v)
    (E := fun _ => ¬ ∃ v, views a view n = .word v) answered ?_ ?_
  · intro k v hv db hP
    refine ⟨hP, v, ?_⟩
    dsimp only [answering] at hv
    cases hview : views a view n with
    | word v' =>
      rw [hview] at hv
      cases hv
      rfl
    | _ =>
      rw [hview] at hv
      cases hv
  · rintro k err herr db hP ⟨v, hv⟩
    dsimp only [answering] at herr
    rw [hv] at herr
    cases herr

end Calls

/-! ### Tables -/

theorem proposal_isSome {k : ℤ × ℕ} :
    (db.events.proposal k).isSome = true ↔ ∃ q, db.Holds (.proposal q) ∧ q.proposalKey = k := by
  unfold EventTables.proposal Table.lookup
  rw [List.find?_isSome]
  constructor
  · rintro ⟨p, hp, hk⟩
    exact ⟨p.core, ⟨p, hp, rfl⟩, of_decide_eq_true hk⟩
  · rintro ⟨q, ⟨p, hp, rfl⟩, hk⟩
    exact ⟨p, hp, decide_eq_true hk⟩

/-- A proposal is stored after some logs if it was before, or one of the logs creates it. -/
theorem proposal_handleAll_isSome {k : ℤ × ℕ} :
    ((t.handleAll cfg logs).proposal k).isSome = true ↔
      (t.proposal k).isSome = true ∨ ∃ e ∈ logs, (createdBy cfg k e).isSome = true := by
  induction logs generalizing t with
  | nil => simp [EventTables.handleAll]
  | cons e logs ih =>
    rw [EventTables.handleAll_cons, ih, proposal_handle, Option.isSome_or, Option.isSome_map]
    simp [or_assoc]

/-- An active vault of the table, by its row. -/
theorem mem_activeVaults (h : Contracted db) :
    a ∈ db.activeVaults cfg.chainId ↔
      ∃ r, db.events.vault (cfg.chainId, a) = some r ∧ r.status = 0 := by
  unfold Db.activeVaults
  rw [(List.perm_insertionSort _ _).mem_iff, List.mem_map]
  constructor
  · rintro ⟨r, hr, rfl⟩
    obtain ⟨hr, hactive⟩ := List.mem_filter.mp hr
    obtain ⟨hchain, hstatus⟩ := of_decide_eq_true hactive
    refine ⟨r, ?_, hstatus⟩
    rw [← hchain]
    exact h.unique.mem_iff.mp hr
  · rintro ⟨r, hr, hstatus⟩
    have hkey : r.key = (cfg.chainId, a) := Table.key_of_lookup hr
    obtain ⟨hchain, rfl⟩ := Prod.mk.injEq .. ▸ hkey
    refine ⟨r, List.mem_filter.mpr ⟨?_, decide_eq_true ⟨hchain, hstatus⟩⟩, rfl⟩
    refine h.unique.mem_iff.mpr ?_
    rw [hkey]
    exact hr

/-- The last snapshot of a vault is the greatest of its heights. -/
theorem due_iff : Due (Snapped cfg db) dst a ↔
    ∀ prev, db.lastSnapshot cfg.chainId a = some prev → prev + snapshotHeartbeatBlocks ≤ dst := by
  have hmem : ∀ n, Snapped cfg db a n ↔ n ∈ (db.vaultSnapshots.filter fun r =>
      r.chainId = cfg.chainId ∧ r.contract = a).map fun r => r.blockNumber := by
    intro n
    simp [Snapped, SnapshotRow.key, and_assoc]
  unfold Due Db.lastSnapshot
  constructor
  · intro h prev hprev
    exact h prev ((hmem prev).mpr (List.max?_eq_some_iff.mp hprev).1)
  · intro h n hn
    have hn := (hmem n).mp hn
    cases hmax : ((db.vaultSnapshots.filter fun r =>
        r.chainId = cfg.chainId ∧ r.contract = a).map fun r => r.blockNumber).max? with
    | none =>
      rw [List.max?_eq_none_iff.mp hmax] at hn
      cases hn
    | some m =>
      have hle := (List.max?_eq_some_iff.mp hmax).2 n hn
      have hdue := h m hmax
      omega

/-! ### The parts of an ingestion -/

/-- The configured vault has its contract, and the snapshots, but for those of the vaults `done`, are
`S`. -/
structure Recorded (cfg : IndexerConfig) (S : Address → ℕ → Prop) (done : List Address) (db : Db) :
    Prop where
  configured : Table.taken ContractRow.key db.contracts (cfg.chainId, cfg.vault) = true
  snapshots : ∀ a ∉ done, ∀ n, Snapped cfg db a n ↔ S a n

/-- The tables while a range is ingested. -/
structure Site (cfg : IndexerConfig) (t : EventTables) (runs : List RunRow × ℕ)
    (S : Address → ℕ → Prop) (done : List Address) (db : Db) : Prop where
  stands : Stands t runs db
  intact : Intact db
  recorded : Recorded cfg S done db

/-- Statements that add contracts, or change other tables. -/
theorem Recorded.of_tables (h : Recorded cfg S done db)
    (hc : ∀ k, Table.taken ContractRow.key db.contracts k = true →
      Table.taken ContractRow.key db'.contracts k = true)
    (hs : db'.vaultSnapshots = db.vaultSnapshots) : Recorded cfg S done db' where
  configured := hc _ h.configured
  snapshots a ha n := by
    unfold Snapped
    rw [hs]
    exact h.snapshots a ha n

/-- What a part of an ingestion decides; the tables of events and what rows refer to are accounted for
elsewhere. -/
theorem site_decides {α : Type} {m : Tick α} {C : Prop} {S' : Address → ℕ → Prop} {done' : List Address}
    (h : Decides (On (Site cfg t runs S done)) m C fun _ => On (Recorded cfg S' done'))
    (hstands : Triple (On (Stands t runs)) m (fun _ => On (Stands t' runs)) fun _ => True)
    (hintact : Triple (On Intact) m (fun _ => On Intact) (On Intact)) :
    Decides (On (Site cfg t runs S done)) m C fun _ => On (Site cfg t' runs S' done') := by
  have hkept : Triple (On (Site cfg t runs S done)) m (fun _ => On Intact) (On Intact) :=
    triple_pre hintact fun w hw => hw.intact
  have hboth := triple_and (triple_pre hstands fun w hw => hw.stands) hkept
  refine triple_conseq (triple_and h hboth) (fun _ hs => hs) ?_ fun _ hs => hs.1
  rintro a w ⟨⟨hrecorded, hC⟩, hstands, hintact⟩
  exact ⟨⟨hstands, hintact, hrecorded⟩, hC⟩

theorem withStatus_answered {P : Db → Prop} (txs : List Transaction) :
    Triple (On P) (withStatus (answering chain views).session txs) (fun _ => On P) fun _ => False := by
  induction txs with
  | nil => exact triple_pure fun _ hs => hs
  | cons tx txs ih =>
    unfold withStatus
    refine triple_bind (ask_answered (f := fun chain => chain.txStatus tx.txHash)) ?_
    intro status
    refine triple_bind (triple_pre ih fun _ hs => hs.1) ?_
    intro rest
    exact triple_pure fun _ hs => hs

theorem blockWithTxs_answered {P : Db → Prop} (hn : n < chain.blocks.length) :
    Triple (On P) (blockWithTxs (answering chain views).session n) (fun _ => On P) fun _ => False := by
  unfold blockWithTxs
  refine triple_bind (Q := fun _ => On P) (triple_rpc (E := fun _ => False) answered ?_ ?_) ?_
  · intro k r _ db hP
    exact hP
  · intro k err herr
    simp [answering, Chain.header, List.getElem?_eq_getElem hn] at herr
  · rintro ⟨header, txs⟩
    refine triple_bind (withStatus_answered txs) ?_
    intro txs'
    exact triple_pure fun _ hs => hs

theorem ingestBlock_decides (hn : n < chain.blocks.length) :
    Decides (On (Site cfg t runs S done)) (ingestBlock (answering chain views).session cfg n) True
      fun _ => On (Site cfg t runs S done) := by
  refine site_decides (decides_of_ok ?_) ingestBlock_stands intact_fills.ingestBlock
  refine triple_pre (P := On (Recorded cfg S done)) ?_ fun w hw => hw.recorded
  unfold ingestBlock
  refine triple_bind (blockWithTxs_answered hn) ?_
  rintro ⟨header, txs⟩
  refine triple_bind (Q := fun _ => On (Recorded cfg S done)) (sql_answered ?_) ?_
  · intro db h
    exact ⟨_, _, rfl, h.of_tables (fun _ hk => hk) rfl⟩
  intro r
  refine triple_bind (Q := fun _ => On (Recorded cfg S done)) (triple_total_keeps ?_) ?_
  · intro tx _
    refine sql_answered ?_
    intro db h
    exact ⟨_, _, rfl, h.of_tables (fun _ hk => hk) rfl⟩
  intro rs
  exact triple_pure fun _ hs => hs

theorem ingestCursor_decides :
    Decides (On (Site cfg t runs S done)) (ingestCursor (answering chain views).session cfg logs n) True
      fun _ => On (Site cfg t runs S done) := by
  refine site_decides (decides_of_ok ?_) ingestCursor_stands intact_fills.ingestCursor
  refine triple_pre (P := On (Recorded cfg S done)) ?_ fun w hw => hw.recorded
  unfold ingestCursor
  split
  · exact triple_pure fun _ hs => hs
  · refine triple_bind (ask_answered (f := fun chain => chain.header n)) ?_
    intro header
    cases header with
    | none => exact triple_pure fun _ hs => hs.1
    | some header =>
      refine sql_answered ?_
      rintro db ⟨h, -⟩
      exact ⟨_, _, rfl, h.of_tables (fun _ hk => hk) rfl⟩

/-! ### Logs -/

/-- An insert fails exactly for a vote without its proposal. -/
theorem insertRecord_ok_iff {x : Record} (h : Referenced db) :
    (∃ r, Db.insertRecord x db = .ok r) ↔
      ∀ v, x = .vote v → (db.events.proposal (v.chainId, v.proposalId)).isSome = true := by
  constructor
  · rintro ⟨⟨r, db'⟩, hok⟩ v rfl
    rw [proposal_isSome]
    have hok : Db.insertVote v db = .ok (r, db') := hok
    unfold Db.insertVote at hok
    split at hok
    · rename_i htaken
      obtain ⟨v', hv', hkey⟩ := Table.exists_of_taken htaken
      obtain ⟨hchain, hid⟩ := Prod.mk.injEq .. ▸ hkey
      obtain ⟨hid, -⟩ := Prod.mk.injEq .. ▸ hid
      obtain ⟨q, hq, hqkey⟩ := h v' hv'
      exact ⟨q, hq, by rw [hqkey, hchain, hid]⟩
    · split at hok
      · rename_i htaken
        obtain ⟨p, hp, hkey⟩ := Table.exists_of_taken htaken
        exact ⟨p.core, ⟨p, hp, rfl⟩, hkey⟩
      · cases hok
  · intro hprop
    refine insertRecord_ok ?_
    intro v hv
    exact proposal_isSome.mp (hprop v hv)

/-- On the tables `t`, a log is handled. -/
structure Handled (cfg : IndexerConfig) (t : EventTables) (e : LogEntry) : Prop where
  decodes : ∀ tp, e.log.data = .raw tp → tp.decoded = false
  text : ∀ vault name asset, e.log.data = .event (.vaultRegistered vault name asset) →
    Db.isText name = true
  proposed : ∀ v, recordOf cfg e = some (.vote v) → (t.proposal (v.chainId, v.proposalId)).isSome = true

theorem handled_handleAll : Handled cfg (t.handleAll cfg pre) e ↔ Accepts cfg t pre e := by
  constructor
  · rintro ⟨hdecodes, htext, hproposed⟩
    exact ⟨hdecodes, htext, fun v hv => proposal_handleAll_isSome.mp (hproposed v hv)⟩
  · rintro ⟨hdecodes, htext, hproposed⟩
    exact ⟨hdecodes, htext, fun v hv => proposal_handleAll_isSome.mpr (hproposed v hv)⟩

/-- Events that change vaults or proposals: only the name of a vault can make one fail. -/
theorem handleUpdate_decides {ev : Event} :
    Decides (On (Recorded cfg S done)) (handleUpdate (answering chain views).session cfg e ev)
      (∀ vault name asset, ev = .vaultRegistered vault name asset → Db.isText name = true)
      fun _ => On (Recorded cfg S done) := by
  cases ev with
  | vaultRegistered vault name asset =>
    unfold handleUpdate
    refine Decides.congr (C := Db.isText name = true) ?_ (by simp)
    refine Decides.bind_ok (Q := fun _ => On (Recorded cfg S done)) (sql_answered ?_) fun _ => ?_
    · intro db h
      exact ⟨_, _, rfl, h.of_tables (fun _ hk => Table.taken_insertNew hk) rfl⟩
    · refine sql_decides ?_ ?_
      · intro db a db' h hok
        obtain ⟨htext, rfl⟩ := upsertVault_eq_ok hok
        exact ⟨h.of_tables (fun _ hk => hk) rfl, htext⟩
      · intro db err h herr htext
        unfold Db.upsertVault at herr
        rw [if_pos htext] at herr
        cases herr
  | vaultStatusChanged vault newStatus timestamp =>
    unfold handleUpdate
    refine (decides_of_ok (sql_answered ?_)).congr (by simp)
    intro db h
    exact ⟨_, _, rfl, h.of_tables (fun _ hk => hk) rfl⟩
  | proposalExecuted proposalId executor =>
    unfold handleUpdate
    refine (decides_of_ok (sql_answered ?_)).congr (by simp)
    intro db h
    exact ⟨_, _, rfl, h.of_tables (fun _ hk => hk) rfl⟩
  | _ =>
    refine Decides.congr (C := True) ?_ (by simp)
    exact decides_pure fun _ hs => hs

/-- **One log.** -/
theorem handleLog_decides :
    Decides (On (Site cfg t runs S done)) (handleLog (answering chain views).session cfg e)
      (Handled cfg t e) fun _ => On (Site cfg (t.handle cfg e) runs S done) := by
  refine site_decides ?_ handleLog_stands intact_keeps.handleLog
  unfold handleLog
  cases hdata : e.log.data with
  | foreign =>
    refine (decides_pure fun _ hs => hs.recorded).congr (iff_of_true trivial ⟨?_, ?_, ?_⟩)
    · simp [hdata]
    · simp [hdata]
    · simp [recordOf, hdata]
  | raw tp =>
    dsimp only
    split
    · rename_i hdecoded
      refine triple_fail ?_
      intro w _ hhandled
      rw [hhandled.decodes tp hdata] at hdecoded
      cases hdecoded
    · rename_i hdecoded
      refine (decides_pure fun _ hs => hs.recorded).congr (iff_of_true trivial ⟨?_, ?_, ?_⟩)
      · intro tp' htp'
        rw [hdata] at htp'
        cases htp'
        simpa using hdecoded
      · simp [hdata]
      · simp [recordOf, hdata]
  | event ev =>
    dsimp only
    have hof : recordOf cfg e = ev.record cfg e := by
      unfold recordOf
      rw [hdata]
    cases hrecord : ev.record cfg e with
    | none =>
      have hupdate : Decides (On (Recorded cfg S done)) (handleUpdate (answering chain views).session cfg e ev)
        _ fun _ => On (Recorded cfg S done) := handleUpdate_decides
      refine (hupdate.pre fun _ hs => hs.recorded).congr ?_
      constructor
      · intro htext
        refine ⟨by simp [hdata], ?_, ?_⟩
        · intro vault name asset he
          rw [hdata] at he
          exact htext vault name asset (LogData.event.inj he)
        · intro v hv
          rw [hof, hrecord] at hv
          cases hv
      · rintro hhandled vault name asset rfl
        exact hhandled.text vault name asset hdata
    | some x =>
      have hiff : (∀ v, x = .vote v → (t.proposal (v.chainId, v.proposalId)).isSome = true) ↔
          Handled cfg t e := by
        constructor
        · intro hx
          refine ⟨by simp [hdata], ?_, ?_⟩
          · intro vault name asset he
            rw [hdata] at he
            cases he
            cases hrecord
          · intro v hv
            rw [hof, hrecord] at hv
            exact hx v (Option.some.inj hv)
        · rintro hhandled v rfl
          exact hhandled.proposed v (hof.trans hrecord)
      refine (sql_decides ?_ ?_).congr hiff
      · rintro db r db' ⟨⟨rfl, -⟩, hintact, hrecorded⟩ hok
        refine ⟨hrecorded.of_tables ?_ (insertRecord_snapshots hok),
          (insertRecord_ok_iff hintact.referenced).mp ⟨_, hok⟩⟩
        intro k hk
        rw [(insertRecord_frame hok).2.1]
        exact hk
      · rintro db err ⟨⟨rfl, -⟩, hintact, -⟩ herr hprop
        obtain ⟨r, hok⟩ := (insertRecord_ok_iff hintact.referenced).mpr hprop
        rw [herr] at hok
        cases hok

/-! ### Snapshots -/

/-- Fewer vaults whose snapshots are known. -/
theorem Site.weaken {S' : Address → ℕ → Prop} {done' : List Address} (h : Site cfg t runs S done db)
    (hS : ∀ a ∉ done', a ∉ done ∧ ∀ n, S a n ↔ S' a n) : Site cfg t runs S' done' db where
  stands := h.stands
  intact := h.intact
  recorded := by
    refine ⟨h.recorded.configured, ?_⟩
    intro a ha n
    obtain ⟨hdone, hsame⟩ := hS a ha
    rw [h.recorded.snapshots a hdone n, hsame]

/-- The contract of a listed vault is there. -/
theorem Site.contract (h : Site cfg t runs S done db)
    (ha : a = cfg.vault ∨ ∃ r, t.vault (cfg.chainId, a) = some r) :
    Table.taken ContractRow.key db.contracts (cfg.chainId, a) = true := by
  rcases ha with rfl | ⟨r, hr⟩
  · exact h.recorded.configured
  · obtain ⟨⟨rfl, -⟩, hintact, -⟩ := h
    have hkey : r.key = (cfg.chainId, a) := Table.key_of_lookup hr
    rw [← hkey] at hr ⊢
    exact hintact.contracted.contracts r (hintact.contracted.unique.mem_iff.mpr hr)

/-- The snapshots with one more. -/
def withSnapshot (S : Address → ℕ → Prop) (a : Address) (n : ℕ) (b : Address) (m : ℕ) : Prop :=
  S b m ∨ (b = a ∧ m = n)

theorem Recorded.insertVaultSnapshot {r : SnapshotRow} (h : Recorded cfg S done db)
    (hchain : r.chainId = cfg.chainId)
    (ht : Table.taken ContractRow.key db.contracts (cfg.chainId, r.contract) = true) :
    ∃ k db', Db.insertVaultSnapshot r db = .ok (k, db') ∧
      Recorded cfg (withSnapshot S r.contract r.blockNumber) done db' := by
  unfold Db.insertVaultSnapshot
  rw [hchain, if_pos ht]
  have hkey : r.key = (cfg.chainId, r.contract, r.blockNumber) := by rw [← hchain]; rfl
  split
  · rename_i htaken
    refine ⟨_, _, rfl, h.configured, ?_⟩
    intro b hb m
    obtain ⟨r', hr', hkey'⟩ := Table.exists_of_taken htaken
    unfold withSnapshot
    rw [← h.snapshots b hb m, iff_self_or]
    rintro ⟨rfl, rfl⟩
    exact ⟨r', hr', hkey'.trans hkey⟩
  · refine ⟨_, _, rfl, h.configured, ?_⟩
    intro b hb m
    unfold withSnapshot
    rw [← h.snapshots b hb m]
    unfold Snapped
    simp only [List.mem_append, List.mem_singleton, or_and_right, exists_or, exists_eq_left, hkey]
    refine or_congr_right ?_
    simp [Prod.ext_iff, eq_comm]

/-- **One snapshot.**  Only the assets and the supply can make it fail. -/
theorem snapshotVaultAddress_decides (ha : a = cfg.vault ∨ ∃ r, t.vault (cfg.chainId, a) = some r) :
    Decides (On (Site cfg t runs S done)) (snapshotVaultAddress (answering chain views).session cfg a n)
      (Answers views a n) fun _ => On (Site cfg t runs (withSnapshot S a n) done) := by
  refine site_decides ?_ (triple_lenient (snapshotVaultAddress_keeps stands_insertVaultSnapshot))
    (snapshotVaultAddress_keeps fun r m d d' h hok => h.insertVaultSnapshot hok)
  unfold snapshotVaultAddress
  refine Decides.bind callU256_decides fun _ totalAssets => ?_
  refine Decides.congr (C := (∃ v, views a .totalSupply n = .word v) ∧ True) ?_ (by rw [and_true])
  refine Decides.bind callU256_decides fun _ totalSupply => ?_
  refine Decides.bind_ok (triple_unwrapOr callU256_keeps) fun exitFeeBps => ?_
  refine Decides.bind_ok (triple_unwrapOr callU256_keeps) fun tvlCap => ?_
  refine Decides.bind_ok (triple_unwrapOr callBool_keeps) fun paused => ?_
  refine decides_of_ok (sql_answered ?_)
  intro db h
  exact h.recorded.insertVaultSnapshot rfl (h.contract ha)

theorem snapshotAt_decides {b : ℕ × Address} :
    Decides (On (Site cfg t runs S done)) (snapshotAt (answering chain views).session cfg b)
      (b.2 = cfg.vault → Answers views cfg.vault b.1)
      fun _ => On (Site cfg t runs (fun a m => S a m ∨ (a = cfg.vault ∧ (m, cfg.vault) = b)) done) := by
  unfold snapshotAt
  split
  · rename_i hb
    refine ((snapshotVaultAddress_decides (.inl rfl)).congr (by simp [hb])).post ?_
    intro _ _ w hw
    refine hw.weaken fun a ha => ⟨ha, fun m => ?_⟩
    unfold withSnapshot
    simp [Prod.ext_iff, hb]
  · rename_i hb
    refine Decides.congr (C := True) ?_ (by simp [hb])
    refine decides_pure ?_
    intro w hw
    refine hw.weaken fun a ha => ⟨ha, fun m => ?_⟩
    rw [iff_self_or]
    rintro ⟨-, rfl⟩
    exact absurd rfl hb

/-- **One heartbeat.** -/
theorem heartbeat_decides (ha : a = cfg.vault ∨ ∃ r, t.vault (cfg.chainId, a) = some r)
    (hnew : a ∉ done) :
    Decides (On (Site cfg t runs S done)) (heartbeat (answering chain views).session cfg dst a)
      (Due S dst a → Answers views a dst) fun _ => On (Site cfg t runs S (done ++ [a])) := by
  have hsnapshot : Decides (On (Site cfg t runs S done))
      (snapshotVaultAddress (answering chain views).session cfg a dst) (Answers views a dst)
      fun _ => On (Site cfg t runs S (done ++ [a])) := by
    refine (snapshotVaultAddress_decides ha).post ?_
    intro _ _ w hw
    refine hw.weaken fun b hb => ?_
    rw [List.mem_append, List.mem_singleton, not_or] at hb
    refine ⟨hb.1, fun m => ?_⟩
    unfold withSnapshot
    simp [hb.2]
  unfold heartbeat
  refine Decides.bind_ok select_answered fun last => ?_
  refine Decides.of_fact (p := Due S dst a ↔ ∀ prev, last = some prev →
    prev + snapshotHeartbeatBlocks ≤ dst) ?_ fun hdue => ?_
  · rintro w ⟨hw, rfl⟩
    rw [← due_iff]
    unfold Due
    simp only [hw.recorded.snapshots a hnew]
  · rw [hdue]
    refine Decides.pre (P := On (Site cfg t runs S done)) ?_ fun _ hs => hs.1
    cases last with
    | none => exact hsnapshot.congr (by simp)
    | some prev =>
      dsimp only
      split
      · rename_i hle
        exact hsnapshot.congr (by simp [hle])
      · rename_i hlt
        refine Decides.congr (C := True) ?_ (by simp [hlt])
        refine decides_pure ?_
        intro w hw
        refine hw.weaken fun b hb => ⟨?_, fun m => Iff.rfl⟩
        intro hmem
        exact hb (List.mem_append_left _ hmem)

/-! ### The whole range -/

theorem mem_heartbeatVaults {active : List Address} :
    a ∈ heartbeatVaults cfg active ↔ a = cfg.vault ∨ a ∈ active := by
  unfold heartbeatVaults
  rw [List.mem_cons, List.mem_dedup, List.mem_filter]
  constructor
  · rintro (h | ⟨h, -⟩)
    · exact .inl h
    · exact .inr h
  · rintro (h | h)
    · exact .inl h
    · by_cases hvault : a = cfg.vault
      · exact .inl hvault
      · exact .inr ⟨h, decide_eq_true hvault⟩

theorem heartbeatVaults_nodup {active : List Address} : (heartbeatVaults cfg active).Nodup := by
  unfold heartbeatVaults
  refine List.nodup_cons.mpr ⟨?_, List.nodup_dedup _⟩
  rw [List.mem_dedup, List.mem_filter]
  rintro ⟨-, hne⟩
  exact of_decide_eq_true hne rfl

/-- The logs of a range, one after the other. -/
theorem handleLogs_decides :
    Decides (On (Site cfg t runs S done)) (total (handleLog (answering chain views).session cfg) logs)
      (∀ pre e post, logs = pre ++ e :: post → Accepts cfg t pre e)
      fun _ => On (Site cfg (t.handleAll cfg logs) runs S done) := by
  refine decides_total (I := fun pre => On (Site cfg (t.handleAll cfg pre) runs S done)) ?_
  intro pre e post _
  rw [EventTables.handleAll_snoc]
  exact handleLog_decides.congr handled_handleAll

/-- The snapshots of the configured vault at its events. -/
theorem eventSnapshots_decides :
    Decides (On (Site cfg t runs S []))
      (total (snapshotAt (answering chain views).session cfg) (eventBlocksPerContract logs))
      (∀ e ∈ logs, e.log.address = cfg.vault → Answers views cfg.vault e.blockNumber)
      fun _ => On (Site cfg t runs
        (fun a n => S a n ∨ (a = cfg.vault ∧ ∃ e ∈ logs, e.log.address = cfg.vault ∧ e.blockNumber = n))
        []) := by
  refine ((decides_total (I := fun pre => On (Site cfg t runs
    (fun a n => S a n ∨ (a = cfg.vault ∧ (n, cfg.vault) ∈ pre)) [])) (D := fun _ b =>
      b.2 = cfg.vault → Answers views cfg.vault b.1) ?_).congr ?_).pre ?_ |>.post ?_
  · intro pre b post _
    refine snapshotAt_decides.post ?_
    intro _ _ w hw
    refine hw.weaken fun a ha => ⟨ha, fun n => ?_⟩
    rw [List.mem_append, List.mem_singleton, and_or_left, or_assoc]
  · constructor
    · intro h e he hvault
      obtain ⟨pre, post, hsplit⟩ := List.append_of_mem
        (mem_eventBlocksPerContract.mpr ⟨e, he, rfl⟩)
      exact h pre _ post hsplit hvault
    · rintro h pre b post hsplit hvault
      obtain ⟨e, he, rfl⟩ := mem_eventBlocksPerContract.mp
        (hsplit ▸ List.mem_append_right pre List.mem_cons_self)
      exact h e he hvault
  · intro w hw
    refine hw.weaken fun a ha => ⟨ha, fun n => ?_⟩
    simp
  · intro _ _ w hw
    refine hw.weaken fun a ha => ⟨ha, fun n => ?_⟩
    simp [mem_eventBlocksPerContract, and_comm]

/-- The heartbeats of a range. -/
theorem heartbeats_decides {active : List Address}
    (hactive : ∀ a, a ∈ active ↔ ∃ r, t.vault (cfg.chainId, a) = some r ∧ r.status = 0) :
    Decides (On (Site cfg t runs S []))
      (total (heartbeat (answering chain views).session cfg dst) (heartbeatVaults cfg active))
      (∀ a, (a = cfg.vault ∨ ∃ r, t.vault (cfg.chainId, a) = some r ∧ r.status = 0) →
        Due S dst a → Answers views a dst)
      fun _ => On (Site cfg t runs S (heartbeatVaults cfg active)) := by
  refine (decides_total (I := fun pre => On (Site cfg t runs S pre)) (D := fun _ a =>
    Due S dst a → Answers views a dst) ?_).congr ?_
  · intro pre a post hsplit
    refine heartbeat_decides ?_ ?_
    · have ha : a ∈ heartbeatVaults cfg active := hsplit ▸ List.mem_append_right pre List.mem_cons_self
      rcases mem_heartbeatVaults.mp ha with ha | ha
      · exact .inl ha
      · obtain ⟨r, hr, -⟩ := (hactive a).mp ha
        exact .inr ⟨r, hr⟩
    · intro hmem
      have hnodup : (heartbeatVaults cfg active).Nodup := heartbeatVaults_nodup
      rw [hsplit] at hnodup
      exact (List.nodup_append.mp hnodup).2.2 a hmem a List.mem_cons_self rfl
  · constructor
    · intro h a ha
      obtain ⟨pre, post, hsplit⟩ := List.append_of_mem
        (mem_heartbeatVaults.mpr (ha.imp_right (hactive a).mpr))
      exact h pre a post hsplit
    · rintro h pre a post hsplit
      have ha : a ∈ heartbeatVaults cfg active := hsplit ▸ List.mem_append_right pre List.mem_cons_self
      exact h a ((mem_heartbeatVaults.mp ha).imp_right (hactive a).mp)

/-- **The ingestion of a range** fails exactly if something in the range makes it fail. -/
theorem ingest_decides (hdst : dst < chain.blocks.length) :
    Decides (On (Site cfg d.events runs (Snapped cfg d) []))
      (ingest (answering chain views).session cfg src dst) (Passable cfg chain views d src dst)
      fun _ => On fun db => (db.indexerRuns, db.nextRun) = runs := by
  set logs := watchedLogs cfg chain src dst with hlogs
  have hiff : ((∀ pre e post, logs = pre ++ e :: post → Accepts cfg d.events pre e) ∧
      (∀ e ∈ logs, e.log.address = cfg.vault → Answers views cfg.vault e.blockNumber) ∧
      ∀ a, (a = cfg.vault ∨ ∃ r, (d.events.handleAll cfg logs).vault (cfg.chainId, a) = some r ∧
        r.status = 0) → Due (SnappedAfter cfg d logs) dst a → Answers views a dst) ↔
      Passable cfg chain views d src dst := by
    simp only [vault_handleAll]
    exact ⟨fun h => ⟨h.1, h.2.1, h.2.2⟩, fun h => ⟨h.logs, h.events, h.heartbeats⟩⟩
  unfold ingest
  refine Decides.bind_ok (ask_answered (f := fun chain => watchedLogs cfg chain src dst)) fun logs' => ?_
  refine Decides.of_fact (p := logs' = logs) (fun _ hs => hs.2) ?_
  rintro rfl
  refine Decides.bind_ok (Q := fun _ => On (Site cfg d.events runs (Snapped cfg d) []))
    (triple_pre (triple_total_keeps ?_) fun _ hs => hs.1) fun r₁ => ?_
  · intro n hn
    obtain ⟨e, he, rfl⟩ := mem_blocksWithEvents.mp hn
    obtain ⟨-, hle⟩ := watchedLogs_range (p := answering chain views) he
    exact (ingestBlock_decides (by omega)).triple trivial
  refine Decides.bind_ok (ingestCursor_decides.triple trivial) fun r₂ => ?_
  refine (Decides.bind handleLogs_decides fun _ r₃ => ?_).congr hiff
  refine Decides.bind (Q := fun _ => On (Site cfg (d.events.handleAll cfg logs) runs
    (SnappedAfter cfg d logs) [])) eventSnapshots_decides fun _ r₄ => ?_
  refine Decides.bind_ok select_answered fun active => ?_
  refine Decides.of_fact (p := ∀ a, a ∈ active ↔ ∃ r,
    (d.events.handleAll cfg logs).vault (cfg.chainId, a) = some r ∧ r.status = 0) ?_ fun hactive => ?_
  · rintro w ⟨hw, rfl⟩ a
    rw [mem_activeVaults hw.intact.contracted, hw.stands.1]
  refine Decides.congr (C := _ ∧ True) ?_ (iff_of_eq (and_true _))
  refine Decides.bind ((heartbeats_decides hactive).pre fun _ hs => hs.1) fun _ r₅ => ?_
  exact decides_pure fun _ hs => hs.stands.2

end RobotMoney.Indexer
