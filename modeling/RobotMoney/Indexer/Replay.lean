import RobotMoney.Indexer.Ingested
import RobotMoney.Indexer.Rows
import RobotMoney.Lib.Precedes

/-!
# The same logs a second time

Every insert of the indexer does nothing when its key is taken, so logs that were handled insert nothing
when they are handled again (`covers_handle`).  Two statements update rows, though: a change of status
overwrites the one before, and an execution marks a proposal that is not executed.  What the logs do the
second time is therefore `replayed`: a vault has their last change of status, and a proposal their first
execution (`handleAll_eq_replayed`).  For logs in which no vault changes its status before it is registered
and no proposal is executed before it is created (`InOrder`), rows that have these already can be told.

`reindex` processes the watched logs of a range once more, with their blocks and transactions; on a
database that has them it does nothing else (`reindex_again`).
-/

namespace RobotMoney.Indexer

open RobotMoney.Lib Fallible

variable {cfg : IndexerConfig} {t : EventTables} {e e' : LogEntry} {logs pre suf : List LogEntry}

/-! ### Logs that insert nothing -/

theorem handle_of_record {ev : Event} {x : Record} (hdata : e.log.data = .event ev)
    (hx : ev.record cfg e = some x) : t.handle cfg e = t.insert x := by
  unfold EventTables.handle
  rw [hdata]
  dsimp only
  rw [hx]

theorem handle_of_update {ev : Event} (hdata : e.log.data = .event ev) (hx : ev.record cfg e = none) :
    t.handle cfg e = t.update cfg e ev := by
  unfold EventTables.handle
  rw [hdata]
  dsimp only
  rw [hx]

/-- Whether the key of a row is taken. -/
def EventTables.taken (t : EventTables) : Record → Bool
  | .deposit r => Table.taken (fun r => r.key) t.agentDeposits r.key
  | .policy r => Table.taken (fun r => r.key) t.agentPolicies r.key
  | .leg r => Table.taken (fun r => r.key) t.routerDepositLegs r.key
  | .weight r => Table.taken WeightRow.weightKey t.routerWeightSnapshots r.weightKey
  | .vote r => Table.taken VoteRow.voteKey t.governanceVotes r.voteKey
  | .proposal r => Table.taken (fun r => r.core.proposalKey) t.governanceProposals r.proposalKey

/-- The row that a log would insert has its key taken. -/
structure EventTables.Covers (cfg : IndexerConfig) (t : EventTables) (e : LogEntry) : Prop where
  record : ∀ x, recordOf cfg e = some x → t.taken x = true
  vault : ∀ vault name asset, e.log.data = .event (.vaultRegistered vault name asset) →
    Table.taken VaultRow.key t.vaults (cfg.chainId, vault) = true

theorem taken_insert {x y : Record} (h : t.taken y = true) : (t.insert x).taken y = true := by
  cases x with
  | vote v =>
    show (if _ then t else _ : EventTables).taken y = true
    split
    · exact h
    · cases y with
      | vote r =>
        obtain ⟨v', hv', hkey⟩ := Table.taken_iff.mp h
        exact Table.taken_iff.mpr ⟨v', List.mem_append_left _ hv', hkey⟩
      | proposal r => exact Table.taken_map (fun p => congrArg ProposalCore.proposalKey counted_core) h
      | _ => exact h
  | _ =>
    cases y <;> first
      | exact h
      | exact Table.taken_insertNew h

theorem taken_insert_self {x : Record} : (t.insert x).taken x = true := by
  cases x with
  | vote v =>
    show (if _ then t else _ : EventTables).taken (.vote v) = true
    split
    · rename_i htaken
      exact htaken
    · exact Table.taken_iff.mpr ⟨v, List.mem_append_right _ (List.mem_singleton_self v), rfl⟩
  | proposal r => exact Table.taken_insertNew_self (r := ({ core := r } : ProposalRow))
  | deposit r => exact Table.taken_insertNew_self
  | policy r => exact Table.taken_insertNew_self
  | leg r => exact Table.taken_insertNew_self
  | weight r => exact Table.taken_insertNew_self

theorem taken_update {ev : Event} {x : Record} (h : t.taken x = true) :
    (t.update cfg e ev).taken x = true := by
  cases ev with
  | proposalExecuted i executor =>
    cases x with
    | proposal r => exact Table.taken_map (fun p => congrArg ProposalCore.proposalKey executedAt_core) h
    | _ => exact h
  | vaultRegistered => cases x <;> exact h
  | vaultStatusChanged => cases x <;> exact h
  | _ => exact h

/-- What is covered stays covered. -/
theorem EventTables.Covers.handle (h : t.Covers cfg e) : (t.handle cfg e').Covers cfg e := by
  unfold EventTables.handle
  cases e'.log.data with
  | foreign => exact h
  | raw tp => exact h
  | event ev =>
    dsimp only
    cases ev.record cfg e' with
    | some x =>
      refine ⟨fun y hy => taken_insert (h.record y hy), ?_⟩
      intro vault name asset he
      rw [insert_vaults]
      exact h.vault vault name asset he
    | none =>
      refine ⟨fun y hy => taken_update (h.record y hy), ?_⟩
      intro vault name asset he
      have hv := h.vault vault name asset he
      cases ev with
      | vaultRegistered => exact Table.taken_insertNew hv
      | vaultStatusChanged => exact Table.taken_map (fun r => withStatus_key) hv
      | _ => exact hv

/-- A log is covered once it was handled. -/
theorem covers_handle : (t.handle cfg e).Covers cfg e := by
  refine ⟨?_, ?_⟩
  · intro x hx
    cases hdata : e.log.data with
    | event ev =>
      have hrecord : ev.record cfg e = some x := by simpa [recordOf, hdata] using hx
      rw [handle_of_record hdata hrecord]
      exact taken_insert_self
    | raw | foreign => simp [recordOf, hdata] at hx
  · intro vault name asset he
    unfold EventTables.handle
    rw [he]
    exact Table.taken_insertNew_self (r := registeredRow cfg e vault name)

theorem EventTables.Covers.handleAll (h : t.Covers cfg e) : (t.handleAll cfg logs).Covers cfg e := by
  induction logs generalizing t with
  | nil => exact h
  | cons e' logs ih => exact ih h.handle

theorem covers_handleAll (he : e ∈ logs) : (t.handleAll cfg logs).Covers cfg e := by
  obtain ⟨pre, post, rfl⟩ := List.append_of_mem he
  rw [EventTables.handleAll_append, EventTables.handleAll_cons]
  exact covers_handle.handleAll

/-! ### What they do -/

/-- The row of a vault after logs that insert nothing. -/
def VaultRow.replayed (cfg : IndexerConfig) (logs : List LogEntry) (r : VaultRow) : VaultRow :=
  r.changed (lastChange cfg r.key logs)

/-- The row of a proposal after logs that insert nothing. -/
def ProposalRow.replayed (cfg : IndexerConfig) (logs : List LogEntry) (p : ProposalRow) : ProposalRow :=
  { p with
    status := (executedOnce p.execution (executedIn cfg p.core.proposalKey logs)).1
    executedBlock := (executedOnce p.execution (executedIn cfg p.core.proposalKey logs)).2 }

/-- The tables after logs that insert nothing. -/
def EventTables.replayed (cfg : IndexerConfig) (logs : List LogEntry) (t : EventTables) : EventTables :=
  { t with
    vaults := t.vaults.map (VaultRow.replayed cfg logs)
    governanceProposals := t.governanceProposals.map (ProposalRow.replayed cfg logs) }

theorem replayed_nil : t.replayed cfg [] = t := by
  have hv : t.vaults.map (VaultRow.replayed cfg []) = t.vaults := List.map_id _
  have hp : t.governanceProposals.map (ProposalRow.replayed cfg []) = t.governanceProposals :=
    List.map_id _
  unfold EventTables.replayed
  rw [hv, hp]

theorem changed_key {r : VaultRow} {c : Option (ℕ × ℕ)} : (r.changed c).key = r.key := by
  cases c <;> rfl

theorem lastChange_singleton {k : ℤ × Address} : lastChange cfg k [e] = changeOf cfg k e := by
  unfold lastChange
  cases hc : changeOf cfg k e <;> simp [hc]

theorem executedIn_cons {k : ℤ × ℕ} :
    executedIn cfg k (e :: logs) = (executionOf cfg k e).or (executedIn cfg k logs) := by
  unfold executedIn
  cases hx : executionOf cfg k e with
  | none => rw [List.filterMap_cons_none hx, Option.none_or]
  | some n => rw [List.filterMap_cons_some hx, Option.some_or, List.head?_cons]

theorem executedOnce_or {x : ℕ × Option ℕ} {o o' : Option ℕ} :
    executedOnce (executedOnce x o) o' = executedOnce x (o.or o') := by
  cases o with
  | none => rfl
  | some n => exact executedOnce_again

theorem VaultRow.replayed_cons {r : VaultRow} :
    (r.replayed cfg [e]).replayed cfg logs = r.replayed cfg (e :: logs) := by
  unfold VaultRow.replayed
  rw [changed_key, changed_changed, ← lastChange_append]
  rfl

theorem ProposalRow.replayed_cons {p : ProposalRow} :
    (p.replayed cfg [e]).replayed cfg logs = p.replayed cfg (e :: logs) := by
  have hone : executedIn cfg p.core.proposalKey [e] = executionOf cfg p.core.proposalKey e := by
    rw [executedIn_cons]
    exact Option.or_none
  have hboth : executedOnce (p.replayed cfg [e]).execution (executedIn cfg p.core.proposalKey logs) =
      executedOnce p.execution (executedIn cfg p.core.proposalKey (e :: logs)) := by
    show executedOnce (executedOnce p.execution (executedIn cfg p.core.proposalKey [e])) _ = _
    rw [hone, executedOnce_or, executedIn_cons]
  show { p with
      status := (executedOnce (p.replayed cfg [e]).execution (executedIn cfg p.core.proposalKey logs)).1
      executedBlock :=
        (executedOnce (p.replayed cfg [e]).execution (executedIn cfg p.core.proposalKey logs)).2 } = _
  rw [hboth]
  rfl

theorem replayed_vaults_of_ne (h : ∀ k, changeOf cfg k e = none) (rows : List VaultRow) :
    rows.map (VaultRow.replayed cfg [e]) = rows := by
  refine (List.map_congr_left ?_).trans (List.map_id rows)
  intro r _
  unfold VaultRow.replayed
  rw [lastChange_singleton, h]
  rfl

theorem replayed_proposals_of_ne (h : ∀ k, executionOf cfg k e = none) (rows : List ProposalRow) :
    rows.map (ProposalRow.replayed cfg [e]) = rows := by
  refine (List.map_congr_left ?_).trans (List.map_id rows)
  intro p _
  unfold ProposalRow.replayed
  rw [executedIn_cons, h]
  rfl

/-- The row of a vault after a change of a status. -/
theorem withStatus_eq_replayed {vault : Address} {newStatus timestamp : ℕ}
    (he : e.log.data = .event (.vaultStatusChanged vault newStatus timestamp)) (r : VaultRow) :
    r.withStatus (cfg.chainId, vault) newStatus (clampI64 timestamp) = r.replayed cfg [e] := by
  unfold VaultRow.replayed VaultRow.withStatus
  rw [lastChange_singleton]
  unfold changeOf
  rw [he]
  by_cases hk : r.key = (cfg.chainId, vault)
  · rw [if_pos hk]
    dsimp only
    rw [if_pos hk.symm]
    rfl
  · rw [if_neg hk]
    dsimp only
    rw [if_neg (Ne.symm hk)]
    rfl

/-- The row of a proposal after an execution. -/
theorem executedAt_eq_replayed {i : ℕ} {executor : Address}
    (he : e.log.data = .event (.proposalExecuted i executor)) (p : ProposalRow) :
    p.executedAt (cfg.chainId, clampI64 i) e.blockNumber = p.replayed cfg [e] := by
  have hone : executedIn cfg p.core.proposalKey [e] =
      if (cfg.chainId, clampI64 i) = p.core.proposalKey then some e.blockNumber else none := by
    rw [executedIn_cons]
    unfold executionOf
    rw [he]
    exact Option.or_none
  unfold ProposalRow.replayed ProposalRow.executedAt
  rw [hone]
  by_cases hk : p.core.proposalKey = (cfg.chainId, clampI64 i)
  · rw [if_pos hk.symm]
    by_cases hs : p.status < 2
    · rw [if_pos ⟨hk, hs⟩]
      simp [executedOnce, ProposalRow.execution, hs]
    · rw [if_neg fun h => hs h.2]
      simp [executedOnce, ProposalRow.execution, hs]
  · rw [if_neg (Ne.symm hk), if_neg fun h => hk h.1]
    rfl

theorem insert_of_taken {x : Record} (h : t.taken x = true) : t.insert x = t := by
  cases x with
  | vote v => exact if_pos h
  | proposal r =>
    have hrows : Table.insertNew (fun r : ProposalRow => r.core.proposalKey) t.governanceProposals
        { core := r } = t.governanceProposals := Table.insertNew_of_taken h
    show { t with governanceProposals := _ } = t
    rw [hrows]
  | deposit r =>
    have hrows : Table.insertNew (fun r => r.key) t.agentDeposits r = t.agentDeposits :=
      Table.insertNew_of_taken h
    show { t with agentDeposits := _ } = t
    rw [hrows]
  | policy r =>
    have hrows : Table.insertNew (fun r => r.key) t.agentPolicies r = t.agentPolicies :=
      Table.insertNew_of_taken h
    show { t with agentPolicies := _ } = t
    rw [hrows]
  | leg r =>
    have hrows : Table.insertNew (fun r => r.key) t.routerDepositLegs r = t.routerDepositLegs :=
      Table.insertNew_of_taken h
    show { t with routerDepositLegs := _ } = t
    rw [hrows]
  | weight r =>
    have hrows : Table.insertNew WeightRow.weightKey t.routerWeightSnapshots r =
        t.routerWeightSnapshots := Table.insertNew_of_taken h
    show { t with routerWeightSnapshots := _ } = t
    rw [hrows]

/-- A log with nothing to insert changes statuses and executions alone. -/
theorem EventTables.Covers.handle_eq (h : t.Covers cfg e) : t.handle cfg e = t.replayed cfg [e] := by
  have hquiet : (∀ k, changeOf cfg k e = none) → (∀ k, executionOf cfg k e = none) →
      t.replayed cfg [e] = t := by
    intro hc hx
    unfold EventTables.replayed
    rw [replayed_vaults_of_ne hc, replayed_proposals_of_ne hx]
  cases hrecord : recordOf cfg e with
  | some x =>
    have hdata : ∃ ev, e.log.data = .event ev ∧ ev.record cfg e = some x := by
      unfold recordOf at hrecord
      split at hrecord
      · rename_i ev hdata
        exact ⟨ev, hdata, hrecord⟩
      · cases hrecord
    obtain ⟨ev, hdata, hev⟩ := hdata
    rw [handle_of_record hdata hev, insert_of_taken (h.record x hrecord), hquiet]
    · intro k
      unfold changeOf
      rw [hdata]
      cases ev <;> first | rfl | cases hev
    · intro k
      unfold executionOf
      rw [hdata]
      cases ev <;> first | rfl | cases hev
  | none =>
    cases hdata : e.log.data with
    | foreign =>
      rw [hquiet (by simp [changeOf, hdata]) (by simp [executionOf, hdata])]
      simp [EventTables.handle, hdata]
    | raw tp =>
      rw [hquiet (by simp [changeOf, hdata]) (by simp [executionOf, hdata])]
      simp [EventTables.handle, hdata]
    | event ev =>
      have hev : ev.record cfg e = none := by
        unfold recordOf at hrecord
        rw [hdata] at hrecord
        exact hrecord
      rw [handle_of_update hdata hev]
      unfold EventTables.update
      cases ev with
      | vaultRegistered vault name asset =>
        have hrows : Table.insertNew VaultRow.key t.vaults (registeredRow cfg e vault name) = t.vaults :=
          Table.insertNew_of_taken (h.vault vault name asset hdata)
        rw [hquiet (by simp [changeOf, hdata]) (by simp [executionOf, hdata])]
        dsimp only
        rw [hrows]
      | vaultStatusChanged vault newStatus timestamp =>
        unfold EventTables.replayed
        rw [replayed_proposals_of_ne (by simp [executionOf, hdata]),
          List.map_congr_left fun r _ => (withStatus_eq_replayed hdata r).symm]
      | proposalExecuted i executor =>
        unfold EventTables.replayed
        rw [replayed_vaults_of_ne (by simp [changeOf, hdata]),
          List.map_congr_left fun p _ => (executedAt_eq_replayed hdata p).symm]
      | _ => cases hev

theorem EventTables.replayed_cons :
    (t.replayed cfg [e]).replayed cfg logs = t.replayed cfg (e :: logs) := by
  unfold EventTables.replayed
  simp only [List.map_map]
  have hv : VaultRow.replayed cfg logs ∘ VaultRow.replayed cfg [e] = VaultRow.replayed cfg (e :: logs) :=
    funext fun r => VaultRow.replayed_cons
  have hp : ProposalRow.replayed cfg logs ∘ ProposalRow.replayed cfg [e] =
      ProposalRow.replayed cfg (e :: logs) := funext fun p => ProposalRow.replayed_cons
  rw [hv, hp]

/-- **Logs with nothing to insert**: a vault has their last change of status, and a proposal that was not
executed their first execution. -/
theorem handleAll_eq_replayed (h : ∀ e ∈ logs, t.Covers cfg e) :
    t.handleAll cfg logs = t.replayed cfg logs := by
  induction logs generalizing t with
  | nil => exact replayed_nil.symm
  | cons e logs ih =>
    rw [EventTables.handleAll_cons, ih fun e' he' => (h e' (List.mem_cons_of_mem _ he')).handle,
      (h e List.mem_cons_self).handle_eq, EventTables.replayed_cons]

/-! ### What comes first -/

/-- The log registers the vault with the key. -/
def Registers (cfg : IndexerConfig) (e : LogEntry) (k : ℤ × Address) : Prop := registrationOf cfg k e ≠ none

/-- The log changes the status of the vault with the key. -/
def Changes (cfg : IndexerConfig) (e : LogEntry) (k : ℤ × Address) : Prop := changeOf cfg k e ≠ none

/-- The log creates the proposal with the key. -/
def Creates (cfg : IndexerConfig) (e : LogEntry) (k : ℤ × ℕ) : Prop := createdBy cfg k e ≠ none

/-- The log executes the proposal with the key. -/
def Executes (cfg : IndexerConfig) (e : LogEntry) (k : ℤ × ℕ) : Prop := executionOf cfg k e ≠ none

/-- Vaults change their status after their registration, and proposals are executed after their
creation. -/
structure InOrder (cfg : IndexerConfig) (logs : List LogEntry) : Prop where
  vaults : Precedes (Registers cfg) (Changes cfg) logs
  proposals : Precedes (Creates cfg) (Executes cfg) logs

theorem lastChange_eq_none {k : ℤ × Address} (h : ∀ e ∈ logs, ¬ Changes cfg e k) :
    lastChange cfg k logs = none := by
  have hnil : logs.filterMap (changeOf cfg k) = [] := by
    refine List.filterMap_eq_nil_iff.mpr ?_
    intro e he
    exact not_not.mp (h e he)
  unfold lastChange
  rw [hnil]
  rfl

theorem changeOf_of_registers {k : ℤ × Address} (h : Registers cfg e k) : changeOf cfg k e = none := by
  unfold Registers registrationOf at h
  unfold changeOf
  split at h
  · rename_i hdata
    rw [hdata]
  · exact absurd rfl h

/-- What the covered logs create and register is there. -/
theorem EventTables.Covers.proposal {k : ℤ × ℕ} (h : t.Covers cfg e) (he : Creates cfg e k) :
    ∃ q, t.proposal k = some q := by
  obtain ⟨q, hq⟩ := Option.ne_none_iff_exists'.mp he
  unfold createdBy at hq
  split at hq
  · rename_i core hrecord
    split at hq
    · rename_i hkey
      have htaken : Table.taken (fun r : ProposalRow => r.core.proposalKey) t.governanceProposals k = true :=
        hkey ▸ h.record _ hrecord
      obtain ⟨q', hq', hkey'⟩ := Table.exists_of_taken htaken
      refine Option.ne_none_iff_exists'.mp ?_
      intro hnone
      exact Table.key_ne_of_lookup hnone hq' hkey'
    · cases hq
  · cases hq

theorem EventTables.Covers.registered {k : ℤ × Address} (h : t.Covers cfg e) (he : Registers cfg e k) :
    t.vault k ≠ none := by
  unfold Registers registrationOf at he
  split at he
  · rename_i vault name asset hdata
    split at he
    · rename_i hk
      obtain ⟨r, hr, hkey⟩ := Table.exists_of_taken (h.vault vault name asset hdata)
      intro hnone
      exact Table.key_ne_of_lookup hnone hr (hkey.trans hk)
    · exact absurd rfl he
  · exact absurd rfl he

/-- A row after a log is one that was there, with its change of status, or a new one. -/
theorem vault_cases {k : ℤ × Address} {r : VaultRow} (h : (t.handle cfg e).vault k = some r) :
    (∃ r₀, t.vault k = some r₀ ∧ r = r₀.changed (changeOf cfg k e)) ∨
      (t.vault k = none ∧ Registers cfg e k) := by
  rw [vault_handle] at h
  unfold vaultAfterLog at h
  cases hrow : t.vault k with
  | some r₀ =>
    rw [hrow] at h
    exact .inl ⟨r₀, rfl, (Option.some.inj h).symm⟩
  | none =>
    rw [hrow] at h
    refine .inr ⟨rfl, ?_⟩
    have h : registrationOf cfg k e = some r := h
    unfold Registers
    rw [h]
    exact Option.some_ne_none r

/-! ### The database -/

/-- The watched logs of a range processed once more: their blocks, transactions and events. -/
def reindex (sess : Session) (cfg : IndexerConfig) (src dst : ℕ) : Tick ℕ := do
  let logs ← getLogs sess cfg src dst
  let r₁ ← total (ingestBlock sess cfg) (blocksWithEvents logs)
  let r₂ ← total (handleLog sess cfg) logs
  pure (r₁ + r₂)

/-- A database with other tables of events. -/
def Db.withEvents (db : Db) (t : EventTables) : Db :=
  { db with
    agentDeposits := t.agentDeposits
    agentPolicies := t.agentPolicies
    routerDepositLegs := t.routerDepositLegs
    routerWeightSnapshots := t.routerWeightSnapshots
    governanceVotes := t.governanceVotes
    governanceProposals := t.governanceProposals
    vaults := t.vaults }

section Database

variable {p : Poll} {db : Db} {chain : Chain} {n : ℕ}

/-- A failure that does not happen. -/
theorem never_fails {P : Db → Prop} (hcalls : ∀ k, p.fails k = false) (k : ℕ) (hk : p.fails k = true)
    (db : Db) (_ : P db) : False := by
  rw [hcalls k] at hk
  cases hk

theorem insertRecord_withEvents {x : Record} (h : t.taken x = true) :
    ∃ r, Db.insertRecord x (db.withEvents t) = .ok (r, db.withEvents (t.insert x)) := by
  cases x with
  | vote v =>
    rw [insert_of_taken h]
    exact ⟨0, if_pos h⟩
  | _ => exact ⟨_, rfl⟩

/-- A log that the database has, handled once more. -/
theorem handleLog_again (hcalls : ∀ k, p.fails k = false) (hlog : db.HasLog cfg e)
    (hcover : t.Covers cfg e) :
    Triple (On (· = db.withEvents t)) (handleLog p.session cfg e)
      (fun _ => On (· = db.withEvents (t.handle cfg e))) (On fun _ => False) := by
  unfold handleLog EventTables.handle
  cases hdata : e.log.data with
  | foreign => exact triple_pure fun _ hs => hs
  | raw tp =>
    dsimp only
    rw [hlog.decoded tp hdata]
    exact triple_pure fun _ hs => hs
  | event ev =>
    dsimp only
    cases hrecord : ev.record cfg e with
    | some x =>
      have htaken : t.taken x = true := hcover.record x (by simp [recordOf, hdata, hrecord])
      refine triple_sql_ok (never_fails hcalls) ?_
      rintro db' rfl
      obtain ⟨r, hr⟩ := insertRecord_withEvents htaken
      exact ⟨r, _, hr, rfl⟩
    | none =>
      dsimp only
      unfold handleUpdate
      cases ev with
      | vaultRegistered vault name asset =>
        have hcontract : Table.insertNew ContractRow.key db.contracts
            ⟨cfg.chainId, vault, "vault", none⟩ = db.contracts :=
          Table.insertNew_of_taken (hlog.contract vault name asset hdata)
        refine triple_bind (Q := fun _ => On (· = db.withEvents t))
          (triple_sql_ok (never_fails hcalls) ?_) ?_
        · rintro db' rfl
          refine ⟨_, _, rfl, ?_⟩
          rw [show (db.withEvents t).contracts = db.contracts from rfl, hcontract]
          rfl
        · intro _
          refine triple_sql_ok (never_fails hcalls) ?_
          rintro db' rfl
          unfold Db.upsertVault
          rw [if_pos (hlog.name vault name asset hdata)]
          exact ⟨_, _, rfl, rfl⟩
      | vaultStatusChanged vault newStatus timestamp =>
        refine triple_sql_ok (never_fails hcalls) ?_
        rintro db' rfl
        exact ⟨_, _, rfl, rfl⟩
      | proposalExecuted proposalId executor =>
        refine triple_sql_ok (never_fails hcalls) ?_
        rintro db' rfl
        exact ⟨_, _, rfl, rfl⟩
      | _ => cases hrecord

/-- The transactions that are returned have hashes of the block. -/
theorem withStatus_again (hcalls : ∀ k, p.fails k = false) (txs : List Transaction) :
    Triple (On (· = db)) (withStatus p.session txs)
      (fun txs' w => txs'.map (fun t => t.txHash) = txs.map (fun t => t.txHash) ∧ w.db = db)
      (On fun _ => False) := by
  induction txs with
  | nil => exact triple_pure fun _ hs => ⟨rfl, hs⟩
  | cons t txs ih =>
    unfold withStatus
    refine triple_bind (triple_ask (f := fun chain => chain.txStatus t.txHash) (never_fails hcalls)) ?_
    intro status
    refine triple_bind (triple_pre ih fun _ hs => hs.1) ?_
    intro rest
    refine triple_pure ?_
    rintro w ⟨hrest, hw⟩
    refine ⟨?_, hw⟩
    rw [List.map_cons, List.map_cons, hrest]

/-- A block that the database has, ingested once more. -/
theorem ingestBlock_again (hcalls : ∀ k, p.fails k = false) (hn : n < p.chain.blocks.length)
    (hblock : db.HasBlock cfg p.chain n) :
    Triple (On (· = db)) (ingestBlock p.session cfg n) (fun _ => On (· = db)) (On fun _ => False) := by
  obtain ⟨header, hheader⟩ : ∃ header, p.chain.header n = some header := by
    unfold Chain.header
    rw [List.getElem?_eq_getElem hn]
    exact ⟨_, rfl⟩
  have hb : p.chain.blocks[n]? = some p.chain.blocks[n] := List.getElem?_eq_getElem hn
  unfold ingestBlock blockWithTxs
  rw [bind_assoc]
  refine triple_bind (Q := fun r w => r = (header, p.chain.blocks[n].txs) ∧ w.db = db)
    (triple_rpc (Q := fun r db' => r = (header, p.chain.blocks[n].txs) ∧ db' = db)
      (never_fails hcalls) ?_ ?_) ?_
  · intro k r hr db' hdb
    simp only [hheader, hb] at hr
    cases hr
    exact ⟨rfl, hdb⟩
  · intro k err herr
    simp only [hheader, hb] at herr
    cases herr
  rintro r
  refine triple_of_fact (fun _ hs => hs.1) ?_
  rintro rfl
  dsimp only
  rw [bind_assoc]
  refine triple_bind (triple_pre (withStatus_again hcalls _) fun _ hs => hs.2) ?_
  intro txs
  refine triple_of_fact (fun _ hs => hs.1) ?_
  intro htxs
  rw [pure_bind]
  refine triple_bind (Q := fun _ => On (· = db)) (triple_pre (P := On (· = db))
    (triple_sql_ok (never_fails hcalls) ?_) fun _ hs => hs.2) ?_
  · rintro db' rfl
    refine ⟨_, _, rfl, ?_⟩
    have hrows : Table.insertNew BlockRow.key db'.blocks (blockRow cfg header n) = db'.blocks :=
      Table.insertNew_of_taken hblock.header
    show { db' with blocks := _ } = db'
    rw [hrows]
  intro _
  refine triple_bind (Q := fun _ => On (· = db)) (triple_total_keeps ?_) ?_
  · intro t ht
    refine triple_sql_ok (never_fails hcalls) ?_
    rintro db' rfl
    refine ⟨_, _, rfl, ?_⟩
    have hmem : t.txHash ∈ p.chain.blocks[n].txs.map (fun t => t.txHash) := htxs ▸ List.mem_map_of_mem ht
    obtain ⟨t', ht', heq⟩ := List.mem_map.mp hmem
    have htaken := hblock.transactions _ hb t' ht'
    rw [heq] at htaken
    have hrows : Table.insertNew TransactionRow.key db'.transactions (transactionRow cfg n t) =
        db'.transactions := Table.insertNew_of_taken htaken
    show { db' with transactions := _ } = db'
    rw [hrows]
  · intro _
    exact triple_pure fun _ hs => hs

theorem watchedLogs_lt {src dst : ℕ} : ∀ e ∈ watchedLogs cfg chain src dst, e.blockNumber < chain.blocks.length := by
  intro e he
  obtain ⟨-, n, -, -, he⟩ := mem_watchedLogs.mp he
  obtain ⟨rfl, hlt⟩ := logsAt_blockNumber he
  exact hlt

/-- Logs that the database has are handled once more, and nothing else is done. -/
theorem reindex_again {src dst : ℕ} (hcalls : ∀ k, p.fails k = false)
    (hlen : ∀ e ∈ watchedLogs cfg p.chain src dst, e.blockNumber < p.chain.blocks.length)
    (hhas : ∀ e ∈ watchedLogs cfg p.chain src dst, db.Has cfg p.chain e)
    (hcover : ∀ e ∈ watchedLogs cfg p.chain src dst, db.events.Covers cfg e) :
    Triple (On (· = db)) (reindex p.session cfg src dst)
      (fun _ => On (· = db.withEvents (db.events.handleAll cfg (watchedLogs cfg p.chain src dst))))
      (On fun _ => False) := by
  unfold reindex getLogs
  refine triple_bind (triple_ask (f := fun chain => watchedLogs cfg chain src dst)
    (never_fails hcalls)) ?_
  intro logs
  refine triple_of_fact (p := logs = watchedLogs cfg p.chain src dst) (fun _ hs => hs.2) ?_
  rintro rfl
  refine triple_bind (Q := fun _ => On (· = db)) (triple_pre (P := On (· = db))
    (triple_total_keeps ?_) fun _ hs => hs.1) ?_
  · intro n hn
    obtain ⟨e, he, rfl⟩ := mem_blocksWithEvents.mp hn
    exact ingestBlock_again hcalls (hlen e he) (hhas e he).1
  intro r₁
  refine triple_bind ?_ fun r₂ => triple_pure fun _ hs => hs
  refine triple_pre (triple_total (I := fun pre => On (· = db.withEvents (db.events.handleAll cfg pre))) ?_)
    fun _ hs => hs
  intro pre e post hsplit
  have he : e ∈ watchedLogs cfg p.chain src dst := by
    rw [hsplit]
    simp
  rw [EventTables.handleAll_snoc]
  exact handleLog_again hcalls (hhas e he).2 (hcover e he).handleAll

/-- A computation that does not fail. -/
theorem ok_of_triple {α : Type} {m : Tick α} {db' : Db}
    (h : Triple (On (· = db)) m (fun _ => On (· = db')) (On fun _ => False)) (calls : ℕ) :
    ∃ a w, m ⟨db, calls⟩ = (.ok a, w) ∧ w.db = db' := by
  have h := h ⟨db, calls⟩ rfl
  rcases hm : m ⟨db, calls⟩ with ⟨e | a, w⟩
  · rw [hm] at h
    exact h.elim
  · rw [hm] at h
    exact ⟨a, w, rfl, h⟩

end Database

end RobotMoney.Indexer
