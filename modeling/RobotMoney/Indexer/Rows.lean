import RobotMoney.Indexer.Fold

/-!
# Rows through logs

What logs do to the tables of events, table by table.  Deposits, policies, legs, weights and votes are
only inserted, and a rollback deletes what the logs above its root have inserted
(`appended_belowRoot_handleAll`).  The rows of proposals and vaults are also updated:

* `proposal_handleAll`: the row of a proposal after some logs is a function of the row and the votes
  before them; it has gained the votes that were inserted (`after_votes`) and has the first execution
  (`after_execution`);
* `vault_handleAll`: the row of a vault is that of its first registration, with the last change of status
  after it (`vaultAfter_none`), or the row before the logs with their last change (`vaultAfter_some`).
-/

namespace RobotMoney.Indexer

open RobotMoney.Lib

variable {cfg : IndexerConfig} {t t' : EventTables} {e : LogEntry} {logs : List LogEntry} {k : ℤ × ℕ}
  {p q : ProposalRow} {votes : List VoteRow} {n : ℕ}

/-! ### The row of a proposal -/

/-- The votes after a log. -/
def votesAfter (cfg : IndexerConfig) (votes : List VoteRow) (e : LogEntry) : List VoteRow :=
  match e.log.data with
  | .event (.voteCast i voter power _) =>
    Table.insertNew VoteRow.voteKey votes (voteRow cfg e i voter power)
  | _ => votes

/-- A row of a proposal after a log, if the votes are `votes` before it. -/
def ProposalRow.step (cfg : IndexerConfig) (votes : List VoteRow) (e : LogEntry) (p : ProposalRow) :
    ProposalRow :=
  match e.log.data with
  | .event (.voteCast i voter power _) =>
    if Table.taken VoteRow.voteKey votes (voteRow cfg e i voter power).voteKey then p
    else p.counted (voteRow cfg e i voter power)
  | .event (.proposalExecuted i _) => p.executedAt (cfg.chainId, clampI64 i) e.blockNumber
  | _ => p

/-- The row with the key `k` that a log inserts, if there is none. -/
def createdBy (cfg : IndexerConfig) (k : ℤ × ℕ) (e : LogEntry) : Option ProposalRow :=
  match recordOf cfg e with
  | some (.proposal core) => if core.proposalKey = k then some { core } else none
  | _ => none

/-- A row after some logs. -/
def ProposalRow.after (cfg : IndexerConfig) : List LogEntry → List VoteRow → ProposalRow → ProposalRow
  | [], _, p => p
  | e :: logs, votes, p => ProposalRow.after cfg logs (votesAfter cfg votes e) (p.step cfg votes e)

theorem counted_core {v : VoteRow} : (p.counted v).core = p.core := by
  unfold ProposalRow.counted Db.tally
  split
  · split <;> rfl
  · rfl

theorem executedAt_core : (p.executedAt k n).core = p.core := by
  unfold ProposalRow.executedAt
  split <;> rfl

/-- The row of a proposal. -/
def EventTables.proposal (t : EventTables) (k : ℤ × ℕ) : Option ProposalRow :=
  Table.lookup (fun r : ProposalRow => r.core.proposalKey) t.governanceProposals k

theorem proposal_handle :
    (t.handle cfg e).proposal k =
      ((t.proposal k).map (ProposalRow.step cfg t.governanceVotes e)).or (createdBy cfg k e) := by
  unfold EventTables.handle EventTables.proposal ProposalRow.step createdBy recordOf
  cases e.log.data with
  | foreign => simp
  | raw tp => simp
  | event ev =>
    cases ev with
    | proposalCreated =>
      dsimp only [Event.record, EventTables.insert]
      rw [Table.lookup_insertNew, Option.map_id']
    | voteCast i voter power total =>
      have hkey : ∀ v : VoteRow, ∀ r : ProposalRow, (r.counted v).core.proposalKey = r.core.proposalKey :=
        fun v r => congrArg ProposalCore.proposalKey counted_core
      dsimp only [Event.record, EventTables.insert]
      rw [Option.or_none]
      unfold voteRow
      split
      · rw [Option.map_id']
      · exact Table.lookup_map (hkey _)
    | proposalExecuted i executor =>
      dsimp only [Event.record, EventTables.update]
      rw [Option.or_none]
      exact Table.lookup_map fun r => congrArg ProposalCore.proposalKey executedAt_core
    | _ => simp [Event.record, EventTables.insert, EventTables.update]

/-- The height of the execution of the proposal with the key `k` that a log is, if it is one. -/
def executionOf (cfg : IndexerConfig) (k : ℤ × ℕ) (e : LogEntry) : Option ℕ :=
  match e.log.data with
  | .event (.proposalExecuted i _) => if (cfg.chainId, clampI64 i) = k then some e.blockNumber else none
  | _ => none

/-- The height of the first execution in some logs. -/
def executedIn (cfg : IndexerConfig) (k : ℤ × ℕ) (logs : List LogEntry) : Option ℕ :=
  (logs.filterMap (executionOf cfg k)).head?

/-- The columns that an execution writes. -/
def ProposalRow.execution (p : ProposalRow) : ℕ × Option ℕ := (p.status, p.executedBlock)

/-- These columns after an execution at a height, if there is one. -/
def executedOnce (x : ℕ × Option ℕ) : Option ℕ → ℕ × Option ℕ
  | none => x
  | some n => if x.1 < 2 then (2, some n) else x

theorem counted_execution {v : VoteRow} : (p.counted v).execution = p.execution := by
  unfold ProposalRow.counted Db.tally
  split
  · split <;> rfl
  · rfl

theorem step_execution :
    (p.step cfg votes e).execution = executedOnce p.execution (executionOf cfg p.core.proposalKey e) := by
  unfold ProposalRow.step executionOf
  cases e.log.data with
  | foreign => rfl
  | raw tp => rfl
  | event ev =>
    cases ev with
    | voteCast i voter power total =>
      dsimp only
      split
      · rfl
      · exact counted_execution
    | proposalExecuted i executor =>
      dsimp only
      unfold ProposalRow.executedAt
      by_cases hk : p.core.proposalKey = (cfg.chainId, clampI64 i)
      · rw [if_pos hk.symm]
        by_cases hs : p.status < 2 <;> simp [hk, hs, ProposalRow.execution, executedOnce]
      · rw [if_neg (Ne.symm hk)]
        simp [hk, executedOnce]
    | _ => rfl

/-- After the first execution, others do nothing. -/
theorem executedOnce_again {x : ℕ × Option ℕ} {m : ℕ} {o : Option ℕ} :
    executedOnce (executedOnce x (some m)) o = executedOnce x (some m) := by
  cases o with
  | none => rfl
  | some n =>
    unfold executedOnce
    by_cases hs : x.1 < 2 <;> simp [hs]

section Vaults

variable {k : ℤ × Address} {r r₀ r₁ : VaultRow} {row : Option VaultRow}

/-- The row of a vault. -/
def EventTables.vault (t : EventTables) (k : ℤ × Address) : Option VaultRow :=
  Table.lookup VaultRow.key t.vaults k

/-- The row with the key `k` that a log inserts, if there is none. -/
def registrationOf (cfg : IndexerConfig) (k : ℤ × Address) (e : LogEntry) : Option VaultRow :=
  match e.log.data with
  | .event (.vaultRegistered vault name _) =>
    if (cfg.chainId, vault) = k then some (registeredRow cfg e vault name) else none
  | _ => none

/-- The change of status of the vault with the key `k` that a log is: the status and the time. -/
def changeOf (cfg : IndexerConfig) (k : ℤ × Address) (e : LogEntry) : Option (ℕ × ℕ) :=
  match e.log.data with
  | .event (.vaultStatusChanged vault newStatus timestamp) =>
    if (cfg.chainId, vault) = k then some (newStatus, clampI64 timestamp) else none
  | _ => none

/-- The last change of status in some logs. -/
def lastChange (cfg : IndexerConfig) (k : ℤ × Address) (logs : List LogEntry) : Option (ℕ × ℕ) :=
  (logs.filterMap (changeOf cfg k)).getLast?

/-- The first registration of a vault in some logs, and the logs after it. -/
def registeredIn (cfg : IndexerConfig) (k : ℤ × Address) : List LogEntry → Option (VaultRow × List LogEntry)
  | [] => none
  | e :: logs =>
    match registrationOf cfg k e with
    | some r => some (r, logs)
    | none => registeredIn cfg k logs

/-- A row after a change of status, if there is one. -/
def VaultRow.changed (r : VaultRow) : Option (ℕ × ℕ) → VaultRow
  | none => r
  | some (newStatus, changedAt) => { r with status := newStatus, statusChangedAt := some changedAt }

/-- The row of a vault after a log. -/
def vaultAfterLog (cfg : IndexerConfig) (k : ℤ × Address) (row : Option VaultRow) (e : LogEntry) :
    Option VaultRow :=
  (row.map fun r => r.changed (changeOf cfg k e)).or (registrationOf cfg k e)

/-- The row of a vault after some logs. -/
def vaultAfter (cfg : IndexerConfig) (k : ℤ × Address) (row : Option VaultRow) (logs : List LogEntry) :
    Option VaultRow :=
  logs.foldl (vaultAfterLog cfg k) row

theorem withStatus_key {k' : ℤ × Address} {newStatus changedAt : ℕ} :
    (r.withStatus k' newStatus changedAt).key = r.key := by
  unfold VaultRow.withStatus
  split <;> rfl

theorem insert_vaults {x : Record} : (t.insert x).vaults = t.vaults := by
  cases x with
  | vote v =>
    show (if _ then t else _ : EventTables).vaults = _
    split <;> rfl
  | _ => rfl

theorem vault_handle : (t.handle cfg e).vault k = vaultAfterLog cfg k (t.vault k) e := by
  unfold EventTables.handle EventTables.vault vaultAfterLog changeOf registrationOf
  cases e.log.data with
  | foreign => simp [VaultRow.changed]
  | raw tp => simp [VaultRow.changed]
  | event ev =>
    cases ev with
    | vaultRegistered vault name asset =>
      dsimp only [Event.record, EventTables.update, VaultRow.changed]
      rw [Table.lookup_insertNew, Option.map_id']
      rfl
    | vaultStatusChanged vault newStatus timestamp =>
      dsimp only [Event.record, EventTables.update]
      rw [Option.or_none, Table.lookup_map fun r => withStatus_key]
      cases hrow : Table.lookup VaultRow.key t.vaults k with
      | none => rfl
      | some r =>
        have hkey := Table.key_of_lookup hrow
        unfold VaultRow.withStatus
        by_cases hk : (cfg.chainId, vault) = k
        · simp [hk, hkey, VaultRow.changed]
        · simp [hk, hkey, Ne.symm hk, VaultRow.changed]
    | _ => simp [Event.record, insert_vaults, EventTables.update, VaultRow.changed]

theorem vault_handleAll : (t.handleAll cfg logs).vault k = vaultAfter cfg k (t.vault k) logs := by
  induction logs generalizing t with
  | nil => rfl
  | cons e logs ih =>
    rw [EventTables.handleAll_cons, ih, vault_handle]
    rfl

theorem changed_changed {c c' : Option (ℕ × ℕ)} : (r.changed c).changed c' = r.changed (c'.or c) := by
  cases c' with
  | none => rfl
  | some c' => cases c <;> rfl

theorem lastChange_append {logs' : List LogEntry} :
    lastChange cfg k (logs ++ logs') = (lastChange cfg k logs').or (lastChange cfg k logs) := by
  unfold lastChange
  rw [List.filterMap_append, List.getLast?_append]

/-- A row that is there has the last change. -/
theorem vaultAfter_some : vaultAfter cfg k (some r) logs = some (r.changed (lastChange cfg k logs)) := by
  induction logs using List.reverseRecOn with
  | nil => rfl
  | append_singleton logs e ih =>
    have hone : lastChange cfg k [e] = changeOf cfg k e := by
      unfold lastChange
      cases hc : changeOf cfg k e <;> simp [hc]
    unfold vaultAfter at ih ⊢
    rw [List.foldl_append, ih, lastChange_append, hone, ← changed_changed]
    rfl

/-- A row that is not there is the one of the first registration, with the last change after it. -/
theorem vaultAfter_none :
    vaultAfter cfg k none logs =
      (registeredIn cfg k logs).map fun x => x.1.changed (lastChange cfg k x.2) := by
  induction logs with
  | nil => rfl
  | cons e logs ih =>
    show vaultAfter cfg k (registrationOf cfg k e) logs = _
    unfold registeredIn
    cases registrationOf cfg k e with
    | none => exact ih
    | some r => exact vaultAfter_some

theorem registeredIn_eq {x : VaultRow × List LogEntry} (h : registeredIn cfg k logs = some x) :
    ∃ pre e, logs = pre ++ e :: x.2 ∧ registrationOf cfg k e = some x.1 := by
  induction logs with
  | nil => cases h
  | cons e logs ih =>
    unfold registeredIn at h
    cases hr : registrationOf cfg k e with
    | none =>
      rw [hr] at h
      obtain ⟨pre, e', hlogs, he'⟩ := ih h
      exact ⟨e :: pre, e', by rw [hlogs]; rfl, he'⟩
    | some r =>
      rw [hr] at h
      cases h
      exact ⟨[], e, rfl, hr⟩

end Vaults

/-! ### The tables as a whole -/

/-- The heights in the tables are below `n`. -/
structure EventTables.Within (cfg : IndexerConfig) (n : ℕ) (t : EventTables) : Prop where
  deposits : ∀ r ∈ t.agentDeposits, r.blockNumber < n
  policies : ∀ r ∈ t.agentPolicies, r.blockNumber < n
  legs : ∀ r ∈ t.routerDepositLegs, r.blockNumber < n
  weights : ∀ r ∈ t.routerWeightSnapshots, r.blockNumber < n
  votes : ∀ r ∈ t.governanceVotes, r.blockNumber < n
  proposals : ∀ p ∈ t.governanceProposals, p.core.chainId = cfg.chainId ∧ p.core.blockNumber < n ∧
    ∀ m, p.executedBlock = some m → m < n
  vaults : ∀ r ∈ t.vaults, r.registeredBlock < n

theorem EventTables.Within.handle (h : t.Within cfg n) (he : e.blockNumber < n) :
    (t.handle cfg e).Within cfg n := by
  unfold EventTables.handle
  cases e.log.data with
  | foreign => exact h
  | raw tp => exact h
  | event ev =>
    cases ev with
    | agentDeposit | agentDepositRouted =>
      exact { h with deposits := Table.forall_insertNew h.deposits he }
    | agentAuthorized | agentRevoked => exact { h with policies := Table.forall_insertNew h.policies he }
    | routerDeposit => exact { h with legs := Table.forall_insertNew h.legs he }
    | weightsApplied => exact { h with weights := Table.forall_insertNew h.weights he }
    | proposalCreated =>
      refine { h with proposals := Table.forall_insertNew h.proposals ⟨rfl, he, ?_⟩ }
      intro m hm
      cases hm
    | vaultRegistered => exact { h with vaults := Table.forall_insertNew h.vaults he }
    | vaultStatusChanged vault newStatus timestamp =>
      refine { h with vaults := ?_ }
      intro r hr
      obtain ⟨r₀, hr₀, rfl⟩ := List.mem_map.mp hr
      unfold VaultRow.withStatus
      split <;> exact h.vaults r₀ hr₀
    | proposalExecuted i executor =>
      refine { h with proposals := ?_ }
      intro p hp
      obtain ⟨p₀, hp₀, rfl⟩ := List.mem_map.mp hp
      unfold ProposalRow.executedAt
      split
      · refine ⟨(h.proposals p₀ hp₀).1, (h.proposals p₀ hp₀).2.1, ?_⟩
        rintro m ⟨⟩
        exact he
      · exact h.proposals p₀ hp₀
    | voteCast i voter power total =>
      show (if _ then t else _ : EventTables).Within cfg n
      split
      · exact h
      · refine { h with votes := ?_, proposals := ?_ }
        · intro v hv
          rcases List.mem_append.mp hv with hv | hv
          · exact h.votes v hv
          · rw [List.mem_singleton.mp hv]
            exact he
        · intro p hp
          obtain ⟨p₀, hp₀, rfl⟩ := List.mem_map.mp hp
          rw [counted_core, show (p₀.counted _).executedBlock = p₀.executedBlock from
            congrArg Prod.snd counted_execution]
          exact h.proposals p₀ hp₀

theorem EventTables.Within.handleAll (h : t.Within cfg n) (hlogs : ∀ e ∈ logs, e.blockNumber < n) :
    (t.handleAll cfg logs).Within cfg n := by
  induction logs generalizing t with
  | nil => exact h
  | cons e logs ih =>
    exact ih (h.handle (hlogs e List.mem_cons_self)) fun e' he' => hlogs e' (List.mem_cons_of_mem _ he')

/-- Proposals and vaults have unique keys. -/
def EventTables.Keyed (t : EventTables) : Prop :=
  Table.Unique (fun r : ProposalRow => r.core.proposalKey) t.governanceProposals ∧
    Table.Unique VaultRow.key t.vaults

theorem keyed_empty : EventTables.empty.Keyed := ⟨Table.unique_nil, Table.unique_nil⟩

theorem EventTables.Keyed.handle (h : t.Keyed) : (t.handle cfg e).Keyed := by
  unfold EventTables.handle
  cases e.log.data with
  | foreign => exact h
  | raw tp => exact h
  | event ev =>
    cases ev with
    | proposalCreated => exact ⟨h.1.insertNew, h.2⟩
    | proposalExecuted =>
      exact ⟨h.1.map fun r => congrArg ProposalCore.proposalKey executedAt_core, h.2⟩
    | vaultRegistered => exact ⟨h.1, h.2.insertNew⟩
    | vaultStatusChanged => exact ⟨h.1, h.2.map fun r => withStatus_key⟩
    | voteCast i voter power total =>
      show (if _ then t else _ : EventTables).Keyed
      split
      · exact h
      · exact ⟨h.1.map fun r => congrArg ProposalCore.proposalKey counted_core, h.2⟩
    | _ => exact h

theorem EventTables.Keyed.handleAll (h : t.Keyed) : (t.handleAll cfg logs).Keyed := by
  induction logs generalizing t with
  | nil => exact h
  | cons e logs ih => exact ih h.handle

theorem EventTables.Keyed.belowRoot (h : t.Keyed) {chainId root : ℤ} :
    (t.belowRoot chainId root).Keyed :=
  ⟨h.1.sublist List.filter_sublist, h.2⟩

end RobotMoney.Indexer
