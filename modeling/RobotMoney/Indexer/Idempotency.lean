import RobotMoney.Indexer.Attempted

/-!
# Indexing a range once more

Inserts do nothing when their key is taken, and an execution does nothing to a proposal that is executed.
A change of status overwrites what there is, though, also the status of a later change; and there can be
one, since a tick that fails has handled logs above the cursor that it leaves.

`EventTables.Follows` says what the tables are like after the logs up to the cursor and some of those above
it, and every tick keeps it (`Polled.follows`).  So when the logs up to the cursor are processed once more,
all that can change is the status of a vault, and it changes exactly where the row has it from above the
cursor (`reindex_idempotent_iff`).
-/

namespace RobotMoney.Indexer

open RobotMoney.Lib Fallible
open RobotMoney.Portfolio (Registry)
open RobotMoney.Governance (Storage Action)

variable {cfg : IndexerConfig} {p : Poll} {db : Db} {chain : Chain} {t : EventTables} {e : LogEntry}
  {logs done ahead : List LogEntry} {a T : ℕ}

/-! ### Rows -/

/-- The row has the status and the time of a change. -/
def VaultRow.Shows (r : VaultRow) (x : ℕ × ℕ) : Prop := r.status = x.1 ∧ r.statusChangedAt = some x.2

instance (r : VaultRow) (x : ℕ × ℕ) : Decidable (r.Shows x) := by
  unfold VaultRow.Shows
  exact inferInstance

theorem shows_changed {r : VaultRow} {x : ℕ × ℕ} : (r.changed (some x)).Shows x := ⟨rfl, rfl⟩

theorem changed_eq_self_iff {r : VaultRow} {x : ℕ × ℕ} : r.changed (some x) = r ↔ r.Shows x := by
  constructor
  · intro h
    rw [← h]
    exact shows_changed
  · rintro ⟨hstatus, htime⟩
    cases r
    cases hstatus
    cases htime
    rfl

theorem VaultRow.Shows.inj {r : VaultRow} {x y : ℕ × ℕ} (hx : r.Shows x) (hy : r.Shows y) : x = y :=
  Prod.ext (hx.1.symm.trans hy.1) (Option.some.inj (hx.2.symm.trans hy.2))

/-- The row of a vault has the last change already. -/
theorem VaultRow.replayed_eq_self_iff {r : VaultRow} :
    r.replayed cfg logs = r ↔ ∀ x ∈ lastChange cfg r.key logs, r.Shows x := by
  unfold VaultRow.replayed
  cases lastChange cfg r.key logs with
  | none => simp [VaultRow.changed]
  | some x => simp [changed_eq_self_iff]

/-- An execution does nothing to a proposal that is executed. -/
theorem executedOnce_of_le {x : ℕ × Option ℕ} {o : Option ℕ} (h : 2 ≤ x.1) : executedOnce x o = x := by
  cases o with
  | none => rfl
  | some n => exact if_neg (Nat.not_lt.mpr h)

theorem le_executedOnce {x : ℕ × Option ℕ} {n : ℕ} : 2 ≤ (executedOnce x (some n)).1 := by
  by_cases h : x.1 < 2
  · simp [executedOnce, h]
  · rw [executedOnce_of_le (Nat.not_lt.mp h)]
    exact Nat.not_lt.mp h

/-- The proposal is there, and executed. -/
def EventTables.Executed (t : EventTables) (k : ℤ × ℕ) : Prop := ∃ q, t.proposal k = some q ∧ 2 ≤ q.status

theorem EventTables.Executed.handle {k : ℤ × ℕ} (h : t.Executed k) : (t.handle cfg e).Executed k := by
  obtain ⟨q, hq, hstatus⟩ := h
  refine ⟨q.step cfg t.governanceVotes e, by rw [proposal_handle, hq]; rfl, ?_⟩
  have hstep := @step_execution cfg e q t.governanceVotes
  rw [executedOnce_of_le hstatus] at hstep
  have hsame : (q.step cfg t.governanceVotes e).status = q.status := congrArg Prod.fst hstep
  omega

/-- A proposal that is there is executed after an execution. -/
theorem executed_handle {k : ℤ × ℕ} {q : ProposalRow} (hq : t.proposal k = some q)
    (he : Executes cfg e k) : (t.handle cfg e).Executed k := by
  obtain ⟨n, hn⟩ := Option.ne_none_iff_exists'.mp he
  refine ⟨q.step cfg t.governanceVotes e, by rw [proposal_handle, hq]; rfl, ?_⟩
  have hkey := Table.key_of_lookup hq
  have hkey : q.core.proposalKey = k := hkey
  have hstep := @step_execution cfg e q t.governanceVotes
  rw [hkey, hn] at hstep
  have hstatus : (q.step cfg t.governanceVotes e).status = (executedOnce q.execution (some n)).1 :=
    congrArg Prod.fst hstep
  rw [hstatus]
  exact le_executedOnce

/-! ### Tables that follow a chain -/

/-- The tables after the logs `done`, when some of the logs `ahead` may have been handled too. -/
structure EventTables.Follows (cfg : IndexerConfig) (done ahead : List LogEntry) (t : EventTables) : Prop where
  keyed : t.Keyed
  covers : ∀ e ∈ done, t.Covers cfg e
  executed : ∀ e ∈ done, ∀ k, Executes cfg e k → t.Executed k
  status : ∀ k r x, t.vault k = some r → lastChange cfg k done = some x →
    r.Shows x ∨ ∃ e ∈ ahead, ∃ y, changeOf cfg k e = some y ∧ r.Shows y

namespace EventTables.Follows

theorem empty : EventTables.empty.Follows cfg [] ahead where
  keyed := keyed_empty
  covers e he := by cases he
  executed e he := by cases he
  status k r x hr := by cases hr

/-- A vault that is not there has not changed its status. -/
theorem lastChange_eq_none (h : t.Follows cfg done ahead) (hord : InOrder cfg done) {k : ℤ × Address}
    (hk : t.vault k = none) : lastChange cfg k done = none := by
  refine Indexer.lastChange_eq_none ?_
  intro e he hchanges
  obtain ⟨pre, post, rfl⟩ := List.append_of_mem he
  obtain ⟨e', he', hregisters⟩ := hord.vaults k pre e post rfl hchanges
  exact (h.covers e' (List.mem_append_left _ he')).registered hregisters hk

/-- One of the logs ahead is handled. -/
theorem handle (h : t.Follows cfg done ahead) (hord : InOrder cfg done) (he : e ∈ ahead) :
    (t.handle cfg e).Follows cfg done ahead where
  keyed := h.keyed.handle
  covers e' he' := (h.covers e' he').handle
  executed e' he' k hk := (h.executed e' he' k hk).handle
  status k r x hr hx := by
    rcases vault_cases hr with ⟨r₀, hr₀, rfl⟩ | ⟨hnone, -⟩
    · cases hc : changeOf cfg k e with
      | none => exact h.status k r₀ x hr₀ hx
      | some y => exact .inr ⟨e, he, y, hc, shows_changed⟩
    · rw [h.lastChange_eq_none hord hnone] at hx
      cases hx

/-- The next log is handled, and done. -/
theorem next (h : t.Follows cfg done (e :: ahead)) (hord : InOrder cfg (done ++ [e])) :
    (t.handle cfg e).Follows cfg (done ++ [e]) ahead where
  keyed := h.keyed.handle
  covers e' he' := by
    rcases List.mem_append.mp he' with he' | he'
    · exact (h.covers e' he').handle
    · rw [List.mem_singleton.mp he']
      exact covers_handle
  executed e' he' k hk := by
    rcases List.mem_append.mp he' with he' | he'
    · exact (h.executed e' he' k hk).handle
    · rw [List.mem_singleton.mp he'] at hk
      -- the proposal was created by one of the logs before
      obtain ⟨e₀, he₀, hcreates⟩ := hord.proposals k done e [] rfl hk
      obtain ⟨q, hq⟩ := (h.covers e₀ he₀).proposal hcreates
      exact executed_handle hq hk
  status k r x hr hx := by
    rw [lastChange_append, lastChange_singleton] at hx
    rcases vault_cases hr with ⟨r₀, hr₀, rfl⟩ | ⟨hnone, hregisters⟩
    · cases hc : changeOf cfg k e with
      | some y =>
        rw [hc, Option.some_or] at hx
        cases hx
        exact .inl shows_changed
      | none =>
        rw [hc, Option.none_or] at hx
        rcases h.status k r₀ x hr₀ hx with hshows | ⟨e', he', y, hy, hshows⟩
        · exact .inl hshows
        · refine .inr ⟨e', ?_, y, hy, hshows⟩
          refine (List.mem_cons.mp he').resolve_left ?_
          rintro rfl
          cases hc.symm.trans hy
    · rw [changeOf_of_registers hregisters, Option.none_or,
        h.lastChange_eq_none ⟨hord.vaults.left, hord.proposals.left⟩ hnone] at hx
      cases hx

/-- All logs of a range are handled, in their order. -/
theorem handleAll (h : t.Follows cfg done (logs ++ ahead)) (hord : InOrder cfg (done ++ logs)) :
    (t.handleAll cfg logs).Follows cfg (done ++ logs) ahead := by
  induction logs generalizing done t with
  | nil =>
    rw [List.append_nil]
    exact h
  | cons e logs ih =>
    rw [List.append_cons] at hord ⊢
    exact ih (h.next ⟨hord.vaults.left, hord.proposals.left⟩) hord

/-- Of the logs that are done, processed once more, only changes of status do something. -/
theorem handleAll_done (h : t.Follows cfg done ahead) (hlogs : ∀ e ∈ logs, e ∈ done) :
    t.handleAll cfg logs = { t with vaults := t.vaults.map (VaultRow.replayed cfg logs) } := by
  have hproposals : t.governanceProposals.map (ProposalRow.replayed cfg logs) = t.governanceProposals := by
    refine (List.map_congr_left ?_).trans (List.map_id _)
    intro q hq
    have hlookup : t.proposal q.core.proposalKey = some q := h.keyed.1.mem_iff.mp hq
    have hfixed : executedOnce q.execution (executedIn cfg q.core.proposalKey logs) = q.execution := by
      cases hexec : executedIn cfg q.core.proposalKey logs with
      | none => rfl
      | some n =>
        obtain ⟨e, he, hn⟩ := List.mem_filterMap.mp (List.mem_of_mem_head? hexec)
        obtain ⟨q', hq', hstatus⟩ := h.executed e (hlogs e he) q.core.proposalKey (by simp [Executes, hn])
        cases hlookup.symm.trans hq'
        exact executedOnce_of_le hstatus
    unfold ProposalRow.replayed
    rw [hfixed]
    rfl
  rw [handleAll_eq_replayed fun e he => h.covers e (hlogs e he)]
  unfold EventTables.replayed
  rw [hproposals]

/-- The last change of the last logs that are done is shown, or one that is ahead. -/
theorem status_cases {pre : List LogEntry} (h : t.Follows cfg done ahead) (hdone : done = pre ++ logs)
    {r : VaultRow} (hr : r ∈ t.vaults) {x : ℕ × ℕ} (hx : lastChange cfg r.key logs = some x) :
    r.Shows x ∨ ∃ e ∈ ahead, ∃ y, changeOf cfg r.key e = some y ∧ r.Shows y := by
  have hlookup : t.vault r.key = some r := h.keyed.2.mem_iff.mp hr
  refine h.status r.key r x hlookup ?_
  rw [hdone, lastChange_append, hx, Option.some_or]

end EventTables.Follows

/-! ### Runs of ticks -/

/-- **The tables after ticks on one chain**, failing or not: all logs up to the cursor are done, and only
logs above it can have been handled besides. -/
theorem Polled.follows (h : Polled cfg chain db)
    (hord : InOrder cfg (logsIn cfg chain 0 (fromBlock (db.lastIndexedBlock cfg.chainId)))) :
    db.events.Follows cfg (logsIn cfg chain 0 (fromBlock (db.lastIndexedBlock cfg.chainId)))
      (logsIn cfg chain (fromBlock (db.lastIndexedBlock cfg.chainId)) chain.blocks.length) := by
  induction h with
  | new => exact .empty
  | @tick db p h hgrown ih =>
    have hno := h.not_reorganized hgrown
    rcases h.cursor hgrown with hcursor | ⟨o, -, -, hcursor, hadvances⟩
    · rw [hcursor] at hord ⊢
      exact tick_handles_events (Q := EventTables.Follows cfg _ _)
        (fun e he t h => h.handle hord (logsIn_grown_subset hgrown he)) hno (ih hord)
    · rw [hcursor] at hord ⊢
      rw [hadvances.tables]
      rcases hadvances.bound with hsame | hbound
      · rw [hsame] at hord ⊢
        rw [logsIn_self]
        exact ih hord
      · rw [logsIn_append (Nat.zero_le _) hadvances.le] at hord ⊢
        have hbefore := ih ⟨hord.vaults.left, hord.proposals.left⟩
        rw [logsIn_append hadvances.le hbound] at hbefore
        exact hbefore.handleAll hord

/-! ### Once more -/

/-- No vault that changes its status from `a` to `T` has the status and the time of a change above `T`,
other than those of its last change in that range. -/
def NoneAhead (cfg : IndexerConfig) (chain : Chain) (a T : ℕ) (db : Db) : Prop :=
  ∀ r ∈ db.vaults, ∀ x ∈ lastChange cfg r.key (logsIn cfg chain a (T + 1)),
    ∀ e ∈ logsIn cfg chain (T + 1) chain.blocks.length, ∀ y ∈ changeOf cfg r.key e, r.Shows y → y = x

instance : Decidable (NoneAhead cfg chain a T db) := by
  unfold NoneAhead
  exact inferInstance

/-- The rows of vaults have the last change of the logs of a range, if none has one from above it. -/
theorem EventTables.Follows.replayed_iff (h : db.events.Follows cfg (logsIn cfg chain 0 (T + 1))
      (logsIn cfg chain (T + 1) chain.blocks.length)) (ha : a ≤ T) :
    (∀ r ∈ db.vaults, r.replayed cfg (logsIn cfg chain a (T + 1)) = r) ↔ NoneAhead cfg chain a T db := by
  simp only [VaultRow.replayed_eq_self_iff]
  constructor
  · intro hshown r hr x hx e _ y _ hy
    exact hy.inj (hshown r hr x hx)
  · intro hnone r hr x hx
    rcases h.status_cases (logsIn_append (Nat.zero_le a) (Nat.le_succ_of_le ha)) hr hx with
      hshows | ⟨e, he, y, hy, hshows⟩
    · exact hshows
    · rw [← hnone r hr x hx e he y hy hshows]
      exact hshows

/-- Where nothing is ahead they have it. -/
theorem EventTables.Follows.replayed_self (h : db.events.Follows cfg (logsIn cfg chain 0 (T + 1)) [])
    (ha : a ≤ T) : ∀ r ∈ db.vaults, r.replayed cfg (logsIn cfg chain a (T + 1)) = r := by
  intro r hr
  rw [VaultRow.replayed_eq_self_iff]
  intro x hx
  rcases h.status_cases (logsIn_append (Nat.zero_le a) (Nat.le_succ_of_le ha)) hr hx with hshows | ⟨e, he, -⟩
  · exact hshows
  · cases he

/-- The logs of a range that are done, processed once more. -/
theorem Polled.reindex_eq (h : Polled cfg p.chain db) (hT : db.lastIndexedBlock cfg.chainId = some T)
    (hfollows : db.events.Follows cfg (logsIn cfg p.chain 0 (T + 1)) ahead) (ha : a ≤ T)
    (hcalls : ∀ k, p.fails k = false) (k : ℕ) :
    ∃ rows w, reindex p.session cfg a T ⟨db, k⟩ = (.ok rows, w) ∧
      w.db = { db with vaults := db.vaults.map (VaultRow.replayed cfg (logsIn cfg p.chain a (T + 1))) } := by
  have hhas := h.has
  rw [hT] at hhas
  have hdone : ∀ e ∈ watchedLogs cfg p.chain a T, e ∈ logsIn cfg p.chain 0 (T + 1) := by
    intro e he
    rw [logsIn_append (Nat.zero_le a) (Nat.le_succ_of_le ha)]
    exact List.mem_append_right _ he
  obtain ⟨rows, w, hrun, hw⟩ := ok_of_triple (reindex_again hcalls watchedLogs_lt
    (fun e he => hhas e (hdone e he)) fun e he => hfollows.covers e (hdone e he)) k
  rw [hfollows.handleAll_done hdone] at hw
  exact ⟨rows, w, hrun, hw⟩

theorem withVaults_eq_self_iff : { db with vaults := db.vaults.map (VaultRow.replayed cfg logs) } = db ↔
    ∀ r ∈ db.vaults, r.replayed cfg logs = r := by
  constructor
  · intro hsame r hr
    have hvaults : db.vaults.map (VaultRow.replayed cfg logs) = db.vaults := congrArg Db.vaults hsame
    exact List.map_inj_left.mp (hvaults.trans (List.map_id _).symm) r hr
  · intro hfixed
    have hvaults : db.vaults.map (VaultRow.replayed cfg logs) = db.vaults :=
      (List.map_congr_left hfixed).trans (List.map_id _)
    rw [hvaults]

variable {V : Type} {env : Governance.Env V} {registryAdmin router admin : Address}
  {votingPeriod executionDelay quorum : ℕ} {r₀ : Registry} {g₀ : Storage}

/-- **Re-indexing is idempotent, but for statuses of vaults.**  Let a chain have the events of any run of
the registry and any run of the governance, and let ticks, whatever calls of them fail, have indexed it up
to `T`.  The blocks, transactions and events of all watched logs from any height `a` up to `T` can be
processed once more.  Only rows of `vaults` can change, and none does if and only if no vault that changes
its status in the range has it from above `T`. -/
theorem reindex_idempotent_iff (hr₀ : Registry.deploy registryAdmin = .ok r₀) (calls : List Listed)
    (hg₀ : Storage.deploy router admin votingPeriod executionDelay quorum = .ok g₀)
    (p₀ : Portfolio.RouterState V) (acts : List (Action V))
    (hpolled : Polled cfg p.chain db) (hT : db.lastIndexedBlock cfg.chainId = some T)
    (hchain : OfContracts cfg p.chain (T + 1) (listingIn (history Registry.exec r₀ calls))
      (announcedIn (history (Governance.State.act env) ⟨g₀, p₀⟩ acts)))
    (ha : a ≤ T) (hcalls : ∀ k, p.fails k = false) (k : ℕ) :
    ∃ rows w, reindex p.session cfg a T ⟨db, k⟩ = (.ok rows, w) ∧
      (∃ vaults, w.db = { db with vaults }) ∧ (w.db = db ↔ NoneAhead cfg p.chain a T db) := by
  have hord : InOrder cfg (logsIn cfg p.chain 0 (T + 1)) :=
    hchain.inOrder (registry_inOrder hr₀ calls) (governance_inOrder hg₀ p₀ acts)
  have hfollows := hpolled.follows
  rw [hT] at hfollows
  have hfollows := hfollows hord
  obtain ⟨rows, w, hrun, hw⟩ := hpolled.reindex_eq hT hfollows ha hcalls k
  refine ⟨rows, w, hrun, ⟨_, hw⟩, ?_⟩
  rw [← hfollows.replayed_iff ha, hw]
  exact withVaults_eq_self_iff

/-- Where no tick has failed, no row changes. -/
theorem reindex_idempotent (hr₀ : Registry.deploy registryAdmin = .ok r₀) (calls : List Listed)
    (hg₀ : Storage.deploy router admin votingPeriod executionDelay quorum = .ok g₀)
    (p₀ : Portfolio.RouterState V) (acts : List (Action V))
    (hindexed : Indexes cfg p.chain Db.empty db) (hT : db.lastIndexedBlock cfg.chainId = some T)
    (hchain : OfContracts cfg p.chain (T + 1) (listingIn (history Registry.exec r₀ calls))
      (announcedIn (history (Governance.State.act env) ⟨g₀, p₀⟩ acts)))
    (ha : a ≤ T) (hcalls : ∀ k, p.fails k = false) (k : ℕ) :
    ∃ rows w, reindex p.session cfg a T ⟨db, k⟩ = (.ok rows, w) ∧ w.db = db := by
  have hord : InOrder cfg (logsIn cfg p.chain 0 (T + 1)) :=
    hchain.inOrder (registry_inOrder hr₀ calls) (governance_inOrder hg₀ p₀ acts)
  have hevents := hindexed.events
  rw [hT] at hevents
  have hfollows : db.events.Follows cfg (logsIn cfg p.chain 0 (T + 1)) [] := by
    rw [hevents]
    exact EventTables.Follows.empty.handleAll hord
  obtain ⟨rows, w, hrun, hw⟩ := hindexed.polled.reindex_eq hT hfollows ha hcalls k
  exact ⟨rows, w, hrun, hw.trans (withVaults_eq_self_iff.mpr (hfollows.replayed_self ha))⟩

/-! ### A vault that is active again -/

/-- A deployment that watches the registry at the account `4` too. -/
def listed4 : IndexerConfig := { governed with registry := some 4, featureFlags := 4 }

/-- A vault is registered, paused, and active again. -/
def pausedOnce : List Listed :=
  [(.of 3 (.of 1 1000) (.registerVault 10 "stable" 7), fun _ => none),
   (.of 3 (.of 1 1000) (.setVaultStatus 10 .paused), fun _ => none),
   (.of 3 (.of 4 4660) (.setVaultStatus 10 .active), fun _ => none)]

/-- The blocks of these events, at the heights one and four. -/
def resumedChain : Chain where
  blocks :=
    [quietBlock 0,
     ⟨1000, [⟨70, 0, 3, some 4, 1⟩],
      [⟨4, .event (.vaultRegistered 10 "stable" 7), 70, 0, 0⟩,
       ⟨4, .event (.vaultStatusChanged 10 1 1000), 71, 1, 1⟩]⟩,
     quietBlock 2000, quietBlock 3000,
     ⟨4660, [], [⟨4, .event (.vaultStatusChanged 10 0 4660), 74, 0, 0⟩]⟩] ++ (List.range 5).map quietBlock
  nonempty := List.cons_ne_nil _ _

/-- A tick that meets the chain up to the height `n`. -/
def upTo (n : ℕ) (fails : ℕ → Bool) : Poll where
  chain := ⟨resumedChain.blocks.take (n + 1), List.cons_ne_nil _ _⟩
  ethCall := fun _ _ _ _ => .word 0
  fails := fails

/-- A tick comes to the height one.  The next one handles the log at height four, and then a call fails. -/
def halfwayDb : Db :=
  (tick (upTo 9 (· == 14)).session listed4 (tick (upTo 6 fun _ => false).session listed4 Db.empty).2).2

/-- The last tick meets a node that is behind, and comes to the height two. -/
def overtakenDb : Db := (tick (upTo 7 fun _ => false).session listed4 halfwayDb).2

/-- The last tick comes to the height four. -/
def caughtUpDb : Db := (tick (steady resumedChain).session listed4 halfwayDb).2

theorem halfway_polled : Polled listed4 resumedChain halfwayDb :=
  (Polled.new.tick (List.take_prefix _ _)).tick (List.take_prefix _ _)

theorem resumed_ofContracts : OfContracts listed4 resumedChain 10
    (listingIn (history Registry.exec Registry.newRegistry pausedOnce))
    (announcedIn (history (Governance.State.act Governance.ballotEnv) Governance.deployed [])) := by
  refine ⟨?_, ?_, by decide +kernel⟩
  · rintro reg ⟨⟩
    decide +kernel
  · rintro gov ⟨⟩
    decide +kernel

/-- **A status is taken back.**  The cursor is at height two, and the vault is active since height four.
After the logs of the heights one and two were processed once more it is paused. -/
theorem status_taken_back :
    Registry.deploy 3 = .ok Registry.newRegistry ∧
      Storage.deploy 1 20 3600 60 5 = .ok Governance.deployed.gov ∧
      Polled listed4 resumedChain overtakenDb ∧ overtakenDb.lastIndexedBlock listed4.chainId = some 2 ∧
      OfContracts listed4 resumedChain resumedChain.blocks.length
        (listingIn (history Registry.exec Registry.newRegistry pausedOnce))
        (announcedIn (history (Governance.State.act Governance.ballotEnv) Governance.deployed [])) ∧
      overtakenDb.vaults.map (fun r => (r.status, r.statusChangedAt)) = [(0, some 4660)] ∧
      ∃ rows w, reindex (steady resumedChain).session listed4 1 2 ⟨overtakenDb, 0⟩ = (.ok rows, w) ∧
        w.db.vaults.map (fun r => (r.status, r.statusChangedAt)) = [(1, some 1000)] ∧ w.db ≠ overtakenDb := by
  have hbefore : overtakenDb.vaults.map (fun r => (r.status, r.statusChangedAt)) = [(0, some 4660)] := by
    decide +kernel
  have hok : (reindex (steady resumedChain).session listed4 1 2 ⟨overtakenDb, 0⟩).1 = .ok 1 := by
    decide +kernel
  have hafter : (reindex (steady resumedChain).session listed4 1 2 ⟨overtakenDb, 0⟩).2.db.vaults.map
      (fun r => (r.status, r.statusChangedAt)) = [(1, some 1000)] := by
    decide +kernel
  have hpolled : Polled listed4 resumedChain overtakenDb := halfway_polled.tick (List.take_prefix _ _)
  have hcursor : overtakenDb.lastIndexedBlock listed4.chainId = some 2 := by decide +kernel
  refine ⟨rfl, rfl, hpolled, hcursor, resumed_ofContracts, hbefore, ?_⟩
  rcases hrun : reindex (steady resumedChain).session listed4 1 2 ⟨overtakenDb, 0⟩ with ⟨r, w⟩
  rw [hrun] at hok hafter
  cases hok
  refine ⟨1, w, rfl, hafter, ?_⟩
  intro hsame
  rw [hsame, hbefore] at hafter
  cases hafter

/-- Once the cursor is at height four, the logs from height one on can be processed once more. -/
theorem reindex_idempotent_iff_resumed :
    ∃ rows w, reindex (steady resumedChain).session listed4 1 4 ⟨caughtUpDb, 0⟩ = (.ok rows, w) ∧
      w.db = caughtUpDb := by
  have hpolled : Polled listed4 (steady resumedChain).chain caughtUpDb :=
    halfway_polled.tick (List.prefix_refl _)
  have hcursor : caughtUpDb.lastIndexedBlock listed4.chainId = some 4 := by decide +kernel
  have hchain : OfContracts listed4 (steady resumedChain).chain (4 + 1)
      (listingIn (history Registry.exec Registry.newRegistry pausedOnce))
      (announcedIn (history (Governance.State.act Governance.ballotEnv) Governance.deployed [])) := by
    refine ⟨?_, ?_, by decide +kernel⟩
    · rintro reg ⟨⟩
      decide +kernel
    · rintro gov ⟨⟩
      decide +kernel
  have hregistry : Registry.deploy 3 = .ok Registry.newRegistry := rfl
  have hgovernance : Storage.deploy 1 20 3600 60 5 = .ok Governance.deployed.gov := rfl
  obtain ⟨rows, w, hrun, -, hiff⟩ := reindex_idempotent_iff hregistry pausedOnce hgovernance
    Portfolio.RouterState.weightedRouter [] hpolled hcursor hchain (show 1 ≤ 4 by omega) (fun _ => rfl) 0
  exact ⟨rows, w, hrun, hiff.mpr (by decide +kernel)⟩

end RobotMoney.Indexer
