import RobotMoney.Indexer.Fold

/-!
# Rows in the order of the logs

A node numbers the logs of a block upwards.  So the positions of the logs of a chain ascend
(`logsIn_before`), no two rows of a table have the same key, and a table of rows that only logs of one kind
write has just the rows of those logs, in their order (`policies_of_logs`, `weights_of_logs`).
-/

namespace RobotMoney.Indexer

open RobotMoney.Lib

/-! ### Positions -/

/-- The logs of every block are numbered upwards. -/
def Numbered (chain : Chain) : Prop :=
  ∀ b ∈ chain.blocks, b.logs.Pairwise fun l l' => l.logIndex < l'.logIndex

instance (chain : Chain) : Decidable (Numbered chain) := by
  unfold Numbered
  infer_instance

/-- A position comes before another: in a lower block, or in the same one. -/
def LogPosition.Before (p q : LogPosition) : Prop :=
  p.blockNumber < q.blockNumber ∨ (p.blockNumber = q.blockNumber ∧ p.logIndex < q.logIndex)

variable {cfg : IndexerConfig} {chain : Chain} {t : EventTables} {e : LogEntry} {logs : List LogEntry}
  {lo hi : ℕ}

theorem LogPosition.Before.key_ne {p q : LogPosition} (h : p.Before q) : p.key ≠ q.key := by
  intro hkey
  unfold LogPosition.key at hkey
  simp only [Prod.mk.injEq] at hkey
  rcases h with h | ⟨-, h⟩ <;> omega

theorem LogPosition.Before.asymm {p q : LogPosition} (h : p.Before q) : ¬ q.Before p := by
  unfold LogPosition.Before at *
  omega

/-- Earlier logs have earlier positions. -/
theorem logsIn_before (h : Numbered chain) :
    (logsIn cfg chain lo hi).Pairwise fun e e' => (e.position cfg).Before (e'.position cfg) := by
  unfold logsIn
  refine List.Pairwise.filter _ ?_
  rw [List.pairwise_flatMap]
  constructor
  · -- in one block
    intro n _
    unfold logsAt
    split
    · exact List.Pairwise.nil
    · rename_i b hb
      rw [List.pairwise_map]
      refine (h b (List.mem_of_getElem? hb)).imp ?_
      intro l l' hlt
      exact .inr ⟨rfl, hlt⟩
  · -- in two blocks
    refine List.Pairwise.imp ?_ (List.pairwise_lt_range' 1)
    intro n m hnm e he e' he'
    left
    show e.blockNumber < e'.blockNumber
    rw [(logsAt_blockNumber he).1, (logsAt_blockNumber he').1]
    exact hnm

/-! ### Tables -/

/-- A table that the rows of one kind are inserted into, and nothing else is done to. -/
structure Appends {ρ κ : Type} [DecidableEq κ] (table : EventTables → List ρ) (pick : Record → Option ρ)
    (key : ρ → κ) : Prop where
  empty : table .empty = []
  hit : ∀ t x r, pick x = some r → table (t.insert x) = Table.insertNew key (table t) r
  miss : ∀ t x, pick x = none → table (t.insert x) = table t
  update : ∀ cfg t e ev, table (t.update cfg e ev) = table t

section Appends

variable {ρ κ : Type} [DecidableEq κ] {table : EventTables → List ρ} {pick : Record → Option ρ} {key : ρ → κ}

/-- The row of one kind of a log. -/
def rowOf (cfg : IndexerConfig) (pick : Record → Option ρ) (e : LogEntry) : Option ρ :=
  (recordOf cfg e).bind pick

/-- The rows of one kind of some logs. -/
def rowsOf (cfg : IndexerConfig) (pick : Record → Option ρ) (logs : List LogEntry) : List ρ :=
  logs.filterMap (rowOf cfg pick)

theorem Appends.handle (h : Appends table pick key) :
    table (t.handle cfg e) = (rowOf cfg pick e).elim (table t) (Table.insertNew key (table t)) := by
  unfold EventTables.handle rowOf recordOf
  cases e.log.data with
  | foreign => rfl
  | raw tp => rfl
  | event ev =>
    dsimp only
    cases ev.record cfg e with
    | none => exact h.update cfg t e ev
    | some x =>
      cases hpick : pick x with
      | none => simpa [hpick] using h.miss t x hpick
      | some r => simpa [hpick] using h.hit t x r hpick

theorem Appends.handleAll (h : Appends table pick key) :
    table (t.handleAll cfg logs) = (rowsOf cfg pick logs).foldl (Table.insertNew key) (table t) := by
  induction logs generalizing t with
  | nil => rfl
  | cons e logs ih =>
    rw [EventTables.handleAll_cons, ih, h.handle]
    unfold rowsOf
    cases hrow : rowOf cfg pick e with
    | none => rw [List.filterMap_cons_none hrow, Option.elim_none]
    | some r => rw [List.filterMap_cons_some hrow, Option.elim_some, List.foldl_cons]

/-- The rows of one kind are where their logs are. -/
theorem rowsOf_before (h : Numbered chain) {position : ρ → LogPosition}
    (hposition : ∀ x r, pick x = some r → x.position = position r) :
    (rowsOf cfg pick (logsIn cfg chain lo hi)).Pairwise fun r r' => (position r).Before (position r') := by
  unfold rowsOf
  rw [List.pairwise_filterMap]
  refine (logsIn_before h).imp ?_
  intro e e' hbefore r hr r' hr'
  obtain ⟨x, hx, hr⟩ := Option.bind_eq_some_iff.mp hr
  obtain ⟨x', hx', hr'⟩ := Option.bind_eq_some_iff.mp hr'
  rw [← hposition x r hr, ← hposition x' r' hr', recordOf_position hx, recordOf_position hx']
  exact hbefore

/-- On a new database, all the rows are there. -/
theorem Appends.of_logs (h : Appends table pick key) (hnum : Numbered chain) {position : ρ → LogPosition}
    (hposition : ∀ x r, pick x = some r → x.position = position r)
    (hkey : ∀ r r', (position r).Before (position r') → key r ≠ key r') :
    table (EventTables.empty.handleAll cfg (logsIn cfg chain lo hi)) =
      rowsOf cfg pick (logsIn cfg chain lo hi) := by
  have hnodup : ((rowsOf cfg pick (logsIn cfg chain lo hi)).map key).Nodup :=
    List.pairwise_map.mpr ((rowsOf_before hnum hposition).imp fun hbefore => hkey _ _ hbefore)
  rw [h.handleAll, h.empty, Table.foldl_insertNew hnodup]
  rfl

end Appends

/-- A row of `agent_deposits`. -/
def Record.depositRow : Record → Option DepositRow
  | .deposit r => some r
  | _ => none

/-- A row of `agent_policies`. -/
def Record.policyRow : Record → Option PolicyRow
  | .policy r => some r
  | _ => none

/-- A row of `router_weight_snapshots`. -/
def Record.weightRow : Record → Option WeightRow
  | .weight r => some r
  | _ => none

theorem position_of_depositRow {x : Record} {r : DepositRow} (h : x.depositRow = some r) :
    x.position = r.toLogPosition := by
  cases x <;> cases h
  rfl

theorem position_of_policyRow {x : Record} {r : PolicyRow} (h : x.policyRow = some r) :
    x.position = r.toLogPosition := by
  cases x <;> cases h
  rfl

theorem position_of_weightRow {x : Record} {r : WeightRow} (h : x.weightRow = some r) :
    x.position = r.toLogPosition := by
  cases x <;> cases h
  rfl

theorem vote_insert {t : EventTables} {r : VoteRow} {β : Type} {table : EventTables → β}
    (h : ∀ votes proposals,
      table { t with governanceVotes := votes, governanceProposals := proposals } = table t) :
    table (t.insert (.vote r)) = table t := by
  show table (if Table.taken VoteRow.voteKey t.governanceVotes r.voteKey then t else _) = table t
  split
  · rfl
  · exact h _ _

theorem deposits_append :
    Appends (fun t => t.agentDeposits) Record.depositRow (fun r => r.toLogPosition.key) where
  empty := rfl
  hit t x r h := by
    cases x <;> cases h
    rfl
  miss t x h := by
    cases x with
    | deposit r => cases h
    | vote r => exact vote_insert fun _ _ => rfl
    | _ => rfl
  update cfg t e ev := by cases ev <;> rfl

theorem policies_append :
    Appends (fun t => t.agentPolicies) Record.policyRow (fun r => r.toLogPosition.key) where
  empty := rfl
  hit t x r h := by
    cases x <;> cases h
    rfl
  miss t x h := by
    cases x with
    | policy r => cases h
    | vote r => exact vote_insert fun _ _ => rfl
    | _ => rfl
  update cfg t e ev := by cases ev <;> rfl

theorem weights_append :
    Appends (fun t => t.routerWeightSnapshots) Record.weightRow WeightRow.weightKey where
  empty := rfl
  hit t x r h := by
    cases x <;> cases h
    rfl
  miss t x h := by
    cases x with
    | weight r => cases h
    | vote r => exact vote_insert fun _ _ => rfl
    | _ => rfl
  update cfg t e ev := by cases ev <;> rfl

theorem deposits_of_logs (h : Numbered chain) :
    (EventTables.empty.handleAll cfg (logsIn cfg chain lo hi)).agentDeposits =
      rowsOf cfg Record.depositRow (logsIn cfg chain lo hi) :=
  deposits_append.of_logs h (fun _ _ => position_of_depositRow) fun _ _ hbefore => hbefore.key_ne

theorem policies_of_logs (h : Numbered chain) :
    (EventTables.empty.handleAll cfg (logsIn cfg chain lo hi)).agentPolicies =
      rowsOf cfg Record.policyRow (logsIn cfg chain lo hi) :=
  policies_append.of_logs h (fun _ _ => position_of_policyRow) fun _ _ hbefore => hbefore.key_ne

theorem weights_of_logs (h : Numbered chain) :
    (EventTables.empty.handleAll cfg (logsIn cfg chain lo hi)).routerWeightSnapshots =
      rowsOf cfg Record.weightRow (logsIn cfg chain lo hi) := by
  refine weights_append.of_logs h (fun _ _ => position_of_weightRow) ?_
  intro r r' hbefore hkey
  refine hbefore.key_ne ?_
  unfold WeightRow.weightKey at hkey
  simp only [Prod.mk.injEq] at hkey
  obtain ⟨hchain, -, hblock, hlog⟩ := hkey
  unfold LogPosition.key
  rw [hchain, hblock, hlog]

end RobotMoney.Indexer
