import RobotMoney.Governance.Audit
import RobotMoney.Indexer.Fold

/-!
# The tallies of the indexer and those of the contract

`RouterGovernance` adds up the power of votes; the indexer folds its events into the rows of
`governance_proposals`, and counts them.  `Tallied` relates the storage of the contract to the tables
after the logs of a run of it: the proposals, who voted on each with which power, and which of them are
executed are the same, and the row of a proposal has as many votes as were cast.

So the rows have the tallies of the contract exactly if every vote was cast with power one
(`tallies_mirror_iff`).
-/

namespace RobotMoney.Indexer

open RobotMoney.Lib
open RobotMoney.Governance (GovernanceEvent Storage Action ballots Ballot)

/-! ### The events of the contract on the chain -/

/-- The events that the tables of governance are made of. -/
def tallied : LogData → Option Event
  | .event (.proposalCreated i proposer vaults bps deadline) =>
    some (.proposalCreated i proposer vaults bps deadline)
  | .event (.voteCast i voter power totalFor) => some (.voteCast i voter power totalFor)
  | .event (.proposalExecuted i executor) => some (.proposalExecuted i executor)
  | _ => none

/-- The same events, as the contract emits them. -/
def announced : GovernanceEvent → Option Event
  | .proposalCreated i proposer vaults bps deadline =>
    some (.proposalCreated i proposer vaults bps deadline)
  | .voteCast i voter power totalFor => some (.voteCast i voter power totalFor)
  | .proposalExecuted i executor => some (.proposalExecuted i executor)
  | _ => none

/-- The events of a run of the contract, in their order. -/
def announcedIn {V : Type} (log : Governance.Log V) : List Event :=
  (log.flatMap fun x => x.2.2).filterMap announced

/-- The logs of a chain below a height. -/
def logsBelow (chain : Chain) (h : ℕ) : List LogEntry :=
  (List.range' 0 h).flatMap (logsAt chain.blocks)

/-- The chain below the height `h` carries the events `events` of the contract that the service is
configured with, and no other contract that it watches emits such events. -/
structure Carries (cfg : IndexerConfig) (chain : Chain) (h : ℕ) (events : List Event) : Prop where
  own : ∃ gov, cfg.routerGovernance = some gov ∧
    ((logsBelow chain h).filter fun e => e.log.address = gov).filterMap (fun e => tallied e.log.data) =
      events
  others : ∀ e ∈ logsBelow chain h, e.log.address ∈ cfg.watchedAddresses →
    cfg.routerGovernance ≠ some e.log.address → tallied e.log.data = none

variable {cfg : IndexerConfig} {chain : Chain} {t : EventTables} {e : LogEntry} {n : ℕ}

theorem event_of_tallied {data : LogData} {ev : Event} (h : tallied data = some ev) : data = .event ev := by
  unfold tallied at h
  split at h <;> cases h <;> rfl

/-- What the service is given of a kind of logs is what the one watched account that has them emits. -/
theorem watched_eq {β : Type} {f : LogEntry → Option β} {account : Address} {events : List β}
    (hf : ∀ e b, f e = some b → e.log.data.topic ≠ none)
    (hown : ((logsBelow chain n).filter fun e => e.log.address = account).filterMap f = events)
    (hothers : ∀ e ∈ logsBelow chain n, e.log.address ∈ cfg.watchedAddresses →
      e.log.address ≠ account → f e = none)
    (hwatched : account ∈ cfg.watchedAddresses) : (logsIn cfg chain 0 n).filterMap f = events := by
  rw [← hown]
  unfold logsIn
  rw [Nat.sub_zero, List.filterMap_filter, List.filterMap_filter]
  refine List.filterMap_congr ?_
  intro e he
  by_cases haddr : e.log.address = account
  · cases hdata : f e with
    | none => simp
    | some b =>
      have htopic : e.log.data.topic ≠ none := hf e b hdata
      simp [watches, haddr, htopic, hwatched]
  · have hother : ¬ decide (e.log.address = account) = true := by simpa using haddr
    rw [if_neg hother]
    split
    · rename_i hw
      have hw : e.log.address ∈ cfg.watchedAddresses ∧ e.log.data.topic ≠ none := of_decide_eq_true hw
      exact hothers e he hw.1 haddr
    · rfl

/-- An event is decoded from a log with a topic. -/
theorem topic_of_event {f : LogData → Option Event} (hf : ∀ data ev, f data = some ev → data = .event ev)
    (e : LogEntry) (ev : Event) (h : f e.log.data = some ev) : e.log.data.topic ≠ none := by
  rw [hf _ _ h]
  exact Option.some_ne_none _

/-- The chain below the height `h` carries the events `events` of the account, of the kind that `f` picks out,
and no other watched account emits such events. -/
structure Emits (f : LogData → Option Event) (account : Address) (cfg : IndexerConfig) (chain : Chain) (h : ℕ)
    (events : List Event) : Prop where
  own : ((logsBelow chain h).filter fun e => e.log.address = account).filterMap
    (fun e => f e.log.data) = events
  others : ∀ e ∈ logsBelow chain h, e.log.address ∈ cfg.watchedAddresses →
    e.log.address ≠ account → f e.log.data = none

theorem Emits.watched {f : LogData → Option Event} {account : Address} {events : List Event}
    (h : Emits f account cfg chain n events) (hf : ∀ data ev, f data = some ev → data = .event ev)
    (hwatched : account ∈ cfg.watchedAddresses) :
    (logsIn cfg chain 0 n).filterMap (fun e => f e.log.data) = events :=
  watched_eq (topic_of_event hf) h.own h.others hwatched

/-- The logs that the service is given then have these events. -/
theorem Carries.watched {events : List Event} (h : Carries cfg chain n events) :
    (logsIn cfg chain 0 n).filterMap (fun e => tallied e.log.data) = events := by
  obtain ⟨gov, hgov, hown⟩ := h.own
  refine watched_eq (topic_of_event fun _ _ => event_of_tallied) hown ?_ ?_
  · intro e he hw haddr
    refine h.others e he hw ?_
    rw [hgov]
    simpa [eq_comm] using haddr
  · unfold IndexerConfig.watchedAddresses
    simp [hgov]

/-! ### Logs -/

/-- The tables of governance. -/
def EventTables.governance (t : EventTables) : List VoteRow × List ProposalRow :=
  (t.governanceVotes, t.governanceProposals)

/-- A log of another kind leaves them. -/
theorem handle_governance (h : tallied e.log.data = none) :
    (t.handle cfg e).governance = t.governance := by
  unfold EventTables.handle
  cases hdata : e.log.data with
  | foreign => rfl
  | raw tp => rfl
  | event ev =>
    rw [hdata] at h
    cases ev with
    | proposalCreated => cases h
    | voteCast => cases h
    | proposalExecuted => cases h
    | _ => rfl

theorem handleAll_governance {logs : List LogEntry} (h : ∀ e ∈ logs, tallied e.log.data = none) :
    (t.handleAll cfg logs).governance = t.governance := by
  induction logs generalizing t with
  | nil => rfl
  | cons e logs ih =>
    rw [EventTables.handleAll_cons, ih fun e' he' => h e' (List.mem_cons_of_mem _ he')]
    exact handle_governance (h e List.mem_cons_self)

/-- The row of a proposal is inserted. -/
theorem handle_proposalCreated {i deadline : ℕ} {proposer : Address} {vaults : List Address} {bps : List ℕ}
    (h : tallied e.log.data = some (.proposalCreated i proposer vaults bps deadline)) :
    ∃ core : ProposalCore, core.chainId = cfg.chainId ∧ core.proposalId = clampI64 i ∧
      (t.handle cfg e).governance = (t.governanceVotes, Table.insertNew
        (fun r : ProposalRow => r.core.proposalKey) t.governanceProposals { core }) := by
  unfold EventTables.handle
  rw [event_of_tallied h]
  exact ⟨_, rfl, rfl, rfl⟩

/-- A vote is inserted, unless the voter has one. -/
theorem handle_voteCast {i power totalFor : ℕ} {voter : Address}
    (h : tallied e.log.data = some (.voteCast i voter power totalFor)) :
    (t.handle cfg e).governance =
      if Table.taken VoteRow.voteKey t.governanceVotes (voteRow cfg e i voter power).voteKey
      then t.governance
      else (t.governanceVotes ++ [voteRow cfg e i voter power],
        t.governanceProposals.map (ProposalRow.counted (voteRow cfg e i voter power))) := by
  unfold EventTables.handle
  rw [event_of_tallied h]
  exact apply_ite EventTables.governance _ _ _

theorem handle_proposalExecuted {i : ℕ} {executor : Address}
    (h : tallied e.log.data = some (.proposalExecuted i executor)) :
    (t.handle cfg e).governance = (t.governanceVotes, t.governanceProposals.map
      (ProposalRow.executedAt (cfg.chainId, clampI64 i) e.blockNumber)) := by
  unfold EventTables.handle
  rw [event_of_tallied h]
  rfl

/-! ### The invariant -/

section Simulation

variable {V : Type} {env : Governance.Env V} {g g' : Storage} {log : Governance.Log V}
  {x : Governance.Entry V} {votes : List VoteRow} {proposals : List ProposalRow} {i : ℕ}

/-- The votes on a proposal. -/
def votesOn (votes : List VoteRow) (i : ℕ) : List VoteRow := votes.filter fun v => v.proposalId = i

/-- The tables are those of the contract with the storage `g` and the history `log`, with the votes on a
proposal counted. -/
structure Tallied (cfg : IndexerConfig) (g : Storage) (log : Governance.Log V)
    (tables : List VoteRow × List ProposalRow) : Prop where
  chains : (∀ v ∈ tables.1, v.chainId = cfg.chainId) ∧ ∀ p ∈ tables.2, p.core.chainId = cfg.chainId
  made : ∀ p ∈ tables.2, (g.proposals p.core.proposalId).id ≠ 0
  rows : ∀ i, (g.proposals i).id ≠ 0 → ∃ p ∈ tables.2, p.core.proposalId = i
  count : ∀ p ∈ tables.2, p.votesFor = (votesOn tables.1 p.core.proposalId).length
  status : ∀ p ∈ tables.2, p.status = if (g.proposals p.core.proposalId).executed then 2 else 0
  cast : ∀ v ∈ tables.1, (g.proposals v.proposalId).id ≠ 0 ∧ g.hasVoted v.proposalId v.voter = true
  weights : ∀ i, (votesOn tables.1 i).map (fun v => v.weight) = (ballots i log).map Ballot.power
  power : ∀ i, ∀ b ∈ ballots i log, b.power ≠ 0
  tally : ∀ i, (g.proposals i).votesFor = ((ballots i log).map Ballot.power).sum
  blank : ∀ i, g.currentProposalId < i → g.proposals i = Governance.Proposal.default

theorem ballots_of_none (h : Governance.ballotOf i x = none) : ballots i (log ++ [x]) = ballots i log := by
  rw [Governance.ballots_snoc, h]
  exact List.append_nil _

/-- A call that concerns no tally. -/
theorem Tallied.keep {tables : List VoteRow × List ProposalRow} (h : Tallied cfg g log tables)
    (hp : ∀ i, (g'.proposals i).id = (g.proposals i).id ∧
      (g'.proposals i).executed = (g.proposals i).executed ∧
      (g'.proposals i).votesFor = (g.proposals i).votesFor)
    (hv : g'.hasVoted = g.hasVoted)
    (hblank : ∀ i, g'.currentProposalId < i → g'.proposals i = Governance.Proposal.default)
    (hb : ∀ i, Governance.ballotOf i x = none) : Tallied cfg g' (log ++ [x]) tables := by
  have hballots : ∀ i, ballots i (log ++ [x]) = ballots i log := fun i => ballots_of_none (hb i)
  constructor
  case chains =>
    exact h.chains
  case made =>
    intro p hmem
    rw [(hp _).1]
    exact h.made p hmem
  case rows =>
    intro i hi
    rw [(hp _).1] at hi
    exact h.rows i hi
  case count =>
    exact h.count
  case status =>
    intro p hmem
    rw [(hp _).2.1]
    exact h.status p hmem
  case cast =>
    intro v hmem
    rw [(hp _).1, hv]
    exact h.cast v hmem
  case weights =>
    intro i
    rw [hballots]
    exact h.weights i
  case power =>
    intro i
    rw [hballots]
    exact h.power i
  case tally =>
    intro i
    rw [hballots, (hp _).2.2]
    exact h.tally i
  case blank =>
    exact hblank

/-- A proposal that is made has a number up to the last one. -/
theorem Tallied.le_current {tables : List VoteRow × List ProposalRow} (h : Tallied cfg g log tables)
    (hid : (g.proposals i).id ≠ 0) : i ≤ g.currentProposalId := by
  by_contra hlt
  rw [h.blank i (by omega)] at hid
  exact hid rfl

/-- A proposal is made, and its row inserted. -/
theorem Tallied.proposed (h : Tallied cfg g log (votes, proposals)) {b : Lib.Block} {sender : Address}
    {vaults : List Address} {bps : List ℕ} (hb : ∀ i, Governance.ballotOf i x = none) {core : ProposalCore}
    (hchain : core.chainId = cfg.chainId) (hid : core.proposalId = g.currentProposalId + 1) :
    Tallied cfg (g.withNewProposal b sender vaults bps) (log ++ [x])
      (votes, Table.insertNew (fun r : ProposalRow => r.core.proposalKey) proposals { core }) := by
  set g' := g.withNewProposal b sender vaults bps with hg'
  have hnew : g'.proposals (g.currentProposalId + 1) = g.newProposal b sender vaults bps :=
    Function.update_self ..
  have hdefault := h.blank (g.currentProposalId + 1) (Nat.lt_succ_self _)
  have hother : ∀ i, i ≠ g.currentProposalId + 1 → g'.proposals i = g.proposals i :=
    fun i hi => Function.update_of_ne hi _ _
  have hold : ∀ i, (g.proposals i).id ≠ 0 → g'.proposals i = g.proposals i := by
    intro i hi
    have hle := h.le_current hi
    exact hother i (by omega)
  have hballots : ∀ i, ballots i (log ++ [x]) = ballots i log := fun i => ballots_of_none (hb i)
  have hnone : votesOn votes (g.currentProposalId + 1) = [] := by
    refine List.filter_eq_nil_iff.mpr ?_
    intro v hv heq
    have hle := h.le_current (h.cast v hv).1
    have heq : v.proposalId = g.currentProposalId + 1 := by simpa using heq
    omega
  have hmem : ∀ p, p ∈ Table.insertNew (fun r : ProposalRow => r.core.proposalKey) proposals { core } ↔
      p ∈ proposals ∨ p = { core } := by
    intro p
    rw [Table.mem_insertNew]
    refine or_congr_right (and_iff_left ?_)
    intro q hq hkey
    have hle := h.le_current (h.made q hq)
    have hsame : q.core.proposalId = core.proposalId := congrArg Prod.snd hkey
    omega
  constructor
  case chains =>
    refine ⟨h.chains.1, ?_⟩
    intro p hp
    rcases (hmem p).mp hp with hp | rfl
    · exact h.chains.2 p hp
    · exact hchain
  case made =>
    intro p hp
    rcases (hmem p).mp hp with hp | rfl
    · rw [hold _ (h.made p hp)]
      exact h.made p hp
    · rw [hid, hnew]
      exact Nat.succ_ne_zero _
  case rows =>
    intro i hi
    by_cases heq : i = g.currentProposalId + 1
    · exact ⟨{ core }, (hmem _).mpr (.inr rfl), hid.trans heq.symm⟩
    · rw [hother i heq] at hi
      obtain ⟨p, hp, hpi⟩ := h.rows i hi
      exact ⟨p, (hmem p).mpr (.inl hp), hpi⟩
  case count =>
    intro p hp
    rcases (hmem p).mp hp with hp | rfl
    · exact h.count p hp
    · rw [hid, hnone]
      rfl
  case status =>
    intro p hp
    rcases (hmem p).mp hp with hp | rfl
    · rw [hold _ (h.made p hp)]
      exact h.status p hp
    · rw [hid, hnew]
      show 0 = if (g.proposals (g.currentProposalId + 1)).executed then 2 else 0
      rw [hdefault]
      rfl
  case cast =>
    intro v hv
    rw [hold _ (h.cast v hv).1]
    exact h.cast v hv
  case weights =>
    intro i
    rw [hballots]
    exact h.weights i
  case power =>
    intro i
    rw [hballots]
    exact h.power i
  case tally =>
    intro i
    rw [hballots]
    by_cases heq : i = g.currentProposalId + 1
    · subst heq
      rw [hnew, ← h.tally]
      rfl
    · rw [hother i heq]
      exact h.tally i
  case blank =>
    intro i hi
    have hi : g.currentProposalId + 1 < i := hi
    rw [hother i (by omega)]
    exact h.blank i (by omega)

theorem votesOn_snoc {v : VoteRow} :
    votesOn (votes ++ [v]) i = votesOn votes i ++ if v.proposalId = i then [v] else [] := by
  unfold votesOn
  rw [List.filter_append]
  by_cases hi : v.proposalId = i <;> simp [hi]

/-- What a vote does to a row. -/
theorem counted_eq {v : VoteRow} {p : ProposalRow} (hsupport : v.support = true)
    (hchain : p.core.chainId = v.chainId) :
    p.counted v = { p with votesFor := p.votesFor + if v.proposalId = p.core.proposalId then 1 else 0 } := by
  unfold ProposalRow.counted Db.tally ProposalCore.proposalKey
  rw [hchain, hsupport]
  by_cases hi : v.proposalId = p.core.proposalId
  · simp [hi]
  · simp [hi, Ne.symm hi]

/-- A vote is cast, and its row inserted. -/
theorem Tallied.voted (h : Tallied cfg g log (votes, proposals)) {sender : Address} {time : ℕ}
    (hid : (g.proposals i).id ≠ 0) (hpower : g.votingPower sender ≠ 0)
    (hb : ∀ j, Governance.ballotOf j x = if i = j then some ⟨sender, g.votingPower sender, time⟩ else none)
    {v : VoteRow} (hchain : v.chainId = cfg.chainId) (hvi : v.proposalId = i) (hvoter : v.voter = sender)
    (hsupport : v.support = true) (hweight : v.weight = g.votingPower sender) :
    Tallied cfg (g.withVote sender i) (log ++ [x])
      (votes ++ [v], proposals.map (ProposalRow.counted v)) := by
  set g' := g.withVote sender i with hg'
  have hrecord : ∀ j, g'.proposals j = { g.proposals j with
      votesFor := (g.proposals j).votesFor + if i = j then g.votingPower sender else 0 } := by
    intro j
    by_cases hj : i = j
    · subst hj
      rw [if_pos rfl]
      exact Function.update_self ..
    · rw [if_neg hj]
      exact Function.update_of_ne (Ne.symm hj) _ _
  have hballots : ∀ j, ballots j (log ++ [x]) = ballots j log ++
      if i = j then [⟨sender, g.votingPower sender, time⟩] else [] := by
    intro j
    rw [Governance.ballots_snoc, hb]
    split <;> rfl
  have hmapped : ∀ q ∈ proposals.map (ProposalRow.counted v), ∃ p ∈ proposals,
      q = { p with votesFor := p.votesFor + if i = p.core.proposalId then 1 else 0 } := by
    intro q hq
    obtain ⟨p, hp, rfl⟩ := List.mem_map.mp hq
    refine ⟨p, hp, ?_⟩
    rw [counted_eq hsupport ((h.chains.2 p hp).trans hchain.symm), hvi]
  constructor
  case chains =>
    refine ⟨?_, ?_⟩
    · intro u hu
      rcases List.mem_append.mp hu with hu | hu
      · exact h.chains.1 u hu
      · rw [List.mem_singleton.mp hu]
        exact hchain
    · intro q hq
      obtain ⟨p, hp, rfl⟩ := hmapped q hq
      exact h.chains.2 p hp
  case made =>
    intro q hq
    obtain ⟨p, hp, rfl⟩ := hmapped q hq
    rw [hrecord]
    exact h.made p hp
  case rows =>
    intro j hj
    rw [hrecord] at hj
    obtain ⟨p, hp, hpj⟩ := h.rows j hj
    refine ⟨_, List.mem_map_of_mem hp, ?_⟩
    rw [counted_eq hsupport ((h.chains.2 p hp).trans hchain.symm)]
    exact hpj
  case count =>
    intro q hq
    obtain ⟨p, hp, rfl⟩ := hmapped q hq
    rw [votesOn_snoc, List.length_append, hvi]
    have hcount := h.count p hp
    dsimp only at hcount ⊢
    rw [hcount]
    split <;> rfl
  case status =>
    intro q hq
    obtain ⟨p, hp, rfl⟩ := hmapped q hq
    rw [hrecord]
    exact h.status p hp
  case cast =>
    intro u hu
    rw [hrecord]
    rcases List.mem_append.mp hu with hu | hu
    · refine ⟨(h.cast u hu).1, ?_⟩
      have hvoted := (h.cast u hu).2
      show Function.update g.hasVoted i _ u.proposalId u.voter = true
      by_cases hui : u.proposalId = i
      · rw [hui, Function.update_self]
        by_cases huv : u.voter = sender
        · rw [huv, Function.update_self]
        · rw [Function.update_of_ne huv, ← hui]
          exact hvoted
      · rw [Function.update_of_ne hui]
        exact hvoted
    · rw [List.mem_singleton.mp hu, hvi]
      refine ⟨hid, ?_⟩
      show Function.update g.hasVoted i _ i _ = true
      rw [Function.update_self, hvoter, Function.update_self]
  case weights =>
    intro j
    rw [votesOn_snoc, hballots, List.map_append, List.map_append, h.weights j, hvi]
    by_cases hj : i = j <;> simp [hj, hweight]
  case power =>
    intro j b hb
    rw [hballots] at hb
    rcases List.mem_append.mp hb with hb | hb
    · exact h.power j b hb
    · by_cases hj : i = j
      · rw [if_pos hj] at hb
        rw [List.mem_singleton.mp hb]
        exact hpower
      · rw [if_neg hj] at hb
        cases hb
  case tally =>
    intro j
    rw [hrecord, hballots, List.map_append, List.sum_append, ← h.tally j]
    by_cases hj : i = j <;> simp [hj]
  case blank =>
    intro j hj
    have hle := h.le_current hid
    have hj : g.currentProposalId < j := hj
    rw [hrecord, if_neg (by omega)]
    exact h.blank j hj

/-- A proposal is executed. -/
theorem Tallied.executed (h : Tallied cfg g log (votes, proposals)) (hid : (g.proposals i).id ≠ 0)
    (hx : (g.proposals i).executed = false) (hb : ∀ i, Governance.ballotOf i x = none) (height : ℕ) :
    Tallied cfg (g.withProposal i { g.proposals i with executed := true }) (log ++ [x])
      (votes, proposals.map (ProposalRow.executedAt (cfg.chainId, i) height)) := by
  set g' := g.withProposal i { g.proposals i with executed := true } with hg'
  have hsame : g'.proposals i = { g.proposals i with executed := true } := Function.update_self ..
  have hother : ∀ j, j ≠ i → g'.proposals j = g.proposals j := fun j hj => Function.update_of_ne hj _ _
  have hrecord : ∀ j, (g'.proposals j).id = (g.proposals j).id ∧
      (g'.proposals j).votesFor = (g.proposals j).votesFor := by
    intro j
    by_cases hj : j = i
    · rw [hj, hsame]
      exact ⟨rfl, rfl⟩
    · rw [hother j hj]
      exact ⟨rfl, rfl⟩
  have hballots : ∀ i, ballots i (log ++ [x]) = ballots i log := fun i => ballots_of_none (hb i)
  -- a row is the one executed, with status two after it, or it is left
  have hmapped : ∀ q ∈ proposals.map (ProposalRow.executedAt (cfg.chainId, i) height), ∃ p ∈ proposals,
      q.core = p.core ∧ q.votesFor = p.votesFor ∧
        q.status = if p.core.proposalId = i then 2 else p.status := by
    intro q hq
    obtain ⟨p, hp, rfl⟩ := List.mem_map.mp hq
    refine ⟨p, hp, ?_⟩
    have hchain := h.chains.2 p hp
    unfold ProposalRow.executedAt ProposalCore.proposalKey
    rw [hchain]
    by_cases hpi : p.core.proposalId = i
    · have hstatus := h.status p hp
      rw [hpi, hx] at hstatus
      simp [hpi, hstatus]
    · simp [hpi]
  constructor
  case chains =>
    refine ⟨h.chains.1, ?_⟩
    intro q hq
    obtain ⟨p, hp, hcore, -⟩ := hmapped q hq
    rw [hcore]
    exact h.chains.2 p hp
  case made =>
    intro q hq
    obtain ⟨p, hp, hcore, -⟩ := hmapped q hq
    rw [hcore, (hrecord _).1]
    exact h.made p hp
  case rows =>
    intro j hj
    rw [(hrecord j).1] at hj
    obtain ⟨p, hp, hpj⟩ := h.rows j hj
    refine ⟨_, List.mem_map_of_mem hp, ?_⟩
    unfold ProposalRow.executedAt
    split <;> exact hpj
  case count =>
    intro q hq
    obtain ⟨p, hp, hcore, hvotes, -⟩ := hmapped q hq
    rw [hcore, hvotes]
    exact h.count p hp
  case status =>
    intro q hq
    obtain ⟨p, hp, hcore, -, hstatus⟩ := hmapped q hq
    rw [hcore, hstatus]
    by_cases hpi : p.core.proposalId = i
    · rw [if_pos hpi, hpi, hsame]
      rfl
    · rw [if_neg hpi, hother _ hpi]
      exact h.status p hp
  case cast =>
    intro v hv
    rw [(hrecord _).1]
    exact h.cast v hv
  case weights =>
    intro j
    rw [hballots]
    exact h.weights j
  case power =>
    intro j
    rw [hballots]
    exact h.power j
  case tally =>
    intro j
    rw [hballots, (hrecord j).2]
    exact h.tally j
  case blank =>
    intro j hj
    have hle := h.le_current hid
    have hj : g.currentProposalId < j := hj
    rw [hother j (by omega)]
    exact h.blank j hj

/-! ### Calls -/

open Governance.State in
/-- The calls that set a parameter or a role announce nothing. -/
theorem announced_of_configures {s s' : Governance.State V} {tx : Tx GovernanceCall}
    {events : List GovernanceEvent} (hx : s.exec env tx = .ok (s', events)) (hc : tx.call.Configures) :
    events.filterMap announced = [] := by
  refine List.filterMap_eq_nil_iff.mpr ?_
  intro ev hev
  have hset := Governance.isSetting_of_configures hx hc ev hev
  cases ev <;> first | rfl | cases hset

theorem announced_router {ev : List Portfolio.RouterEvent} :
    (ev.map GovernanceEvent.router).filterMap announced = [] := by
  rw [List.filterMap_map]
  exact List.filterMap_eq_nil_iff.mpr fun _ _ => rfl

theorem clampI64_of_lt (h : n < 2 ^ 63) : clampI64 n = n := if_pos h

/-- Logs of which one counts. -/
theorem handleAll_one {logs : List LogEntry} {ev : Event}
    (h : logs.filterMap (fun e => tallied e.log.data) = [ev]) :
    ∃ (e : LogEntry) (t₁ : EventTables), tallied e.log.data = some ev ∧ t₁.governance = t.governance ∧
      (t.handleAll cfg logs).governance = (t₁.handle cfg e).governance := by
  obtain ⟨pre, e, post, rfl, hpre, he, hpost⟩ := List.filterMap_eq_cons_iff.mp h
  refine ⟨e, t.handleAll cfg pre, he, handleAll_governance hpre, ?_⟩
  rw [EventTables.handleAll_append, EventTables.handleAll_cons]
  exact handleAll_governance (List.filterMap_eq_nil_iff.mp hpost)

theorem EventTables.governance_eq {t₁ : EventTables} (h : t₁.governance = t.governance) :
    t₁.governanceVotes = t.governanceVotes ∧ t₁.governanceProposals = t.governanceProposals :=
  Prod.mk.injEq .. ▸ h

open Governance.State in
/-- **One call**, and the logs of its events. -/
theorem Tallied.step {s s' : Governance.State V} {tx : Tx GovernanceCall} {events : List GovernanceEvent}
    {logs : List LogEntry} (h : Tallied cfg s.gov log t.governance)
    (hx : s.exec env tx = .ok (s', events)) (hfit : s'.gov.currentProposalId < 2 ^ 63)
    (hlogs : logs.filterMap (fun e => tallied e.log.data) = events.filterMap announced) :
    Tallied cfg s'.gov (log ++ [(.call tx, s.gov, events)]) (t.handleAll cfg logs).governance := by
  have hquiet : events.filterMap announced = [] →
      (t.handleAll cfg logs).governance = t.governance := by
    intro hnone
    exact handleAll_governance (List.filterMap_eq_nil_iff.mp (hlogs.trans hnone))
  have hno : (∀ i, tx.call ≠ .vote i) → ∀ i, Governance.ballotOf i
      ((.call tx, s.gov, events) : Governance.Entry V) = none :=
    fun hcall i => Governance.ballotOf_of_ne (hcall i)
  cases Governance.exec_effect hx with
  | configured hc hq he =>
    rw [hquiet (announced_of_configures hx hc)]
    refine h.keep (fun _ => ⟨rfl, rfl, rfl⟩) rfl h.blank (hno ?_)
    intro i hcall
    rw [hcall] at hc
    exact hc
  | empowered hc hle =>
    rw [hquiet rfl]
    exact h.keep (fun _ => ⟨rfl, rfl, rfl⟩) rfl h.blank (hno (by simp [hc]))
  | forwarded hc he =>
    rw [hquiet announced_router]
    refine h.keep (fun _ => ⟨rfl, rfl, rfl⟩) rfl h.blank (hno ?_)
    intro i hcall
    rw [hcall] at hc
    exact hc
  | @cancelled j hc hid hnx hnc =>
    rw [hquiet rfl]
    have hle := h.le_current hid
    refine h.keep ?_ rfl ?_ (hno (by simp [hc]))
    · intro i
      by_cases hi : i = j
      · subst hi
        simp [Storage.withProposal]
      · simp [Storage.withProposal, Function.update_of_ne hi]
    · intro i hi
      have hi : s.gov.currentProposalId < i := hi
      show Function.update s.gov.proposals j _ i = _
      rw [Function.update_of_ne (by omega)]
      exact h.blank i hi
  | @proposed vaults bps hc hdead =>
    obtain ⟨e, t₁, he, ht₁, heq⟩ := handleAll_one hlogs
    obtain ⟨hvotes, hproposals⟩ := EventTables.governance_eq ht₁
    obtain ⟨core, hchain, hid, hhandle⟩ := handle_proposalCreated he
    have hfit : s.gov.currentProposalId + 1 < 2 ^ 63 := hfit
    rw [heq, hhandle, hvotes, hproposals]
    exact h.proposed (hno (by simp [hc])) hchain (hid.trans (clampI64_of_lt hfit))
  | @voted j hc hid hs hfresh hpower =>
    obtain ⟨e, t₁, he, ht₁, heq⟩ := handleAll_one hlogs
    obtain ⟨hvotes, hproposals⟩ := EventTables.governance_eq ht₁
    have hle := h.le_current hid
    have hfit : s.gov.currentProposalId < 2 ^ 63 := hfit
    have hclamp : clampI64 j = j := clampI64_of_lt (by omega)
    have hfree : ¬ Table.taken VoteRow.voteKey t.governanceVotes
        (voteRow cfg e j tx.sender (s.gov.votingPower tx.sender)).voteKey = true := by
      intro htaken
      obtain ⟨v, hv, hkey⟩ := Table.taken_iff.mp htaken
      obtain ⟨-, hvi, hvoter⟩ : v.chainId = cfg.chainId ∧ v.proposalId = clampI64 j ∧
          v.voter = tx.sender := by simpa [VoteRow.voteKey, voteRow, LogEntry.position] using hkey
      have hvoted := (h.cast v hv).2
      rw [hvi, hclamp, hvoter, hfresh] at hvoted
      cases hvoted
    rw [heq, handle_voteCast he, hvotes, hproposals, if_neg hfree]
    have hballot : ∀ (ev : List GovernanceEvent) (i : ℕ),
        Governance.ballotOf i ((.call tx, s.gov, ev) : Governance.Entry V) = if j = i
          then some ⟨tx.sender, s.gov.votingPower tx.sender, tx.block.timestamp⟩ else none := by
      intro ev i
      by_cases hi : j = i
      · subst hi
        rw [if_pos rfl, Governance.ballotOf_vote hc]
      · rw [if_neg hi]
        refine Governance.ballotOf_of_ne ?_
        rw [hc]
        exact fun heq => hi (GovernanceCall.vote.inj heq)
    exact h.voted hid hpower (hballot _) rfl hclamp rfl rfl rfl
  | @executed j portfolio ev hc hid hs ht hr =>
    have hone : (ev.map GovernanceEvent.router ++ [GovernanceEvent.proposalExecuted j tx.sender,
        GovernanceEvent.weightsApplied j (s.gov.proposals j).vaults
          (s.gov.proposals j).bps]).filterMap announced = [Event.proposalExecuted j tx.sender] := by
      rw [List.filterMap_append, announced_router]
      rfl
    obtain ⟨e, t₁, he, ht₁, heq⟩ := handleAll_one (hlogs.trans hone)
    obtain ⟨hvotes, hproposals⟩ := EventTables.governance_eq ht₁
    have hle := h.le_current hid
    have hfit : s.gov.currentProposalId < 2 ^ 63 := hfit
    rw [heq, handle_proposalExecuted he, hvotes, hproposals, clampI64_of_lt (by omega)]
    exact h.executed hid (Governance.flags_of_live (.inr hs)).2 (hno (by simp [hc])) e.blockNumber

/-! ### Runs -/

theorem announcedIn_snoc : announcedIn (log ++ [x]) = announcedIn log ++ x.2.2.filterMap announced := by
  simp [announcedIn]

open Governance.State in
/-- Proposals are numbered upwards. -/
theorem current_le {s s' : Governance.State V} {tx : Tx GovernanceCall} {events : List GovernanceEvent}
    (hx : s.exec env tx = .ok (s', events)) : s.gov.currentProposalId ≤ s'.gov.currentProposalId := by
  cases Governance.exec_effect hx with
  | proposed => exact Nat.le_succ _
  | _ => exact le_refl _

section Runs

variable {router admin : Address} {votingPeriod executionDelay quorum : ℕ} {g₀ : Storage}

theorem tallied_deploy (h₀ : Storage.deploy router admin votingPeriod executionDelay quorum = .ok g₀) :
    Tallied cfg g₀ ([] : Governance.Log V) ([], []) := by
  unfold Storage.deploy at h₀
  simp only [bind_eq_ok, revertIf_eq_ok, exists_const, pure_eq_ok] at h₀
  obtain ⟨-, -, -, rfl⟩ := h₀
  constructor <;> simp [ballots, votesOn, Governance.Proposal.default]

/-- After any run, and the logs of its events. -/
theorem run_tallied (h₀ : Storage.deploy router admin votingPeriod executionDelay quorum = .ok g₀)
    (p₀ : Portfolio.RouterState V) {acts : List (Action V)} :
    (run (Governance.State.act env) ⟨g₀, p₀⟩ acts).gov.currentProposalId < 2 ^ 63 →
      ∀ logs : List LogEntry, logs.filterMap (fun e => tallied e.log.data) =
        announcedIn (history (Governance.State.act env) ⟨g₀, p₀⟩ acts) →
      Tallied cfg (run (Governance.State.act env) ⟨g₀, p₀⟩ acts).gov
        (history (Governance.State.act env) ⟨g₀, p₀⟩ acts)
        (EventTables.empty.handleAll cfg logs).governance := by
  refine run_invariant (P := fun (s : Governance.State V) log => s.gov.currentProposalId < 2 ^ 63 →
    ∀ logs : List LogEntry, logs.filterMap (fun e => tallied e.log.data) = announcedIn log →
      Tallied cfg s.gov log (EventTables.empty.handleAll cfg logs).governance) ?_ ?_
  · intro _ logs hlogs
    rw [handleAll_governance (List.filterMap_eq_nil_iff.mp hlogs)]
    exact tallied_deploy h₀
  · rintro pre a post s' ⟨g, events⟩ - hinv hact hfit logs hlogs
    rw [announcedIn_snoc] at hlogs
    obtain ⟨logs₁, logs₂, rfl, hlogs₁, hlogs₂⟩ := List.filterMap_eq_append_iff.mp hlogs
    rw [EventTables.handleAll_append]
    cases a with
    | elsewhere portfolio =>
      cases hact
      rw [handleAll_governance (List.filterMap_eq_nil_iff.mp hlogs₂)]
      have h := hinv hfit logs₁ hlogs₁
      exact h.keep (fun _ => ⟨rfl, rfl, rfl⟩) rfl h.blank fun _ => rfl
    | call tx =>
      obtain ⟨⟨s₁, ev⟩, hx, hret⟩ := bind_eq_ok.mp hact
      obtain ⟨rfl, hr⟩ := Prod.mk.injEq .. ▸ pure_eq_ok.mp hret
      obtain ⟨rfl, rfl⟩ := Prod.mk.injEq .. ▸ hr
      exact (hinv (lt_of_le_of_lt (current_le hx) hfit) logs₁ hlogs₁).step hx hfit hlogs₂

/-- The rows of proposals have the votes and the status of the contract. -/
def Mirrors (g : Storage) (db : Db) : Prop :=
  ∀ p ∈ db.governanceProposals,
    p.votesFor = (g.proposals p.core.proposalId).votesFor ∧
      (p.status = 2 ↔ (g.proposals p.core.proposalId).executed = true)

/-- Positive numbers add up to how many they are only if they are all one. -/
theorem sum_eq_length_iff {ns : List ℕ} (hpos : ∀ m ∈ ns, m ≠ 0) :
    ns.length = ns.sum ↔ ∀ m ∈ ns, m = 1 := by
  induction ns with
  | nil => simp
  | cons m ns ih =>
    have hrest : ∀ m ∈ ns, m ≠ 0 := fun k hk => hpos k (List.mem_cons_of_mem _ hk)
    have hm := hpos m List.mem_cons_self
    have hle : ns.length ≤ ns.sum :=
      List.length_le_sum_of_one_le ns fun k hk => Nat.one_le_iff_ne_zero.mpr (hrest k hk)
    rw [List.forall_mem_cons, ← ih hrest, List.length_cons, List.sum_cons]
    omega

theorem Tallied.mirrors_iff {db : Db} (h : Tallied cfg g log db.events.governance) :
    Mirrors g db ↔ ∀ i, ∀ b ∈ ballots i log, b.power = 1 := by
  have hcount : ∀ p ∈ db.governanceProposals, p.votesFor =
      ((ballots p.core.proposalId log).map Ballot.power).length := by
    intro p hp
    rw [← h.weights, List.length_map]
    exact h.count p hp
  have hpos : ∀ i, ∀ m ∈ (ballots i log).map Ballot.power, m ≠ 0 := by
    intro i m hm
    obtain ⟨b, hb, rfl⟩ := List.mem_map.mp hm
    exact h.power i b hb
  constructor
  · intro hmirrors i b hb
    -- a proposal with a vote has a row
    have hvotes : votesOn db.governanceVotes i ≠ [] := by
      intro hnil
      have hweights := h.weights i
      rw [show votesOn db.events.governance.1 i = [] from hnil] at hweights
      rw [List.map_eq_nil_iff.mp hweights.symm] at hb
      cases hb
    obtain ⟨v, hv⟩ := List.exists_mem_of_ne_nil _ hvotes
    obtain ⟨hv, hvi⟩ := List.mem_filter.mp hv
    have hvi : v.proposalId = i := by simpa using hvi
    obtain ⟨p, hp, hpi⟩ := h.rows i (hvi ▸ (h.cast v hv).1)
    have hsum := (hmirrors p hp).1
    rw [hcount p hp, h.tally, hpi] at hsum
    exact (sum_eq_length_iff (hpos i)).mp hsum b.power (List.mem_map_of_mem hb)
  · intro hone p hp
    refine ⟨?_, ?_⟩
    · rw [hcount p hp, h.tally]
      refine (sum_eq_length_iff (hpos _)).mpr ?_
      intro m hm
      obtain ⟨b, hb, rfl⟩ := List.mem_map.mp hm
      exact hone _ b hb
    · rw [h.status p hp]
      cases (g.proposals p.core.proposalId).executed <;> simp

/-- **The tallies.**  For every run of the contract whose events the chain carries up to the cursor: the
indexed proposals have the votes and the status of the contract exactly if every vote was cast with
power one. -/
theorem tallies_mirror_iff
    (h₀ : Storage.deploy router admin votingPeriod executionDelay quorum = .ok g₀)
    (p₀ : Portfolio.RouterState V) (acts : List (Action V)) {db : Db}
    (hindexed : Indexes cfg chain Db.empty db)
    (hcarries : Carries cfg chain (fromBlock (db.lastIndexedBlock cfg.chainId))
      (announcedIn (history (Governance.State.act env) ⟨g₀, p₀⟩ acts)))
    (hfit : (run (Governance.State.act env) ⟨g₀, p₀⟩ acts).gov.currentProposalId < 2 ^ 63) :
    Mirrors (run (Governance.State.act env) ⟨g₀, p₀⟩ acts).gov db ↔
      ∀ i, ∀ b ∈ ballots i (history (Governance.State.act env) ⟨g₀, p₀⟩ acts), b.power = 1 := by
  have htallied : Tallied cfg (run (Governance.State.act env) ⟨g₀, p₀⟩ acts).gov
      (history (Governance.State.act env) ⟨g₀, p₀⟩ acts) db.events.governance := by
    rw [hindexed.events]
    exact run_tallied h₀ p₀ hfit _ hcarries.watched
  exact htallied.mirrors_iff

end Runs

end Simulation

/-! ### A vote with power one, and one with power five -/

/-- A grant of voting power, a proposal, and a vote with this power. -/
def votedWith (power : ℕ) : List (Action (Address → Address → ℕ)) :=
  [.call (.of 20 (.of 2 1000) (.setVotingPower 21 power)),
   .call (.of 20 (.of 2 1000) (.propose [10, 11] [4000, 6000])),
   .call (.of 21 (.of 2 1000) (.vote 1))]

/-- The block with the proposal and the vote. -/
def votingBlock (power : ℕ) : Block where
  timestamp := 1000
  txs := []
  logs :=
    [⟨3, .event (.proposalCreated 1 20 [10, 11] [4000, 6000] 4600), 78, 0, 0⟩,
     ⟨3, .event (.voteCast 1 21 power power), 79, 1, 1⟩]

def votingChain (power : ℕ) : Chain where
  blocks := [quietBlock 0, quietBlock 1, votingBlock power] ++ (List.range 6).map quietBlock
  nonempty := List.cons_ne_nil _ _

/-- The database after one tick on this chain. -/
def votingDb (power : ℕ) : Db := (tick (steady (votingChain power)).session governed Db.empty).2

/-- The row of the proposal has the one vote of the contract. -/
theorem tallies_mirror_iff_unit :
    Mirrors (run (Governance.State.act Governance.ballotEnv) Governance.deployed (votedWith 1)).gov
        (votingDb 1) ∧
      ∀ i, ∀ b ∈ ballots i (history (Governance.State.act Governance.ballotEnv) Governance.deployed
        (votedWith 1)), b.power = 1 := by
  have hdeploy : Storage.deploy 1 20 3600 60 5 = .ok Governance.deployed.gov := rfl
  have hindexed : Indexes governed (votingChain 1) Db.empty (votingDb 1) :=
    Indexes.start.after (List.prefix_refl _) (by decide +kernel)
  have hcursor : (votingDb 1).lastIndexedBlock governed.chainId = some 3 := by decide +kernel
  have hcarries : Carries governed (votingChain 1)
      (fromBlock ((votingDb 1).lastIndexedBlock governed.chainId))
      (announcedIn (history (Governance.State.act Governance.ballotEnv) Governance.deployed
        (votedWith 1))) := by
    rw [hcursor]
    exact ⟨⟨3, rfl, by decide +kernel⟩, by decide +kernel⟩
  have hmirrors : Mirrors
      (run (Governance.State.act Governance.ballotEnv) Governance.deployed (votedWith 1)).gov
      (votingDb 1) := by
    unfold Mirrors
    decide +kernel
  have hiff := tallies_mirror_iff hdeploy Portfolio.RouterState.weightedRouter (votedWith 1) hindexed
    hcarries (by decide)
  exact ⟨hmirrors, hiff.mp hmirrors⟩

/-- **A vote with power five counts once**: the contract has five votes for the proposal, and its row has
one. -/
theorem weighted_vote_counts_once :
    Storage.deploy 1 20 3600 60 5 = .ok Governance.deployed.gov ∧
      Indexes governed (votingChain 5) Db.empty (votingDb 5) ∧
      Carries governed (votingChain 5) (fromBlock ((votingDb 5).lastIndexedBlock governed.chainId))
        (announcedIn (history (Governance.State.act Governance.ballotEnv) Governance.deployed
          (votedWith 5))) ∧
      (votingDb 5).governanceProposals.map (fun p => (p.core.proposalId, p.votesFor)) = [(1, 1)] ∧
      ((run (Governance.State.act Governance.ballotEnv) Governance.deployed (votedWith 5)).gov.proposals
        1).votesFor = 5 ∧
      ¬ Mirrors (run (Governance.State.act Governance.ballotEnv) Governance.deployed (votedWith 5)).gov
        (votingDb 5) := by
  have hcursor : (votingDb 5).lastIndexedBlock governed.chainId = some 3 := by decide +kernel
  refine ⟨rfl, Indexes.start.after (List.prefix_refl _) (by decide +kernel), ?_, by decide +kernel,
    by decide, ?_⟩
  · rw [hcursor]
    exact ⟨⟨3, rfl, by decide +kernel⟩, by decide +kernel⟩
  · unfold Mirrors
    decide +kernel

end RobotMoney.Indexer
