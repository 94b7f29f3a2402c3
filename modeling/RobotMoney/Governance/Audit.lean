import RobotMoney.Governance.Lifecycle

/-!
# What the record of a proposal says of its history

A run of the contract is a list of *actions*: calls by anybody, and changes of the router, the registry
or the vaults that are made elsewhere.  Its log keeps, for each action that succeeded, the storage it
met and the events it emitted.  From the log alone one reads which proposal was made by which call, who
voted on it when and with which power, and whether it was cancelled or executed.

`Audit` says that the record of a proposal is what the log has of it.  It is kept by every action, by
cases on what the action did (`exec_effect`).  So a call of `router.setWeights`, which looks at the
record only, is justified by the whole history of the proposal.
-/

namespace RobotMoney.Governance

open RobotMoney.Lib RobotMoney.Portfolio State

variable {V : Type} {env : Env V}

/-! ### Runs and their logs -/

/-- What happens in a run: a call of the contract, or a change of its surroundings made elsewhere. -/
inductive Action (V : Type) where
  | call (tx : Tx GovernanceCall)
  | elsewhere (portfolio : RouterState V)

/-- One action.  Its receipt is the storage that it met, and the events. -/
def State.act (env : Env V) (s : State V) (a : Action V) :
    Call GovernanceError (State V × Storage × List GovernanceEvent) :=
  match a with
  | .call tx => do
    let (s', events) ← s.exec env tx
    pure (s', s.gov, events)
  | .elsewhere portfolio => .ok ({ s with portfolio }, s.gov, [])

/-- An action that succeeded, the storage it met, and its events. -/
abbrev Entry (V : Type) : Type := Action V × Storage × List GovernanceEvent

/-- The actions of a run that succeeded. -/
abbrev Log (V : Type) : Type := List (Entry V)

/-- The time of a call. -/
def Action.time : Action V → Option ℕ
  | .call tx => some tx.block.timestamp
  | .elsewhere _ => none

/-- Time does not run backwards from one call to a later one. -/
def Chronological (acts : List (Action V)) : Prop :=
  (acts.filterMap Action.time).Pairwise (· ≤ ·)

/-- The entry is a call of `c`. -/
def IsCall (x : Entry V) (c : GovernanceCall) : Prop := ∃ tx, x.1 = .call tx ∧ tx.call = c

/-- The call of the entry made the router run `setWeights(vaults, bps)`, as the router's event shows. -/
def SetsWeights (x : Entry V) (vaults : List Address) (bps : List ℕ) : Prop :=
  GovernanceEvent.router (.weightsSet vaults bps) ∈ x.2.2

/-- A vote: who cast it, the power she had then, and the time. -/
structure Ballot where
  voter : Address
  power : ℕ
  time : ℕ
  deriving DecidableEq

/-- The vote on proposal `i` that an entry is, if it is one. -/
def ballotOf (i : ℕ) (x : Entry V) : Option Ballot :=
  match x.1 with
  | .elsewhere _ => none
  | .call tx =>
    match tx.call with
    | .vote j =>
      if j = i then some ⟨tx.sender, x.2.1.votingPower tx.sender, tx.block.timestamp⟩ else none
    | _ => none

/-- The votes on proposal `i`. -/
def ballots (i : ℕ) (log : Log V) : List Ballot := log.filterMap (ballotOf i)

/-- The call `tx` of `propose`, made in the storage `g`, is the origin of the record `p` at `i`: the
weights are its arguments, and the deadlines and the quorum come from the parameters of that time. -/
structure Proposed (g : Storage) (tx : Tx GovernanceCall) (i : ℕ) (p : Proposal) : Prop where
  call : tx.call = .propose p.vaults p.bps
  number : i = g.currentProposalId + 1
  votingDeadline : p.votingDeadline = tx.block.timestamp + g.votingPeriod
  executableAfter : p.executableAfter = p.votingDeadline + g.executionDelay
  snapshotQuorum : p.snapshotQuorum = g.quorumThreshold

/-- The origin of a record is told by the fields that `propose` writes. -/
theorem Proposed.congr {g : Storage} {tx : Tx GovernanceCall} {i : ℕ} {p p' : Proposal}
    (h : Proposed g tx i p) (hv : p'.vaults = p.vaults) (hb : p'.bps = p.bps)
    (hd : p'.votingDeadline = p.votingDeadline) (he : p'.executableAfter = p.executableAfter)
    (hq : p'.snapshotQuorum = p.snapshotQuorum) : Proposed g tx i p' := by
  refine ⟨?_, h.number, ?_, ?_, ?_⟩
  · rw [hv, hb]
    exact h.call
  · rw [hd]
    exact h.votingDeadline
  · rw [he, hd]
    exact h.executableAfter
  · rw [hq]
    exact h.snapshotQuorum

section Entries

variable {x : Entry V} {log : Log V} {i : ℕ} {tx : Tx GovernanceCall}

theorem ballots_snoc : ballots i (log ++ [x]) = ballots i log ++ (ballotOf i x).toList := by
  unfold ballots
  rw [List.filterMap_append]
  cases h : ballotOf i x <;> simp [h]

theorem ballotOf_vote {g : Storage} {ev : List GovernanceEvent} (h : tx.call = .vote i) :
    ballotOf i ((.call tx, g, ev) : Entry V) =
      some ⟨tx.sender, g.votingPower tx.sender, tx.block.timestamp⟩ := by
  simp [ballotOf, h]

theorem ballotOf_of_ne {g : Storage} {ev : List GovernanceEvent} (h : tx.call ≠ .vote i) :
    ballotOf i ((.call tx, g, ev) : Entry V) = none := by
  unfold ballotOf
  dsimp only
  split
  · rename_i j hj
    have hne : j ≠ i := by
      rintro rfl
      exact h hj
    rw [if_neg hne]
  · rfl

theorem isCall_call {g : Storage} {ev : List GovernanceEvent} {c : GovernanceCall} :
    IsCall ((.call tx, g, ev) : Entry V) c ↔ tx.call = c := by
  constructor
  · rintro ⟨tx', h, hc⟩
    cases h
    exact hc
  · intro h
    exact ⟨tx, rfl, h⟩

theorem exists_snoc {P : Entry V → Prop} :
    (∃ y ∈ log ++ [x], P y) ↔ (∃ y ∈ log, P y) ∨ P x := by
  simp [or_and_right, exists_or]

/-- A call of something else leaves the answer to whether `c` was called. -/
theorem exists_isCall_of_ne {g : Storage} {ev : List GovernanceEvent} {c : GovernanceCall}
    (h : tx.call ≠ c) :
    (∃ y ∈ log ++ [(.call tx, g, ev)], IsCall y c) ↔ ∃ y ∈ log, IsCall y c := by
  rw [exists_snoc, or_iff_left (isCall_call.not.mpr h)]

end Entries

theorem act_exec {s s' : State V} {tx : Tx GovernanceCall} {r : Storage × List GovernanceEvent}
    (h : s.act env (.call tx) = .ok (s', r)) : r.1 = s.gov ∧ s.exec env tx = .ok (s', r.2) := by
  obtain ⟨⟨s₁, events⟩, hx, h⟩ := bind_eq_ok.mp h
  obtain ⟨rfl, rfl⟩ := Prod.mk.injEq .. ▸ pure_eq_ok.mp h
  exact ⟨rfl, hx⟩

theorem act_call {s s' : State V} {tx : Tx GovernanceCall} {r : Storage × List GovernanceEvent}
    (h : s.act env (.call tx) = .ok (s', r)) : r.1 = s.gov ∧ Effect env s tx s' r.2 :=
  ⟨(act_exec h).1, exec_effect (act_exec h).2⟩

/-! ### The invariant -/

/-- The record of proposal `i` is what the log has of it. -/
structure Audit (g : Storage) (log : Log V) (i : ℕ) : Prop where
  blank : g.currentProposalId < i → g.proposals i = Proposal.default ∧ ballots i log = []
  proposed : (g.proposals i).id ≠ 0 → ∃ tx g₀ ev, (Action.call tx, g₀, ev) ∈ log ∧
    Proposed g₀ tx i (g.proposals i) ∧ ∀ v ∈ ballots i log, tx.block.timestamp ≤ v.time
  quorum : (g.proposals i).id ≠ 0 → minQuorumThreshold ≤ (g.proposals i).snapshotQuorum
  tally : (g.proposals i).votesFor = ((ballots i log).map Ballot.power).sum
  voted : ∀ a, g.hasVoted i a = true ↔ a ∈ (ballots i log).map Ballot.voter
  once : ((ballots i log).map Ballot.voter).Nodup
  cast : ∀ v ∈ ballots i log, v.power ≠ 0 ∧ v.time ≤ (g.proposals i).votingDeadline
  cancelled : (g.proposals i).cancelled = true ↔ ∃ x ∈ log, IsCall x (.cancel i)
  executed : (g.proposals i).executed = true ↔ ∃ x ∈ log, IsCall x (.execute i)
  final : ¬ ((g.proposals i).cancelled = true ∧ (g.proposals i).executed = true)

namespace Audit

variable {g g' : Storage} {log : Log V} {i : ℕ} {x : Entry V} {tx : Tx GovernanceCall}
  {ev : List GovernanceEvent}

/-- The origin stays in the log, and stays before the votes when a later vote is added. -/
theorem proposed_snoc {p : Proposal} {l : List Ballot}
    (h : ∃ tx g₀ ev, (Action.call tx, g₀, ev) ∈ log ∧ Proposed g₀ tx i p ∧
      ∀ v ∈ l, tx.block.timestamp ≤ v.time) :
    ∃ tx g₀ ev, (Action.call tx, g₀, ev) ∈ log ++ [x] ∧ Proposed g₀ tx i p ∧
      ∀ v ∈ l, tx.block.timestamp ≤ v.time := by
  obtain ⟨tx, g₀, ev, hmem, hp, hv⟩ := h
  exact ⟨tx, g₀, ev, List.mem_append_left _ hmem, hp, hv⟩

/-- An action that does not concern proposal `i`. -/
theorem kept (h : Audit g log i) (hp : g'.proposals i = g.proposals i)
    (hv : g'.hasVoted i = g.hasVoted i) (hc : g.currentProposalId ≤ g'.currentProposalId)
    (hb : ballotOf i x = none) (hcancel : ¬ IsCall x (.cancel i)) (hexec : ¬ IsCall x (.execute i)) :
    Audit g' (log ++ [x]) i := by
  have hballots : ballots i (log ++ [x]) = ballots i log := by
    rw [ballots_snoc, hb]
    simp
  constructor
  case blank =>
    intro hi
    rw [hp, hballots]
    exact h.blank (by omega)
  case proposed =>
    rw [hp, hballots]
    intro hid
    exact proposed_snoc (h.proposed hid)
  case quorum =>
    rw [hp]
    exact h.quorum
  case tally =>
    rw [hp, hballots]
    exact h.tally
  case voted =>
    rw [hv, hballots]
    exact h.voted
  case once =>
    rw [hballots]
    exact h.once
  case cast =>
    rw [hp, hballots]
    exact h.cast
  case cancelled =>
    rw [hp, exists_snoc, or_iff_left hcancel]
    exact h.cancelled
  case executed =>
    rw [hp, exists_snoc, or_iff_left hexec]
    exact h.executed
  case final =>
    rw [hp]
    exact h.final

/-- An action that is no call of the contract, or a call that names no proposal. -/
theorem kept_of_call (h : Audit g log i) (hp : g'.proposals i = g.proposals i)
    (hv : g'.hasVoted i = g.hasVoted i) (hc : g.currentProposalId ≤ g'.currentProposalId)
    (hvote : tx.call ≠ .vote i) (hcancel : tx.call ≠ .cancel i) (hexec : tx.call ≠ .execute i)
    {g₀ : Storage} : Audit g' (log ++ [(.call tx, g₀, ev)]) i :=
  h.kept hp hv hc (ballotOf_of_ne hvote) (isCall_call.not.mpr hcancel) (isCall_call.not.mpr hexec)

/-- The proposal is made. -/
theorem made (h : Audit g log i) (hq : minQuorumThreshold ≤ g.quorumThreshold) {vaults : List Address}
    {bps : List ℕ} (hc : tx.call = .propose vaults bps) (hi : i = g.currentProposalId + 1) :
    Audit (g.withNewProposal tx.block tx.sender vaults bps) (log ++ [(.call tx, g, ev)]) i := by
  obtain ⟨hblank, hnone⟩ := h.blank (by omega)
  have hballots : ballots i (log ++ [(.call tx, g, ev)]) = [] := by
    rw [ballots_snoc, hnone, ballotOf_of_ne (by simp [hc])]
    rfl
  have hrecord : (g.withNewProposal tx.block tx.sender vaults bps).proposals i =
      { Proposal.default with
        id := i
        proposer := tx.sender
        votingDeadline := tx.block.timestamp + g.votingPeriod
        executableAfter := tx.block.timestamp + g.votingPeriod + g.executionDelay
        snapshotQuorum := g.quorumThreshold
        vaults := vaults
        bps := bps } := by
    subst hi
    show Function.update g.proposals _ _ _ = _
    rw [Function.update_self, Storage.newProposal, hblank]
    rfl
  have hflags := h.cancelled
  have hexecuted := h.executed
  have hvoted := h.voted
  rw [hblank] at hflags hexecuted
  rw [hnone] at hvoted
  constructor
  case blank =>
    intro hlt
    exact absurd hlt (by rw [hi]; exact Nat.lt_irrefl _)
  case proposed =>
    intro _
    rw [hrecord, hballots]
    refine ⟨tx, g, ev, List.mem_append_right _ (List.mem_singleton_self _), ⟨hc, hi, rfl, rfl, rfl⟩, ?_⟩
    simp
  case quorum =>
    intro _
    rw [hrecord]
    exact hq
  case tally =>
    rw [hrecord, hballots]
    rfl
  case voted =>
    rw [hballots]
    exact hvoted
  case once =>
    rw [hballots]
    exact List.nodup_nil
  case cast =>
    rw [hballots]
    simp
  case cancelled =>
    rw [hrecord, exists_isCall_of_ne (by simp [hc])]
    exact hflags
  case executed =>
    rw [hrecord, exists_isCall_of_ne (by simp [hc])]
    exact hexecuted
  case final =>
    rw [hrecord]
    simp [Proposal.default]

/-- A proposal that a call finds has been made. -/
theorem le_current (h : Audit g log i) (hid : (g.proposals i).id ≠ 0) : i ≤ g.currentProposalId := by
  by_contra hlt
  rw [(h.blank (by omega)).1] at hid
  exact hid rfl

/-- One of the flags of the proposal is set. -/
theorem marked (h : Audit g log i) (hid : (g.proposals i).id ≠ 0) {c e : Bool}
    (hvote : tx.call ≠ .vote i)
    (hcancelled : c = true ↔ ∃ x ∈ log ++ [(.call tx, g, ev)], IsCall x (.cancel i))
    (hexecuted : e = true ↔ ∃ x ∈ log ++ [(.call tx, g, ev)], IsCall x (.execute i))
    (hfinal : ¬ (c = true ∧ e = true)) :
    Audit (g.withProposal i { g.proposals i with cancelled := c, executed := e })
      (log ++ [(.call tx, g, ev)]) i := by
  have hballots : ballots i (log ++ [(.call tx, g, ev)]) = ballots i log := by
    rw [ballots_snoc, ballotOf_of_ne hvote]
    simp
  have hrecord : (g.withProposal i { g.proposals i with cancelled := c, executed := e }).proposals i =
      { g.proposals i with cancelled := c, executed := e } := Function.update_self ..
  have hle := h.le_current hid
  constructor
  case blank =>
    intro hlt
    exact absurd hlt (Nat.not_lt.mpr hle)
  case proposed =>
    rw [hrecord, hballots]
    intro _
    obtain ⟨tx₀, g₀, ev₀, hmem, hp, hv⟩ := h.proposed hid
    exact proposed_snoc ⟨tx₀, g₀, ev₀, hmem, hp.congr rfl rfl rfl rfl rfl, hv⟩
  case quorum =>
    rw [hrecord]
    exact h.quorum
  case tally =>
    rw [hrecord, hballots]
    exact h.tally
  case voted =>
    rw [hballots]
    exact h.voted
  case once =>
    rw [hballots]
    exact h.once
  case cast =>
    rw [hrecord, hballots]
    exact h.cast
  case cancelled =>
    rw [hrecord]
    exact hcancelled
  case executed =>
    rw [hrecord]
    exact hexecuted
  case final =>
    rw [hrecord]
    exact hfinal

/-- The proposal is cancelled. -/
theorem cancel (h : Audit g log i) (hc : tx.call = .cancel i) (hid : (g.proposals i).id ≠ 0)
    (hx : (g.proposals i).executed = false) :
    Audit (g.withProposal i { g.proposals i with cancelled := true }) (log ++ [(.call tx, g, ev)]) i := by
  refine h.marked hid (by simp [hc]) ?_ ?_ ?_
  · rw [exists_snoc]
    exact iff_of_true rfl (.inr (isCall_call.mpr hc))
  · rw [exists_isCall_of_ne (by simp [hc])]
    exact h.executed
  · simp [hx]

/-- The proposal is executed. -/
theorem execute (h : Audit g log i) (hc : tx.call = .execute i) (hid : (g.proposals i).id ≠ 0)
    (hn : (g.proposals i).cancelled = false) :
    Audit (g.withProposal i { g.proposals i with executed := true }) (log ++ [(.call tx, g, ev)]) i := by
  refine h.marked hid (by simp [hc]) ?_ ?_ ?_
  · rw [exists_isCall_of_ne (by simp [hc])]
    exact h.cancelled
  · rw [exists_snoc]
    exact iff_of_true rfl (.inr (isCall_call.mpr hc))
  · simp [hn]

/-- One more vote is cast. -/
theorem vote (h : Audit g log i) (hc : tx.call = .vote i) (hid : (g.proposals i).id ≠ 0)
    (hopen : tx.block.timestamp ≤ (g.proposals i).votingDeadline)
    (hfresh : g.hasVoted i tx.sender = false) (hpower : g.votingPower tx.sender ≠ 0)
    (htime : ∀ tx' g' ev', (Action.call tx', g', ev') ∈ log →
      tx'.block.timestamp ≤ tx.block.timestamp) :
    Audit (g.withVote tx.sender i) (log ++ [(.call tx, g, ev)]) i := by
  have hballots : ballots i (log ++ [(.call tx, g, ev)]) =
      ballots i log ++ [⟨tx.sender, g.votingPower tx.sender, tx.block.timestamp⟩] := by
    rw [ballots_snoc, ballotOf_vote hc]
    rfl
  have hrecord : (g.withVote tx.sender i).proposals i =
      { g.proposals i with votesFor := (g.proposals i).votesFor + g.votingPower tx.sender } :=
    Function.update_self ..
  have hvoted : (g.withVote tx.sender i).hasVoted i = Function.update (g.hasVoted i) tx.sender true :=
    Function.update_self ..
  have hle := h.le_current hid
  have hnew : tx.sender ∉ (ballots i log).map Ballot.voter := by
    rw [← h.voted, hfresh]
    simp
  constructor
  case blank =>
    intro hlt
    exact absurd hlt (Nat.not_lt.mpr hle)
  case proposed =>
    -- the proposal was made by an earlier call, so no later than this vote
    rw [hrecord, hballots]
    intro _
    obtain ⟨tx₀, g₀, ev₀, hmem, hp, hv⟩ := h.proposed hid
    refine proposed_snoc ⟨tx₀, g₀, ev₀, hmem, hp.congr rfl rfl rfl rfl rfl, ?_⟩
    intro v hv'
    rcases List.mem_append.mp hv' with hold | hlast
    · exact hv v hold
    · rw [List.mem_singleton.mp hlast]
      exact htime tx₀ g₀ ev₀ hmem
  case quorum =>
    rw [hrecord]
    exact h.quorum
  case tally =>
    rw [hrecord, hballots, List.map_append, List.sum_append, ← h.tally]
    simp
  case voted =>
    intro a
    rw [hvoted, hballots, List.map_append, List.mem_append]
    by_cases ha : a = tx.sender
    · subst ha
      simp
    · rw [Function.update_of_ne ha, h.voted]
      simp [ha]
  case once =>
    rw [hballots, List.map_append]
    exact h.once.append (List.nodup_singleton _) (by simpa using hnew)
  case cast =>
    rw [hrecord, hballots]
    intro v hv
    rcases List.mem_append.mp hv with hold | hlast
    · exact h.cast v hold
    · rw [List.mem_singleton.mp hlast]
      exact ⟨hpower, hopen⟩
  case cancelled =>
    rw [hrecord, exists_isCall_of_ne (by simp [hc])]
    exact h.cancelled
  case executed =>
    rw [hrecord, exists_isCall_of_ne (by simp [hc])]
    exact h.executed
  case final =>
    rw [hrecord]
    exact h.final

end Audit

/-- All records are what the log has of them, and the quorum is never below its minimum. -/
structure Audited (g : Storage) (log : Log V) : Prop where
  quorum : minQuorumThreshold ≤ g.quorumThreshold
  audit : ∀ i, Audit g log i

/-- An active proposal is before its deadline. -/
theorem open_of_active {p : Proposal} {b : Block} (h : p.state b = .active) :
    b.timestamp ≤ p.votingDeadline := by
  obtain ⟨hc, hx⟩ := flags_of_live (.inl h)
  rw [state_open hc hx] at h
  by_contra hlt
  rw [if_neg hlt] at h
  split at h <;> cases h

/-- A queued proposal has its quorum. -/
theorem quorum_of_queued {p : Proposal} {b : Block} (h : p.state b = .queued) :
    p.snapshotQuorum ≤ p.votesFor := by
  obtain ⟨hc, hx⟩ := flags_of_live (.inr h)
  rw [state_open hc hx] at h
  by_contra hlt
  rw [if_pos (Nat.not_le.mp hlt)] at h
  split at h <;> cases h

section Steps

variable {s s' : State V} {log : Log V} {tx : Tx GovernanceCall} {events : List GovernanceEvent}

/-- A call that touches proposal `j` keeps the other audits. -/
theorem Audited.update {j : ℕ} {p : Proposal} {g' : Storage} (h : Audited s.gov log)
    (hq : g'.quorumThreshold = s.gov.quorumThreshold)
    (hp : g'.proposals = Function.update s.gov.proposals j p)
    (hv : ∀ i, i ≠ j → g'.hasVoted i = s.gov.hasVoted i)
    (hcur : s.gov.currentProposalId ≤ g'.currentProposalId)
    (hc : ∀ i, i ≠ j → tx.call ≠ .vote i ∧ tx.call ≠ .cancel i ∧ tx.call ≠ .execute i)
    (hj : Audit g' (log ++ [(.call tx, s.gov, events)]) j) :
    Audited g' (log ++ [(.call tx, s.gov, events)]) := by
  refine ⟨?_, ?_⟩
  · rw [hq]
    exact h.quorum
  · intro i
    by_cases hi : i = j
    · subst hi
      exact hj
    · obtain ⟨hvote, hcancel, hexec⟩ := hc i hi
      have hrecord : g'.proposals i = s.gov.proposals i := by
        rw [hp, Function.update_of_ne hi]
      exact (h.audit i).kept_of_call hrecord (hv i hi) hcur hvote hcancel hexec

/-- A call that touches no proposal keeps all audits. -/
theorem Audited.keep {g' : Storage} (h : Audited s.gov log)
    (hq : minQuorumThreshold ≤ s.gov.quorumThreshold → minQuorumThreshold ≤ g'.quorumThreshold)
    (hp : g'.proposals = s.gov.proposals) (hv : g'.hasVoted = s.gov.hasVoted)
    (hcur : g'.currentProposalId = s.gov.currentProposalId)
    (hc : ∀ i, tx.call ≠ .vote i ∧ tx.call ≠ .cancel i ∧ tx.call ≠ .execute i) :
    Audited g' (log ++ [(.call tx, s.gov, events)]) := by
  refine ⟨hq h.quorum, ?_⟩
  intro i
  obtain ⟨hvote, hcancel, hexec⟩ := hc i
  exact (h.audit i).kept_of_call (by rw [hp]) (by rw [hv]) (by rw [hcur]) hvote hcancel hexec

theorem Audited.step (h : Audited s.gov log) (he : Effect env s tx s' events)
    (htime : ∀ tx' g' ev', (Action.call tx', g', ev') ∈ log →
      tx'.block.timestamp ≤ tx.block.timestamp) :
    Audited s'.gov (log ++ [(.call tx, s.gov, events)]) := by
  cases he with
  | configured hc hq he =>
    refine h.keep hq rfl rfl rfl ?_
    intro i
    refine ⟨?_, ?_, ?_⟩ <;> intro hcall <;> rw [hcall] at hc <;> exact hc
  | empowered hc hle => exact h.keep id rfl rfl rfl (by simp [hc])
  | forwarded hc he =>
    refine h.keep id rfl rfl rfl ?_
    intro i
    refine ⟨?_, ?_, ?_⟩ <;> intro hcall <;> rw [hcall] at hc <;> exact hc
  | proposed hc hdead =>
    refine h.update rfl rfl (fun _ _ => rfl) (Nat.le_succ _) (by simp [hc]) ?_
    exact (h.audit (s.gov.currentProposalId + 1)).made h.quorum hc rfl
  | @cancelled j hc hid hx hn =>
    refine h.update rfl rfl (fun _ _ => rfl) le_rfl (by simp [hc, eq_comm]) ?_
    exact (h.audit j).cancel hc hid hx
  | @voted j hc hid hs hfresh hpower =>
    refine h.update rfl rfl ?_ le_rfl (by simp [hc, eq_comm]) ?_
    · intro i hi
      exact Function.update_of_ne hi _ _
    · exact (h.audit j).vote hc hid (open_of_active hs) hfresh hpower htime
  | @executed j _ _ hc hid hs ht hr =>
    refine h.update rfl rfl (fun _ _ => rfl) le_rfl (by simp [hc, eq_comm]) ?_
    exact (h.audit j).execute hc hid (flags_of_live (.inr hs)).1

theorem Audited.elsewhere {g : Storage} (h : Audited g log) (portfolio : RouterState V) :
    Audited g (log ++ [(.elsewhere portfolio, g, [])]) := by
  refine ⟨h.quorum, ?_⟩
  intro i
  refine (h.audit i).kept rfl rfl le_rfl rfl ?_ ?_ <;> rintro ⟨tx, hx, -⟩ <;> cases hx

end Steps

/-! ### Runs -/

section Runs

variable {router admin : Address} {votingPeriod executionDelay quorum : ℕ} {g₀ : Storage}

theorem deploy_audited
    (h₀ : Storage.deploy router admin votingPeriod executionDelay quorum = .ok g₀) :
    Audited g₀ ([] : Log V) := by
  unfold Storage.deploy at h₀
  simp only [bind_eq_ok, revertIf_eq_ok, exists_const, pure_eq_ok] at h₀
  obtain ⟨-, hq, -, rfl⟩ := h₀
  refine ⟨Nat.not_lt.mp hq, ?_⟩
  intro i
  constructor <;> simp [ballots, Proposal.default]

/-- Earlier calls of a run are not later in time. -/
theorem Chronological.log_le {acts pre post : List (Action V)} {a : Action V} {s₀ : State V}
    (h : Chronological acts) (hsplit : acts = pre ++ a :: post) {tx tx' : Tx GovernanceCall}
    {g : Storage} {ev : List GovernanceEvent} (ha : a = .call tx)
    (hmem : (Action.call tx', g, ev) ∈ history (State.act env) s₀ pre) :
    tx'.block.timestamp ≤ tx.block.timestamp := by
  have hpre : Action.call tx' ∈ pre :=
    history_sublist.subset (List.mem_map_of_mem (f := Prod.fst) hmem)
  unfold Chronological at h
  rw [hsplit, List.filterMap_append, List.pairwise_append] at h
  refine h.2.2 _ (List.mem_filterMap.mpr ⟨_, hpre, rfl⟩) _ ?_
  exact List.mem_filterMap.mpr ⟨a, List.mem_cons_self, by rw [ha]; rfl⟩

theorem Chronological.prior {acts acts' : List (Action V)} (h : Chronological (acts ++ acts')) :
    Chronological acts := by
  unfold Chronological at h
  rw [List.filterMap_append, List.pairwise_append] at h
  exact h.1

/-- After any run the records are what the log has of them. -/
theorem run_audited (h₀ : Storage.deploy router admin votingPeriod executionDelay quorum = .ok g₀)
    (p₀ : RouterState V) {acts : List (Action V)} (htime : Chronological acts) :
    Audited (run (State.act env) ⟨g₀, p₀⟩ acts).gov (history (State.act env) ⟨g₀, p₀⟩ acts) := by
  refine run_invariant (P := fun (s : State V) log => Audited s.gov log) (deploy_audited h₀) ?_
  rintro pre a post s' ⟨g, events⟩ hsplit hinv hx
  cases a with
  | elsewhere portfolio =>
    cases hx
    exact hinv.elsewhere portfolio
  | call tx =>
    obtain ⟨rfl, heffect⟩ := act_call hx
    exact hinv.step heffect fun _ _ _ hmem => htime.log_le hsplit rfl hmem

/-- The call `tx`, coming after the log `pre` and meeting the storage `g`, is a justified execution of
proposal `i`, of which it passes on `vaults` and `bps`.  `log` is the log of the whole run. -/
structure Authorized (log pre : Log V) (g : Storage) (tx : Tx GovernanceCall) (i : ℕ)
    (vaults : List Address) (bps : List ℕ) : Prop where
  /-- the call executes the proposal -/
  call : tx.call = .execute i
  /-- the weights are the stored ones … -/
  weights : (g.proposals i).vaults = vaults ∧ (g.proposals i).bps = bps
  /-- … which an earlier call of `propose` stored; the votes came in the voting period, from that call
  to the deadline it set -/
  proposed : ∃ tx₀ g₀ ev, (Action.call tx₀, g₀, ev) ∈ pre ∧ tx₀.call = .propose vaults bps ∧
    Proposed g₀ tx₀ i (g.proposals i) ∧
    ∀ v ∈ ballots i pre, tx₀.block.timestamp ≤ v.time ∧ v.time ≤ (g.proposals i).votingDeadline
  /-- each of them from an account that had power -/
  power : ∀ v ∈ ballots i pre, v.power ≠ 0
  /-- no account voted twice -/
  once : ((ballots i pre).map Ballot.voter).Nodup
  /-- the votes for the proposal are those, and there are enough -/
  tally : (g.proposals i).votesFor = ((ballots i pre).map Ballot.power).sum
  quorum : 1 ≤ (g.proposals i).snapshotQuorum ∧ (g.proposals i).snapshotQuorum ≤ (g.proposals i).votesFor
  /-- the delay is over -/
  delay : (g.proposals i).executableAfter ≤ tx.block.timestamp
  /-- the proposal is cancelled neither before nor after -/
  not_cancelled : ∀ y ∈ log, ¬ IsCall y (.cancel i)
  /-- and was not executed before -/
  first : ∀ y ∈ pre, ¬ IsCall y (.execute i)

/-- Only an execution makes the router run `setWeights`, with what is stored. -/
theorem Effect.setsWeights {s s' : State V} {tx : Tx GovernanceCall} {events : List GovernanceEvent}
    (h : Effect env s tx s' events) {vaults : List Address} {bps : List ℕ}
    (hset : GovernanceEvent.router (.weightsSet vaults bps) ∈ events) :
    ∃ i, tx.call = .execute i ∧ (s.gov.proposals i).id ≠ 0 ∧ s.gov.state tx.block i = .queued ∧
      (s.gov.proposals i).executableAfter ≤ tx.block.timestamp ∧
      (s.gov.proposals i).vaults = vaults ∧ (s.gov.proposals i).bps = bps := by
  cases h with
  | configured hc hq he => exact absurd hset (he _)
  | forwarded hc he =>
    obtain ⟨e, hmem, heq⟩ := List.mem_map.mp hset
    cases heq
    exact absurd hmem (he _ _)
  | @executed i _ _ hc hid hs ht hr =>
    have hev := setWeights_events hr
    subst hev
    have hmem : vaults = (s.gov.proposals i).vaults ∧ bps = (s.gov.proposals i).bps := by
      simpa using hset
    exact ⟨i, hc, hid, hs, ht, hmem.1.symm, hmem.2.symm⟩
  | empowered | proposed | cancelled | voted => simp at hset

/-- **Authorization of every weight change.**  In every run of the deployed contract, whoever calls
what in which order, and whatever happens to the router meanwhile: each call of `router.setWeights`
comes from a justified execution of a proposal and passes on the weights of that proposal. -/
theorem weights_authorized
    (h₀ : Storage.deploy router admin votingPeriod executionDelay quorum = .ok g₀)
    (p₀ : RouterState V) {acts : List (Action V)} (htime : Chronological acts) {pre post : Log V}
    {x : Entry V} (hlog : history (State.act env) ⟨g₀, p₀⟩ acts = pre ++ x :: post)
    {vaults : List Address} {bps : List ℕ} (hset : SetsWeights x vaults bps) :
    ∃ i tx, x.1 = .call tx ∧
      Authorized (history (State.act env) ⟨g₀, p₀⟩ acts) pre x.2.1 tx i vaults bps := by
  obtain ⟨a, g, events⟩ := x
  obtain ⟨acts₁, acts₂, s', hsplit, hpre, hx⟩ := history_eq_append hlog
  have htime₁ : Chronological acts₁ := (hsplit ▸ htime).prior
  have hbefore : Audited (run (State.act env) ⟨g₀, p₀⟩ acts₁).gov pre :=
    hpre ▸ run_audited h₀ p₀ htime₁
  have hafter : Audited (run (State.act env) ⟨g₀, p₀⟩ acts).gov _ := run_audited h₀ p₀ htime
  cases a with
  | elsewhere portfolio =>
    cases hx
    exact absurd hset (by simp [SetsWeights])
  | call tx =>
    obtain ⟨rfl, heffect⟩ := act_call hx
    obtain ⟨i, hcall, hid, hs, ht, rfl, rfl⟩ := heffect.setsWeights hset
    have haudit := hbefore.audit i
    obtain ⟨hflag, hflag'⟩ := flags_of_live (.inr hs)
    refine ⟨i, tx, rfl, hcall, ⟨rfl, rfl⟩, ?_, ?_, haudit.once, haudit.tally,
      ⟨haudit.quorum hid, quorum_of_queued hs⟩, ht, ?_, ?_⟩
    · obtain ⟨tx₀, g₁, ev, hmem, hp, hv⟩ := haudit.proposed hid
      exact ⟨tx₀, g₁, ev, hmem, hp.call, hp, fun v hv' => ⟨hv v hv', (haudit.cast v hv').2⟩⟩
    · intro v hv
      exact (haudit.cast v hv).1
    · -- a cancellation anywhere in the run would leave a record with both flags
      intro y hy hcancel
      have hexec : ∃ z ∈ history (State.act env) ⟨g₀, p₀⟩ acts, IsCall z (.execute i) := by
        rw [hlog]
        exact ⟨_, List.mem_append_right _ List.mem_cons_self, isCall_call.mpr hcall⟩
      exact (hafter.audit i).final ⟨(hafter.audit i).cancelled.mpr ⟨y, hy, hcancel⟩,
        (hafter.audit i).executed.mpr hexec⟩
    · intro y hy hexec
      have hdone := haudit.executed.mpr ⟨y, hy, hexec⟩
      rw [hflag'] at hdone
      cases hdone

end Runs

/-! ### A proposal that is executed -/

/-- Anybody executes the proposal of `ballot`, a minute after its deadline. -/
def execution : Action (Address → Address → ℕ) := .call (.of 22 (.of 400 4660) (.execute 1))

/-- The ballot and the execution. -/
def passed : List (Action (Address → Address → ℕ)) := ballot.map .call ++ [execution]

/-- The events of an action. -/
def eventsOf (x : Call GovernanceError (State V × Storage × List GovernanceEvent)) :
    List GovernanceEvent :=
  match x with
  | .ok (_, _, events) => events
  | .error _ => []

/-- The execution sets the weights of the proposal, and is justified. -/
theorem weights_authorized_sample :
    ∃ pre x, history (State.act ballotEnv) deployed passed = pre ++ [x] ∧
      SetsWeights x [10, 11] [4000, 6000] ∧
      ∃ i tx, x.1 = .call tx ∧
        Authorized (history (State.act ballotEnv) deployed passed) pre x.2.1 tx i [10, 11]
          [4000, 6000] := by
  rcases hx : State.act ballotEnv (run (State.act ballotEnv) deployed (ballot.map .call)) execution
    with e | ⟨s', r⟩
  · have hok : succeeds (State.act ballotEnv
        (run (State.act ballotEnv) deployed (ballot.map .call)) execution) = true := by decide
    rw [hx] at hok
    cases hok
  · have hevents : GovernanceEvent.router (.weightsSet [10, 11] [4000, 6000]) ∈ eventsOf
        (State.act ballotEnv (run (State.act ballotEnv) deployed (ballot.map .call)) execution) := by
      decide
    rw [hx] at hevents
    have hlog := history_snoc_of_ok hx
    have hdeploy : Storage.deploy 1 20 3600 60 5 = .ok deployed.gov := rfl
    have htime : Chronological passed := by
      unfold Chronological
      decide
    exact ⟨_, _, hlog, hevents, weights_authorized hdeploy RouterState.weightedRouter htime hlog hevents⟩

end RobotMoney.Governance
