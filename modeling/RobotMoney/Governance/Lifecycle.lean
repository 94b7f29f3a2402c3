import Mathlib.Logic.Relation
import RobotMoney.Governance.Effect
import RobotMoney.Lib.Run
import RobotMoney.Portfolio.Conservation

/-!
# The lifecycle of a proposal

A *moment* is a state of the contract and a block; from one moment to the next the clock advances, a
call of the contract succeeds, or something happens elsewhere (to the router, the registry, the
vaults).  The results are about every moment reached from the deployed contract:

* at most one proposal is live, that is, `active` or `queued`;
* a proposal's state moves only along `ProposalState.Moves`, and starts as `active`;
* what is no longer live never is again, and `executed` and `cancelled` are final.

The invariant behind the first is `WellFormed`: the proposals `1 … currentProposalId` are stored under
their own numbers, the other records are blank, and all but the last are dead.  Everything a call can
do to the proposals is said once, in `exec_change`.
-/

namespace RobotMoney.Governance

open RobotMoney.Lib RobotMoney.Portfolio Relation

variable {V : Type} {env : Env V}

/-- The states in which a proposal blocks the next one. -/
def ProposalState.Live (s : ProposalState) : Prop := s = .active ∨ s = .queued

/-- The moves of a proposal. -/
inductive ProposalState.Moves : ProposalState → ProposalState → Prop
  | defeat : Moves .active .defeated
  | queue : Moves .active .queued
  | cancelActive : Moves .active .cancelled
  | execute : Moves .queued .executed
  | cancelQueued : Moves .queued .cancelled
  | cancelDefeated : Moves .defeated .cancelled

open ProposalState (Live Moves)

/-- The contract at a point of time. -/
structure Moment (V : Type) where
  sys : State V
  block : Block

/-- What may happen next. -/
inductive Step (env : Env V) : Moment V → Moment V → Prop
  /-- time passes -/
  | tick {s : State V} {b b' : Block} (h : b.timestamp ≤ b'.timestamp) : Step env ⟨s, b⟩ ⟨s, b'⟩
  /-- anybody calls the contract -/
  | call {s s' : State V} {tx : Tx State.GovernanceCall} {events : List GovernanceEvent}
      (h : s.exec env tx = .ok (s', events)) : Step env ⟨s, tx.block⟩ ⟨s', tx.block⟩
  /-- the router, the registry or a vault changes -/
  | elsewhere {s : State V} {b : Block} (portfolio : RouterState V) :
      Step env ⟨s, b⟩ ⟨{ s with portfolio }, b⟩

/-- `proposalState(i)` at a moment. -/
def Moment.proposalState (m : Moment V) (i : ℕ) : Call GovernanceError ProposalState :=
  m.sys.gov.proposalState m.block i

/-- Proposal `i` exists and is live. -/
def Moment.LiveAt (m : Moment V) (i : ℕ) : Prop := ∃ s, m.proposalState i = .ok s ∧ s.Live

/-! ### What a call does to the proposals -/

/-- The change a successful call makes to the proposals, by its kind. -/
inductive Change (g : Storage) (b : Block) (sender : Address) (g' : Storage) : Prop
  | kept (hp : g'.proposals = g.proposals) (hc : g'.currentProposalId = g.currentProposalId)
  | created (vaults : List Address) (bps : List ℕ)
      (hdead : ¬ (g.currentProposalId ≠ 0 ∧ Live (g.state b g.currentProposalId)))
      (hp : g'.proposals = Function.update g.proposals (g.currentProposalId + 1)
        { g.proposals (g.currentProposalId + 1) with
          id := g.currentProposalId + 1
          proposer := sender
          votingDeadline := b.timestamp + g.votingPeriod
          executableAfter := b.timestamp + g.votingPeriod + g.executionDelay
          snapshotQuorum := g.quorumThreshold
          vaults := (g.proposals (g.currentProposalId + 1)).vaults ++ vaults
          bps := (g.proposals (g.currentProposalId + 1)).bps ++ bps })
      (hc : g'.currentProposalId = g.currentProposalId + 1)
  | cancelled (i : ℕ) (hid : (g.proposals i).id ≠ 0) (hx : (g.proposals i).executed = false)
      (hn : (g.proposals i).cancelled = false)
      (hp : g'.proposals = Function.update g.proposals i { g.proposals i with cancelled := true })
      (hc : g'.currentProposalId = g.currentProposalId)
  | voted (i : ℕ) (hid : (g.proposals i).id ≠ 0) (hs : g.state b i = .active)
      (hp : g'.proposals = Function.update g.proposals i
        { g.proposals i with votesFor := (g.proposals i).votesFor + g.votingPower sender })
      (hc : g'.currentProposalId = g.currentProposalId)
  | executed (i : ℕ) (hid : (g.proposals i).id ≠ 0) (hs : g.state b i = .queued)
      (hp : g'.proposals = Function.update g.proposals i { g.proposals i with executed := true })
      (hc : g'.currentProposalId = g.currentProposalId)

/-- Everything a successful call can do to the proposals. -/
theorem exec_change {s s' : State V} {tx : Tx State.GovernanceCall} {events : List GovernanceEvent}
    (h : s.exec env tx = .ok (s', events)) : Change s.gov tx.block tx.sender s'.gov := by
  cases exec_effect h with
  | configured hc hq he => exact .kept rfl rfl
  | empowered hc hle => exact .kept rfl rfl
  | forwarded hc he => exact .kept rfl rfl
  | @proposed vaults bps hc hdead => exact .created vaults bps hdead rfl rfl
  | @cancelled i hc hid hx hn => exact .cancelled i hid hx hn rfl rfl
  | @voted i hc hid hs hfresh hpower => exact .voted i hid hs rfl rfl
  | @executed i _ _ hc hid hs ht hr => exact .executed i hid hs rfl rfl

/-! ### The state of one proposal -/

section Proposal

variable {p : Proposal} {b b' : Block}

theorem state_cancelled (hc : p.cancelled = true) : p.state b = .cancelled := by
  unfold Proposal.state
  rw [if_pos hc]

theorem state_executed (hc : p.cancelled = false) (hx : p.executed = true) :
    p.state b = .executed := by
  unfold Proposal.state
  rw [hc, hx]
  rfl

theorem state_open (hc : p.cancelled = false) (hx : p.executed = false) :
    p.state b = if b.timestamp ≤ p.votingDeadline then .active
      else if p.votesFor < p.snapshotQuorum then .defeated else .queued := by
  unfold Proposal.state
  rw [hc, hx]
  rfl

/-- A live proposal carries neither flag. -/
theorem flags_of_live (h : (p.state b).Live) : p.cancelled = false ∧ p.executed = false := by
  unfold Proposal.state at h
  cases hc : p.cancelled <;> cases hx : p.executed <;> simp_all [Live]

/-- Time moves a proposal at most out of `active`, by the vote. -/
theorem state_tick (h : b.timestamp ≤ b'.timestamp) :
    p.state b' = p.state b ∨ Moves (p.state b) (p.state b') := by
  cases hc : p.cancelled with
  | true =>
    left
    rw [state_cancelled hc, state_cancelled hc]
  | false =>
    cases hx : p.executed with
    | true =>
      left
      rw [state_executed hc hx, state_executed hc hx]
    | false =>
      rw [state_open hc hx, state_open hc hx]
      by_cases h₁ : b.timestamp ≤ p.votingDeadline
      · by_cases h₂ : b'.timestamp ≤ p.votingDeadline
        · left
          rw [if_pos h₁, if_pos h₂]
        · right
          rw [if_pos h₁, if_neg h₂]
          split
          · exact .defeat
          · exact .queue
      · left
        have h₂ : ¬ b'.timestamp ≤ p.votingDeadline := by omega
        rw [if_neg h₁, if_neg h₂]

theorem state_cancel (hc : p.cancelled = false) (hx : p.executed = false) :
    Moves (p.state b) ({ p with cancelled := true }.state b) := by
  rw [state_cancelled (p := { p with cancelled := true }) rfl, state_open hc hx]
  split
  · exact .cancelActive
  · split
    · exact .cancelDefeated
    · exact .cancelQueued

theorem state_vote {n : ℕ} (hs : p.state b = .active) :
    { p with votesFor := n }.state b = .active := by
  obtain ⟨hc, hx⟩ := flags_of_live (.inl hs : (p.state b).Live)
  rw [state_open hc hx] at hs
  have ht : b.timestamp ≤ p.votingDeadline := by
    by_contra hlt
    rw [if_neg hlt] at hs
    split at hs <;> cases hs
  rw [state_open (p := { p with votesFor := n }) hc hx]
  exact if_pos ht

theorem state_execute (hs : p.state b = .queued) :
    Moves (p.state b) ({ p with executed := true }.state b) := by
  obtain ⟨hc, -⟩ := flags_of_live (.inr hs : (p.state b).Live)
  rw [state_executed (p := { p with executed := true }) hc rfl, hs]
  exact .execute

end Proposal

/-- What is dead stays dead in one move. -/
theorem Moves.dead {s s' : ProposalState} (h : Moves s s') (hs : ¬ s.Live) : ¬ s'.Live := by
  cases h with
  | defeat | queue | cancelActive => exact absurd (.inl rfl) hs
  | execute | cancelQueued => exact absurd (.inr rfl) hs
  | cancelDefeated =>
    rintro (h | h) <;> cases h

/-- Nothing moves out of the two final states. -/
theorem Moves.not_final {s s' : ProposalState} (h : Moves s s') : ¬ (s = .cancelled ∨ s = .executed) := by
  cases h <;> rintro (h | h) <;> cases h

theorem proposalState_eq_ok {g : Storage} {b : Block} {i : ℕ} {s : ProposalState} :
    g.proposalState b i = .ok s ↔ (g.proposals i).id ≠ 0 ∧ (g.proposals i).state b = s := by
  unfold Storage.proposalState Storage.state
  simp only [bind_eq_ok, revertIf_eq_ok, exists_const, pure_eq_ok]

/-! ### The invariant -/

/-- The records of a reachable contract. -/
structure WellFormed (g : Storage) (b : Block) : Prop where
  stored : ∀ i, 1 ≤ i → i ≤ g.currentProposalId → (g.proposals i).id = i
  blank : ∀ i, ¬ (1 ≤ i ∧ i ≤ g.currentProposalId) → g.proposals i = Proposal.default
  dead : ∀ i, 1 ≤ i → i < g.currentProposalId → ¬ ((g.proposals i).state b).Live

section Invariant

variable {g g' : Storage} {b b' : Block} {sender : Address}

/-- A proposal that exists is one of `1 … currentProposalId`. -/
theorem WellFormed.range (hw : WellFormed g b) {i : ℕ} (hid : (g.proposals i).id ≠ 0) :
    1 ≤ i ∧ i ≤ g.currentProposalId := by
  by_contra hi
  rw [hw.blank i hi] at hid
  exact hid rfl

/-- A live proposal is the current one. -/
theorem WellFormed.live_eq (hw : WellFormed g b) {i : ℕ} (hid : (g.proposals i).id ≠ 0)
    (hl : ((g.proposals i).state b).Live) : i = g.currentProposalId := by
  obtain ⟨h₁, h₂⟩ := hw.range hid
  by_contra hne
  exact hw.dead i h₁ (by omega) hl

theorem WellFormed.tick (hw : WellFormed g b) (h : b.timestamp ≤ b'.timestamp) :
    WellFormed g b' := by
  refine ⟨hw.stored, hw.blank, ?_⟩
  intro i h₁ h₂
  have hdead := hw.dead i h₁ h₂
  rcases state_tick (p := g.proposals i) h with heq | hmove
  · rw [heq]
    exact hdead
  · exact Moves.dead hmove hdead

/-- Rewriting an existing record, without reviving it, keeps the invariant. -/
theorem WellFormed.update (hw : WellFormed g b) {i : ℕ} {p : Proposal}
    (hid : (g.proposals i).id ≠ 0) (hp : g'.proposals = Function.update g.proposals i p)
    (hc : g'.currentProposalId = g.currentProposalId) (hpid : p.id = (g.proposals i).id)
    (hdead : ¬ ((g.proposals i).state b).Live → ¬ (p.state b).Live) : WellFormed g' b := by
  obtain ⟨hi₁, hi₂⟩ := hw.range hid
  refine ⟨?_, ?_, ?_⟩
  · intro j h₁ h₂
    rw [hc] at h₂
    rw [hp]
    by_cases hj : j = i
    · subst hj
      rw [Function.update_self, hpid]
      exact hw.stored j h₁ h₂
    · rw [Function.update_of_ne hj]
      exact hw.stored j h₁ h₂
  · intro j hj
    rw [hc] at hj
    have hne : j ≠ i := by
      rintro rfl
      exact hj ⟨hi₁, hi₂⟩
    rw [hp, Function.update_of_ne hne]
    exact hw.blank j hj
  · intro j h₁ h₂
    rw [hc] at h₂
    rw [hp]
    by_cases hj : j = i
    · subst hj
      rw [Function.update_self]
      exact hdead (hw.dead j h₁ h₂)
    · rw [Function.update_of_ne hj]
      exact hw.dead j h₁ h₂

theorem WellFormed.change (hw : WellFormed g b) (h : Change g b sender g') : WellFormed g' b := by
  cases h with
  | kept hp hc =>
    constructor
    · rw [hp, hc]
      exact hw.stored
    · rw [hp, hc]
      exact hw.blank
    · rw [hp, hc]
      exact hw.dead
  | created vaults bps hdead hp hc =>
    refine ⟨?_, ?_, ?_⟩
    · intro i h₁ h₂
      rw [hc] at h₂
      rw [hp]
      by_cases hi : i = g.currentProposalId + 1
      · subst hi
        rw [Function.update_self]
      · rw [Function.update_of_ne hi]
        exact hw.stored i h₁ (by omega)
    · intro i hi
      rw [hc] at hi
      have hne : i ≠ g.currentProposalId + 1 := by omega
      rw [hp, Function.update_of_ne hne]
      exact hw.blank i (by omega)
    · -- the proposal that was current has been found dead; the older ones are by hypothesis
      intro i h₁ h₂
      rw [hc] at h₂
      rw [hp, Function.update_of_ne (by omega)]
      by_cases hi : i = g.currentProposalId
      · subst hi
        intro hl
        exact hdead ⟨by omega, hl⟩
      · exact hw.dead i h₁ (by omega)
  | cancelled i hid hx hn hp hc =>
    exact hw.update hid hp hc rfl (Moves.dead (state_cancel hn hx))
  | voted i hid hs hp hc =>
    refine hw.update hid hp hc rfl ?_
    intro hdead
    exact absurd (.inl hs) hdead
  | executed i hid hs hp hc =>
    exact hw.update hid hp hc rfl (Moves.dead (state_execute hs))

/-- The state of an existing proposal across a call. -/
theorem WellFormed.moves (hw : WellFormed g b) (h : Change g b sender g') {i : ℕ}
    (hid : (g.proposals i).id ≠ 0) :
    (g'.proposals i).id ≠ 0 ∧ ((g'.proposals i).state b = (g.proposals i).state b ∨
      Moves ((g.proposals i).state b) ((g'.proposals i).state b)) := by
  have hrange := hw.range hid
  cases h with
  | kept hp hc =>
    rw [hp]
    exact ⟨hid, .inl rfl⟩
  | created vaults bps hdead hp hc =>
    rw [hp, Function.update_of_ne (by omega)]
    exact ⟨hid, .inl rfl⟩
  | cancelled j hid' hx hn hp hc =>
    rw [hp]
    by_cases hj : i = j
    · subst hj
      rw [Function.update_self]
      exact ⟨hid, .inr (state_cancel hn hx)⟩
    · rw [Function.update_of_ne hj]
      exact ⟨hid, .inl rfl⟩
  | voted j hid' hs hp hc =>
    rw [hp]
    by_cases hj : i = j
    · subst hj
      rw [Function.update_self]
      refine ⟨hid, .inl ?_⟩
      rw [state_vote hs]
      exact hs.symm
    · rw [Function.update_of_ne hj]
      exact ⟨hid, .inl rfl⟩
  | executed j hid' hs hp hc =>
    rw [hp]
    by_cases hj : i = j
    · subst hj
      rw [Function.update_self]
      exact ⟨hid, .inr (state_execute hs)⟩
    · rw [Function.update_of_ne hj]
      exact ⟨hid, .inl rfl⟩

/-- A proposal that a call brings about is active. -/
theorem WellFormed.born (hw : WellFormed g b) (h : Change g b sender g') {i : ℕ}
    (hid : (g.proposals i).id = 0) (hid' : (g'.proposals i).id ≠ 0) :
    (g'.proposals i).state b = .active := by
  have hold : ∀ j (p : Proposal), (g.proposals j).id ≠ 0 →
      g'.proposals = Function.update g.proposals j p → (g'.proposals i).id = 0 := by
    intro j p hj hp
    have hne : i ≠ j := by
      rintro rfl
      exact hj hid
    rw [hp, Function.update_of_ne hne]
    exact hid
  cases h with
  | kept hp hc =>
    rw [hp] at hid'
    exact absurd hid hid'
  | created vaults bps hdead hp hc =>
    have hi : i = g.currentProposalId + 1 := by
      by_contra hne
      rw [hp, Function.update_of_ne hne] at hid'
      exact hid' hid
    subst hi
    have hblank := hw.blank (g.currentProposalId + 1) (by omega)
    rw [hp, Function.update_self, hblank]
    rw [state_open rfl rfl]
    exact if_pos (Nat.le_add_right _ _)
  | cancelled j hj hx hn hp hc => exact absurd (hold j _ hj hp) hid'
  | voted j hj hs hp hc => exact absurd (hold j _ hj hp) hid'
  | executed j hj hs hp hc => exact absurd (hold j _ hj hp) hid'

theorem deploy_wellFormed {router admin : Address} {votingPeriod executionDelay quorum : ℕ}
    (h : Storage.deploy router admin votingPeriod executionDelay quorum = .ok g) : WellFormed g b := by
  unfold Storage.deploy at h
  simp only [bind_eq_ok, revertIf_eq_ok, exists_const, pure_eq_ok] at h
  obtain ⟨-, -, -, rfl⟩ := h
  refine ⟨?_, ?_, ?_⟩
  · intro i h₁ h₂
    exact absurd (h₁.trans h₂) (Nat.not_succ_le_zero 0)
  · intro i _
    rfl
  · intro i h₁ h₂
    exact absurd (h₁.trans h₂.le) (Nat.not_succ_le_zero 0)

end Invariant

/-! ### Steps and runs -/

section Runs

variable {m m' : Moment V}

/-- The invariant at a moment. -/
def Moment.WellFormed (m : Moment V) : Prop := Governance.WellFormed m.sys.gov m.block

theorem Step.wellFormed (h : Step env m m') (hw : m.WellFormed) : m'.WellFormed := by
  cases h with
  | tick ht => exact WellFormed.tick hw ht
  | call hx => exact WellFormed.change hw (exec_change hx)
  | elsewhere portfolio => exact hw

theorem Steps.wellFormed (h : ReflTransGen (Step env) m m') (hw : m.WellFormed) : m'.WellFormed := by
  induction h with
  | refl => exact hw
  | tail _ hstep ih => exact hstep.wellFormed ih

/-- One step moves an existing proposal along `Moves`, or not at all. -/
theorem Step.moves (h : Step env m m') (hw : m.WellFormed) {i : ℕ} {s : ProposalState}
    (hs : m.proposalState i = .ok s) :
    ∃ s', m'.proposalState i = .ok s' ∧ (s' = s ∨ Moves s s') := by
  obtain ⟨hid, rfl⟩ := proposalState_eq_ok.mp hs
  cases h with
  | tick ht => exact ⟨_, proposalState_eq_ok.mpr ⟨hid, rfl⟩, state_tick ht⟩
  | call hx =>
    obtain ⟨hid', hmoves⟩ := WellFormed.moves hw (exec_change hx) hid
    exact ⟨_, proposalState_eq_ok.mpr ⟨hid', rfl⟩, hmoves⟩
  | elsewhere portfolio => exact ⟨_, proposalState_eq_ok.mpr ⟨hid, rfl⟩, .inl rfl⟩

/-- A proposal that appears in a step is active. -/
theorem Step.born (h : Step env m m') (hw : m.WellFormed) {i : ℕ} {e : Revert GovernanceError}
    {s' : ProposalState} (he : m.proposalState i = .error e) (hs' : m'.proposalState i = .ok s') :
    s' = .active := by
  obtain ⟨hid', rfl⟩ := proposalState_eq_ok.mp hs'
  have hid : (m.sys.gov.proposals i).id = 0 := by
    by_contra hne
    have hok : m.proposalState i = .ok ((m.sys.gov.proposals i).state m.block) :=
      proposalState_eq_ok.mpr ⟨hne, rfl⟩
    rw [hok] at he
    cases he
  cases h with
  | tick ht => exact absurd hid hid'
  | call hx => exact WellFormed.born hw (exec_change hx) hid hid'
  | elsewhere portfolio => exact absurd hid hid'

/-- Over any run: what is final stays as it is, what is dead stays dead. -/
theorem Steps.dead (h : ReflTransGen (Step env) m m') (hw : m.WellFormed) {i : ℕ} {s : ProposalState}
    (hs : m.proposalState i = .ok s) :
    ∃ s', m'.proposalState i = .ok s' ∧ (s = .cancelled ∨ s = .executed → s' = s) ∧
      (¬ s.Live → ¬ s'.Live) := by
  induction h with
  | refl => exact ⟨s, hs, fun _ => rfl, id⟩
  | tail hrun hstep ih =>
    obtain ⟨s₁, hs₁, hfinal, hdead⟩ := ih
    obtain ⟨s₂, hs₂, hmove⟩ := hstep.moves (Steps.wellFormed hrun hw) hs₁
    refine ⟨s₂, hs₂, ?_, ?_⟩
    · intro hf
      have h₁ := hfinal hf
      rcases hmove with h₂ | h₂
      · rw [h₂, h₁]
      · rw [h₁] at h₂
        exact absurd hf (Moves.not_final h₂)
    · intro hl
      rcases hmove with h₂ | h₂
      · rw [h₂]
        exact hdead hl
      · exact Moves.dead h₂ (hdead hl)

/-- **Mutual exclusion and lifecycle.**  At every moment reached from the deployed contract, whatever
is called by whom, and however time passes: at most one proposal is live; the next step moves each
proposal along `Moves` or leaves it, and a proposal it creates is active; and in everything that
follows a proposal that is executed or cancelled stays so, and one that is not live never is again. -/
theorem proposal_lifecycle {router admin : Address} {votingPeriod executionDelay quorum : ℕ}
    {g₀ : Storage} (h₀ : Storage.deploy router admin votingPeriod executionDelay quorum = .ok g₀)
    (p₀ : RouterState V) (b₀ : Block) (hm : ReflTransGen (Step env) ⟨⟨g₀, p₀⟩, b₀⟩ m) :
    (∀ i j, m.LiveAt i → m.LiveAt j → i = j) ∧
    (∀ m', Step env m m' →
      (∀ i s, m.proposalState i = .ok s →
        ∃ s', m'.proposalState i = .ok s' ∧ (s' = s ∨ Moves s s')) ∧
      (∀ i e s', m.proposalState i = .error e → m'.proposalState i = .ok s' → s' = .active)) ∧
    (∀ m', ReflTransGen (Step env) m m' → ∀ i s, m.proposalState i = .ok s →
      (s = .cancelled ∨ s = .executed → m'.proposalState i = .ok s) ∧
      (¬ s.Live → ¬ m'.LiveAt i)) := by
  have hw : m.WellFormed := Steps.wellFormed hm (deploy_wellFormed h₀)
  refine ⟨?_, ?_, ?_⟩
  · rintro i j ⟨s, hs, hl⟩ ⟨s', hs', hl'⟩
    obtain ⟨hid, rfl⟩ := proposalState_eq_ok.mp hs
    obtain ⟨hid', rfl⟩ := proposalState_eq_ok.mp hs'
    rw [WellFormed.live_eq hw hid hl, WellFormed.live_eq hw hid' hl']
  · intro m' hstep
    exact ⟨fun i s hs => hstep.moves hw hs, fun i e s' he hs' => hstep.born hw he hs'⟩
  · intro m' hrun i s hs
    obtain ⟨s', hs', hfinal, hdead⟩ := Steps.dead hrun hw hs
    refine ⟨?_, ?_⟩
    · intro hf
      rw [hs', hfinal hf]
    · rintro hl ⟨s'', hs'', hl''⟩
      rw [hs'] at hs''
      cases hs''
      exact hdead hl hl''

end Runs

/-! ### A proposal that is queued -/

/-- The contract as deployed at the account `3`, the admin of `weightedRouter`, by the admin `20`. -/
def deployed : State (Address → Address → ℕ) where
  gov :=
    { votingPeriod := 3600
      executionDelay := 60
      quorumThreshold := 5
      votingPower := fun _ => 0
      totalVotingPower := 0
      proposals := fun _ => Proposal.default
      currentProposalId := 0
      hasVoted := fun _ _ => false
      roles := soleAdmin 20 }
  portfolio := RouterState.weightedRouter

/-- A grant of voting power, a proposal and a vote, in one block. -/
def ballot : List (Tx State.GovernanceCall) :=
  [.of 20 (.of 7 1000) (.setVotingPower 21 5), .of 20 (.of 7 1000) (.propose [10, 11] [4000, 6000]),
   .of 21 (.of 7 1000) (.vote 1)]

/-- The contract at the account `3`, over two vaults. -/
def ballotEnv : Env (Address → Address → ℕ) := ⟨3, RouterState.mockVaults 1 2⟩

/-- Calls of one block are steps, the reverting ones none. -/
theorem run_steps (env : Env V) (b : Block) (txs : List (Tx State.GovernanceCall))
    (hb : ∀ tx ∈ txs, tx.block = b) (s : State V) : ReflTransGen (Step env) ⟨s, b⟩ ⟨run (State.exec env) s txs, b⟩ := by
  induction txs generalizing s with
  | nil => exact .refl
  | cons tx txs ih =>
    have hrest := ih (fun tx' h => hb tx' (List.mem_cons_of_mem _ h)) (next (State.exec env) s tx)
    rcases hx : State.exec env s tx with e | ⟨s', events⟩
    · rw [next_of_error hx] at hrest
      rw [run, next_of_error hx]
      exact hrest
    · rw [next_of_ok hx] at hrest
      rw [run, next_of_ok hx]
      have hstep : Step env ⟨s, b⟩ ⟨s', b⟩ := by
        rw [← hb tx List.mem_cons_self]
        exact .call hx
      exact .head hstep hrest

/-- After the ballot and its deadline the proposal is queued, and it is the only live one. -/
theorem proposal_lifecycle_sample :
    let m : Moment (Address → Address → ℕ) :=
      ⟨run (State.exec ballotEnv) deployed ballot, .of 300 4601⟩
    m.proposalState 1 = .ok .queued ∧ ∀ j, m.LiveAt j → j = 1 := by
  intro m
  have hq : m.proposalState 1 = .ok .queued := by decide
  have hrun := run_steps ballotEnv (.of 7 1000) ballot (by decide)
    deployed
  have htick : Step ballotEnv ⟨m.sys, .of 7 1000⟩ m :=
    .tick (by decide)
  have hm := hrun.tail htick
  have h₀ : Storage.deploy 1 20 3600 60 5 = .ok deployed.gov := rfl
  obtain ⟨honce, -, -⟩ := proposal_lifecycle h₀ RouterState.weightedRouter _ hm
  exact ⟨hq, fun j hj => honce j 1 hj ⟨_, hq, .inr rfl⟩⟩

end RobotMoney.Governance
