import RobotMoney.Governance.Audit

/-!
# Power that votes twice

A vote counts with the power its voter has at that moment; the power of an account may be changed at any
time, also after it has voted.  So the votes for a proposal are bounded by the total power only up to
what was taken, while the voting was open, from accounts that had voted (`votes_bounded`): what is
taken from them may be given to an account that has yet to vote.

The invariant is `Backed`: the power that has voted is still there, or it was taken.
-/

namespace RobotMoney.Governance

open RobotMoney.Lib RobotMoney.Portfolio State

variable {V : Type} {env : Env V}

/-- What an entry takes, up to the time `deadline`, from an account that has voted on proposal `i`. -/
def withdrawnBy (i deadline : ℕ) (x : Entry V) : ℕ :=
  match x.1 with
  | .elsewhere _ => 0
  | .call tx =>
    match tx.call with
    | .setVotingPower voter power =>
      if x.2.1.hasVoted i voter = true ∧ tx.block.timestamp ≤ deadline then
        x.2.1.votingPower voter - power
      else 0
    | _ => 0

/-- The power taken, up to the time `deadline`, from accounts that had voted on proposal `i`. -/
def withdrawn (i deadline : ℕ) (log : Log V) : ℕ := (log.map (withdrawnBy i deadline)).sum

/-- The power that the voters on proposal `i` have now. -/
def votersPower (g : Storage) (i : ℕ) (log : Log V) : ℕ :=
  (((ballots i log).map Ballot.voter).map g.votingPower).sum

/-- The total is the sum of all powers; and the power that has voted on a proposal is still with the
voters, except for what was taken from them. -/
structure Backed (g : Storage) (log : Log V) : Prop where
  total : ∑ a, g.votingPower a = g.totalVotingPower
  votes : ∀ i d, (∀ tx g' ev, (Action.call tx, g', ev) ∈ log → tx.block.timestamp ≤ d) →
    ((ballots i log).map Ballot.power).sum ≤ votersPower g i log + withdrawn i d log

section Steps

variable {s s' : State V} {g : Storage} {log : Log V} {tx : Tx GovernanceCall}
  {events : List GovernanceEvent} {x : Entry V} {i d : ℕ}

theorem withdrawn_snoc : withdrawn i d (log ++ [x]) = withdrawn i d log + withdrawnBy i d x := by
  simp [withdrawn]

/-- An action that leaves the powers alone, and is no vote. -/
theorem Backed.kept (h : Backed s.gov log) (hp : s'.gov.votingPower = s.gov.votingPower)
    (ht : s'.gov.totalVotingPower = s.gov.totalVotingPower) (hb : ∀ i, ballotOf i x = none) :
    Backed s'.gov (log ++ [x]) := by
  refine ⟨?_, ?_⟩
  · rw [hp, ht]
    exact h.total
  · intro i d htime
    have hballots : ballots i (log ++ [x]) = ballots i log := by
      rw [ballots_snoc, hb]
      simp
    have hold := h.votes i d fun tx g' ev hmem => htime tx g' ev (List.mem_append_left _ hmem)
    unfold votersPower at hold ⊢
    rw [hballots, hp, withdrawn_snoc]
    omega

/-- One more vote: its power is with the voter. -/
theorem Backed.vote (h : Backed g log) {j : ℕ} (hc : tx.call = .vote j) :
    Backed (g.withVote tx.sender j) (log ++ [(.call tx, g, events)]) := by
  refine ⟨h.total, ?_⟩
  intro i d htime
  have hold := h.votes i d fun tx g' ev hmem => htime tx g' ev (List.mem_append_left _ hmem)
  have hpower : (g.withVote tx.sender j).votingPower = g.votingPower := rfl
  unfold votersPower at hold ⊢
  rw [withdrawn_snoc, hpower]
  by_cases hi : j = i
  · subst hi
    rw [ballots_snoc, ballotOf_vote hc]
    simp only [Option.toList_some, List.map_append, List.map_cons, List.map_nil, List.sum_append,
      List.sum_cons, List.sum_nil]
    omega
  · have hballots : ballots i (log ++ [(.call tx, g, events)]) = ballots i log := by
      rw [ballots_snoc, ballotOf_of_ne (by simpa [hc] using hi)]
      simp
    rw [hballots]
    omega

/-- The new total is the sum of the new powers. -/
theorem sum_withPower {voter : Address} (h : ∑ a, g.votingPower a = g.totalVotingPower)
    (hle : g.votingPower voter ≤ g.totalVotingPower) (power : ℕ) :
    ∑ a, (g.withPower voter power).votingPower a = (g.withPower voter power).totalVotingPower := by
  have hsum := Token.sum_update g.votingPower voter power
  show ∑ a, Function.update g.votingPower voter power a = g.totalVotingPower - g.votingPower voter + power
  omega

/-- A power is set: what a voter loses is taken from her. -/
theorem Backed.empower (h : Backed g log) (haudit : Audited g log) {voter : Address} {power : ℕ}
    (hc : tx.call = .setVotingPower voter power) (hle : g.votingPower voter ≤ g.totalVotingPower) :
    Backed (g.withPower voter power) (log ++ [(.call tx, g, events)]) := by
  refine ⟨sum_withPower h.total hle power, ?_⟩
  · intro i d htime
    have hold := h.votes i d fun tx g' ev hmem => htime tx g' ev (List.mem_append_left _ hmem)
    have hnow : tx.block.timestamp ≤ d :=
      htime tx g events (List.mem_append_right _ (List.mem_singleton_self _))
    have hballots : ballots i (log ++ [(.call tx, g, events)]) = ballots i log := by
      rw [ballots_snoc, ballotOf_of_ne (by simp [hc])]
      simp
    have hvoters := Token.sum_map_update g.votingPower voter power (haudit.audit i).once
    have hpower : (g.withPower voter power).votingPower = Function.update g.votingPower voter power := rfl
    unfold votersPower at hold ⊢
    rw [hballots, withdrawn_snoc, hpower]
    cases hvoted : g.hasVoted i voter with
    | true =>
      have htaken : withdrawnBy i d ((.call tx, g, events) : Entry V) = g.votingPower voter - power := by
        simp [withdrawnBy, hc, hvoted, hnow]
      rw [htaken]
      omega
    | false =>
      -- the account is none of the voters, whose powers stay
      have hnone : voter ∉ (ballots i log).map Ballot.voter := by
        rw [← (haudit.audit i).voted, hvoted]
        simp
      have hsame : ((ballots i log).map Ballot.voter).map (Function.update g.votingPower voter power) =
          ((ballots i log).map Ballot.voter).map g.votingPower := by
        refine List.map_congr_left fun a ha => ?_
        have hne : a ≠ voter := by
          rintro rfl
          exact hnone ha
        exact Function.update_of_ne hne _ _
      rw [hsame]
      omega

theorem Backed.step (h : Backed s.gov log) (haudit : Audited s.gov log)
    (he : Effect env s tx s' events) : Backed s'.gov (log ++ [(.call tx, s.gov, events)]) := by
  cases he with
  | configured hc hq he =>
    refine h.kept rfl rfl fun i => ballotOf_of_ne ?_
    intro hcall
    rw [hcall] at hc
    exact hc
  | forwarded hc he =>
    refine h.kept rfl rfl fun i => ballotOf_of_ne ?_
    intro hcall
    rw [hcall] at hc
    exact hc
  | empowered hc hle => exact h.empower haudit hc hle
  | voted hc hid hs hfresh hpower => exact h.vote hc
  | proposed hc | cancelled hc | executed hc =>
    exact h.kept rfl rfl fun i => ballotOf_of_ne (by simp [hc])

/-- The total power is at most `P` whenever a call comes in the voting period of proposal `i`. -/
def TotalWithin (i P : ℕ) (log : Log V) : Prop :=
  ∀ tx g ev, (Action.call tx, g, ev) ∈ log → (g.proposals i).id ≠ 0 →
    tx.block.timestamp ≤ (g.proposals i).votingDeadline → g.totalVotingPower ≤ P

/-- Over every bound of the total, the votes exceed it by at most the power taken from voters. -/
def VotesWithin (g : Storage) (log : Log V) : Prop :=
  ∀ i P, TotalWithin i P log →
    (g.proposals i).votesFor ≤ P + withdrawn i (g.proposals i).votingDeadline log

theorem TotalWithin.prior {P : ℕ} (h : TotalWithin i P (log ++ [x])) : TotalWithin i P log :=
  fun tx g ev hmem => h tx g ev (List.mem_append_left _ hmem)

/-- An action after which the votes on a proposal are the same, and its deadline too. -/
theorem VotesWithin.kept (h : VotesWithin g log) {g' : Storage}
    (hp : ∀ i, (g'.proposals i).votesFor = 0 ∨
      (g'.proposals i).votesFor = (g.proposals i).votesFor ∧
        (g'.proposals i).votingDeadline = (g.proposals i).votingDeadline) :
    VotesWithin g' (log ++ [x]) := by
  intro i P htotal
  rcases hp i with hzero | ⟨hvotes, hdeadline⟩
  · rw [hzero]
    exact Nat.zero_le _
  · have hold := h i P htotal.prior
    rw [hvotes, hdeadline, withdrawn_snoc]
    omega

/-- What a new record keeps of the old one, every record keeps. -/
theorem withProposal_field {α : Type} (f : Proposal → α) (g : Storage) {j : ℕ} {p : Proposal}
    (hp : f p = f (g.proposals j)) (i : ℕ) : f ((g.withProposal j p).proposals i) = f (g.proposals i) := by
  unfold Storage.withProposal
  by_cases hi : i = j
  · subst hi
    simp only [Function.update_self]
    exact hp
  · simp only [Function.update_of_ne hi]

/-- A vote changes the votes of its proposal only, and no deadline. -/
theorem withVote_record (g : Storage) (voter : Address) (j i : ℕ) :
    (i ≠ j → ((g.withVote voter j).proposals i).votesFor = (g.proposals i).votesFor) ∧
      ((g.withVote voter j).proposals i).votingDeadline = (g.proposals i).votingDeadline := by
  unfold Storage.withVote Storage.withProposal
  by_cases hi : i = j
  · subst hi
    simp
  · simp [hi]

/-- A vote: at its time all power that has voted is with the voters, or was taken. -/
theorem VotesWithin.vote (h : VotesWithin s.gov log) (hback : Backed s'.gov (log ++ [(.call tx, s.gov, events)]))
    (haudit : Audited s'.gov (log ++ [(.call tx, s.gov, events)])) {j : ℕ}
    (hid : (s.gov.proposals j).id ≠ 0) (hopen : tx.block.timestamp ≤ (s.gov.proposals j).votingDeadline)
    (hs' : s'.gov = s.gov.withVote tx.sender j)
    (htime : ∀ tx' g' ev', (Action.call tx', g', ev') ∈ log →
      tx'.block.timestamp ≤ tx.block.timestamp) :
    VotesWithin s'.gov (log ++ [(.call tx, s.gov, events)]) := by
  intro i P htotal
  have hdeadline : (s'.gov.proposals i).votingDeadline = (s.gov.proposals i).votingDeadline := by
    rw [hs']
    exact (withVote_record s.gov tx.sender j i).2
  by_cases hi : i = j
  · subst hi
    have hP := htotal tx s.gov events (List.mem_append_right _ (List.mem_singleton_self _)) hid hopen
    have hvotes := hback.votes i (s'.gov.proposals i).votingDeadline ?_
    · have hvoters := Token.sum_map_le_sum s'.gov.votingPower (haudit.audit i).once
      have hsum : ∑ a, s'.gov.votingPower a = s.gov.totalVotingPower := by
        rw [hback.total, hs']
        rfl
      unfold votersPower at hvotes
      rw [(haudit.audit i).tally]
      omega
    · intro tx' g' ev' hmem
      rw [hdeadline]
      rcases List.mem_append.mp hmem with hold | hlast
      · exact (htime tx' g' ev' hold).trans hopen
      · cases List.mem_singleton.mp hlast
        exact hopen
  · have hold := h i P htotal.prior
    have hvotes : (s'.gov.proposals i).votesFor = (s.gov.proposals i).votesFor := by
      rw [hs']
      exact (withVote_record s.gov tx.sender j i).1 hi
    rw [hvotes, hdeadline, withdrawn_snoc]
    omega

theorem VotesWithin.step (h : VotesWithin s.gov log) (hback : Backed s.gov log)
    (haudit : Audited s.gov log) (he : Effect env s tx s' events)
    (htime : ∀ tx' g' ev', (Action.call tx', g', ev') ∈ log →
      tx'.block.timestamp ≤ tx.block.timestamp) :
    VotesWithin s'.gov (log ++ [(.call tx, s.gov, events)]) := by
  have hback' := hback.step haudit he
  have haudit' := haudit.step he htime
  cases he with
  | configured | empowered | forwarded => exact h.kept fun i => .inr ⟨rfl, rfl⟩
  | @proposed vaults bps hc hdead =>
    refine h.kept fun i => ?_
    by_cases hi : i = s.gov.currentProposalId + 1
    · -- nobody has voted on the new proposal
      left
      subst hi
      have hnone := ((haudit.audit (s.gov.currentProposalId + 1)).blank (Nat.lt_succ_self _)).2
      rw [(haudit'.audit _).tally, ballots_snoc, hnone, ballotOf_of_ne (by simp [hc])]
      rfl
    · right
      have hsame := Function.update_of_ne hi
        (s.gov.newProposal tx.block tx.sender vaults bps) s.gov.proposals
      exact ⟨congrArg Proposal.votesFor hsame, congrArg Proposal.votingDeadline hsame⟩
  | cancelled | executed =>
    refine h.kept fun i => .inr ⟨?_, ?_⟩
    · exact withProposal_field Proposal.votesFor s.gov (by rfl) i
    · exact withProposal_field Proposal.votingDeadline s.gov (by rfl) i
  | voted hc hid hs hfresh hpower => exact h.vote hback' haudit' hid (open_of_active hs) rfl htime

end Steps

/-! ### Runs -/

section Runs

variable {router admin : Address} {votingPeriod executionDelay quorum : ℕ} {g₀ : Storage}

/-- **The weight of the votes.**  In every run of the deployed contract: if the total voting power is at
most `P` throughout the voting period of a proposal, then the votes for it are at most `P` and the power
that `setVotingPower` took in that period from accounts that had voted on it. -/
theorem votes_bounded (h₀ : Storage.deploy router admin votingPeriod executionDelay quorum = .ok g₀)
    (p₀ : RouterState V) {acts : List (Action V)} (htime : Chronological acts) (i P : ℕ)
    (hP : TotalWithin i P (history (State.act env) ⟨g₀, p₀⟩ acts)) :
    ((run (State.act env) ⟨g₀, p₀⟩ acts).gov.proposals i).votesFor ≤
      P + withdrawn i ((run (State.act env) ⟨g₀, p₀⟩ acts).gov.proposals i).votingDeadline
        (history (State.act env) ⟨g₀, p₀⟩ acts) := by
  have hrun : Backed (run (State.act env) ⟨g₀, p₀⟩ acts).gov (history (State.act env) ⟨g₀, p₀⟩ acts) ∧
      VotesWithin (run (State.act env) ⟨g₀, p₀⟩ acts).gov (history (State.act env) ⟨g₀, p₀⟩ acts) := by
    refine run_invariant (P := fun (s : State V) log => Backed s.gov log ∧ VotesWithin s.gov log)
      ?_ ?_
    · unfold Storage.deploy at h₀
      simp only [bind_eq_ok, revertIf_eq_ok, exists_const, pure_eq_ok] at h₀
      obtain ⟨-, -, -, rfl⟩ := h₀
      refine ⟨⟨by simp, ?_⟩, ?_⟩
      · intro i d _
        exact Nat.zero_le _
      · intro i P _
        exact Nat.zero_le _
    · rintro pre a post s' ⟨g, events⟩ hsplit ⟨hback, hvotes⟩ hx
      have haudit : Audited (run (State.act env) ⟨g₀, p₀⟩ pre).gov _ :=
        run_audited h₀ p₀ (hsplit ▸ htime).prior
      cases a with
      | elsewhere portfolio =>
        cases hx
        exact ⟨hback.kept rfl rfl fun i => rfl, hvotes.kept fun i => .inr ⟨rfl, rfl⟩⟩
      | call tx =>
        obtain ⟨rfl, heffect⟩ := act_call hx
        exact ⟨hback.step haudit heffect, hvotes.step hback haudit heffect
          fun _ _ _ hmem => htime.log_le hsplit rfl hmem⟩
  exact hrun.2 i P hP

end Runs

/-! ### Power that is moved after it has voted -/

/-- The account `21` votes with its five units, which then go to the account `22`, which votes too. -/
def votedTwice : List (Action (Address → Address → ℕ)) :=
  ballot.map .call ++
    [.call (.of 20 (.of 8 1012) (.setVotingPower 21 0)), .call (.of 20 (.of 8 1012) (.setVotingPower 22 5)),
     .call (.of 22 (.of 9 1024) (.vote 1))]

/-- The total is never above five in the whole run, and the proposal gets ten votes. -/
theorem power_votes_twice :
    Storage.deploy 1 20 3600 60 5 = .ok deployed.gov ∧ Chronological votedTwice ∧
      (∀ n ≤ votedTwice.length,
        (run (State.act ballotEnv) deployed (votedTwice.take n)).gov.totalVotingPower ≤ 5) ∧
      ((run (State.act ballotEnv) deployed votedTwice).gov.proposals 1).votesFor = 10 := by
  refine ⟨rfl, ?_, ?_, ?_⟩
  · unfold Chronological
    decide
  · decide
  · decide

/-- The ten votes are the five units there are and the five that were taken from a voter. -/
theorem votes_bounded_sample :
    withdrawn 1 4600 (history (State.act ballotEnv) deployed votedTwice) = 5 ∧
      ((run (State.act ballotEnv) deployed votedTwice).gov.proposals 1).votesFor ≤
        5 + withdrawn 1 4600 (history (State.act ballotEnv) deployed votedTwice) := by
  have htotal : (history (State.act ballotEnv) deployed votedTwice).all
      (fun x => decide (x.2.1.totalVotingPower ≤ 5)) = true := by decide
  have htime : Chronological votedTwice := by
    unfold Chronological
    decide
  have hdeploy : Storage.deploy 1 20 3600 60 5 = .ok deployed.gov := rfl
  refine ⟨by decide, votes_bounded hdeploy RouterState.weightedRouter htime 1 5 ?_⟩
  intro tx g ev hmem _ _
  exact of_decide_eq_true (List.all_eq_true.mp htotal _ hmem)

end RobotMoney.Governance
