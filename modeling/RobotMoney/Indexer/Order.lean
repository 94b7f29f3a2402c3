import RobotMoney.Indexer.Replay
import RobotMoney.Indexer.Tallies
import RobotMoney.Portfolio.Listing

/-!
# The order of the contracts' events

`VaultRegistry` changes the status of registered vaults only, and `RouterGovernance` executes proposals
that were made.  So on a chain with the logs of these contracts, whatever calls they had, a change of
status comes after the registration of the vault, and an execution or a vote after the creation of the
proposal (`OfContracts.inOrder`, `OfContracts.governed`).
-/

namespace RobotMoney.Indexer

open RobotMoney.Lib
open RobotMoney.Portfolio (Registry RegistryEvent VaultStatus)
open RobotMoney.Governance (GovernanceEvent Storage Action)

/-! ### The events of the registry -/

/-- The status as the `uint8` of an event. -/
def statusCode : VaultStatus → ℕ
  | .active => 0
  | .paused => 1
  | .retired => 2

/-- The events that the table of vaults is made of. -/
def listed : LogData → Option Event
  | .event (.vaultRegistered vault name asset) => some (.vaultRegistered vault name asset)
  | .event (.vaultStatusChanged vault newStatus timestamp) =>
    some (.vaultStatusChanged vault newStatus timestamp)
  | _ => none

/-- The same events, as the contract emits them. -/
def listing : RegistryEvent → Option Event
  | .vaultRegistered vault name asset => some (.vaultRegistered vault name asset)
  | .vaultStatusChanged vault newStatus timestamp =>
    some (.vaultStatusChanged vault (statusCode newStatus) timestamp)
  | _ => none

/-- A call of the registry, with what the accounts answer at that time. -/
abbrev Listed : Type := Tx Registry.RegistryCall × (Address → Option ℕ)

/-- The events of a run of the registry, in their order. -/
def listingIn (log : List (Listed × List RegistryEvent)) : List Event :=
  (log.flatMap fun x => x.2).filterMap listing

/-- The event registers the vault. -/
def RegistersVault (ev : Event) (v : Address) : Prop := ∃ name asset, ev = .vaultRegistered v name asset

/-- The event changes the status of the vault. -/
def ChangesVault (ev : Event) (v : Address) : Prop :=
  ∃ newStatus timestamp, ev = .vaultStatusChanged v newStatus timestamp

theorem event_of_listed {data : LogData} {ev : Event} (h : listed data = some ev) : data = .event ev := by
  unfold listed at h
  split at h <;> cases h <;> rfl

theorem onRoles_events {g g' : Registry} {events : List RegistryEvent}
    {x : Call Portfolio.RegistryError (Roles Portfolio.AdminRole Address)}
    (h : g.onRoles x = .ok (g', events)) : g'.registered = g.registered ∧ events = [] := by
  obtain ⟨roles, -, h⟩ := bind_eq_ok.mp h
  cases h
  exact ⟨rfl, rfl⟩

/-- A call of the registry: a vault that is registered after it was so before, or an event says so; and
the status that an event changes is of a vault that was registered. -/
theorem exec_listing {g g' : Registry} {i : Listed} {events : List RegistryEvent}
    (h : g.exec i = .ok (g', events)) :
    (∀ v, g'.registered v = true → g.registered v = true ∨
      ∃ ev ∈ events.filterMap listing, RegistersVault ev v) ∧
    ∀ ev ∈ events.filterMap listing, ∀ v, ChangesVault ev v → g.registered v = true := by
  have hquiet : g'.registered = g.registered → events.filterMap listing = [] →
      (∀ v, g'.registered v = true → g.registered v = true ∨
        ∃ ev ∈ events.filterMap listing, RegistersVault ev v) ∧
      ∀ ev ∈ events.filterMap listing, ∀ v, ChangesVault ev v → g.registered v = true := by
    intro hreg hnone
    rw [hreg, hnone]
    exact ⟨fun v hv => .inl hv, fun ev hev => by cases hev⟩
  unfold Registry.exec at h
  split at h
  case h_1 vault name asset hcall =>
    simp only [Registry.registerVault, bind_eq_ok, pure_eq_ok, Prod.mk.injEq] at h
    obtain ⟨-, -, -, -, -, -, rfl, rfl⟩ := h
    refine ⟨?_, ?_⟩
    · intro v hv
      by_cases hvault : v = vault
      · subst hvault
        exact .inr ⟨_, List.mem_singleton_self _, name, asset, rfl⟩
      · have hv : Function.update g.registered vault true v = true := hv
        rw [Function.update_of_ne hvault] at hv
        exact .inl hv
    · intro ev hev v hchange
      have hev : ev ∈ [Event.vaultRegistered vault name asset] := hev
      rw [List.mem_singleton.mp hev] at hchange
      obtain ⟨_, _, heq⟩ := hchange
      cases heq
  case h_2 vault newStatus hcall =>
    simp only [Registry.setVaultStatus, bind_eq_ok, revertIf_eq_ok, exists_const, pure_eq_ok,
      Prod.mk.injEq, Bool.not_eq_false] at h
    obtain ⟨-, -, hreg, rfl, rfl⟩ := h
    refine ⟨fun v hv => .inl hv, ?_⟩
    intro ev hev v hchange
    have hev : ev ∈ [Event.vaultStatusChanged vault (statusCode newStatus) i.1.block.timestamp] := hev
    rw [List.mem_singleton.mp hev] at hchange
    obtain ⟨_, _, heq⟩ := hchange
    cases heq
    exact hreg
  case h_3 vault eligible hcall =>
    obtain ⟨-, -, hev, ⟨-, rfl⟩ | ⟨-, n, l, -, -, -, rfl⟩⟩ := Registry.setRouterEligible_iff.mp h
    · exact hquiet rfl (by rw [hev]; rfl)
    · exact hquiet rfl (by rw [hev]; rfl)
  case h_4 newRouter hcall =>
    simp only [Registry.setRouter, bind_eq_ok, pure_eq_ok, Prod.mk.injEq] at h
    obtain ⟨-, -, -, -, -, -, rfl, rfl⟩ := h
    exact hquiet rfl rfl
  case h_5 =>
    obtain ⟨hreg, rfl⟩ := onRoles_events h
    exact hquiet hreg rfl
  case h_6 =>
    obtain ⟨hreg, rfl⟩ := onRoles_events h
    exact hquiet hreg rfl
  case h_7 =>
    obtain ⟨hreg, rfl⟩ := onRoles_events h
    exact hquiet hreg rfl

/-- **The order of the registry's events**, in every run. -/
theorem registry_inOrder {admin : Address} {g₀ : Registry} (h₀ : Registry.deploy admin = .ok g₀)
    (calls : List Listed) :
    Precedes RegistersVault ChangesVault (listingIn (history Registry.exec g₀ calls)) := by
  have hinv : (∀ v, (run Registry.exec g₀ calls).registered v = true →
      ∃ ev ∈ listingIn (history Registry.exec g₀ calls), RegistersVault ev v) ∧
      Precedes RegistersVault ChangesVault (listingIn (history Registry.exec g₀ calls)) := by
    refine run_invariant (P := fun (g : Registry) log =>
      (∀ v, g.registered v = true → ∃ ev ∈ listingIn log, RegistersVault ev v) ∧
        Precedes RegistersVault ChangesVault (listingIn log)) ?_ ?_
    · refine ⟨?_, Precedes.nil⟩
      intro v hv
      unfold Registry.deploy at h₀
      simp only [bind_eq_ok, pure_eq_ok] at h₀
      obtain ⟨-, -, rfl⟩ := h₀
      cases hv
    · rintro pre i post g' events - ⟨hreg, hord⟩ hexec
      obtain ⟨hnew, hold⟩ := exec_listing hexec
      have hsnoc : listingIn (history Registry.exec g₀ pre ++ [(i, events)]) =
          listingIn (history Registry.exec g₀ pre) ++ events.filterMap listing := by
        simp [listingIn]
      rw [hsnoc]
      refine ⟨?_, hord.append fun ev hev v hchange => hreg v (hold ev hev v hchange)⟩
      intro v hv
      rcases hnew v hv with hv | ⟨ev, hev, hregisters⟩
      · obtain ⟨ev, hev, hregisters⟩ := hreg v hv
        exact ⟨ev, List.mem_append_left _ hev, hregisters⟩
      · exact ⟨ev, List.mem_append_right _ hev, hregisters⟩
  exact hinv.2

/-! ### The events of the governance -/

/-- The event creates the proposal. -/
def CreatesProposal (ev : Event) (i : ℕ) : Prop :=
  ∃ proposer vaults bps deadline, ev = .proposalCreated i proposer vaults bps deadline

/-- The event executes the proposal. -/
def ExecutesProposal (ev : Event) (i : ℕ) : Prop := ∃ executor, ev = .proposalExecuted i executor

/-- The event is a vote on the proposal. -/
def VotesOnProposal (ev : Event) (i : ℕ) : Prop := ∃ voter power totalFor, ev = .voteCast i voter power totalFor

/-- The proposal has to be there for the event. -/
def NeedsProposal (ev : Event) (i : ℕ) : Prop := ExecutesProposal ev i ∨ VotesOnProposal ev i

section Governance

variable {V : Type} {env : Governance.Env V} {s s' : Governance.State V}

open Governance.State in
/-- A call of the governance: a proposal that is there after it was there before, or an event says so; and
the proposal that an event needs was there. -/
theorem exec_announced {tx : Tx GovernanceCall} {events : List GovernanceEvent}
    (h : s.exec env tx = .ok (s', events)) :
    (∀ i, (s'.gov.proposals i).id ≠ 0 → (s.gov.proposals i).id ≠ 0 ∨
      ∃ ev ∈ events.filterMap announced, CreatesProposal ev i) ∧
    ∀ ev ∈ events.filterMap announced, ∀ i, NeedsProposal ev i → (s.gov.proposals i).id ≠ 0 := by
  have hquiet : (∀ i, (s'.gov.proposals i).id = (s.gov.proposals i).id) →
      (∀ ev ∈ events.filterMap announced, ∀ i, ¬ NeedsProposal ev i) →
      (∀ i, (s'.gov.proposals i).id ≠ 0 → (s.gov.proposals i).id ≠ 0 ∨
        ∃ ev ∈ events.filterMap announced, CreatesProposal ev i) ∧
      ∀ ev ∈ events.filterMap announced, ∀ i, NeedsProposal ev i → (s.gov.proposals i).id ≠ 0 := by
    intro hid hno
    exact ⟨fun i hi => .inl (hid i ▸ hi), fun ev hev i hx => absurd hx (hno ev hev i)⟩
  have hnone : events.filterMap announced = [] →
      ∀ ev ∈ events.filterMap announced, ∀ i, ¬ NeedsProposal ev i := by
    intro hnil ev hev
    rw [hnil] at hev
    cases hev
  have hkept : ∀ (j : ℕ) (q : Governance.Proposal), q.id = (s.gov.proposals j).id →
      ∀ i, ((s.gov.withProposal j q).proposals i).id = (s.gov.proposals i).id := by
    intro j q hq i
    by_cases hi : i = j
    · subst hi
      simpa [Storage.withProposal] using hq
    · simp [Storage.withProposal, Function.update_of_ne hi]
  cases Governance.exec_effect h with
  | configured hc hq he => exact hquiet (fun _ => rfl) (hnone (announced_of_configures h hc))
  | empowered hc hle => exact hquiet (fun _ => rfl) (hnone rfl)
  | forwarded hc he => exact hquiet (fun _ => rfl) (hnone announced_router)
  | cancelled hc hid hnx hnc => exact hquiet (hkept _ _ rfl) (hnone rfl)
  | @voted j hc hid hs hfresh hpower =>
    have hids := hkept j { s.gov.proposals j with
      votesFor := (s.gov.proposals j).votesFor + s.gov.votingPower tx.sender } rfl
    refine ⟨fun i hi => .inl (hids i ▸ hi), ?_⟩
    intro ev hev i hneeds
    have hev : ev ∈ [Event.voteCast j tx.sender (s.gov.votingPower tx.sender)
      ((s.gov.proposals j).votesFor + s.gov.votingPower tx.sender)] := hev
    obtain rfl := List.mem_singleton.mp hev
    rcases hneeds with ⟨executor, hexecutes⟩ | ⟨voter, power, totalFor, hvotes⟩
    · cases hexecutes
    · cases hvotes
      exact hid
  | @proposed vaults bps hc hdead =>
    refine ⟨?_, ?_⟩
    · intro i hi
      by_cases hnew : i = s.gov.currentProposalId + 1
      · subst hnew
        exact .inr ⟨_, List.mem_singleton_self _, _, _, _, _, rfl⟩
      · have hi : (Function.update s.gov.proposals (s.gov.currentProposalId + 1) _ i).id ≠ 0 := hi
        rw [Function.update_of_ne hnew] at hi
        exact .inl hi
    · intro ev hev i hneeds
      have hev : ev ∈ [Event.proposalCreated (s.gov.currentProposalId + 1) tx.sender vaults bps
        (tx.block.timestamp + s.gov.votingPeriod)] := hev
      obtain rfl := List.mem_singleton.mp hev
      rcases hneeds with ⟨executor, hexecutes⟩ | ⟨voter, power, totalFor, hvotes⟩
      · cases hexecutes
      · cases hvotes
  | @executed j portfolio ev hc hid hs ht hr =>
    have hids := hkept j { s.gov.proposals j with executed := true } rfl
    refine ⟨fun i hi => .inl (hids i ▸ hi), ?_⟩
    intro ev' hev i hneeds
    rw [List.filterMap_append, announced_router, List.nil_append] at hev
    have hev : ev' ∈ [Event.proposalExecuted j tx.sender] := hev
    obtain rfl := List.mem_singleton.mp hev
    rcases hneeds with ⟨executor, hexecutes⟩ | ⟨voter, power, totalFor, hvotes⟩
    · cases hexecutes
      exact hid
    · cases hvotes

/-- **The order of the governance's events**, in every run. -/
theorem governance_ordered {router admin : Address} {votingPeriod executionDelay quorum : ℕ}
    {g₀ : Storage} (h₀ : Storage.deploy router admin votingPeriod executionDelay quorum = .ok g₀)
    (p₀ : Portfolio.RouterState V) (acts : List (Action V)) :
    Precedes CreatesProposal NeedsProposal
      (announcedIn (history (Governance.State.act env) ⟨g₀, p₀⟩ acts)) := by
  have hinv : (∀ i, ((run (Governance.State.act env) ⟨g₀, p₀⟩ acts).gov.proposals i).id ≠ 0 →
      ∃ ev ∈ announcedIn (history (Governance.State.act env) ⟨g₀, p₀⟩ acts), CreatesProposal ev i) ∧
      Precedes CreatesProposal NeedsProposal
        (announcedIn (history (Governance.State.act env) ⟨g₀, p₀⟩ acts)) := by
    refine run_invariant (P := fun (s : Governance.State V) log =>
      (∀ i, (s.gov.proposals i).id ≠ 0 → ∃ ev ∈ announcedIn log, CreatesProposal ev i) ∧
        Precedes CreatesProposal NeedsProposal (announcedIn log)) ?_ ?_
    · refine ⟨?_, Precedes.nil⟩
      intro i hi
      unfold Storage.deploy at h₀
      simp only [bind_eq_ok, pure_eq_ok] at h₀
      obtain ⟨-, -, -, -, -, -, rfl⟩ := h₀
      exact absurd rfl hi
    · rintro pre a post s' ⟨g, events⟩ - ⟨hmade, hord⟩ hact
      rw [announcedIn_snoc]
      cases a with
      | elsewhere portfolio =>
        cases hact
        refine ⟨?_, hord.append fun ev hev => by cases hev⟩
        intro i hi
        obtain ⟨ev, hev, hcreates⟩ := hmade i hi
        exact ⟨ev, List.mem_append_left _ hev, hcreates⟩
      | call tx =>
        obtain ⟨⟨s₁, ev⟩, hx, hret⟩ := bind_eq_ok.mp hact
        obtain ⟨rfl, hr⟩ := Prod.mk.injEq .. ▸ pure_eq_ok.mp hret
        obtain ⟨rfl, rfl⟩ := Prod.mk.injEq .. ▸ hr
        obtain ⟨hnew, hold⟩ := exec_announced hx
        refine ⟨?_, hord.append fun ev hev i hneeds => hmade i (hold ev hev i hneeds)⟩
        intro i hi
        rcases hnew i hi with hi | ⟨ev, hev, hcreates⟩
        · obtain ⟨ev, hev, hcreates⟩ := hmade i hi
          exact ⟨ev, List.mem_append_left _ hev, hcreates⟩
        · exact ⟨ev, List.mem_append_right _ hev, hcreates⟩
  exact hinv.2

theorem governance_inOrder {router admin : Address} {votingPeriod executionDelay quorum : ℕ}
    {g₀ : Storage} (h₀ : Storage.deploy router admin votingPeriod executionDelay quorum = .ok g₀)
    (p₀ : Portfolio.RouterState V) (acts : List (Action V)) :
    Precedes CreatesProposal ExecutesProposal
      (announcedIn (history (Governance.State.act env) ⟨g₀, p₀⟩ acts)) :=
  (governance_ordered h₀ p₀ acts).mono fun _ _ => .inl

end Governance

/-! ### A chain of the contracts -/

/-- Below the height `h` the chain has the events `registry` of the registry and `governance` of the
governance that the service is configured with, and no other contract that it watches emits such
events. -/
structure OfContracts (cfg : IndexerConfig) (chain : Chain) (h : ℕ) (registry governance : List Event) :
    Prop where
  registry : ∀ reg, cfg.registry = some reg →
    ((logsBelow chain h).filter fun e => e.log.address = reg).filterMap (fun e => listed e.log.data) =
      registry
  governance : ∀ gov, cfg.routerGovernance = some gov →
    ((logsBelow chain h).filter fun e => e.log.address = gov).filterMap (fun e => tallied e.log.data) =
      governance
  others : ∀ e ∈ logsBelow chain h, e.log.address ∈ cfg.watchedAddresses →
    (cfg.registry ≠ some e.log.address → listed e.log.data = none) ∧
      (cfg.routerGovernance ≠ some e.log.address → tallied e.log.data = none)

variable {cfg : IndexerConfig} {chain : Chain} {n : ℕ} {registry governance : List Event}

/-- No watched account emits events of a kind. -/
theorem watched_nil {f : LogData → Option Event}
    (h : ∀ e ∈ logsBelow chain n, e.log.address ∈ cfg.watchedAddresses → f e.log.data = none) :
    (logsIn cfg chain 0 n).filterMap (fun e => f e.log.data) = [] := by
  refine List.filterMap_eq_nil_iff.mpr ?_
  intro e he
  unfold logsIn at he
  rw [Nat.sub_zero] at he
  obtain ⟨he, hw⟩ := List.mem_filter.mp he
  have hw : e.log.address ∈ cfg.watchedAddresses ∧ e.log.data.topic ≠ none := of_decide_eq_true hw
  exact h e he hw.1

/-- The events of one kind that the service is given: all of the account that emits them, or none. -/
theorem watched_cases {f : LogData → Option Event} {account : Option Address} {events : List Event}
    (hf : ∀ data ev, f data = some ev → data = .event ev)
    (hown : ∀ a, account = some a → ((logsBelow chain n).filter fun e => e.log.address = a).filterMap
      (fun e => f e.log.data) = events)
    (hothers : ∀ e ∈ logsBelow chain n, e.log.address ∈ cfg.watchedAddresses →
      account ≠ some e.log.address → f e.log.data = none) :
    (logsIn cfg chain 0 n).filterMap (fun e => f e.log.data) = events ∨
      (logsIn cfg chain 0 n).filterMap (fun e => f e.log.data) = [] := by
  cases account with
  | none => exact .inr (watched_nil fun e he hw => hothers e he hw (by simp))
  | some a =>
    by_cases hw : a ∈ cfg.watchedAddresses
    · refine .inl (watched_eq (topic_of_event hf) (hown a rfl) ?_ hw)
      intro e he hwe hne
      exact hothers e he hwe (by simpa [eq_comm] using hne)
    · refine .inr (watched_nil ?_)
      intro e he hwe
      refine hothers e he hwe ?_
      rintro heq
      cases heq
      exact hw hwe

theorem registers_of_listed {e : LogEntry} {ev : Event} {k : ℤ × Address}
    (h : listed e.log.data = some ev) (hk : k.1 = cfg.chainId) (hreg : RegistersVault ev k.2) :
    Registers cfg e k := by
  obtain ⟨name, asset, rfl⟩ := hreg
  obtain ⟨chainId, vault⟩ := k
  cases hk
  unfold Registers registrationOf
  rw [event_of_listed h]
  simp

theorem listed_of_changes {e : LogEntry} {k : ℤ × Address} (h : Changes cfg e k) :
    ∃ ev, listed e.log.data = some ev ∧ k.1 = cfg.chainId ∧ ChangesVault ev k.2 := by
  unfold Changes changeOf at h
  split at h
  · rename_i vault newStatus timestamp hdata
    split at h
    · rename_i hk
      subst hk
      exact ⟨_, by rw [hdata]; rfl, rfl, newStatus, timestamp, rfl⟩
    · exact absurd rfl h
  · exact absurd rfl h

theorem creates_of_tallied {e : LogEntry} {ev : Event} {k : ℤ × ℕ} {i : ℕ}
    (h : tallied e.log.data = some ev) (hk : k = (cfg.chainId, clampI64 i))
    (hcreates : CreatesProposal ev i) : Creates cfg e k := by
  obtain ⟨proposer, vaults, bps, deadline, rfl⟩ := hcreates
  subst hk
  unfold Creates createdBy recordOf
  rw [event_of_tallied h]
  simp [Event.record, ProposalCore.proposalKey, LogEntry.position]

theorem tallied_of_executes {e : LogEntry} {k : ℤ × ℕ} (h : Executes cfg e k) :
    ∃ ev i, tallied e.log.data = some ev ∧ k = (cfg.chainId, clampI64 i) ∧ ExecutesProposal ev i := by
  unfold Executes executionOf at h
  split at h
  · rename_i i executor hdata
    split at h
    · rename_i hk
      exact ⟨_, i, by rw [hdata]; rfl, hk.symm, executor, rfl⟩
    · exact absurd rfl h
  · exact absurd rfl h

/-- Proposals are there for the logs that need them, if they are for the events. -/
theorem OfContracts.governed (h : OfContracts cfg chain n registry governance) {needs : Event → ℕ → Prop}
    {needs' : LogEntry → ℤ × ℕ → Prop} (hgovernance : Precedes CreatesProposal needs governance)
    (hneeds : ∀ e k, needs' e k →
      ∃ ev i, tallied e.log.data = some ev ∧ k = (cfg.chainId, clampI64 i) ∧ needs ev i) :
    Precedes (Creates cfg) needs' (logsIn cfg chain 0 n) := by
  have hevents : Precedes CreatesProposal needs
      ((logsIn cfg chain 0 n).filterMap fun e => tallied e.log.data) := by
    rcases watched_cases (fun _ _ => event_of_tallied) h.governance
      (fun e he hw => (h.others e he hw).2) with heq | heq
    · rw [heq]
      exact hgovernance
    · rw [heq]
      exact Precedes.nil
  have hkeyed : Precedes (fun ev (k : ℤ × ℕ) => ∃ i, k = (cfg.chainId, clampI64 i) ∧ CreatesProposal ev i)
      (fun ev k => ∃ i, k = (cfg.chainId, clampI64 i) ∧ needs ev i)
      ((logsIn cfg chain 0 n).filterMap fun e => tallied e.log.data) := by
    rintro k pre ev post hsplit ⟨i, hk, hev⟩
    obtain ⟨ev', hev', hcreates⟩ := hevents i pre ev post hsplit hev
    exact ⟨ev', hev', i, hk, hcreates⟩
  refine hkeyed.of_filterMap ?_ ?_
  · intro e k hk
    obtain ⟨ev, i, hev, hi, hx⟩ := hneeds e k hk
    exact ⟨ev, hev, i, hi, hx⟩
  · rintro e ev k hev ⟨i, hk, hcreates⟩
    exact creates_of_tallied hev hk hcreates

/-- The logs that the service is given are in order, if the events of the contracts are. -/
theorem OfContracts.inOrder (h : OfContracts cfg chain n registry governance)
    (hregistry : Precedes RegistersVault ChangesVault registry)
    (hgovernance : Precedes CreatesProposal ExecutesProposal governance) :
    InOrder cfg (logsIn cfg chain 0 n) := by
  refine ⟨?_, ?_⟩
  · have hevents : Precedes RegistersVault ChangesVault
        ((logsIn cfg chain 0 n).filterMap fun e => listed e.log.data) := by
      rcases watched_cases (fun _ _ => event_of_listed) h.registry
        (fun e he hw => (h.others e he hw).1) with heq | heq
      · rw [heq]
        exact hregistry
      · rw [heq]
        exact Precedes.nil
    have hkeyed : Precedes (fun ev (k : ℤ × Address) => k.1 = cfg.chainId ∧ RegistersVault ev k.2)
        (fun ev k => k.1 = cfg.chainId ∧ ChangesVault ev k.2)
        ((logsIn cfg chain 0 n).filterMap fun e => listed e.log.data) := by
      rintro k pre ev post hsplit ⟨hk, hchanges⟩
      obtain ⟨ev', hev', hregisters⟩ := hevents k.2 pre ev post hsplit hchanges
      exact ⟨ev', hev', hk, hregisters⟩
    refine hkeyed.of_filterMap (fun e k => listed_of_changes) ?_
    rintro e ev k hev ⟨hk, hregisters⟩
    exact registers_of_listed hev hk hregisters
  · exact h.governed hgovernance fun e k => tallied_of_executes

end RobotMoney.Indexer
