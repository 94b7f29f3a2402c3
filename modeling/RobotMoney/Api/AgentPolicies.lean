import RobotMoney.Api.RouterState
import RobotMoney.Gateway.Standing

/-!
# The policies that are indexed

The indexer inserts a row of `agent_policies` for every `AgentAuthorized` and `AgentRevoked` of the gateway, so
the newest row of an address is that of its last assignment (`Polices.newest`).  The expiry is the one number
that does not fit its column: it is read as signed, so the row agrees with the gateway exactly if the policy
that stands expires before 2⁶³ (`policies_mirror_iff`).  `GET /v1/agents/:address`, which does not show the
expiry, is right anyway: `getAgent_authorized`.
-/

namespace RobotMoney.Api

open RobotMoney.Lib
open RobotMoney.Indexer
open RobotMoney.Gateway (AgentPolicy GatewayEvent State)

/-! ### Events and rows -/

/-- The events that the table of policies is made of. -/
def policed : LogData → Option Event
  | .event (.agentAuthorized agent owner validUntil maxPerPayment maxPerWindow shareReceiver) =>
    some (.agentAuthorized agent owner validUntil maxPerPayment maxPerWindow shareReceiver)
  | .event (.agentRevoked agent owner) => some (.agentRevoked agent owner)
  | _ => none

/-- The same events, as the gateway emits them. -/
def policingEvent : GatewayEvent → Option Event
  | .agentAuthorized agent owner validUntil maxPerPayment maxPerWindow shareReceiver =>
    some (.agentAuthorized agent owner validUntil maxPerPayment maxPerWindow shareReceiver)
  | .agentRevoked agent owner => some (.agentRevoked agent owner)
  | _ => none

/-- The events of a run of the gateway, in their order. -/
def policingIn {V : Type} (log : Gateway.Log V) : List Event :=
  (log.flatMap fun x => x.2.events).filterMap policingEvent

theorem event_of_policed {data : LogData} {ev : Event} (h : policed data = some ev) : data = .event ev := by
  unfold policed at h
  split at h <;> cases h <;> rfl

/-- What an event says of a policy, as in `Gateway.policing`. -/
def saidOf : Event → Option (Address × Address × Option (ℕ × ℕ × ℕ × Address))
  | .agentAuthorized agent owner validUntil maxPerPayment maxPerWindow shareReceiver =>
    some (agent, owner, some (validUntil, maxPerPayment, maxPerWindow, shareReceiver))
  | .agentRevoked agent owner => some (agent, owner, none)
  | _ => none

theorem saidOf_policingEvent {ev : GatewayEvent} : (policingEvent ev).bind saidOf = Gateway.policing ev := by
  cases ev <;> rfl

/-- What a row says, its position apart. -/
structure PolicyContent where
  agent : Address
  revoked : Bool
  validUntil : Option ℤ
  maxPerPayment : Option ℕ
  maxPerWindow : Option ℕ
  shareReceiver : Option Address
  deriving DecidableEq

def contentOf (r : PolicyRow) : PolicyContent :=
  ⟨r.agent, r.revoked, r.validUntil, r.maxPerPayment, r.maxPerWindow, r.shareReceiver⟩

/-- What is written of an announcement. -/
def written : Address × Address × Option (ℕ × ℕ × ℕ × Address) → PolicyContent
  | (agent, _, some (validUntil, maxPerPayment, maxPerWindow, shareReceiver)) =>
    ⟨agent, false, some (asI64 validUntil), some maxPerPayment, some maxPerWindow, some shareReceiver⟩
  | (agent, _, none) => ⟨agent, true, none, none, none, none⟩

section Rows

variable {cfg : IndexerConfig} {e : LogEntry} {logs : List LogEntry}

theorem rowOf_policies :
    (rowOf cfg Record.policyRow e).map contentOf = ((policed e.log.data).bind saidOf).map written := by
  unfold rowOf recordOf policed
  cases e.log.data with
  | foreign => rfl
  | raw t => rfl
  | event ev => cases ev <;> rfl

/-- The rows say what the events say. -/
theorem rowsOf_policies : (rowsOf cfg Record.policyRow logs).map contentOf =
    ((logs.filterMap fun e => policed e.log.data).filterMap saidOf).map written := by
  unfold rowsOf
  rw [List.map_filterMap, List.filterMap_filterMap, List.map_filterMap]
  exact List.filterMap_congr fun e _ => rowOf_policies

end Rows

/-- The row of an address with the greatest position. -/
def NewestRow (db : Db) (a : Address) (r : PolicyRow) : Prop :=
  Newest (fun r r' : PolicyRow => r.toLogPosition.Before r'.toLogPosition) (fun r => r.agent) a db.agentPolicies r

/-- The API answers with the newest row. -/
theorem getAgent_newest {state : AppState} {api : Database} {db : Db} {a : Address} {r : PolicyRow}
    (hperm : ((api.agentPolicies.filter (onChain state.chainId)).map Stamped.row).Perm db.agentPolicies)
    (hrows : db.agentPolicies.Pairwise fun r r' => r.toLogPosition.Before r'.toLogPosition)
    (hr : NewestRow db a r) {text : String} (htext : decodeAddressParam text = .ok a) :
    getAgent state api text = .ok (.agent (some ⟨addrToHex a, !r.revoked, r.maxPerWindow.map decToString,
      r.blockNumber⟩) (latestFreshness state api)) := by
  have hlatest := (newest_iff (fun _ _ hbefore => hbefore.asymm) hrows).mp hr
  have hof : ((selectOn state.chainId api.agentPolicies fun r => decide (r.row.agent = a)).map
      Stamped.row).Perm (db.agentPolicies.filter fun r => r.agent = a) := by
    rw [selectOn_eq]
    have hfilter := hperm.filter fun r : PolicyRow => decide (r.agent = a)
    rwa [List.filter_map] at hfilter
  have hsorted : (descending₂ (fun r => r.row.blockNumber) (fun r => r.row.logIndex)
      (selectOn state.chainId api.agentPolicies fun r => decide (r.row.agent = a))).map Stamped.row =
        (db.agentPolicies.filter fun r => r.agent = a).reverse := descending₂_rows hof (hrows.filter _)
  have hhead : ((descending₂ (fun r => r.row.blockNumber) (fun r => r.row.logIndex)
      (selectOn state.chainId api.agentPolicies fun r => decide (r.row.agent = a))).head?).map Stamped.row =
        some r := by
    rw [← List.head?_map, hsorted, List.head?_reverse]
    exact hlatest
  obtain ⟨x, hx, rfl⟩ := Option.map_eq_some_iff.mp hhead
  unfold getAgent
  rw [htext]
  show Except.ok (Response.agent (Option.map _ _) _) = _
  rw [hx]
  rfl

/-! ### Runs -/

section Runs

variable {V : Type} {env : Gateway.Env V} {s₀ : State V} {cfg : IndexerConfig} {chain : Chain} {db : Db}
  {txs : List (Tx (State.GatewayCall V))} {a : Address} {r : PolicyRow}

/-- The indexer after a run of the gateway: it has indexed a chain with the gateway's events up to its cursor,
without an error. -/
structure Polices (cfg : IndexerConfig) (env : Gateway.Env V) (chain : Chain) (log : Gateway.Log V)
    (db : Db) : Prop where
  gateway : cfg.gateway = env.self
  numbered : Numbered chain
  indexed : Indexes cfg chain Db.empty db
  emits : Emits policed cfg.gateway cfg chain (fromBlock (db.lastIndexedBlock cfg.chainId)) (policingIn log)

/-- The rows of the table are those of the logs. -/
theorem Polices.rows {log : Gateway.Log V} (h : Polices cfg env chain log db) :
    db.agentPolicies = rowsOf cfg Record.policyRow
      (logsIn cfg chain 0 (fromBlock (db.lastIndexedBlock cfg.chainId))) := by
  rw [← policies_of_logs h.numbered, ← h.indexed.events]
  rfl

theorem Polices.before {log : Gateway.Log V} (h : Polices cfg env chain log db) :
    db.agentPolicies.Pairwise fun r r' => r.toLogPosition.Before r'.toLogPosition := by
  rw [h.rows]
  exact rowsOf_before h.numbered fun _ _ => position_of_policyRow

/-- And they say what the calls did. -/
theorem Polices.contents (h : Polices cfg env chain (history (State.exec env) s₀ txs) db) :
    db.agentPolicies.map contentOf =
      (Gateway.assignmentsIn (history (State.exec env) s₀ txs)).map fun x =>
        written (Gateway.announcement x.1 x.2) := by
  have hwatched : cfg.gateway ∈ cfg.watchedAddresses := by
    unfold IndexerConfig.watchedAddresses
    simp
  have hsaid : (policingIn (history (State.exec env) s₀ txs)).filterMap saidOf =
      (Gateway.assignmentsIn (history (State.exec env) s₀ txs)).map fun x =>
        Gateway.announcement x.1 x.2 := by
    rw [← Gateway.policingIn_eq]
    unfold policingIn
    rw [List.filterMap_filterMap]
    exact List.filterMap_congr fun ev _ => saidOf_policingEvent
  rw [h.rows, rowsOf_policies, h.emits.watched (fun _ _ => event_of_policed) hwatched, hsaid, List.map_map]
  rfl

theorem agent_written {sender : Address} {x : Address × Option AgentPolicy} :
    (written (Gateway.announcement sender x)).agent = x.1 := by
  obtain ⟨agent, p⟩ := x
  cases p <;> rfl

/-- **The newest row** of an address says what its last assignment did. -/
theorem Polices.newest (h : Polices cfg env chain (history (State.exec env) s₀ txs) db)
    {x : Address × Address × Option AgentPolicy}
    (hx : Gateway.lastAssignment a (history (State.exec env) s₀ txs) = some x) :
    ∃ r, NewestRow db a r ∧ contentOf r = written (Gateway.announcement x.1 x.2) := by
  have hmap : (latest (fun r : PolicyRow => (contentOf r).agent) a db.agentPolicies).map contentOf =
      some (written (Gateway.announcement x.1 x.2)) := by
    rw [← latest_map contentOf PolicyContent.agent, h.contents, latest_map]
    simp only [agent_written]
    unfold Gateway.lastAssignment at hx
    rw [hx]
    rfl
  obtain ⟨r, hr, hcontent⟩ := Option.map_eq_some_iff.mp hmap
  exact ⟨r, newest_of_latest h.before hr, hcontent⟩

/-- Read as signed, a number of 64 bits is the same only below 2⁶³. -/
theorem asI64_eq_iff {n : ℕ} : asI64 n = n ↔ n < 2 ^ 63 := by
  have hmod := Nat.mod_lt n (show 0 < 2 ^ 64 by decide)
  unfold asI64
  split
  · rename_i hlt
    constructor
    · intro h
      have h : n % 2 ^ 64 = n := by exact_mod_cast h
      omega
    · intro h
      rw [Nat.mod_eq_of_lt (by omega)]
  · rename_i hge
    constructor
    · intro h
      omega
    · intro h
      rw [Nat.mod_eq_of_lt (by omega)] at hge
      exact absurd h hge

/-- A row has the policy: it is no revocation exactly if the policy is active, and then it has the numbers and
the receiver. -/
def Shows (p : AgentPolicy) (r : PolicyRow) : Prop :=
  (r.revoked = false ↔ p.active = true) ∧
    (p.active = true → r.validUntil = some (p.validUntil : ℤ) ∧ r.maxPerPayment = some p.maxPerPayment ∧
      r.maxPerWindow = some p.maxPerWindow ∧ r.shareReceiver = some p.shareReceiver)

theorem shows_of_set {sender agent : Address} {p : AgentPolicy} (hactive : p.active = true)
    (h : contentOf r = written (Gateway.announcement sender (agent, some p))) :
    Shows p r ↔ p.validUntil < 2 ^ 63 := by
  obtain ⟨-, hrevoked, hvalid, hpayment, hwindow, hreceiver⟩ := PolicyContent.mk.injEq .. ▸ h
  rw [← asI64_eq_iff]
  constructor
  · rintro ⟨-, hnumbers⟩
    have hexpiry := (hnumbers hactive).1
    rw [hvalid] at hexpiry
    exact Option.some.inj hexpiry
  · intro hexpiry
    exact ⟨iff_of_true hrevoked hactive, fun _ => ⟨hvalid.trans (congrArg some hexpiry), hpayment, hwindow,
      hreceiver⟩⟩

theorem shows_of_revoked {sender agent : Address}
    (h : contentOf r = written (Gateway.announcement sender (agent, none))) : Shows AgentPolicy.none r := by
  obtain ⟨-, hrevoked, -⟩ := PolicyContent.mk.injEq .. ▸ h
  have hinactive : ¬ AgentPolicy.none.active = true := Bool.false_ne_true
  refine ⟨iff_of_false ?_ hinactive, fun hactive => absurd hactive hinactive⟩
  rw [hrevoked]
  exact Bool.noConfusion

/-- The newest row of an address has its policy. -/
def PolicyMirrored (s : State V) (db : Db) (a : Address) : Prop := ∃ r, NewestRow db a r ∧ Shows (s.agents a) r

theorem Polices.mirrored_iff {log : Gateway.Log V} {s : State V} (h : Polices cfg env chain log db)
    (hr : NewestRow db a r) : PolicyMirrored s db a ↔ Shows (s.agents a) r := by
  have hunique : ∀ {r'}, NewestRow db a r' ↔ latest (fun r => r.agent) a db.agentPolicies = some r' :=
    newest_iff (fun _ _ hbefore => hbefore.asymm) h.before
  constructor
  · rintro ⟨r', hr', hshows⟩
    have hsame := (hunique.mp hr').symm.trans (hunique.mp hr)
    cases hsame
    exact hshows
  · intro hshows
    exact ⟨r, hr, hshows⟩

section Deployed

variable {vaultAsset admin pauser : Address} {world : Gateway.World V}

/-- **The policies that are indexed.**  After any run of the gateway, for every address that ever had a policy:
its newest row has the policy that the gateway has on record exactly if the last call that gave it one or took
it away gave it none that expires at 2⁶³ or later. -/
theorem policies_mirror_iff (h₀ : Gateway.deploy env vaultAsset admin pauser world = .ok s₀)
    (txs : List (Tx (State.GatewayCall V)))
    (h : Polices cfg env chain (history (State.exec env) s₀ txs) db)
    (hhad : ∃ pre, pre <+: txs ∧ ((run (State.exec env) s₀ pre).agents a).active = true) :
    PolicyMirrored (run (State.exec env) s₀ txs) db a ↔
      ∀ p, Gateway.standing a (history (State.exec env) s₀ txs) = some p → p.validUntil < 2 ^ 63 := by
  have hblank := Gateway.deploy_agents h₀
  obtain ⟨x, hx⟩ := Option.ne_none_iff_exists'.mp (Gateway.lastAssignment_ne_none hblank hhad)
  obtain ⟨r, hr, hcontent⟩ := h.newest hx
  have hstanding : Gateway.standing a (history (State.exec env) s₀ txs) = x.2.2 := by
    unfold Gateway.standing
    rw [hx]
    rfl
  rw [h.mirrored_iff hr, Gateway.run_agents hblank, hstanding]
  obtain ⟨sender, agent, p⟩ := x
  cases p with
  | none =>
    refine iff_of_true (shows_of_revoked hcontent) ?_
    intro p hp
    cases hp
  | some p =>
    have hactive := (Gateway.standing_valid hstanding).active
    rw [Option.getD_some, shows_of_set hactive hcontent]
    exact ⟨fun hlt p' hp' => Option.some.inj hp' ▸ hlt, fun hall => hall p rfl⟩

/-- **The answer of the API** tells whether the agent is authorized, and the cap of its window. -/
theorem getAgent_authorized (h₀ : Gateway.deploy env vaultAsset admin pauser world = .ok s₀)
    (txs : List (Tx (State.GatewayCall V)))
    (h : Polices cfg env chain (history (State.exec env) s₀ txs) db) {state : AppState} {api : Database}
    (hreads : Reads state cfg db api)
    (hhad : ∃ pre, pre <+: txs ∧ ((run (State.exec env) s₀ pre).agents a).active = true)
    {text : String} (htext : decodeAddressParam text = .ok a) :
    ∃ block freshness, getAgent state api text = .ok (.agent (some
      ⟨addrToHex a, ((run (State.exec env) s₀ txs).agents a).active,
        (Gateway.standing a (history (State.exec env) s₀ txs)).map fun p => decToString p.maxPerWindow,
        block⟩) freshness) := by
  have hblank := Gateway.deploy_agents h₀
  obtain ⟨x, hx⟩ := Option.ne_none_iff_exists'.mp (Gateway.lastAssignment_ne_none hblank hhad)
  obtain ⟨r, hr, hcontent⟩ := h.newest hx
  have hstanding : Gateway.standing a (history (State.exec env) s₀ txs) = x.2.2 := by
    unfold Gateway.standing
    rw [hx]
    rfl
  rw [getAgent_newest hreads.policies h.before hr htext, Gateway.run_agents hblank, hstanding]
  refine ⟨r.blockNumber, latestFreshness state api, ?_⟩
  obtain ⟨sender, agent, p⟩ := x
  obtain ⟨-, hrevoked, -, -, hwindow, -⟩ := PolicyContent.mk.injEq .. ▸ hcontent
  cases p with
  | none =>
    rw [hrevoked, hwindow]
    rfl
  | some p =>
    rw [hrevoked, hwindow, Option.getD_some, (Gateway.standing_valid hstanding).active]
    rfl

end Deployed

end Runs

/-! ### A policy that is set, taken away and set again, and one that never expires -/

section Sample

open RobotMoney.Gateway (deployed mockVault upTo100)

/-- The depositor authorizes the agent, takes the authorization back, and gives it again with the policy. -/
def reauthorized (p : AgentPolicy) : List (Tx (State.GatewayCall Unit)) :=
  [.of 5 (.of 2 1000) (.authorizeAgent 7 upTo100), .of 5 (.of 2 1000) (.revokeAgent 7),
   .of 5 (.of 2 1000) (.authorizeAgent 7 p)]

/-- The block with their events. -/
def policyBlock (p : AgentPolicy) : Indexer.Block where
  timestamp := 1000
  txs := []
  logs :=
    [⟨1, .event (.agentAuthorized 7 5 1000000 100 100 5), 80, 0, 0⟩,
     ⟨1, .event (.agentRevoked 7 5), 81, 1, 1⟩,
     ⟨1, .event (.agentAuthorized 7 5 p.validUntil p.maxPerPayment p.maxPerWindow p.shareReceiver), 82, 2, 2⟩]

def policyChain (p : AgentPolicy) : Chain where
  blocks := [quietBlock 0, quietBlock 1, policyBlock p] ++ (List.range 6).map quietBlock
  nonempty := List.cons_ne_nil _ _

theorem polices_reauthorized {p : AgentPolicy}
    (hnum : Numbered (policyChain p))
    (hok : (tick (steady (policyChain p)).session governed Db.empty).1.toOption.map (fun o => o.error) = some none)
    (hcursor : (dbOf (policyChain p)).lastIndexedBlock governed.chainId = some 3)
    (hemits : Emits policed 1 governed (policyChain p) 4
      (policingIn (history (State.exec mockVault) deployed (reauthorized p)))) :
    Polices governed mockVault (policyChain p) (history (State.exec mockVault) deployed (reauthorized p))
      (dbOf (policyChain p)) := by
  refine ⟨rfl, hnum, Indexes.start.after (List.prefix_refl _) hok, ?_⟩
  rw [hcursor]
  exact hemits

/-- The agent has the policy from the first call on. -/
theorem had_reauthorized (p : AgentPolicy) : ∃ pre, pre <+: reauthorized p ∧
    ((run (State.exec mockVault) deployed pre).agents 7).active = true :=
  ⟨(reauthorized p).take 1, List.take_prefix 1 _, show ((run (State.exec mockVault) deployed
    [.of 5 (.of 2 1000) (.authorizeAgent 7 upTo100)]).agents 7).active = true by decide⟩

theorem policies_mirror_iff_reauthorized :
    PolicyMirrored (run (State.exec mockVault) deployed (reauthorized upTo100)) (dbOf (policyChain upTo100)) 7 := by
  have h : Polices governed mockVault (policyChain upTo100)
      (history (State.exec mockVault) deployed (reauthorized upTo100)) (dbOf (policyChain upTo100)) :=
    polices_reauthorized (by decide) (by decide +kernel) (by decide +kernel)
      ⟨by decide +kernel, by decide +kernel⟩
  have hstanding : Gateway.standing 7 (history (State.exec mockVault) deployed (reauthorized upTo100)) =
      some upTo100 := by decide
  refine (policies_mirror_iff Gateway.deploy_deployed (reauthorized upTo100) h
    (had_reauthorized upTo100)).mpr ?_
  intro p hp
  rw [hstanding] at hp
  cases hp
  decide

/-- As `upTo100`, with the greatest expiry. -/
def forever : AgentPolicy := { upTo100 with validUntil := 2 ^ 64 - 1 }

/-- **A policy that never expires** has the expiry `-1` in its newest row. -/
theorem forever_not_mirrored :
    Gateway.deploy mockVault 2 20 21 Gateway.agentWorld = .ok deployed ∧
      Polices governed mockVault (policyChain forever)
        (history (State.exec mockVault) deployed (reauthorized forever)) (dbOf (policyChain forever)) ∧
      (run (State.exec mockVault) deployed (reauthorized forever)).agents 7 = forever ∧
      (∃ r, NewestRow (dbOf (policyChain forever)) 7 r ∧ r.revoked = false ∧ r.validUntil = some (-1)) ∧
      ¬ PolicyMirrored (run (State.exec mockVault) deployed (reauthorized forever))
        (dbOf (policyChain forever)) 7 := by
  have h : Polices governed mockVault (policyChain forever)
      (history (State.exec mockVault) deployed (reauthorized forever)) (dbOf (policyChain forever)) :=
    polices_reauthorized (by decide) (by decide +kernel) (by decide +kernel)
      ⟨by decide +kernel, by decide +kernel⟩
  have hrecord : (run (State.exec mockVault) deployed (reauthorized forever)).agents 7 = forever := by decide
  have hlast : Gateway.lastAssignment 7 (history (State.exec mockVault) deployed (reauthorized forever)) =
      some (5, 7, some forever) := by decide
  obtain ⟨r, hr, hcontent⟩ := h.newest hlast
  have hfields := PolicyContent.mk.injEq .. ▸ hcontent
  refine ⟨rfl, h, hrecord, ⟨r, hr, hfields.2.1, hfields.2.2.1⟩, ?_⟩
  rw [h.mirrored_iff hr, hrecord, shows_of_set rfl hcontent]
  decide

end Sample

end RobotMoney.Api
