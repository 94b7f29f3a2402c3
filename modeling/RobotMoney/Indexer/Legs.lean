import RobotMoney.Indexer.Freshness
import RobotMoney.Gateway.Surroundings

/-!
# The legs of a routed deposit

A deposit through the router leaves logs of two contracts: `AgentDepositRouted` of the gateway, whose row
has no vault, and one `RouterDeposit` of `PortfolioRouter` for each vault, whose rows are to say where the
money went.  The service joins them by the transaction.

`watched_addresses` has the gateway, the vault, the registry and `RouterGovernance`, but never the router,
and no option of the service adds it.  So whatever the node shows, only rows of logs at the other four are
inserted (`tick_only`), the table of the legs stays empty, and no routed deposit is ever accounted for
(`routed_never_accounted`).
-/

namespace RobotMoney.Indexer

open RobotMoney.Lib Fallible
open RobotMoney.Gateway (Bytes32 GatewayEvent Receipt mockSetting mockGateway mockPolicy mockAuthorization)

variable {cfg : IndexerConfig} {sess : Session} {db db' : Db} {k n : ℕ} {c : Option ℕ} {x : Record}
  {A : Record → Prop} {logs : List LogEntry}

/-! ### Rows of a kind -/

/-- All rows are of a kind. -/
def Only (A : Record → Prop) (db : Db) : Prop := ∀ x, db.Holds x → A x

/-- The rows of the watched logs that the node shows during a tick are of a kind. -/
def ShowsOnly (cfg : IndexerConfig) (A : Record → Prop) (sess : Session) : Prop :=
  ∀ m n, ∀ e ∈ logsAt (sess.node m).chain.blocks n, watches cfg e = true →
    ∀ x, recordOf cfg e = some x → A x

namespace Only

theorem unmoved (h : Only A db) (hun : Unmoved db db') : Only A db' :=
  fun x hx => h x ((hun.holds x).mp hx)

theorem belowRoot (h : Only A db) (root : ℤ) : Only A (db.belowRoot cfg.chainId root) :=
  fun x hx => h x ((holds_belowRoot x).mp hx).1

theorem insertRecord (h : Only A db) (hx : A x) (hok : Db.insertRecord x db = .ok (n, db')) :
    Only A db' := by
  intro y hy
  rcases (holds_insertRecord hok y).mp hy with hy | ⟨rfl, -⟩
  · exact h y hy
  · exact hx

theorem insertBlock (h : Only A db) {r : BlockRow} (hok : Db.insertBlock r db = .ok (n, db')) :
    Only A db' := by
  have hholds : ∀ y, db'.Holds y ↔ db.Holds y := by
    cases hok
    intro y
    cases y <;> exact Iff.rfl
  intro y hy
  exact h y ((hholds y).mp hy)

theorem empty : Only A Db.empty := by
  intro x hx
  cases x <;> simp [Db.Holds, Db.empty] at hx

end Only

theorem ingestBlock_only :
    Triple (On (Only A)) (ingestBlock sess cfg n) (fun _ => On (Only A)) (On (Only A)) := by
  unfold ingestBlock
  refine triple_bind (Q := fun _ => On (Only A)) (triple_conseq (blockWithTxs_past (k := 0))
    (fun w hs => ⟨Nat.zero_le _, hs⟩) (fun r w hs => hs.2.2) fun w hs => hs) ?_
  rintro ⟨header, txs⟩
  refine triple_bind (sql_keeps ?_) ?_
  · intro db r db' h hok
    exact h.insertBlock hok
  intro r
  refine triple_bind (triple_total_keeps ?_) ?_
  · intro t _
    refine sql_keeps ?_
    intro db r db' h hok
    cases hok
    exact h.unmoved (unmoved_of_tables rfl rfl rfl rfl rfl rfl rfl)
  · intro rs
    exact triple_pure fun _ hs => hs

theorem ingestCursor_only :
    Triple (On (Only A)) (ingestCursor sess cfg logs n) (fun _ => On (Only A)) (On (Only A)) := by
  unfold ingestCursor
  split
  · exact triple_pure fun _ hs => hs
  · refine triple_bind read_keeps ?_
    intro header
    cases header with
    | none => exact triple_pure fun _ hs => hs
    | some header =>
      refine sql_keeps ?_
      intro db r db' h hok
      exact h.insertBlock hok

theorem handleLog_only {e : LogEntry} (he : ∀ x, recordOf cfg e = some x → A x) :
    Triple (On (Only A)) (handleLog sess cfg e) (fun _ => On (Only A)) (On (Only A)) := by
  unfold handleLog
  cases hdata : e.log.data with
  | foreign => exact triple_pure fun _ hs => hs
  | raw t =>
    dsimp only
    split
    · exact triple_fail fun _ hs => hs
    · exact triple_pure fun _ hs => hs
  | event ev =>
    dsimp only
    cases hrecord : ev.record cfg e with
    | none => exact handleUpdate_keeps fun db db' h hun => h.unmoved hun
    | some x =>
      have hx : recordOf cfg e = some x := by
        unfold recordOf
        rw [hdata]
        exact hrecord
      refine sql_keeps ?_
      intro db r db' h hok
      exact h.insertRecord (he x hx) hok

theorem ingestLogs_only (hlogs : ∀ e ∈ logs, ∀ x, recordOf cfg e = some x → A x) :
    Triple (On (Only A)) (ingestLogs sess cfg logs n) (fun _ => On (Only A)) (On (Only A)) := by
  have hsnap : ∀ r n db db', Only A db → Db.insertVaultSnapshot r db = .ok (n, db') → Only A db' :=
    fun r n db db' h hok => h.unmoved (unmoved_insertVaultSnapshot hok)
  unfold ingestLogs
  refine triple_bind (triple_total_keeps fun n _ => ingestBlock_only) ?_
  intro r₁
  refine triple_bind ingestCursor_only ?_
  intro r₂
  refine triple_bind (triple_total_keeps fun e he => handleLog_only (hlogs e he)) ?_
  intro r₃
  refine triple_bind (triple_total_keeps fun b _ => snapshotAt_keeps hsnap) ?_
  intro r₄
  refine triple_bind select_keeps ?_
  intro active
  refine triple_bind (triple_total_keeps fun a _ => heartbeat_keeps hsnap) ?_
  intro r₅
  exact triple_pure fun _ hs => hs

theorem AfterCheck.only {d : Db} {r : Option ℕ} (h : AfterCheck cfg sess k c d r db) (hd : Only A d) :
    Only A db := by
  cases h with
  | quiet => exact hd
  | rolled => exact hd.belowRoot _

theorem runInner_only (hshown : ShowsOnly cfg A sess) :
    Triple (At k (Only A)) (runInner sess cfg c) (fun _ => On (Only A)) (On (Only A)) := by
  rintro w ⟨hk, hw⟩
  suffices h : Triple (At k (· = w.db)) (runInner sess cfg c) (fun _ => On (Only A)) (On (Only A)) from
    h w ⟨hk, rfl⟩
  rw [runInner_eq]
  refine triple_bind (triple_error fetch_at ?_) ?_
  · rintro w' (h | ⟨r, h⟩)
    · show Only A w'.db
      rw [h]
      exact hw
    · exact h.only hw
  intro f
  unfold resume
  cases hf : f.2 with
  | none =>
    refine triple_pure ?_
    rintro w' ⟨h, -⟩
    exact h.only hw
  | some t =>
    -- the logs are watched logs of the chain at one of the calls
    refine triple_of_fact (p := ∀ e ∈ t.2, ∀ x, recordOf cfg e = some x → A x) ?_ ?_
    · rintro w' ⟨-, h⟩ e he
      obtain ⟨m, -, -, hlogs⟩ := h t.1 t.2 rfl
      rw [hlogs] at he
      obtain ⟨hwatched, j, -, -, hmem⟩ := mem_watchedLogs.mp he
      exact hshown m j e hmem hwatched
    intro hlogs
    refine triple_bind (triple_pre (ingestLogs_only hlogs) ?_) ?_
    · rintro w' ⟨h, -⟩
      exact h.only hw
    · intro rows
      exact triple_pure fun _ hs => hs

/-- **One tick**, on whatever chains the node shows, inserts rows of watched logs only. -/
theorem tick_only (hshown : ShowsOnly cfg A sess) (h : Only A db) : Only A (tick sess cfg db).2 := by
  have hrun : Triple (At 0 (· = db)) (runOnce sess cfg) (fun _ => On (Only A)) (On (Only A)) := by
    rw [runOnce_eq]
    refine triple_bind (triple_error openRun_at fun w hs => h.unmoved hs) ?_
    intro r
    have hframe : ∀ db db', Only A db → Unmoved db db' → Only A db' := fun _ _ h hun => h.unmoved hun
    refine triple_conseq (finishTick_keeps hframe hframe (runInner_only (k := startCalls cfg) hshown)) ?_
      ?_ ?_
    · rintro w ⟨hcalls, hun, -⟩
      exact ⟨hcalls, h.unmoved hun⟩
    · rintro o w ⟨hs, -⟩
      exact hs.elim id id
    · intro w hs
      exact hs.elim id id
  have hend := hrun ⟨db, 0⟩ ⟨rfl, rfl⟩
  unfold tick
  rcases hx : runOnce sess cfg ⟨db, 0⟩ with ⟨e | o, w⟩
  · rw [hx] at hend
    exact hend
  · rw [hx] at hend
    exact hend

/-- A run of ticks. -/
theorem afterSessions_only {sessions : List Session} {S : Source}
    (hshown : ∀ sess ∈ sessions, ShowsOnly cfg A sess) (h : Only A db) :
    Only A (afterSessions cfg (db, S) sessions).1 := by
  induction sessions generalizing db S with
  | nil => exact h
  | cons sess rest ih =>
    have hhead := hshown sess List.mem_cons_self
    exact ih (fun s hs => hshown s (List.mem_cons_of_mem _ hs)) (tick_only hhead h)

/-! ### The contracts of a deployment -/

/-- The contracts that the service is configured with. -/
inductive Contract where
  | gateway
  | vault
  | registry
  | routerGovernance

/-- The events of a contract among those that the service asks for. -/
def Contract.topics : Contract → List Topic
  | .gateway => [.agentAuthorized, .agentRevoked, .agentDeposit, .agentDepositRouted, .paused, .unpaused]
  | .vault => [.vaultAllocated, .vaultPulled, .vaultRebalanced, .vaultExitFeeCharged, .erc4626Deposit,
      .erc4626Withdraw]
  | .registry => [.vaultRegistered, .vaultStatusChanged]
  | .routerGovernance => [.proposalCreated, .voteCast, .proposalExecuted, .weightsApplied]

/-- Which contract is where, by the configuration. -/
def IndexerConfig.contracts (cfg : IndexerConfig) : List (Address × Contract) :=
  [(cfg.gateway, .gateway), (cfg.vault, .vault)] ++ cfg.registry.toList.map (fun a => (a, .registry)) ++
    cfg.routerGovernance.toList.map fun a => (a, .routerGovernance)

/-- The configured addresses are those of the deployed contracts: the logs there are of their events. -/
def Deployed (cfg : IndexerConfig) (sess : Session) : Prop :=
  ∀ m n, ∀ e ∈ logsAt (sess.node m).chain.blocks n, ∀ c, (e.log.address, c) ∈ cfg.contracts →
    ∀ t, e.log.data.topic = some t → t ∈ c.topics

theorem contract_of_watched {a : Address} (h : a ∈ cfg.watchedAddresses) :
    ∃ c, (a, c) ∈ cfg.contracts := by
  unfold IndexerConfig.watchedAddresses at h
  unfold IndexerConfig.contracts
  simp only [List.cons_append, List.nil_append, List.mem_cons, List.mem_append, Option.mem_toList,
    List.mem_map] at h ⊢
  rcases h with rfl | rfl | h | h
  · exact ⟨.gateway, .inl rfl⟩
  · exact ⟨.vault, .inr (.inl rfl)⟩
  · split at h
    · exact ⟨.registry, .inr (.inr (.inl ⟨a, Option.mem_toList.mp h, rfl⟩))⟩
    · cases h
  · exact ⟨.routerGovernance, .inr (.inr (.inr ⟨a, h, rfl⟩))⟩

theorem routerDeposit_not_topic (c : Contract) : Topic.routerDeposit ∉ c.topics := by
  cases c <;> decide

/-- Only `RouterDeposit` has a row of a leg. -/
theorem topic_of_leg {e : LogEntry} {r : LegRow} (h : recordOf cfg e = some (.leg r)) :
    e.log.data.topic = some .routerDeposit := by
  unfold recordOf at h
  cases hdata : e.log.data with
  | event ev =>
    rw [hdata] at h
    cases ev <;> first | rfl | cases h
  | raw t =>
    rw [hdata] at h
    cases h
  | foreign =>
    rw [hdata] at h
    cases h

/-- The row of no leg. -/
def NotLeg (x : Record) : Prop := ∀ r, x ≠ .leg r

theorem Deployed.showsOnly (h : Deployed cfg sess) : ShowsOnly cfg NotLeg sess := by
  rintro m n e he hwatched x hx r rfl
  have hwatched : e.log.address ∈ cfg.watchedAddresses ∧ _ := of_decide_eq_true hwatched
  obtain ⟨c, hc⟩ := contract_of_watched hwatched.1
  exact routerDeposit_not_topic c (h m n e he c hc _ (topic_of_leg hx))

/-- The table of the legs stays empty. -/
theorem legs_empty {sessions : List Session} (h : ∀ sess ∈ sessions, Deployed cfg sess) :
    (afterSessions cfg (Db.empty, noSource) sessions).1.routerDepositLegs = [] := by
  have honly : Only NotLeg (afterSessions cfg (Db.empty, noSource) sessions).1 :=
    afterSessions_only (fun sess hsess => (h sess hsess).showsOnly) Only.empty
  refine List.eq_nil_iff_forall_not_mem.mpr ?_
  intro r hr
  exact honly (.leg r) hr r rfl

/-! ### Routed deposits -/

/-- An event of the gateway as the service decodes it, if it is that of a routed deposit; `digest` are
the 32 bytes of an identifier. -/
def routedEvent (digest : Bytes32 → ℕ) : GatewayEvent → Option Event
  | .agentDepositRouted paymentId orderId agent shareReceiver router amount sharesPerLeg windowId =>
    some (.agentDepositRouted (digest paymentId) (digest orderId) agent shareReceiver router amount
      sharesPerLeg windowId)
  | _ => none

/-- The log is that of a routed deposit, made by the gateway that the service is configured with. -/
def RoutedBy {V : Type} (cfg : IndexerConfig) (env : Gateway.Env V) (digest : Bytes32 → ℕ)
    (e : LogEntry) : Prop :=
  env.self = cfg.gateway ∧ e.log.address = cfg.gateway ∧
    ∃ (s s' : Gateway.State V) (b : Lib.Block) (sender : Address) (orderId : Bytes32) (amount deadline : ℕ)
      (key : Bytes32) (destination : Address) (mins : List ℕ) (r : Receipt),
      s.depositTo env b sender orderId amount deadline key destination mins = .ok (s', r) ∧
        ∃ ev ∈ r.events.filterMap (routedEvent digest), e.log.data = .event ev

/-- The legs that the tables have for a deposit: those of its chain and transaction. -/
def Db.legsOf (db : Db) (r : DepositRow) : List LegRow :=
  db.routerDepositLegs.filter fun l => l.chainId = r.chainId ∧ l.txHash = r.txHash

/-- The log `e` has the row `r`, which is in the tables. -/
def Indexed (cfg : IndexerConfig) (db : Db) (e : LogEntry) (r : DepositRow) : Prop :=
  recordOf cfg e = some (.deposit r) ∧ r ∈ db.agentDeposits

/-- The deposit `r` of the log `e` is accounted for: there is a row for every leg of its transaction, and
the amounts sum to that of the deposit. -/
structure Accounted (cfg : IndexerConfig) (db : Db) (e : LogEntry) (r : DepositRow) : Prop where
  legs : ∀ l ∈ logsAt e.blockHash.ancestry e.blockNumber, l.log.txHash = e.log.txHash →
    ∀ leg, recordOf cfg l = some (.leg leg) → leg ∈ db.legsOf r
  amounts : ((db.legsOf r).map fun l => l.amount).sum = r.amount

/-- The gateway makes no routed deposit of nothing. -/
theorem routed_amount {V : Type} {env : Gateway.Env V} {digest : Bytes32 → ℕ} {s s' : Gateway.State V}
    {b : Lib.Block} {sender : Address} {orderId key : Bytes32} {amount deadline : ℕ}
    {destination : Address} {mins : List ℕ} {receipt : Receipt} {ev : Event} {e : LogEntry}
    {r : DepositRow}
    (h : s.depositTo env b sender orderId amount deadline key destination mins = .ok (s', receipt))
    (hev : ev ∈ receipt.events.filterMap (routedEvent digest)) (hdata : e.log.data = .event ev)
    (hrow : recordOf cfg e = some (.deposit r)) : r.amount ≠ 0 := by
  have hpos : 0 < amount := (Gateway.depositTo_paid h).amount_pos
  unfold Gateway.State.depositTo at h
  simp only [bind_eq_ok, Prod.exists] at h
  obtain ⟨_, -, _, -, _, -, _, -, _, -, _, -, isRouter, -, _, -, s₁, -, w₁, -, w₂, r₂, hdep, h⟩ := h
  obtain ⟨-, rfl⟩ := Prod.mk.injEq .. ▸ pure_eq_ok.mp h
  unfold Gateway.State.executeDeposit at hdep
  split at hdep
  · unfold Gateway.State.executeRouterDeposit at hdep
    simp only [bind_eq_ok, Prod.exists] at hdep
    obtain ⟨_, -, _, _, -, _, -, _, -, hdep⟩ := hdep
    obtain ⟨-, rfl⟩ := Prod.mk.injEq .. ▸ pure_eq_ok.mp hdep
    simp only [List.filterMap_cons, routedEvent, List.filterMap_nil, List.mem_singleton] at hev
    subst hev
    unfold recordOf at hrow
    rw [hdata] at hrow
    cases hrow
    exact hpos.ne'
  · unfold Gateway.State.executeVaultDeposit at hdep
    simp only [bind_eq_ok, Prod.exists] at hdep
    obtain ⟨_, -, _, _, -, _, -, _, -, hdep⟩ := hdep
    obtain ⟨-, rfl⟩ := Prod.mk.injEq .. ▸ pure_eq_ok.mp hdep
    cases hev

/-- **No routed deposit is accounted for.**  Whatever the node shows of the deployed contracts, and
whichever calls fail, the row of a routed deposit is there without its legs. -/
theorem routed_never_accounted {V : Type} (cfg : IndexerConfig) (env : Gateway.Env V)
    (digest : Bytes32 → ℕ) (sessions : List Session) (h : ∀ sess ∈ sessions, Deployed cfg sess)
    (e : LogEntry) (r : DepositRow) (hrouted : RoutedBy cfg env digest e)
    (hindexed : Indexed cfg (afterSessions cfg (Db.empty, noSource) sessions).1 e r) :
    ¬ Accounted cfg (afterSessions cfg (Db.empty, noSource) sessions).1 e r := by
  intro hacc
  obtain ⟨-, -, s, s', b, sender, orderId, amount, deadline, key, destination, mins, receipt, hcall, ev,
    hev, hdata⟩ := hrouted
  have hzero := hacc.amounts
  unfold Db.legsOf at hzero
  rw [legs_empty h] at hzero
  exact routed_amount hcall hev hdata hindexed.1 hzero.symm

/-- A service that watches all it can: the gateway and the pinned vault, a registry and a governance. -/
def fullDeployment : IndexerConfig :=
  { deployment 100 with vault := 3, registry := some 8, routerGovernance := some 30, featureFlags := 4 }

/-- Some 32 bytes for each identifier. -/
def mockDigest : Bytes32 → ℕ
  | .word n => n
  | .paymentHash .. => 11
  | .commitHash .. => 12

/-- The logs of a deposit of 100 units through the router, 60 of them to one vault and 40 to another. -/
def routedBlock : Block where
  timestamp := 1012
  txs := [⟨88, 0, 7, some 1, 1⟩]
  logs :=
    [⟨4, .event (.routerDeposit 7 3 60 60 6000), 88, 0, 0⟩,
      ⟨4, .event (.routerDeposit 7 10 40 40 4000), 88, 0, 1⟩,
      ⟨1, .event (.agentDepositRouted 11 1 7 7 4 100 [60, 40] 0), 88, 0, 2⟩]

def routedChain : Chain :=
  ⟨[quietBlock 0, quietBlock 101, routedBlock, quietBlock 1013, quietBlock 1014, quietBlock 1015,
    quietBlock 1016, quietBlock 1017, quietBlock 1018], by decide⟩

/-- The log of the gateway in that block, and its row. -/
def routedEntry : LogEntry :=
  ⟨⟨1, .event (.agentDepositRouted 11 1 7 7 4 100 [60, 40] 0), 88, 0, 2⟩, 2,
    ⟨routedChain.blocks.take 3⟩⟩

def routedRow : DepositRow :=
  { chainId := 8453, blockNumber := 2, logIndex := 2, txHash := 88, paymentId := 11, orderId := 1,
    agent := 7, shareReceiver := 7, amount := 100, sharesMinted := 100, windowId := 0, vault := none }

/-- The tables after one tick on that chain. -/
def routedDb : Db := (afterSessions fullDeployment (Db.empty, noSource) [(steady routedChain).session]).1

theorem routedBy_entry : RoutedBy fullDeployment mockSetting.env mockDigest routedEntry := by
  have hevents : ((run (Gateway.State.exec mockSetting.env) mockGateway
      [mockAuthorization mockPolicy]).depositTo mockSetting.env (.of 11 1012) 7 (.word 1) 100 1100 (.word 2)
        4 []).toOption.map (fun x => x.2.events.filterMap (routedEvent mockDigest)) =
      some [.agentDepositRouted 11 1 7 7 4 100 [60, 40] 0] := by decide
  rcases hok : (run (Gateway.State.exec mockSetting.env) mockGateway
      [mockAuthorization mockPolicy]).depositTo mockSetting.env (.of 11 1012) 7 (.word 1) 100 1100 (.word 2)
        4 [] with err | ⟨s', r⟩
  · rw [hok] at hevents
    cases hevents
  · rw [hok] at hevents
    have hone : r.events.filterMap (routedEvent mockDigest) =
        [.agentDepositRouted 11 1 7 7 4 100 [60, 40] 0] := Option.some.inj hevents
    refine ⟨rfl, rfl, _, s', _, _, _, _, _, _, _, _, r, hok, .agentDepositRouted 11 1 7 7 4 100 [60, 40] 0,
      ?_, rfl⟩
    rw [hone]
    exact List.mem_singleton_self _

/-- A log of a chain is one of a block. -/
theorem mem_logs_of_logsAt {bs : List Block} {e : LogEntry} (h : e ∈ logsAt bs n) :
    ∃ b ∈ bs, e.log ∈ b.logs := by
  unfold logsAt at h
  split at h
  · cases h
  · rename_i b hb
    obtain ⟨l, hl, rfl⟩ := List.mem_map.mp h
    exact ⟨b, List.mem_of_getElem? hb, hl⟩

theorem deployed_routed : Deployed fullDeployment (steady routedChain).session := by
  have hall : ∀ b ∈ routedChain.blocks, ∀ l ∈ b.logs, ∀ p ∈ fullDeployment.contracts, p.1 = l.address →
      ∀ t ∈ l.data.topic, t ∈ p.2.topics := by decide
  intro m n e he c hc t ht
  obtain ⟨b, hb, hl⟩ := mem_logs_of_logsAt he
  exact hall b hb e.log hl _ hc rfl t ht

theorem indexed_routed : Indexed fullDeployment routedDb routedEntry routedRow :=
  ⟨by decide +kernel, by decide +kernel⟩

theorem routed_never_accounted_split :
    RoutedBy fullDeployment mockSetting.env mockDigest routedEntry ∧
      Indexed fullDeployment routedDb routedEntry routedRow ∧
      ¬ Accounted fullDeployment routedDb routedEntry routedRow := by
  refine ⟨routedBy_entry, indexed_routed, ?_⟩
  exact routed_never_accounted fullDeployment mockSetting.env mockDigest [(steady routedChain).session]
    (fun sess hsess => List.mem_singleton.mp hsess ▸ deployed_routed) routedEntry routedRow routedBy_entry
    indexed_routed

/-- **Two legs without rows.**  The tick indexes the deposit of 100 units, whose transaction has the logs
of two legs, and the table of the legs is empty. -/
theorem routed_legs_missing :
    ¬ ∀ (cfg : IndexerConfig) (sessions : List Session) (e : LogEntry) (r : DepositRow),
      (∀ sess ∈ sessions, Deployed cfg sess) → RoutedBy cfg mockSetting.env mockDigest e →
      Indexed cfg (afterSessions cfg (Db.empty, noSource) sessions).1 e r →
      Accounted cfg (afterSessions cfg (Db.empty, noSource) sessions).1 e r := by
  intro h
  have hacc : Accounted fullDeployment routedDb routedEntry routedRow :=
    h fullDeployment [(steady routedChain).session] routedEntry routedRow
      (fun sess hsess => List.mem_singleton.mp hsess ▸ deployed_routed) routedBy_entry indexed_routed
  have hleg : (⟨⟨8453, 2, 0, 88⟩, 88, 7, 3, 60, 60, 6000⟩ : LegRow) ∈ routedDb.legsOf routedRow :=
    hacc.legs ⟨⟨4, .event (.routerDeposit 7 3 60 60 6000), 88, 0, 0⟩, 2, ⟨routedChain.blocks.take 3⟩⟩
      (by decide +kernel) rfl _ rfl
  exact absurd hleg (by decide +kernel)

end RobotMoney.Indexer
