import RobotMoney.Api.RouterState
import RobotMoney.Gateway.Deposits
import RobotMoney.Indexer.Legs

/-!
# The deposits that are shown

Every deposit of the gateway has a row, with its transaction, agent and amount, and the feed of the last fifty
and the history of a receiver show each once (`deposit_feeds_iff`).  The vault is another matter: the row of a
deposit through the router has none, and in its place both show the receiver of the shares.
-/

namespace RobotMoney.Api

open RobotMoney.Lib
open RobotMoney.Indexer
open RobotMoney.Gateway (Bytes32 GatewayEvent Setting Surroundings State Told Made NotedLog madeIn eventsIn
  execNoted)

variable {W : Type} {S : Setting W} {digest : Bytes32 → ℕ} {cfg : IndexerConfig} {chain : Chain} {db : Db}
  {state : AppState} {api : Database} {e : LogEntry} {logs : List LogEntry}

/-! ### Events and rows -/

/-- The event of a deposit as the service decodes it; `digest` are the 32 bytes of an identifier. -/
def depositingEvent (digest : Bytes32 → ℕ) : GatewayEvent → Option Event
  | .agentDeposit paymentId orderId agent shareReceiver amount sharesMinted windowId =>
    some (.agentDeposit (digest paymentId) (digest orderId) agent shareReceiver amount sharesMinted windowId)
  | .agentDepositRouted paymentId orderId agent shareReceiver router amount sharesPerLeg windowId =>
    some (.agentDepositRouted (digest paymentId) (digest orderId) agent shareReceiver router amount
      sharesPerLeg windowId)
  | _ => none

/-- The events that the table of deposits is made of, with their transactions. -/
def depositing (e : LogEntry) : Option (ℕ × Event) :=
  match e.log.data with
  | .event (.agentDeposit paymentId orderId agent shareReceiver amount sharesMinted windowId) =>
    some (e.log.txHash, .agentDeposit paymentId orderId agent shareReceiver amount sharesMinted windowId)
  | .event (.agentDepositRouted paymentId orderId agent shareReceiver router amount sharesPerLeg windowId) =>
    some (e.log.txHash,
      .agentDepositRouted paymentId orderId agent shareReceiver router amount sharesPerLeg windowId)
  | _ => none

theorem topic_of_depositing (e : LogEntry) (x : ℕ × Event) (h : depositing e = some x) :
    e.log.data.topic ≠ none := by
  unfold depositing at h
  split at h
  · rename_i hdata
    rw [hdata]
    exact Option.some_ne_none _
  · rename_i hdata
    rw [hdata]
    exact Option.some_ne_none _
  · cases h

/-- What an event tells of a deposit, as in `Gateway.toldBy`. -/
def told (txHash : ℕ) : Event → Option Told
  | .agentDeposit _ _ agent shareReceiver amount _ _ => some ⟨txHash, agent, shareReceiver, amount, false⟩
  | .agentDepositRouted _ _ agent shareReceiver _ amount _ _ =>
    some ⟨txHash, agent, shareReceiver, amount, true⟩
  | _ => none

theorem told_depositingEvent {txHash : ℕ} {ev : GatewayEvent} :
    (depositingEvent digest ev).bind (told txHash) = Gateway.toldBy txHash ev := by
  cases ev <;> rfl

/-- What a row says of a deposit, but for its position, its identifiers and its shares. -/
structure DepositContent where
  txHash : ℕ
  agent : Address
  shareReceiver : Address
  amount : ℕ
  vault : Option Address
  deriving DecidableEq

def rowContent (r : DepositRow) : DepositContent := ⟨r.txHash, r.agent, r.shareReceiver, r.amount, r.vault⟩

/-- What is written of a deposit: the vault of the service, or none. -/
def writtenOf (cfg : IndexerConfig) (t : Told) : DepositContent where
  txHash := t.txHash
  agent := t.agent
  shareReceiver := t.receiver
  amount := t.amount
  vault := if t.routed then none else some cfg.vault

theorem rowOf_deposits : (rowOf cfg Record.depositRow e).map rowContent =
    ((depositing e).bind fun x => told x.1 x.2).map (writtenOf cfg) := by
  unfold rowOf recordOf depositing
  cases e.log.data with
  | foreign => rfl
  | raw t => rfl
  | event ev => cases ev <;> rfl

/-- The rows say what the events say. -/
theorem rowsOf_deposits : (rowsOf cfg Record.depositRow logs).map rowContent =
    ((logs.filterMap depositing).filterMap fun x => told x.1 x.2).map (writtenOf cfg) := by
  unfold rowsOf
  rw [List.map_filterMap, List.filterMap_filterMap, List.map_filterMap]
  exact List.filterMap_congr fun e _ => rowOf_deposits

/-! ### Runs -/

/-- The indexer after a run of the gateway: it is configured for the gateway and its vault, and has indexed a
chain with the events of the run up to its cursor, without a reorganization and without an error. -/
structure Feeds (S : Setting W) (digest : Bytes32 → ℕ) (cfg : IndexerConfig) (chain : Chain)
    (log : NotedLog W) (db : Db) : Prop where
  gateway : cfg.gateway = S.self
  vault : cfg.vault = S.vaultContract
  numbered : Numbered chain
  indexed : Indexes cfg chain Db.empty db
  own : ((logsBelow chain (fromBlock (db.lastIndexedBlock cfg.chainId))).filter fun e =>
      e.log.address = cfg.gateway).filterMap depositing =
    (eventsIn log).filterMap fun x => (depositingEvent digest x.2).map fun ev => (x.1, ev)
  others : ∀ e ∈ logsBelow chain (fromBlock (db.lastIndexedBlock cfg.chainId)),
    e.log.address ∈ cfg.watchedAddresses → e.log.address ≠ cfg.gateway → depositing e = none

theorem Feeds.rows {log : NotedLog W} (h : Feeds S digest cfg chain log db) :
    db.agentDeposits = rowsOf cfg Record.depositRow
      (logsIn cfg chain 0 (fromBlock (db.lastIndexedBlock cfg.chainId))) := by
  rw [← deposits_of_logs h.numbered, ← h.indexed.events]
  rfl

theorem Feeds.before {log : NotedLog W} (h : Feeds S digest cfg chain log db) :
    db.agentDeposits.Pairwise fun r r' => r.toLogPosition.Before r'.toLogPosition := by
  rw [h.rows]
  exact rowsOf_before h.numbered fun _ _ => position_of_depositRow

/-- **The rows are those of the deposits**, in their order. -/
theorem Feeds.contents {s₀ : State (Surroundings W)}
    {calls : List (ℕ × Tx (State.GatewayCall (Surroundings W)))}
    (h : Feeds S digest cfg chain (history (execNoted S) s₀ calls) db) :
    db.agentDeposits.map rowContent =
      (madeIn (history (execNoted S) s₀ calls)).map fun m => writtenOf cfg m.toTold := by
  have hwatched : cfg.gateway ∈ cfg.watchedAddresses := by
    unfold IndexerConfig.watchedAddresses
    simp
  have htold : ((eventsIn (history (execNoted S) s₀ calls)).filterMap fun x =>
      (depositingEvent digest x.2).map fun ev => (x.1, ev)).filterMap (fun x => told x.1 x.2) =
        (madeIn (history (execNoted S) s₀ calls)).map Made.toTold := by
    rw [← Gateway.eventsIn_told, List.filterMap_filterMap]
    refine List.filterMap_congr ?_
    intro x _
    rw [Option.bind_map]
    exact told_depositingEvent
  rw [h.rows, rowsOf_deposits, watched_eq topic_of_depositing h.own h.others hwatched, htold, List.map_map]
  rfl

/-! ### Answers -/

/-- What an entry says: the transaction, the vault, the agent and the amount. -/
structure Entry where
  txHash : String
  vault : String
  agent : String
  amount : String
  deriving DecidableEq

def ActivityEvent.entry (a : ActivityEvent) : Entry := ⟨a.txHash, a.vault, a.agent, a.amount⟩

def AccountHistoryEntry.entry (a : AccountHistoryEntry) : Entry := ⟨a.txHash, a.vault, a.agent, a.amount⟩

/-- The receiver of the shares stands in for a vault that is not there. -/
def DepositContent.entry (c : DepositContent) : Entry where
  txHash := hashToHex c.txHash
  vault := addrToHex (c.vault.getD c.shareReceiver)
  agent := addrToHex c.agent
  amount := decToString c.amount

/-- The deposits of the API's chain are those of the indexer, stored in whatever order. -/
def ReadsDeposits (state : AppState) (db : Db) (api : Database) : Prop :=
  ((api.agentDeposits.filter (onChain state.chainId)).map Stamped.row).Perm db.agentDeposits

/-- The feed is that of the last fifty rows. -/
theorem getStats_feed (hreads : ReadsDeposits state db api)
    (hrows : db.agentDeposits.Pairwise fun r r' => r.toLogPosition.Before r'.toLogPosition) :
    ∃ tvl depositors feed freshness, getStats state api = .ok (.stats tvl depositors feed freshness) ∧
      feed.map ActivityEvent.entry =
        ((db.agentDeposits.map rowContent).reverse.take 50).map DepositContent.entry := by
  refine ⟨_, _, _, _, rfl, ?_⟩
  have hselect : ((selectOn state.chainId api.agentDeposits fun _ => true).map Stamped.row).Perm
      db.agentDeposits := by
    rw [selectOn_eq, List.filter_true]
    exact hreads
  have hsorted := descending₂_rows hselect hrows
  rw [List.map_map, ← List.map_reverse, ← hsorted, List.map_map, ← List.map_take, List.map_map]
  rfl

/-- The history is that of the first five hundred rows of the receiver. -/
theorem getAccountHistory_events (hreads : ReadsDeposits state db api)
    (hrows : db.agentDeposits.Pairwise fun r r' => r.toLogPosition.Before r'.toLogPosition)
    {text : String} {a : Address} (htext : decodeAddressParam text = .ok a) :
    ∃ events freshness,
      getAccountHistory state api text = .ok (.accountHistory (addrToHex a) events freshness) ∧
      events.map AccountHistoryEntry.entry =
        (((db.agentDeposits.map rowContent).filter fun c => c.shareReceiver = a).take 500).map
          DepositContent.entry := by
  have hselect : ((selectOn state.chainId api.agentDeposits fun r =>
      decide (r.row.shareReceiver = a)).map Stamped.row).Perm
        (db.agentDeposits.filter fun r => r.shareReceiver = a) := by
    rw [selectOn_eq]
    have hfilter := hreads.filter fun r : DepositRow => decide (r.shareReceiver = a)
    rwa [List.filter_map] at hfilter
  have hsorted := ascending₂_rows hselect (hrows.filter _)
  unfold getAccountHistory
  rw [htext]
  refine ⟨_, _, rfl, ?_⟩
  have hfilter : (db.agentDeposits.map rowContent).filter (fun c => c.shareReceiver = a) =
      (db.agentDeposits.filter fun r => r.shareReceiver = a).map rowContent := List.filter_map
  rw [List.map_map, hfilter, ← hsorted, List.map_map, ← List.map_take, List.map_map]
  rfl

/-! ### Entries and deposits -/

/-- Each entry tells the transaction, the agent and the amount of the deposit in its place, and there are as many
entries as deposits. -/
def Tells (entries : List Entry) (deposits : List Made) : Prop :=
  entries.map (fun x => (x.txHash, x.agent, x.amount)) =
    deposits.map fun m => (hashToHex m.txHash, addrToHex m.agent, decToString m.amount)

/-- The vault of each entry took USDC in the deposit in its place. -/
def NamesPaid (entries : List Entry) (deposits : List Made) : Prop :=
  ∀ x ∈ entries.zip deposits, ∃ v ∈ x.2.vaults, x.1.vault = addrToHex v

/-- The receiver of a deposit through the router is a vault that took USDC in it. -/
def ReceiverPaid (deposits : List Made) : Prop := ∀ m ∈ deposits, m.routed = true → m.receiver ∈ m.vaults

section Entries

variable {deposits : List Made}

/-- The entries of some deposits. -/
def entriesOf (cfg : IndexerConfig) (deposits : List Made) : List Entry :=
  deposits.map fun m => (writtenOf cfg m.toTold).entry

theorem tells_entriesOf : Tells (entriesOf cfg deposits) deposits := by
  unfold Tells entriesOf
  rw [List.map_map]
  rfl

/-- The vault of a deposit past the router is right; through the router it is the receiver's address. -/
theorem namesPaid_entriesOf (hdirect : ∀ m ∈ deposits, m.routed = false → m.vaults = [cfg.vault]) :
    NamesPaid (entriesOf cfg deposits) deposits ↔ ReceiverPaid deposits := by
  have hzip : (entriesOf cfg deposits).zip deposits =
      deposits.map fun m => ((writtenOf cfg m.toTold).entry, m) := by
    unfold entriesOf
    rw [List.zip_map_left, List.zip_eq_zipWith, List.zipWith_self, List.map_map]
    rfl
  unfold NamesPaid ReceiverPaid
  rw [hzip, List.forall_mem_map]
  refine forall₂_congr fun m hm => ?_
  obtain ⟨⟨txHash, agent, receiver, amount, routed⟩, vaults⟩ := m
  cases routed with
  | false =>
    refine iff_of_true ⟨cfg.vault, ?_, rfl⟩ Bool.noConfusion
    rw [hdirect _ hm rfl]
    exact List.mem_singleton_self _
  | true =>
    constructor
    · rintro ⟨v, hv, hsame⟩ -
      have hsame : addrToHex receiver = addrToHex v := hsame
      rw [addrToHex_inj hsame]
      exact hv
    · intro hpaid
      exact ⟨receiver, hpaid rfl, rfl⟩

end Entries

/-- **The deposits that are shown.**  The feed has the last fifty deposits of the run, and a history the first five
hundred of a receiver: each once, with its transaction, agent and amount.  The vaults they name took USDC in the
deposits exactly if the receiver of every one through the router did. -/
theorem deposit_feeds_iff {s₀ : State (Surroundings W)}
    {calls : List (ℕ × Tx (State.GatewayCall (Surroundings W)))}
    (h : Feeds S digest cfg chain (history (execNoted S) s₀ calls) db) (hreads : ReadsDeposits state db api) :
    (∃ tvl depositors feed freshness, getStats state api = .ok (.stats tvl depositors feed freshness) ∧
      Tells (feed.map ActivityEvent.entry) ((madeIn (history (execNoted S) s₀ calls)).reverse.take 50) ∧
      (NamesPaid (feed.map ActivityEvent.entry) ((madeIn (history (execNoted S) s₀ calls)).reverse.take 50) ↔
        ReceiverPaid ((madeIn (history (execNoted S) s₀ calls)).reverse.take 50))) ∧
    (∀ text a, decodeAddressParam text = .ok a → ∃ events freshness,
      getAccountHistory state api text = .ok (.accountHistory (addrToHex a) events freshness) ∧
      Tells (events.map AccountHistoryEntry.entry)
        (((madeIn (history (execNoted S) s₀ calls)).filter fun m => m.receiver = a).take 500) ∧
      (NamesPaid (events.map AccountHistoryEntry.entry)
          (((madeIn (history (execNoted S) s₀ calls)).filter fun m => m.receiver = a).take 500) ↔
        ReceiverPaid (((madeIn (history (execNoted S) s₀ calls)).filter fun m => m.receiver = a).take 500))) ∧
    (Gateway.Honest S → Gateway.Reachable S s₀ →
      (∀ x ∈ calls, S.Outsider x.2.sender ∧ ∀ world, x.2.call ≠ .elsewhere world) →
      ∀ m ∈ madeIn (history (execNoted S) s₀ calls), ∀ v ∈ m.vaults, Gateway.TakesUsdc S v m.receiver) := by
  have hdirect : ∀ {ms : List Made}, (∀ m ∈ ms, m ∈ madeIn (history (execNoted S) s₀ calls)) →
      ∀ m ∈ ms, m.routed = false → m.vaults = [cfg.vault] := by
    intro ms hms m hm hrouted
    rw [h.vault]
    exact Gateway.vaults_of_direct (hms m hm) hrouted
  refine ⟨?_, ?_, fun hS hs₀ hcalls => Gateway.made_paid hS hs₀ hcalls⟩
  · obtain ⟨tvl, depositors, feed, freshness, hanswer, hfeed⟩ := getStats_feed hreads h.before
    have hentries : feed.map ActivityEvent.entry =
        entriesOf cfg ((madeIn (history (execNoted S) s₀ calls)).reverse.take 50) := by
      rw [hfeed, h.contents]
      unfold entriesOf
      rw [← List.map_reverse, ← List.map_take, List.map_map]
      rfl
    refine ⟨tvl, depositors, feed, freshness, hanswer, ?_⟩
    rw [hentries]
    exact ⟨tells_entriesOf, namesPaid_entriesOf
      (hdirect fun m hm => List.mem_reverse.mp (List.mem_of_mem_take hm))⟩
  · intro text a htext
    obtain ⟨events, freshness, hanswer, hevents⟩ := getAccountHistory_events hreads h.before htext
    have hentries : events.map AccountHistoryEntry.entry =
        entriesOf cfg (((madeIn (history (execNoted S) s₀ calls)).filter fun m => m.receiver = a).take 500) := by
      rw [hevents, h.contents]
      unfold entriesOf
      rw [List.filter_map, ← List.map_take, List.map_map]
      rfl
    refine ⟨events, freshness, hanswer, ?_⟩
    rw [hentries]
    exact ⟨tells_entriesOf, namesPaid_entriesOf
      (hdirect fun m hm => (List.mem_filter.mp (List.mem_of_mem_take hm)).1)⟩

/-! ### Deposits into the vault, and through the router -/

section Sample

open RobotMoney.Gateway (mockSetting mockGateway mockPolicy mockAuthorization routedDeposit)

/-- The agent deposits 60 units into the vault. -/
def plainDeposit : Tx (State.GatewayCall (Surroundings Unit)) :=
  .of 7 (.of 11 1012) (.deposit (.word 1) 60 1100 (.word 2))

/-- And names it for 40 more. -/
def pinnedDeposit : Tx (State.GatewayCall (Surroundings Unit)) :=
  .of 7 (.of 11 1012) (.depositTo (.word 3) 40 1100 (.word 4) 3 [])

/-- The block with their events. -/
def pinnedBlock : Indexer.Block where
  timestamp := 1012
  txs := []
  logs :=
    [⟨1, .event (.agentDeposit 11 1 7 7 60 60 0), 88, 0, 0⟩,
     ⟨1, .event (.agentDeposit 11 3 7 7 40 40 0), 89, 1, 1⟩]

def pinnedChain : Chain :=
  ⟨[quietBlock 0, quietBlock 101, pinnedBlock] ++ (List.range 6).map quietBlock, by decide⟩

/-- A run of the gateway with the deposits `calls`. -/
def depositRun (calls : List (ℕ × Tx (State.GatewayCall (Surroundings Unit)))) : NotedLog Unit :=
  history (execNoted mockSetting) mockGateway ((80, mockAuthorization mockPolicy) :: calls)

/-- The database after one tick on a chain. -/
def indexedOf (chain : Chain) : Db := (tick (steady chain).session fullDeployment Db.empty).2

/-- A database of the API with the deposits of the indexer. -/
def depositsOf (db : Db) : Database :=
  { Database.empty with agentDeposits := db.agentDeposits.map fun r => ⟨r, 0⟩ }

theorem reads_depositsOf (h : ∀ r ∈ db.agentDeposits, r.chainId = 8453) :
    ReadsDeposits baseApi db (depositsOf db) := .of_eq (stamped_rows h)

theorem feeds_of_tick {calls : List (ℕ × Tx (State.GatewayCall (Surroundings Unit)))} (hnum : Numbered chain)
    (hok : (tick (steady chain).session fullDeployment Db.empty).1.toOption.map (fun o => o.error) = some none)
    (hcursor : (indexedOf chain).lastIndexedBlock fullDeployment.chainId = some 3)
    (hown : ((logsBelow chain 4).filter fun e => e.log.address = fullDeployment.gateway).filterMap depositing =
      (eventsIn (depositRun calls)).filterMap fun x => (depositingEvent mockDigest x.2).map fun ev => (x.1, ev))
    (hothers : ∀ e ∈ logsBelow chain 4, e.log.address ∈ fullDeployment.watchedAddresses →
      e.log.address ≠ fullDeployment.gateway → depositing e = none) :
    Feeds mockSetting mockDigest fullDeployment chain (depositRun calls) (indexedOf chain) := by
  refine ⟨rfl, rfl, hnum, Indexes.start.after (List.prefix_refl _) hok, ?_, ?_⟩
  · rw [hcursor]
    exact hown
  · rw [hcursor]
    exact hothers

theorem deposit_feeds_iff_pinned : ∃ tvl depositors feed freshness,
    getStats baseApi (depositsOf (indexedOf pinnedChain)) = .ok (.stats tvl depositors feed freshness) ∧
      NamesPaid (feed.map ActivityEvent.entry)
        ((madeIn (depositRun [(88, plainDeposit), (89, pinnedDeposit)])).reverse.take 50) := by
  have hfeeds : Feeds mockSetting mockDigest fullDeployment pinnedChain
      (depositRun [(88, plainDeposit), (89, pinnedDeposit)]) (indexedOf pinnedChain) :=
    feeds_of_tick (by decide) (by decide +kernel) (by decide +kernel) (by decide +kernel) (by decide +kernel)
  have hreads : ReadsDeposits baseApi (indexedOf pinnedChain) (depositsOf (indexedOf pinnedChain)) :=
    reads_depositsOf (by decide +kernel)
  obtain ⟨⟨tvl, depositors, feed, freshness, hanswer, -, hnames⟩, -, -⟩ := deposit_feeds_iff hfeeds hreads
  refine ⟨tvl, depositors, feed, freshness, hanswer, hnames.mpr ?_⟩
  have hmade : (madeIn (depositRun [(88, plainDeposit), (89, pinnedDeposit)])).reverse.take 50 =
      [⟨⟨89, 7, 7, 40, false⟩, [3]⟩, ⟨⟨88, 7, 7, 60, false⟩, [3]⟩] := by decide +kernel
  show ReceiverPaid ((madeIn (depositRun [(88, plainDeposit), (89, pinnedDeposit)])).reverse.take 50)
  rw [hmade]
  intro m hm hrouted
  rcases List.mem_cons.mp hm with rfl | hm
  · cases hrouted
  · cases List.mem_singleton.mp hm
    cases hrouted

/-- What is shown of the deposit through the router. -/
def routedEntryShown : Entry := ⟨hashToHex 88, addrToHex 7, addrToHex 7, decToString 100⟩

theorem feeds_routed : Feeds mockSetting mockDigest fullDeployment routedChain (depositRun [(88, routedDeposit)])
    (indexedOf routedChain) :=
  feeds_of_tick (by decide) (by decide +kernel) (by decide +kernel) (by decide +kernel) (by decide +kernel)

/-- **A deposit through the router** is shown with the agent, who only received shares, as its vault. -/
theorem receiver_shown_as_vault :
    madeIn (depositRun [(88, routedDeposit)]) = [⟨⟨88, 7, 7, 100, true⟩, [3, 10]⟩] ∧
      ¬ NamesPaid [routedEntryShown] (madeIn (depositRun [(88, routedDeposit)])) ∧
      Feeds mockSetting mockDigest fullDeployment routedChain (depositRun [(88, routedDeposit)])
        (indexedOf routedChain) ∧
      (∃ tvl depositors feed freshness, getStats baseApi (depositsOf (indexedOf routedChain)) =
          .ok (.stats tvl depositors feed freshness) ∧ feed.map ActivityEvent.entry = [routedEntryShown]) ∧
      ∃ events freshness, getAccountHistory baseApi (depositsOf (indexedOf routedChain)) (addrToHex 7) =
          .ok (.accountHistory (addrToHex 7) events freshness) ∧
        events.map AccountHistoryEntry.entry = [routedEntryShown] := by
  have hmade : madeIn (depositRun [(88, routedDeposit)]) = [⟨⟨88, 7, 7, 100, true⟩, [3, 10]⟩] := by
    decide +kernel
  have hrows : (indexedOf routedChain).agentDeposits = [routedRow] := by decide +kernel
  have hreads : ReadsDeposits baseApi (indexedOf routedChain) (depositsOf (indexedOf routedChain)) :=
    reads_depositsOf (by decide +kernel)
  refine ⟨hmade, ?_, feeds_routed, ?_, ?_⟩
  · intro hnames
    rw [hmade] at hnames
    obtain ⟨v, hv, hvault⟩ := hnames _ (List.mem_singleton_self _)
    have hseven : (7 : Address) = v := addrToHex_inj hvault
    have hv : (7 : Address) ∈ [(3 : Address), 10] := hseven ▸ hv
    exact absurd hv (by decide)
  · obtain ⟨tvl, depositors, feed, freshness, hanswer, hfeed⟩ := getStats_feed hreads feeds_routed.before
    refine ⟨tvl, depositors, feed, freshness, hanswer, ?_⟩
    rw [hfeed, hrows]
    rfl
  · have htext : decodeAddressParam (addrToHex 7) = .ok 7 := by decide +kernel
    obtain ⟨events, freshness, hanswer, hevents⟩ := getAccountHistory_events hreads feeds_routed.before htext
    refine ⟨events, freshness, hanswer, ?_⟩
    rw [hevents, hrows]
    rfl

end Sample

end RobotMoney.Api
