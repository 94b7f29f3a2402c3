import RobotMoney.Api.Routes

/-!
# Chain isolation

The API serves one chain from a database of several.  Most queries ask for the rows of that chain, but three
do not: the newest run of the indexer, which `/health` and the freshness of most answers are read from, the
latest snapshot, and the list of snapshots.  `isolated_iff`: the answer to a request does not depend on the
rows of other chains exactly for the lookups of a transaction, a deposit or a proposal, and for what is
refused before any row is read.  `respond_congr`: nothing but the runs and the snapshots leaks.
-/

namespace RobotMoney.Api

open RobotMoney.Lib
open RobotMoney.Indexer

/-- Two databases have the same rows of a chain. -/
structure Agree (c : ℤ) (db db' : Database) : Prop where
  contracts : db.contracts.filter (onChain c) = db'.contracts.filter (onChain c)
  transactions : db.transactions.filter (onChain c) = db'.transactions.filter (onChain c)
  agentDeposits : db.agentDeposits.filter (onChain c) = db'.agentDeposits.filter (onChain c)
  agentPolicies : db.agentPolicies.filter (onChain c) = db'.agentPolicies.filter (onChain c)
  vaults : db.vaults.filter (onChain c) = db'.vaults.filter (onChain c)
  vaultSnapshots : db.vaultSnapshots.filter (onChain c) = db'.vaultSnapshots.filter (onChain c)
  walletPositions : db.walletPositions.filter (onChain c) = db'.walletPositions.filter (onChain c)
  governanceProposals : db.governanceProposals.filter (onChain c) = db'.governanceProposals.filter (onChain c)
  governanceVotes : db.governanceVotes.filter (onChain c) = db'.governanceVotes.filter (onChain c)
  routerWeightSnapshots :
    db.routerWeightSnapshots.filter (onChain c) = db'.routerWeightSnapshots.filter (onChain c)
  indexerRuns : db.indexerRuns.filter (onChain c) = db'.indexerRuns.filter (onChain c)

/-- The request names a chain itself. -/
def Request.NamesChain : Request → Prop
  | .listContracts _ => True
  | .listVaultSnapshots q => q.chainId.isSome
  | _ => False

/-- The answer does not depend on the rows of other chains. -/
def Isolated (state : AppState) (req : Request) : Prop :=
  ∀ db db', Agree state.chainId db db' → respond state db req = respond state db' req

def IsAddressParam (s : String) : Prop := ∃ a, decodeAddressParam s = .ok a

/-- The requests that read rows of the configured chain only, or none. -/
def Scoped : Request → Prop
  | .getTransaction _ => True
  | .getDeposit _ => True
  | .getProposal _ => True
  | .other => True
  | .listVaultSnapshots q =>
    q.toBlock.getD (2 ^ 63 - 1) < q.fromBlock.getD 0 ∨ ∃ s, q.contract = some s ∧ ¬ IsAddressParam s
  | .getAgent a => ¬ IsAddressParam a
  | .listAgentDeposits a => ¬ IsAddressParam a
  | .getVault a => ¬ IsAddressParam a
  | .getAccountPositions a => ¬ IsAddressParam a
  | .getAccountHistory a => ¬ IsAddressParam a
  | _ => False

section Congruence

variable {state : AppState} {db db' : Database} {c : ℤ}

/-! ### What a query sees -/

theorem selectOn_congr {ρ : Type} [HasChain ρ] {t t' : List ρ} (h : t.filter (onChain c) = t'.filter (onChain c))
    (p : ρ → Bool) : selectOn c t p = selectOn c t' p := by
  rw [selectOn_eq, selectOn_eq, h]

theorem latestSnapshotOf_congr (h : Agree c db db') (contract : Address) :
    latestSnapshotOf db c contract = latestSnapshotOf db' c contract := by
  rw [latestSnapshotOf, latestSnapshotOf, selectOn_congr h.vaultSnapshots]

theorem weightHistory_congr (h : Agree state.chainId db db') :
    weightHistory state db = weightHistory state db' := by
  rw [weightHistory, weightHistory, weightRows, weightRows, selectOn_congr h.routerWeightSnapshots]

theorem latestFreshness_congr (h : newestRun db = newestRun db') :
    latestFreshness state db = latestFreshness state db' := by
  rw [latestFreshness, latestFreshness, h]

theorem freshnessOr_congr (h : newestRun db = newestRun db') (row : Option Freshness) :
    freshnessOr state db row = freshnessOr state db' row := by
  rw [freshnessOr, freshnessOr, latestFreshness_congr h]

theorem historyFreshness_congr (h : newestRun db = newestRun db') (history : List WeightHistoryEntry) :
    historyFreshness state db history = historyFreshness state db' history := by
  rw [historyFreshness, historyFreshness, freshnessOr_congr h]

theorem mem_of_mem_distinctOn {ρ κ : Type} [DecidableEq κ] {k : ρ → κ} {t : List ρ} {r : ρ}
    (h : r ∈ distinctOn k t) : r ∈ t := by
  induction t with
  | nil => exact h
  | cons x xs ih =>
    rcases List.mem_cons.mp h with rfl | h
    · exact List.mem_cons_self
    · exact List.mem_cons_of_mem _ (ih (List.mem_filter.mp h).1)

/-- A position is valued with the snapshots of its own chain. -/
theorem positionOfRow_congr (h : Agree state.chainId db db') {r : Stamped WalletPositionRow}
    (hr : r.row.chainId = state.chainId) : positionOfRow state db r = positionOfRow state db' r := by
  rw [positionOfRow, positionOfRow, hr, latestSnapshotOf_congr h]

theorem positions_congr (h : Agree state.chainId db db') {t : List (Stamped WalletPositionRow)}
    {p : Stamped WalletPositionRow → Bool} :
    (ascending (fun r => Fin.val r.row.contract) (distinctOn (fun r => r.row.contract)
      (descending (fun r => r.row.blockNumber) (selectOn state.chainId t p)))).map (positionOfRow state db) =
    (ascending (fun r => Fin.val r.row.contract) (distinctOn (fun r => r.row.contract)
      (descending (fun r => r.row.blockNumber) (selectOn state.chainId t p)))).map (positionOfRow state db') := by
  refine List.map_congr_left fun r hr => positionOfRow_congr h ?_
  have hmem := mem_of_mem_distinctOn (List.mem_mergeSort.mp hr)
  exact chainId_of_mem_selectOn (List.mem_mergeSort.mp hmem)

/-! ### What does not leak -/

/-- The two endpoints that read the snapshots of all chains. -/
def Request.ReadsAllSnapshots : Request → Prop
  | .latestVaultSnapshot => True
  | .listVaultSnapshots _ => True
  | _ => False

/-- Beyond the rows of the chain, an answer depends on the newest run of the indexer only, and that of the two
snapshot endpoints on the snapshots. -/
theorem respond_congr {req : Request} (hreq : ¬ req.NamesChain) (h : Agree state.chainId db db')
    (hrun : newestRun db = newestRun db') (hsnaps : req.ReadsAllSnapshots → db.vaultSnapshots = db'.vaultSnapshots) :
    respond state db req = respond state db' req := by
  have hfresh : latestFreshness state db = latestFreshness state db' := latestFreshness_congr hrun
  have hor : ∀ row, freshnessOr state db row = freshnessOr state db' row := freshnessOr_congr hrun
  have hweights := weightHistory_congr h
  have hhistory : ∀ history, historyFreshness state db history = historyFreshness state db' history :=
    historyFreshness_congr hrun
  cases req with
  | health => simp only [respond, health, hrun]
  | listContracts chainId => exact absurd trivial hreq
  | latestVaultSnapshot => simp only [respond, latestVaultSnapshot, hsnaps trivial]
  | listVaultSnapshots q => simp only [respond, listVaultSnapshots, hsnaps trivial, hor]
  | getAgent address => simp only [respond, getAgent, selectOn_congr h.agentPolicies, hfresh]
  | listAgentDeposits address => simp only [respond, listAgentDeposits, selectOn_congr h.agentDeposits, hor]
  | getTransaction txHash => simp only [respond, getTransaction, selectOn_congr h.transactions]
  | getDeposit depositId => simp only [respond, getDeposit, selectOn_congr h.agentDeposits]
  | listVaults =>
    simp only [respond, listVaults, selectOn_congr h.vaults, hfresh]
    congr 2
    refine List.map_congr_left fun v hv => ?_
    have hchain : v.row.chainId = state.chainId := chainId_of_mem_selectOn (List.mem_mergeSort.mp hv)
    rw [hchain, latestSnapshotOf_congr h]
  | getVault address =>
    simp only [respond, getVault, selectOn_congr h.vaults, selectOn_congr h.vaultSnapshots, hor]
  | getRouterWeights => simp only [respond, getRouterWeights, hweights, hhistory]
  | listProposals => simp only [respond, listProposals, selectOn_congr h.governanceProposals, hor]
  | getProposal id =>
    simp only [respond, getProposal, selectOn_congr h.governanceProposals, selectOn_congr h.governanceVotes]
  | getStats =>
    simp only [respond, getStats, selectOn_congr h.vaultSnapshots, selectOn_congr h.agentDeposits, hfresh]
  | getRouterState => simp only [respond, getRouterState, hweights, hhistory]
  | getAccountPositions address =>
    simp only [respond, getAccountPositions, selectOn_congr h.walletPositions, positions_congr h, hor]
  | getAccountHistory address =>
    simp only [respond, getAccountHistory, selectOn_congr h.agentDeposits, hor]
  | other => rfl

/-- What is scoped is isolated. -/
theorem isolated_of_scoped {req : Request} (hscoped : Scoped req) : Isolated state req := by
  intro db db' h
  have hrefused : ∀ {a : String}, ¬ IsAddressParam a → ∃ e, decodeAddressParam a = .error e := by
    intro a ha
    cases hdecode : decodeAddressParam a with
    | error e => exact ⟨e, rfl⟩
    | ok x => exact absurd ⟨x, hdecode⟩ ha
  cases req with
  | getTransaction txHash => simp only [respond, getTransaction, selectOn_congr h.transactions]
  | getDeposit depositId => simp only [respond, getDeposit, selectOn_congr h.agentDeposits]
  | getProposal id =>
    simp only [respond, getProposal, selectOn_congr h.governanceProposals, selectOn_congr h.governanceVotes]
  | other => rfl
  | listVaultSnapshots q =>
    rcases hscoped with hrange | ⟨s, hs, hbad⟩
    · simp only [respond, listVaultSnapshots, if_pos hrange]
    · obtain ⟨e, he⟩ := hrefused hbad
      simp only [respond, listVaultSnapshots, hs, he]
      rfl
  | getAgent address =>
    obtain ⟨e, he⟩ := hrefused hscoped
    simp only [respond, getAgent, he]
    rfl
  | listAgentDeposits address =>
    obtain ⟨e, he⟩ := hrefused hscoped
    simp only [respond, listAgentDeposits, he]
    rfl
  | getVault address =>
    obtain ⟨e, he⟩ := hrefused hscoped
    simp only [respond, getVault, he]
    rfl
  | getAccountPositions address =>
    obtain ⟨e, he⟩ := hrefused hscoped
    simp only [respond, getAccountPositions, he]
    rfl
  | getAccountHistory address =>
    obtain ⟨e, he⟩ := hrefused hscoped
    simp only [respond, getAccountHistory, he]
    rfl
  | health => exact hscoped.elim
  | listContracts chainId => exact hscoped.elim
  | latestVaultSnapshot => exact hscoped.elim
  | listVaults => exact hscoped.elim
  | getRouterWeights => exact hscoped.elim
  | listProposals => exact hscoped.elim
  | getStats => exact hscoped.elim
  | getRouterState => exact hscoped.elim

end Congruence

/-! ### What leaks -/

/-- A chain that is not the one configured. -/
def otherChain (c : ℤ) : ℤ := c + 1

theorem otherChain_ne (c : ℤ) : otherChain c ≠ c := by
  unfold otherChain
  omega

/-- A run of the indexer on another chain, up to block 7. -/
def foreignRun (c : ℤ) : FinishedRun :=
  ⟨{ runId := 1, chainId := otherChain c, fromBlock := 0, lastIndexedBlock := some 7 }, none⟩

/-- A snapshot of a vault of another chain. -/
def foreignSnapshot (c : ℤ) : Stamped SnapshotRow :=
  ⟨{ chainId := otherChain c, contract := 1, blockNumber := 7, totalAssets := 0, totalSupply := 0,
     exitFeeBps := 0, tvlCap := 0, paused := false }, 0⟩

/-- The database with that run. -/
def Database.withForeignRun (db : Database) (c : ℤ) : Database := { db with indexerRuns := [foreignRun c] }

section Leaks

variable {state : AppState} {db : Database} {req : Request}

theorem agree_foreignRun (db : Database) (c : ℤ) (h : db.indexerRuns = []) : Agree c db (db.withForeignRun c) := by
  have hoff : onChain c (foreignRun c) = false := decide_eq_false (otherChain_ne c)
  constructor <;> first | rfl | simp [Database.withForeignRun, h, hoff]

theorem agree_foreignSnapshot (c : ℤ) :
    Agree c Database.empty { Database.empty with vaultSnapshots := [foreignSnapshot c] } := by
  have hoff : onChain c (foreignSnapshot c) = false := decide_eq_false (otherChain_ne c)
  constructor <;> first | rfl | simp [Database.empty, hoff]

theorem latestFreshness_nil (h : db.indexerRuns = []) : latestFreshness state db = ⟨0, state.now⟩ := by
  simp [latestFreshness, newestRun, descending, h]

theorem latestFreshness_foreign (c : ℤ) : latestFreshness state (db.withForeignRun c) = ⟨7, state.now⟩ := by
  simp [latestFreshness, newestRun, descending, Database.withForeignRun, foreignRun]

/-- An answer that shows the freshness of the newest run is not isolated. -/
theorem not_isolated_of_freshness (db : Database) (build : Freshness → Response)
    (hbuild : Function.Injective build) (hnil : db.indexerRuns = []) (h : respond state db req = .ok (build (latestFreshness state db)))
    (hforeign : respond state (db.withForeignRun state.chainId) req =
      .ok (build (latestFreshness state (db.withForeignRun state.chainId)))) : ¬ Isolated state req := by
  intro hisolated
  have hsame := hisolated db _ (agree_foreignRun db state.chainId hnil)
  rw [h, hforeign, latestFreshness_nil hnil, latestFreshness_foreign] at hsame
  have hfresh := hbuild (Except.ok.inj hsame)
  cases hfresh

/-- A database with one vault, on chain `c`. -/
def oneVault (c : ℤ) (a : Address) : Database :=
  { Database.empty with
    vaults := [⟨{ chainId := c, vaultAddress := a, name := "", riskLabel := "", depositCap := 0, status := 0,
                  registeredAt := 0, registeredBlock := 0, registeredTx := 0 }, 0⟩] }

theorem health_not_isolated : ¬ Isolated state .health := by
  intro hisolated
  have hsame := hisolated _ _ (agree_foreignRun Database.empty state.chainId rfl)
  simp [respond, health, newestRun, descending, Database.empty, Database.withForeignRun, foreignRun] at hsame

theorem latestVaultSnapshot_not_isolated : ¬ Isolated state .latestVaultSnapshot := by
  intro hisolated
  have hsame := hisolated _ _ (agree_foreignSnapshot state.chainId)
  simp [respond, latestVaultSnapshot, descending, Database.empty] at hsame

theorem getVault_not_isolated {address : String} (ha : IsAddressParam address) :
    ¬ Isolated state (.getVault address) := by
  obtain ⟨a, ha⟩ := ha
  have hon : ∀ r : Stamped VaultRow, r.row.chainId = state.chainId → onChain state.chainId r = true :=
    fun _ hr => decide_eq_true hr
  refine not_isolated_of_freshness (oneVault state.chainId a)
    (fun f => .vault ⟨state.chainId, addrToHex a, "", "", 0, decToString 0, [], 0⟩ f) ?_ rfl ?_ ?_
  · intro f g h
    simpa using h
  · simp [respond, getVault, ha, oneVault, selectOn, hon, Database.empty, ascending, freshnessOr, bind,
      Except.bind, pure, Except.pure]
  · simp [respond, getVault, ha, oneVault, selectOn, hon, Database.empty, Database.withForeignRun, ascending,
      freshnessOr, bind, Except.bind, pure, Except.pure]

/-- The requests that show the freshness of an empty database. -/
theorem not_isolated_of_blank (build : Freshness → Response) (hbuild : Function.Injective build)
    (h : ∀ runs, respond state { Database.empty with indexerRuns := runs } req =
      .ok (build (latestFreshness state { Database.empty with indexerRuns := runs }))) : ¬ Isolated state req :=
  not_isolated_of_freshness Database.empty build hbuild rfl (h []) (h [foreignRun state.chainId])

/-- What is not scoped is not isolated. -/
theorem scoped_of_isolated (hreq : ¬ req.NamesChain) (hisolated : Isolated state req) :
    Scoped req := by
  by_contra hscoped
  have haddress : ∀ {a : String}, ¬¬ IsAddressParam a → ∃ x, decodeAddressParam a = .ok x := fun h => not_not.mp h
  revert hisolated
  cases req with
  | health => exact health_not_isolated
  | listContracts chainId => exact absurd trivial hreq
  | latestVaultSnapshot => exact latestVaultSnapshot_not_isolated
  | getVault address =>
    exact getVault_not_isolated (not_not.mp hscoped)
  | getTransaction txHash => exact absurd trivial hscoped
  | getDeposit depositId => exact absurd trivial hscoped
  | getProposal id => exact absurd trivial hscoped
  | other => exact absurd trivial hscoped
  | listVaultSnapshots q =>
    obtain ⟨hrange, hcontract⟩ := not_or.mp hscoped
    have hle : q.fromBlock.getD 0 ≤ q.toBlock.getD 9223372036854775807 := by simpa using hrange
    refine not_isolated_of_blank (fun f => .vaultSnapshots [] f) (fun f g h => by simpa using h) fun runs => ?_
    cases hq : q.contract with
    | none =>
      simp [respond, listVaultSnapshots, hle, hq, Database.empty, ascending, freshnessOr, bind,
        Except.bind, pure, Except.pure]
    | some s =>
      obtain ⟨x, hx⟩ := haddress fun hbad => hcontract ⟨s, hq, hbad⟩
      simp [respond, listVaultSnapshots, hle, hq, hx, Database.empty, ascending, freshnessOr, bind,
        Except.bind, pure, Except.pure, Except.map]
  | getAgent address =>
    obtain ⟨x, hx⟩ := haddress hscoped
    refine not_isolated_of_blank (fun f => .agent none f) (fun f g h => by simpa using h) fun runs => ?_
    simp [respond, getAgent, hx, selectOn, Database.empty, descending₂, bind, Except.bind, pure, Except.pure]
  | listAgentDeposits address =>
    obtain ⟨x, hx⟩ := haddress hscoped
    refine not_isolated_of_blank (fun f => .deposits [] f) (fun f g h => by simpa using h) fun runs => ?_
    simp [respond, listAgentDeposits, hx, selectOn, Database.empty, descending₂, freshnessOr, bind, Except.bind,
      pure, Except.pure]
  | listVaults =>
    refine not_isolated_of_blank (fun f => .vaults [] f) (fun f g h => by simpa using h) fun runs => ?_
    simp [respond, listVaults, selectOn, Database.empty, ascending]
  | getRouterWeights =>
    refine not_isolated_of_blank (fun f => .routerWeights [] [] f) (fun f g h => by simpa using h)
      fun runs => ?_
    simp [respond, getRouterWeights, weightHistory, weightRows, selectOn, Database.empty, ascending, ascending₂,
      currentWeights, historyFreshness, freshnessOr]
  | listProposals =>
    refine not_isolated_of_blank (fun f => .proposals [] f) (fun f g h => by simpa using h) fun runs => ?_
    simp [respond, listProposals, selectOn, Database.empty, descending₂, freshnessOr]
  | getStats =>
    refine not_isolated_of_blank (fun f => .stats (decToString 0) 0 [] f) (fun f g h => by simpa using h)
      fun runs => ?_
    simp [respond, getStats, selectOn, Database.empty, descending, descending₂, distinctOn]
  | getRouterState =>
    refine not_isolated_of_blank (fun f => .routerState [] [] f) (fun f g h => by simpa using h)
      fun runs => ?_
    simp [respond, getRouterState, weightHistory, weightRows, selectOn, Database.empty, ascending₂,
      currentWeights, historyFreshness, freshnessOr]
  | getAccountPositions address =>
    obtain ⟨x, hx⟩ := haddress hscoped
    refine not_isolated_of_blank (fun f => .accountPositions (addrToHex x) [] f)
      (fun f g h => by simpa using h) fun runs => ?_
    simp [respond, getAccountPositions, hx, selectOn, Database.empty, ascending, descending, distinctOn, freshnessOr,
      bind, Except.bind, pure, Except.pure]
  | getAccountHistory address =>
    obtain ⟨x, hx⟩ := haddress hscoped
    refine not_isolated_of_blank (fun f => .accountHistory (addrToHex x) [] f)
      (fun f g h => by simpa using h) fun runs => ?_
    simp [respond, getAccountHistory, hx, selectOn, Database.empty, ascending₂, freshnessOr, bind, Except.bind,
      pure, Except.pure]

end Leaks

/-! ### The requests that are isolated -/

/-- **Chain isolation.**  The answer to a request that names no chain is the same for any two databases with
the same rows of the configured chain exactly if the request is a scoped one. -/
theorem isolated_iff (state : AppState) (req : Request) (hreq : ¬ req.NamesChain) :
    Isolated state req ↔ Scoped req :=
  ⟨scoped_of_isolated hreq, isolated_of_scoped⟩

/-- A service of chain 8453, at some moment. -/
def baseState : AppState := ⟨8453, 1700000000000000, fun a b => a / b⟩

theorem isolated_iff_base :
    Isolated baseState (.getProposal 3) ∧ ¬ Isolated baseState .getStats := by
  constructor
  · exact (isolated_iff baseState (.getProposal 3) id).mpr trivial
  · exact fun h => (isolated_iff baseState .getStats id).mp h

/-- One run of the indexer on another chain is seen in the health and the statistics of chain 8453. -/
theorem foreign_run_seen :
    ∃ db db', Agree 8453 db db' ∧ respond baseState db .health ≠ respond baseState db' .health ∧
      respond baseState db .getStats ≠ respond baseState db' .getStats := by
  refine ⟨.empty, Database.withForeignRun .empty 8453, agree_foreignRun .empty 8453 rfl, ?_, ?_⟩
  · simp [respond, health, newestRun, descending, Database.empty, Database.withForeignRun, foreignRun]
  · simp [respond, getStats, latestFreshness, newestRun, selectOn, Database.empty, Database.withForeignRun,
      descending, descending₂, distinctOn, foreignRun]

end RobotMoney.Api
