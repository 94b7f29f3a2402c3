import RobotMoney.Api.RouterState

/-!
# The latest row

The current weights are those of the last row of a list that is cut off after five hundred rows, and the freshness
of a vault is that of its last snapshot in such a list.  Both are what the latest row has while the table is
no longer than that (`latest_shown_iff`); from then on they stay at the five hundredth.
-/

namespace RobotMoney.Api

open RobotMoney.Lib
open RobotMoney.Indexer

/-- The primary key of `vault_snapshots`. -/
def Database.SnapshotsKeyed (db : Database) : Prop := (db.vaultSnapshots.map fun r => r.row.key).Nodup

section Rows

variable (state : AppState) (db : Database)

/-- The weights of the chain. -/
def chainWeights : List (Stamped WeightRow) := selectOn state.chainId db.routerWeightSnapshots fun _ => true

/-- The order by `(block_number, log_index)`. -/
def weightLe : Stamped WeightRow → Stamped WeightRow → Bool :=
  lexLe (fun r => r.row.blockNumber) fun r => r.row.logIndex

/-- The vector of a row, as it is shown. -/
def vectorOf (r : Stamped WeightRow) : List VaultWeight :=
  (r.row.vaultAddresses.zip r.row.bpsValues).map fun x => ⟨addrToHex x.1, x.2⟩

/-- The snapshots of a vault. -/
def vaultSnapshotsOf (vault : Address) : List (Stamped SnapshotRow) :=
  selectOn state.chainId db.vaultSnapshots fun r => decide (r.row.contract = vault)

/-- The order by `block_number`. -/
def snapshotLe (a b : Stamped SnapshotRow) : Bool := decide (a.row.blockNumber ≤ b.row.blockNumber)

/-- The weights shown are those of the latest row, if there is a row. -/
def ShowsLatestWeights (currentWeights : List VaultWeight) : Prop :=
  chainWeights state db ≠ [] → ∃ r, Greatest weightLe (chainWeights state db) r ∧ currentWeights = vectorOf r

/-- The block shown is that of the latest snapshot, if there is a snapshot. -/
def ShowsLatestSnapshot (vault : Address) (freshness : Freshness) : Prop :=
  vaultSnapshotsOf state db vault ≠ [] → ∃ r, Greatest snapshotLe (vaultSnapshotsOf state db vault) r ∧
    freshness.blockNumber = r.row.blockNumber

/-- There are at most five hundred rows, or the five hundredth has the vector of the latest. -/
def WeightsWithinLimit : Prop :=
  (chainWeights state db).length ≤ 500 ∨
    ∃ r r', ((chainWeights state db).mergeSort weightLe)[499]? = some r ∧
      Greatest weightLe (chainWeights state db) r' ∧ vectorOf r = vectorOf r'

end Rows

section Latest

variable {state : AppState} {db : Database} {vault : Address} {r : Stamped WeightRow}

/-! ### The weights -/

theorem weightLe_getLast (h : ((chainWeights state db).mergeSort weightLe).getLast? = some r) :
    Greatest weightLe (chainWeights state db) r :=
  greatest_of_getLast (lexLe_trans _ _) (lexLe_total _ _) h

theorem currentWeights_of_last (h : (weightRows state db).getLast? = some r) :
    currentWeights (weightHistory state db) = vectorOf r := by
  unfold currentWeights weightHistory
  rw [List.getLast?_map, h]
  rfl

theorem showsLatestWeights_iff :
    ShowsLatestWeights state db (currentWeights (weightHistory state db)) ↔ WeightsWithinLimit state db := by
  have hlength : ((chainWeights state db).mergeSort weightLe).length = (chainWeights state db).length :=
    List.length_mergeSort _
  by_cases hfits : (chainWeights state db).length ≤ 500
  · refine iff_of_true ?_ (.inl hfits)
    intro hne
    have htake : weightRows state db = (chainWeights state db).mergeSort weightLe :=
      List.take_of_length_le (hlength.le.trans hfits)
    have hsome : (chainWeights state db).mergeSort weightLe ≠ [] := by
      rw [← List.length_pos_iff, hlength, List.length_pos_iff]
      exact hne
    have hlast := List.getLast?_eq_some_getLast hsome
    refine ⟨_, weightLe_getLast hlast, currentWeights_of_last ?_⟩
    rw [htake]
    exact hlast
  · -- the row with number 499 is shown
    have hlt : 499 < ((chainWeights state db).mergeSort weightLe).length := by omega
    have hget := List.getElem?_eq_getElem hlt
    have hshown := currentWeights_of_last ((getLast?_take_of_lt hlt).trans hget)
    rw [hshown]
    constructor
    · intro hlatest
      have hne : chainWeights state db ≠ [] := by
        rintro hnil
        rw [hnil] at hfits
        exact hfits (Nat.zero_le _)
      obtain ⟨r', hgreatest, hvector⟩ := hlatest hne
      exact .inr ⟨_, r', hget, hgreatest, hvector⟩
    · rintro (h | ⟨r, r', hr, hlatest, hvector⟩) _
      · exact absurd h hfits
      · obtain rfl := Option.some.inj (hget.symm.trans hr)
        exact ⟨r', hlatest, hvector⟩

/-! ### The snapshots of a vault -/

theorem snapshotLe_trans (a b c : Stamped SnapshotRow) (hab : snapshotLe a b = true) (hbc : snapshotLe b c = true) :
    snapshotLe a c = true := by
  unfold snapshotLe at *
  simp only [decide_eq_true_eq] at *
  omega

theorem snapshotLe_total (a b : Stamped SnapshotRow) : (snapshotLe a b || snapshotLe b a) = true := by
  unfold snapshotLe
  simp only [Bool.or_eq_true, decide_eq_true_eq]
  omega

/-- A vault has one snapshot of a block. -/
theorem snapshots_ascend (hkeys : db.SnapshotsKeyed) (vault : Address) :
    ((vaultSnapshotsOf state db vault).mergeSort snapshotLe).Pairwise fun a b => snapshotLe b a = false := by
  have hsorted := List.pairwise_mergeSort snapshotLe_trans snapshotLe_total (vaultSnapshotsOf state db vault)
  have hnodup : ((vaultSnapshotsOf state db vault).mergeSort snapshotLe).Pairwise fun a b =>
      a.row.key ≠ b.row.key := by
    have hperm := List.mergeSort_perm (vaultSnapshotsOf state db vault) snapshotLe
    have hkeyed : (vaultSnapshotsOf state db vault).Pairwise fun a b => a.row.key ≠ b.row.key :=
      (List.pairwise_map.mp hkeys).filter _
    exact (hperm.pairwise_iff fun h => Ne.symm h).mpr hkeyed
  refine (hsorted.and hnodup).imp_of_mem ?_
  rintro a b ha hb ⟨hle, hne⟩
  have hcolumns : ∀ x ∈ (vaultSnapshotsOf state db vault).mergeSort snapshotLe,
      x.row.chainId = state.chainId ∧ x.row.contract = vault := by
    intro x hx
    have hx := (List.mem_filter.mp (List.mem_mergeSort.mp hx)).2
    rw [Bool.and_eq_true] at hx
    exact ⟨of_decide_eq_true hx.1, of_decide_eq_true hx.2⟩
  obtain ⟨hchain, hvault⟩ := hcolumns a ha
  obtain ⟨hchain', hvault'⟩ := hcolumns b hb
  unfold snapshotLe at hle ⊢
  simp only [decide_eq_true_eq, decide_eq_false_iff_not] at hle ⊢
  intro hge
  refine hne (Prod.ext ?_ (Prod.ext ?_ ?_))
  · exact hchain.trans hchain'.symm
  · exact hvault.trans hvault'.symm
  · exact le_antisymm hle hge

/-- The last of the snapshots that are shown. -/
def shownSnapshot (state : AppState) (db : Database) (vault : Address) : Option (Stamped SnapshotRow) :=
  (((vaultSnapshotsOf state db vault).mergeSort snapshotLe).take 500).getLast?

theorem showsLatestSnapshot_iff (hkeys : db.SnapshotsKeyed) {freshness : Freshness}
    (hfresh : ∀ r, shownSnapshot state db vault = some r → freshness.blockNumber = r.row.blockNumber) :
    ShowsLatestSnapshot state db vault freshness ↔ (vaultSnapshotsOf state db vault).length ≤ 500 := by
  have hlength : ((vaultSnapshotsOf state db vault).mergeSort snapshotLe).length =
      (vaultSnapshotsOf state db vault).length := List.length_mergeSort _
  constructor
  · intro hlatest
    by_contra hmore
    have hne : vaultSnapshotsOf state db vault ≠ [] := by
      intro hnil
      rw [hnil] at hmore
      exact hmore (Nat.zero_le _)
    obtain ⟨r', ⟨hmem, hall⟩, hblock⟩ := hlatest hne
    have hlt : 499 < ((vaultSnapshotsOf state db vault).mergeSort snapshotLe).length := by omega
    have hget := List.getElem?_eq_getElem hlt
    rw [hfresh _ ((getLast?_take_of_lt hlt).trans hget)] at hblock
    -- the row with number 499 would be a greatest one
    refine not_greatest_of_lt (snapshots_ascend hkeys vault) (by omega) hget
      ⟨List.mem_mergeSort.mp (List.getElem_mem hlt), ?_⟩
    intro x hx
    have hle : x.row.blockNumber ≤ r'.row.blockNumber := of_decide_eq_true (hall x hx)
    exact decide_eq_true (hle.trans hblock.ge)
  · intro hfits hne
    have hsome : (vaultSnapshotsOf state db vault).mergeSort snapshotLe ≠ [] := by
      rw [← List.length_pos_iff, hlength, List.length_pos_iff]
      exact hne
    have hlast := List.getLast?_eq_some_getLast hsome
    refine ⟨_, greatest_of_getLast snapshotLe_trans snapshotLe_total hlast, hfresh _ ?_⟩
    unfold shownSnapshot
    rw [List.take_of_length_le (hlength.le.trans hfits)]
    exact hlast

/-- A vault that is found is shown with its last snapshot. -/
theorem getVault_found {address : String} (haddress : decodeAddressParam address = .ok vault)
    (hfound : ∃ v ∈ db.vaults, onChain state.chainId v = true ∧ v.row.vaultAddress = vault) :
    ∃ d f, getVault state db address = .ok (.vault d f) ∧
      ∀ r, shownSnapshot state db vault = some r → f.blockNumber = r.row.blockNumber := by
  obtain ⟨v, hv, hchain, rfl⟩ := hfound
  have hmem : v ∈ selectOn state.chainId db.vaults fun r => decide (r.row.vaultAddress = v.row.vaultAddress) :=
    List.mem_filter.mpr ⟨hv, by simp [hchain]⟩
  unfold getVault
  rw [haddress]
  dsimp only [bind, Except.bind]
  cases hhead : (selectOn state.chainId db.vaults
      fun r => decide (r.row.vaultAddress = v.row.vaultAddress)).head? with
  | none =>
    rw [List.head?_eq_none_iff.mp hhead] at hmem
    cases hmem
  | some v' =>
    refine ⟨_, _, rfl, ?_⟩
    intro r hr
    have hlast : (List.map (fun r : Stamped SnapshotRow => (⟨r.row.blockNumber, decToString r.row.totalAssets,
        decToString r.row.totalSupply, r.indexedAt⟩ : VaultTvlPoint))
        (((vaultSnapshotsOf state db v.row.vaultAddress).mergeSort snapshotLe).take 500)).getLast? =
        some ⟨r.row.blockNumber, decToString r.row.totalAssets, decToString r.row.totalSupply, r.indexedAt⟩ := by
      rw [List.getLast?_map]
      exact congrArg (Option.map _) hr
    exact congrArg (fun o => (freshnessOr state db (o.map fun p : VaultTvlPoint =>
      ⟨p.blockNumber, p.indexedAt⟩)).blockNumber) hlast

end Latest

/-- **The latest is shown, up to a limit.**  Both weight endpoints show the vector of the latest row exactly when
there are at most five hundred, or the five hundredth has the same vector; and a vault has the freshness of its latest
snapshot exactly when it has at most five hundred. -/
theorem latest_shown_iff (state : AppState) (db : Database) (hkeys : db.SnapshotsKeyed) :
    (∃ weights history freshness, getRouterWeights state db = .ok (.routerWeights weights history freshness) ∧
      (ShowsLatestWeights state db weights ↔ WeightsWithinLimit state db)) ∧
    (∃ weights history freshness, getRouterState state db = .ok (.routerState weights history freshness) ∧
      (ShowsLatestWeights state db weights ↔ WeightsWithinLimit state db)) ∧
    ∀ address vault, decodeAddressParam address = .ok vault →
      (∃ v ∈ db.vaults, onChain state.chainId v = true ∧ v.row.vaultAddress = vault) →
      ∃ detail freshness, getVault state db address = .ok (.vault detail freshness) ∧
        (ShowsLatestSnapshot state db vault freshness ↔ (vaultSnapshotsOf state db vault).length ≤ 500) := by
  refine ⟨⟨_, _, _, rfl, showsLatestWeights_iff⟩, ⟨_, _, _, rfl, showsLatestWeights_iff⟩, ?_⟩
  intro address vault haddress hfound
  obtain ⟨detail, freshness, hanswer, hfresh⟩ := getVault_found haddress hfound
  exact ⟨detail, freshness, hanswer, showsLatestSnapshot_iff hkeys hfresh⟩

/-! ### A table that grows -/

/-- The weights of the block `i`, all to one vault. -/
def sampleWeights (i : ℕ) : Stamped WeightRow := ⟨⟨⟨8453, i, 0, i⟩, 3, [10], [i]⟩, 0⟩

/-- The snapshot of that vault at the block `i`. -/
def sampleSnapshot (i : ℕ) : Stamped SnapshotRow := ⟨⟨8453, 10, i, i, i, 0, 0, false⟩, 0⟩

/-- A database with the rows of `n` blocks. -/
def sampleDatabase (n : ℕ) : Database :=
  { Database.empty with
    vaults := [⟨⟨8453, 10, "Robot Money", "stable-yield", 0, 0, 0, 0, 0, none⟩, 0⟩]
    vaultSnapshots := (List.range n).map sampleSnapshot
    routerWeightSnapshots := (List.range n).map sampleWeights }

def sampleAddress : String := "0x000000000000000000000000000000000000000a"

theorem sampleAddress_decoded : decodeAddressParam sampleAddress = .ok 10 := by decide +kernel

theorem sampleDatabase_vault (n : ℕ) : ∃ v ∈ (sampleDatabase n).vaults,
    onChain baseApi.chainId v = true ∧ v.row.vaultAddress = 10 := ⟨_, List.mem_singleton_self _, rfl, rfl⟩

theorem sampleDatabase_keyed (n : ℕ) : (sampleDatabase n).SnapshotsKeyed := by
  unfold Database.SnapshotsKeyed sampleDatabase
  rw [List.map_map]
  refine List.Nodup.map ?_ List.nodup_range
  intro i j h
  exact congrArg (fun k : ℤ × Address × ℕ => k.2.2) h

theorem sampleDatabase_weights (n : ℕ) : chainWeights baseApi (sampleDatabase n) = (List.range n).map sampleWeights :=
  List.filter_eq_self.mpr fun r hr => by
    obtain ⟨i, -, rfl⟩ := List.mem_map.mp hr
    rfl

theorem sampleDatabase_snapshots (n : ℕ) :
    vaultSnapshotsOf baseApi (sampleDatabase n) 10 = (List.range n).map sampleSnapshot :=
  List.filter_eq_self.mpr fun r hr => by
    obtain ⟨i, -, rfl⟩ := List.mem_map.mp hr
    rfl

/-- With two rows the second is shown. -/
theorem latest_shown_iff_two :
    (∃ weights history freshness,
      getRouterState baseApi (sampleDatabase 2) = .ok (.routerState weights history freshness) ∧
        ShowsLatestWeights baseApi (sampleDatabase 2) weights) ∧
    ∃ detail freshness, getVault baseApi (sampleDatabase 2) sampleAddress = .ok (.vault detail freshness) ∧
      ShowsLatestSnapshot baseApi (sampleDatabase 2) 10 freshness := by
  obtain ⟨-, ⟨weights, history, freshness, hanswer, hiff⟩, hvault⟩ :=
    latest_shown_iff baseApi (sampleDatabase 2) (sampleDatabase_keyed 2)
  obtain ⟨detail, freshness', hanswer', hiff'⟩ :=
    hvault sampleAddress 10 sampleAddress_decoded (sampleDatabase_vault 2)
  have hweights : (chainWeights baseApi (sampleDatabase 2)).length ≤ 500 := by
    rw [sampleDatabase_weights, List.length_map, List.length_range]
    decide
  have hsnapshots : (vaultSnapshotsOf baseApi (sampleDatabase 2) 10).length ≤ 500 := by
    rw [sampleDatabase_snapshots, List.length_map, List.length_range]
    decide
  exact ⟨⟨weights, history, freshness, hanswer, hiff.mpr (.inl hweights)⟩,
    ⟨detail, freshness', hanswer', hiff'.mpr hsnapshots⟩⟩

theorem sampleWeights_not_within : ¬ WeightsWithinLimit baseApi (sampleDatabase 501) := by
  unfold WeightsWithinLimit
  rw [sampleDatabase_weights]
  have hsorted : ((List.range 501).map sampleWeights).mergeSort weightLe = (List.range 501).map sampleWeights := by
    refine mergeSort_eq_of_perm (lexLe_trans _ _) (lexLe_total _ _) (.refl _) ?_
    refine List.pairwise_map.mpr (List.pairwise_lt_range.imp ?_)
    intro i j hij
    exact lexLe_eq_false.mpr (.inl hij)
  rintro (h | ⟨r, r', hr, ⟨hmem, hall⟩, hvector⟩)
  · rw [List.length_map, List.length_range] at h
    exact absurd h (by decide)
  · rw [hsorted, List.getElem?_map, List.getElem?_range (by decide)] at hr
    cases hr
    obtain ⟨i, hi, rfl⟩ := List.mem_map.mp hmem
    have hlast := hall (sampleWeights 500) (List.mem_map_of_mem (List.mem_range.mpr (by decide)))
    have hle : 500 < i ∨ 500 = i ∧ 0 ≤ 0 := of_decide_eq_true hlast
    have hlt := List.mem_range.mp hi
    obtain rfl : i = 500 := by omega
    exact absurd hvector (by decide +kernel)

/-- With five hundred and one, the five hundredth still is. -/
theorem latest_shown_stale :
    (∃ weights history freshness,
      getRouterWeights baseApi (sampleDatabase 501) = .ok (.routerWeights weights history freshness) ∧
        ¬ ShowsLatestWeights baseApi (sampleDatabase 501) weights) ∧
    (∃ weights history freshness,
      getRouterState baseApi (sampleDatabase 501) = .ok (.routerState weights history freshness) ∧
        ¬ ShowsLatestWeights baseApi (sampleDatabase 501) weights) ∧
    ∃ detail freshness, getVault baseApi (sampleDatabase 501) sampleAddress = .ok (.vault detail freshness) ∧
      ¬ ShowsLatestSnapshot baseApi (sampleDatabase 501) 10 freshness := by
  refine ⟨⟨_, _, _, rfl, showsLatestWeights_iff.not.mpr sampleWeights_not_within⟩,
    ⟨_, _, _, rfl, showsLatestWeights_iff.not.mpr sampleWeights_not_within⟩, ?_⟩
  obtain ⟨detail, freshness, hanswer, hfresh⟩ := getVault_found sampleAddress_decoded (sampleDatabase_vault 501)
  refine ⟨detail, freshness, hanswer, (showsLatestSnapshot_iff (sampleDatabase_keyed 501) hfresh).not.mpr ?_⟩
  rw [sampleDatabase_snapshots, List.length_map, List.length_range]
  decide

end RobotMoney.Api
