import RobotMoney.Client.GetRoles
import RobotMoney.Client.GetVault
import RobotMoney.Client.PendingOps

/-!
# The read envelopes

What the three commands `get-vault`, `get-timelock` and `get-roles` print, put together: which fields of it can
be wrong without an error that says so.  Where nothing is recorded nothing is missing, but for two slips: the
share price is made without the decimals when these were not read, and an operation of the timelock is left out
when its timestamp was not.
-/

namespace RobotMoney.Client

open RobotMoney.Lib
open GetTimelock (HashOrders TimelockState HonestTimelock PendingFound readTimelock doneTimestamp scheduledTopic
  RawLog View asInserted Matches)

/-- **The envelopes are honest** just where the share price of a vault comes out right or goes by a name of the
group, and the pending operations of the timelock are found. -/
theorem read_envelopes_honest_iff {group : List String} (hgroup : ∀ name ∈ group, name ∈ priceFields) :
    (∀ (rpc : VaultRpc) (gateway vault gatewayVault : Address) (s : VaultState) (out : Envelope VaultData),
      readVault rpc gateway vault = .ok out →
      rpc.ShowsVault gateway vault (blockTag out.blockNumber) gatewayVault s →
      s.totalAssets * 10 ^ s.decimals < wordSize →
      (HonestVault out vault gatewayVault s group ↔
        rpc.toRecordRpc.PriceRight vault (blockTag out.blockNumber) s group)) ∧
    (∀ (rpc : RecordRpc) (registry vault : Address) (record : VaultRecord) (s : VaultState)
      (out : Envelope RegistryVaultData), readVaultFromRegistry rpc registry vault = .ok out →
      Tells (callGetVault rpc registry vault (blockTag out.blockNumber)) record →
      rpc.ShowsVault vault (blockTag out.blockNumber) s → s.totalAssets * 10 ^ s.decimals < wordSize →
      (HonestRegistryVault out vault record s group ↔ rpc.PriceRight vault (blockTag out.blockNumber) s group)) ∧
    (∀ (hash : HashOrders) (rpc : GetTimelock.Rpc) (timelock : Address) (s : TimelockState)
      (out : Envelope GetTimelock.TimelockData), readTimelock hash rpc timelock = .ok out →
      rpc.ShowsTimelock timelock out.blockNumber s → s.Fits →
      (HonestTimelock out timelock s ↔ PendingFound rpc timelock out.blockNumber s)) ∧
    ∀ (rpc : RolesRpc) (gateway target : Address) (s : RolesState) (out : Envelope RolesData),
      readRoles rpc gateway target = .ok out →
      rpc.ShowsRoles gateway target (blockTag out.blockNumber) s → HonestRoles out target s :=
  ⟨fun _ _ _ _ _ _ h hshows hfits => readVault_honest_iff h hshows hfits hgroup,
    fun _ _ _ _ _ _ h hrecord hshows hfits => readVaultFromRegistry_honest_iff h hrecord hshows hfits hgroup,
    fun _ _ _ _ _ h hshows hfits => GetTimelock.readTimelock_honest_iff h hshows hfits,
    fun _ _ _ _ _ h hshows => readRoles_honest h hshows⟩

/-! ### A timelock with one operation -/

/-- The operation `1` is scheduled for the time `100`. -/
def oneScheduled : TimelockState where
  minDelay := 60
  timestamp id := if id = 1 then 100 else 0
  logs := [⟨9, [scheduledTopic, 1], 8⟩]

/-- A node at the block `10`, which answers a question about a timestamp with `x`. -/
def timelockNode (x : ℕ → Result (List ℕ)) : GetTimelock.Rpc where
  chainId := .ok 31337
  blockNumber := .ok 10
  ethCall _ _ v :=
    match v with
    | .getMinDelay => .ok [60]
    | .proposerRole => .ok [2]
    | .executorRole => .ok [3]
    | .getTimestamp id => x id
  getLogs f := .ok (oneScheduled.logs.filter fun log => Matches f 10 log)
  abiError _ := ""

theorem timelockNode_shows {x : ℕ → Result (List ℕ)} (hx : ∀ id, Tells (x id) [oneScheduled.timestamp id]) :
    (timelockNode x).ShowsTimelock 9 10 oneScheduled where
  minDelay := tells_ok
  timestamp := hx
  logs _ _ := tells_ok

theorem oneScheduled_pending {id : ℕ} : oneScheduled.Pending id ↔ id = 1 := by
  unfold TimelockState.Pending oneScheduled doneTimestamp
  dsimp only
  split <;> simp_all

theorem oneScheduled_fits : oneScheduled.Fits where
  minDelay := by decide
  timestamp id := by
    unfold oneScheduled
    dsimp only
    split <;> decide
  word id hid := by
    rw [oneScheduled_pending.mp hid]
    decide

/-! ### A vault, and an account without roles -/

def sampleVault : VaultState where
  asset := 2
  name := "Robot Money"
  symbol := "rmUSDC"
  decimals := 6
  totalAssets := 3000000
  totalSupply := 2000000

def sampleRecord : VaultRecord where
  vault := 3
  name := "Robot Money"
  riskLabel := "stable-yield"
  mandate := "lend"
  status := 0
  receiptToken := 3
  depositCap := 0
  exitFeeBps := 25
  registeredAt := 1700000000

/-- A node that answers every question about the vault. -/
def vaultNode : VaultRpc where
  chainId := .ok 31337
  blockNumber := .ok 10
  ethCall _ _ _ := .ok (getVaultCall.returns (sampleRecord, ()))
  callAsset _ _ := .ok sampleVault.asset
  callDecimals _ _ := .ok sampleVault.decimals
  callTotalAssets _ _ := .ok sampleVault.totalAssets
  callTotalSupply _ _ := .ok sampleVault.totalSupply
  abiError _ := ""
  callVaultAddr _ _ := .ok 3
  callName _ _ := .ok sampleVault.name
  callSymbol _ _ := .ok sampleVault.symbol

theorem vaultNode_shows {tag : String} : vaultNode.ShowsVault 1 3 tag 3 sampleVault where
  asset := tells_ok
  decimals := tells_ok
  totalAssets := tells_ok
  totalSupply := tells_ok
  gatewayVault := tells_ok
  name := tells_ok
  symbol := tells_ok

theorem vaultNode_record {registry vault : Address} {tag : String} :
    callGetVault vaultNode.toRecordRpc registry vault tag = .ok sampleRecord := by
  have hread : getVaultCall.strict (getVaultCall.returns (sampleRecord, ())) = some (sampleRecord, ()) :=
    Abi.Fields.strict_returns getVaultCall_lawful ⟨⟨_, rfl, trivial, trivial, trivial, trivial,
      show 0 < 2 ^ 8 by decide, trivial, trivial, show 25 < 2 ^ 16 by decide,
      show 1700000000 < 2 ^ 64 by decide, trivial⟩, trivial⟩
  unfold callGetVault RecordRpc.read
  simp only [vaultNode, bind, Except.bind, hread]
  rfl

/-- Nobody has a role. -/
def noRoles : RolesState := ⟨fun _ => List.replicate 32 0, fun _ _ => false⟩

def rolesNode : RolesRpc where
  chainId := .ok 31337
  blockNumber := .ok 10
  ethCallRole _ _ role := .ok (noRoles.roleHash role)
  callHasRole _ _ role account := .ok (noRoles.hasRole role account)

theorem rolesNode_shows {tag : String} : rolesNode.ShowsRoles 1 7 tag noRoles where
  roleHash _ := tells_ok
  hasRole _ := tells_ok

theorem read_envelopes_honest_sample :
    (∃ out, readVault vaultNode 1 3 = .ok out ∧ HonestVault out 3 3 sampleVault ["share_price"]) ∧
      (∃ out, readVaultFromRegistry vaultNode.toRecordRpc 5 3 = .ok out ∧
        HonestRegistryVault out 3 sampleRecord sampleVault ["share_price"]) ∧
      (∃ out, readTimelock asInserted (timelockNode fun id => .ok [oneScheduled.timestamp id]) 9 = .ok out ∧
        HonestTimelock out 9 oneScheduled) ∧
      ∃ out, readRoles rolesNode 1 7 = .ok out ∧ HonestRoles out 7 noRoles := by
  have hgroup : ∀ name ∈ ["share_price"], name ∈ priceFields := by decide
  obtain ⟨hvault, hregistry, htimelock, hroles⟩ := read_envelopes_honest_iff hgroup
  have hfits : sampleVault.totalAssets * 10 ^ sampleVault.decimals < wordSize := by decide
  have hright : ∀ tag, vaultNode.toRecordRpc.PriceRight 3 tag sampleVault ["share_price"] := fun _ =>
    .inl (.inr ⟨not_fails_ok, not_fails_ok, .inl not_fails_ok⟩)
  refine ⟨⟨_, rfl, ?_⟩, ⟨_, rfl, ?_⟩, ⟨_, rfl, ?_⟩, ⟨_, rfl, ?_⟩⟩
  · exact (hvault vaultNode 1 3 3 sampleVault _ rfl vaultNode_shows hfits).mpr (hright _)
  · refine (hregistry vaultNode.toRecordRpc 5 3 sampleRecord sampleVault _ rfl ?_ vaultNode_shows.toShowsVault
      hfits).mpr (hright _)
    rw [vaultNode_record]
    exact tells_ok
  · refine (htimelock asInserted _ 9 oneScheduled _ rfl (timelockNode_shows fun _ => tells_ok)
      oneScheduled_fits).mpr (.inr fun id hid => ⟨?_, not_fails_ok⟩)
    obtain rfl := oneScheduled_pending.mp hid
    exact ⟨_, List.mem_singleton_self _, ⟨by decide, rfl, ⟨[1], rfl⟩⟩, rfl⟩
  · exact hroles rolesNode 1 7 noRoles _ rfl rolesNode_shows

/-- **An operation that is left out.**  Its timestamp is not read, and the envelope is not partial. -/
theorem unread_operation_missing :
    ∃ out, readTimelock asInserted (timelockNode fun _ => .error (.errRpcTransport "connection reset")) 9 =
        .ok out ∧ out.isPartial = false ∧ out.data.pendingOps = [] ∧ oneScheduled.Pending 1 ∧
      (timelockNode fun _ => .error (.errRpcTransport "connection reset")).ShowsTimelock 9 10 oneScheduled ∧
      oneScheduled.Fits ∧ ¬ HonestTimelock out 9 oneScheduled := by
  have hshows : (timelockNode fun _ => .error (.errRpcTransport "connection reset")).ShowsTimelock 9 10
      oneScheduled := timelockNode_shows fun _ _ h => by cases h
  have hpending : oneScheduled.Pending 1 := oneScheduled_pending.mpr rfl
  refine ⟨_, rfl, rfl, ?_, hpending, hshows, oneScheduled_fits, fun hhonest => ?_⟩
  · exact List.mergeSort_nil
  · rcases (GetTimelock.readTimelock_honest_iff rfl hshows oneScheduled_fits).mp hhonest with hfails | hfound
    · exact not_fails_ok hfails
    · exact (hfound 1 hpending).2 fails_error

end RobotMoney.Client
