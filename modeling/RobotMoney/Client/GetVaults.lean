import RobotMoney.Client.GetAgent
import RobotMoney.Client.ReturnData

/-!
# Vaults, as the client prints them

`rmpc get-vaults` lists the registered vaults, and `rmpc get-vault --address` shows one.  Both ask the
registry for a record that they do not read (`getVault_unread`): what is listed has its address and its
assets, and every other field empty (`readVaults_blank`), and of one vault nothing is printed
(`getVault_exits`).
-/

namespace RobotMoney.Client

open RobotMoney.Lib RobotMoney.Lib.Abi RobotMoney.Portfolio
open GetAgent (exitStartupFail mapError_eq_ok)

/-- What the node answers: the return data of the registry and the governance, and the views of a vault. -/
structure RecordRpc where
  chainId : Result ℕ
  blockNumber : Result ℕ
  ethCall : (target : Address) → (blockTag : String) → View → Result (List ℕ)
  callAsset : (vault : Address) → (blockTag : String) → Except String Address
  callDecimals : (vault : Address) → (blockTag : String) → Except String ℕ
  callTotalAssets : (vault : Address) → (blockTag : String) → Except String ℕ
  callTotalSupply : (vault : Address) → (blockTag : String) → Except String ℕ
  /-- The text of the error when return data is not read. -/
  abiError : List ℕ → String

/-- A call, and what is read of what it returns; `name` is the name of the function in the error. -/
def RecordRpc.read {α : Type} (rpc : RecordRpc) (target : Address) (tag : String) (v : View) (name : String)
    (fields : Fields α) : Result α := do
  let out ← rpc.ethCall target tag v
  match fields.strict out with
  | some a => .ok a
  | none => .error (.errRpcDecode (name ++ " abi decode: " ++ rpc.abiError out))

theorem mapError_eq_error {ε ε' α : Type} {x : Except ε α} {f : ε → ε'} {e : ε'} :
    x.mapError f = .error e ↔ ∃ d, x = .error d ∧ f d = e := by
  cases x <;> simp [Except.mapError]

/-- What the node answers, when it answers, is what the two contracts return in one block. -/
structure Answers {V : Type} (rpc : RecordRpc) (target : Address) (registry : Registry)
    (s : Governance.State V) : Prop where
  returns : ∀ n v data, rpc.blockNumber = .ok n → rpc.ethCall target (blockTag n) v = .ok data →
    returnData registry s v = some data

theorem RecordRpc.read_eq_ok {α : Type} {rpc : RecordRpc} {target : Address} {tag : String} {v : View}
    {name : String} {fields : Fields α} {a : α} :
    rpc.read target tag v name fields = .ok a ↔
      ∃ out, rpc.ethCall target tag v = .ok out ∧ fields.strict out = some a := by
  unfold RecordRpc.read
  rw [bind_eq_ok]
  refine exists_congr fun out => and_congr_right fun _ => ?_
  cases fields.strict out <;> simp

/-- `call_get_vault` -/
def callGetVault (rpc : RecordRpc) (registry vault : Address) (tag : String) : Result VaultRecord := do
  let r ← rpc.read registry tag (.getVault vault) "getVault" getVaultCall
  pure r.1

/-- `call_list_vaults` -/
def callListVaults (rpc : RecordRpc) (registry : Address) (tag : String) : Result (List Address) := do
  let r ← rpc.read registry tag .listVaults "listVaults" listVaultsCall
  pure r.1

/-- `vault_status_to_str`, and `status_to_str` of the other command -/
def vaultStatusToStr (s : ℕ) : String :=
  match s with
  | 0 => "active"
  | 1 => "paused"
  | 2 => "retired"
  | _ => "unknown"

/-- The names of the contract's statuses. -/
theorem vaultStatusToStr_statusIndex (s : VaultStatus) :
    vaultStatusToStr (statusIndex s) =
      match s with
      | .active => "active"
      | .paused => "paused"
      | .retired => "retired" := by
  cases s <;> rfl

structure VaultEntry where
  address : String := ""
  name : String := ""
  riskLabel : String := ""
  status : String := ""
  totalAssets : ℕ := 0
  depositCap : ℕ := 0
  exitFeeBps : ℕ := 0
  receiptTokenAddress : String := ""

/-- `GetVaultsData` -/
structure GetVaultsData where
  registry : String := ""
  vaults : List VaultEntry := []

/-- The entry of a vault, with its record if it was read. -/
def VaultEntry.of (vault : Address) (totalAssets : ℕ) : Result VaultRecord → VaultEntry
  | .ok rec =>
    { address := lowerHex vault
      name := rec.name
      riskLabel := rec.riskLabel
      status := vaultStatusToStr rec.status
      totalAssets := totalAssets
      depositCap := rec.depositCap
      exitFeeBps := rec.exitFeeBps
      receiptTokenAddress := lowerHex rec.receiptToken }
  | .error _ => { address := lowerHex vault, totalAssets := totalAssets }

/-- What is shown of the assets: zero, when they are not read. -/
def shownAssets (rpc : RecordRpc) (vault : Address) (tag : String) : ℕ :=
  match rpc.callTotalAssets vault tag with
  | .ok v => v
  | .error _ => 0

/-- The body of the loop: the vault with the index `i`. -/
def readEntry (rpc : RecordRpc) (registry : Address) (tag : String) (i : ℕ) (vault : Address)
    (b : PartialBuilder GetVaultsData) : PartialBuilder GetVaultsData :=
  let field := "vaults[" ++ toString i ++ "]"
  let record := callGetVault rpc registry vault tag
  let b := b.read (field ++ ".registry_record") (record.mapError RmpcError.display) fun _ d => d
  let b := b.read (field ++ ".total_assets") (rpc.callTotalAssets vault tag) fun _ d => d
  b.dataMut fun d => { d with vaults := d.vaults ++ [.of vault (shownAssets rpc vault tag) record] }

/-- The loop, from the index `i`. -/
def readEntries (rpc : RecordRpc) (registry : Address) (tag : String) :
    ℕ → List Address → PartialBuilder GetVaultsData → PartialBuilder GetVaultsData
  | _, [], b => b
  | i, vault :: vaults, b =>
    readEntries rpc registry tag (i + 1) vaults (readEntry rpc registry tag i vault b)

/-- `read_vaults` -/
def readVaults (rpc : RecordRpc) (registry : Address) : Result (Envelope GetVaultsData) := do
  let chainId ← rpc.chainId
  let blockNumber ← rpc.blockNumber
  let tag := blockTag blockNumber
  let vaultAddrs ← callListVaults rpc registry tag
  let b := PartialBuilder.new chainId blockNumber { registry := lowerHex registry }
  pure (readEntries rpc registry tag 0 vaultAddrs b).finish

/-- `RegistryVaultData` -/
structure RegistryVaultData where
  address : String := ""
  name : String := ""
  riskLabel : String := ""
  mandate : String := ""
  status : String := ""
  receiptTokenAddress : String := ""
  depositCap : ℕ := 0
  exitFeeBps : ℕ := 0
  registeredAt : ℕ := 0
  totalAssets : ℕ := 0
  totalSupply : ℕ := 0
  sharePrice : Option String := none
  asset : String := ""
  decimals : ℕ := 0

/-- `compute_share_price`; the power wraps, the product saturates. -/
def computeSharePrice (totalAssets totalSupply decimals : ℕ) : Option String :=
  if totalSupply = 0 then
    none
  else
    let scale := 10 ^ decimals % wordSize
    let numerator := min (totalAssets * scale) (wordSize - 1)
    some (toString (numerator / totalSupply))

/-- A payload with its share price, when both its numbers were read; the decimals are those in the payload. -/
def withSharePrice {T : Type} (put : Option String → T → T) (decimals : T → ℕ) (assets supply : Except String ℕ)
    (d : T) : T :=
  match assets, supply with
  | .ok ta, .ok ts => put (computeSharePrice ta ts (decimals d)) d
  | _, _ => d

def RegistryVaultData.putSharePrice (p : Option String) (d : RegistryVaultData) : RegistryVaultData :=
  { d with sharePrice := p }

def setSharePrice (assets supply : Except String ℕ) : RegistryVaultData → RegistryVaultData :=
  withSharePrice RegistryVaultData.putSharePrice RegistryVaultData.decimals assets supply

/-- `read_vault_from_registry` -/
def readVaultFromRegistry (rpc : RecordRpc) (registry vault : Address) :
    Result (Envelope RegistryVaultData) := do
  let chainId ← rpc.chainId
  let blockNumber ← rpc.blockNumber
  let tag := blockTag blockNumber
  let record ← callGetVault rpc registry vault tag
  let b := PartialBuilder.new chainId blockNumber
    { address := lowerHex vault
      name := record.name
      riskLabel := record.riskLabel
      mandate := record.mandate
      status := vaultStatusToStr record.status
      receiptTokenAddress := lowerHex record.receiptToken
      depositCap := record.depositCap
      exitFeeBps := record.exitFeeBps
      registeredAt := record.registeredAt : RegistryVaultData }
  let b := b.read "asset" (rpc.callAsset vault tag) fun v d => { d with asset := lowerHex v }
  let b := b.read "decimals" (rpc.callDecimals vault tag) fun v d => { d with decimals := v }
  let totalAssets := rpc.callTotalAssets vault tag
  let b := b.read "total_assets" totalAssets fun v d => { d with totalAssets := v }
  let totalSupply := rpc.callTotalSupply vault tag
  let b := b.read "total_supply" totalSupply fun v d => { d with totalSupply := v }
  let b := b.dataMut (setSharePrice totalAssets totalSupply)
  pure b.finish

/-- The address of a contract from an optional field of the configuration. -/
def configured (c : Crates) (address : Option String) : Except ℕ Address :=
  match address with
  | some text => (c.addressFromStr text).mapError fun _ => exitStartupFail
  | none => .error exitStartupFail

/-- `get_vaults::run`, with the configuration loaded: the envelope that is printed, or the exit code. -/
def getVaults (c : Crates) (rpc : RecordRpc) (cfg : Config) : Except ℕ (Envelope GetVaultsData) := do
  let registryAddr ← configured c cfg.registryAddress
  (readVaults rpc registryAddr).mapError fun _ => exitStartupFail

/-- `get_vault::run` with an address. -/
def getVault (c : Crates) (rpc : RecordRpc) (cfg : Config) (address : String) :
    Except ℕ (Envelope RegistryVaultData) := do
  let vaultAddr ← (c.addressFromStr address).mapError fun _ => exitStartupFail
  let registryAddr ← configured c cfg.registryAddress
  (readVaultFromRegistry rpc registryAddr vaultAddr).mapError fun _ => exitStartupFail

section Reads

variable {V : Type} {c : Crates} {rpc : RecordRpc} {cfg : Config} {target : Address} {registry : Registry}
  {s : Governance.State V} {n : ℕ}

/-- Whatever the registry holds, the client does not read a record of it. -/
theorem Answers.callGetVault_fails (h : Answers rpc target registry s) (hn : rpc.blockNumber = .ok n)
    (vault : Address) :
    ∃ e, callGetVault rpc target vault (blockTag n) = .error e := by
  cases hcall : callGetVault rpc target vault (blockTag n) with
  | error e => exact ⟨e, rfl⟩
  | ok record =>
    exfalso
    simp only [callGetVault, bind_eq_ok, RecordRpc.read_eq_ok] at hcall
    obtain ⟨r, ⟨out, hout, hread⟩, -⟩ := hcall
    have hdata := h.returns n _ out hn hout
    cases hg : registry.getVault vault with
    | error e => simp [returnData, hg] at hdata
    | ok x =>
      simp only [returnData, hg, Option.some.injEq] at hdata
      rw [← hdata, getVault_unread] at hread
      cases hread

theorem Answers.callListVaults_eq_ok (h : Answers rpc target registry s) (hn : rpc.blockNumber = .ok n)
    {vaults : List Address} (hcall : callListVaults rpc target (blockTag n) = .ok vaults) :
    vaults = registry.vaults := by
  simp only [callListVaults, bind_eq_ok, pure_eq_ok, RecordRpc.read_eq_ok] at hcall
  obtain ⟨r, ⟨out, hout, hread⟩, rfl⟩ := hcall
  obtain rfl := Option.some.inj (h.returns n _ out hn hout)
  rw [listVaults_read] at hread
  obtain rfl := Option.some.inj hread
  rfl

/-- The entry of a vault whose record is not read. -/
def VaultEntry.blank (rpc : RecordRpc) (tag : String) (vault : Address) : VaultEntry :=
  { address := lowerHex vault, totalAssets := shownAssets rpc vault tag }

/-- One more vault: an entry that is blank, and an error. -/
theorem Answers.readEntry (h : Answers rpc target registry s) (hn : rpc.blockNumber = .ok n) (i : ℕ)
    (vault : Address) (b : PartialBuilder GetVaultsData) :
    (readEntry rpc target (blockTag n) i vault b).data.vaults =
        b.data.vaults ++ [.blank rpc (blockTag n) vault] ∧
      (readEntry rpc target (blockTag n) i vault b).errors ≠ [] := by
  obtain ⟨e, he⟩ := h.callGetVault_fails hn vault
  unfold Client.readEntry
  rw [he]
  constructor
  · simp only [PartialBuilder.dataMut_data]
    rw [PartialBuilder.read_data_of_keeps GetVaultsData.vaults fun _ _ => rfl,
      PartialBuilder.read_data_of_keeps GetVaultsData.vaults fun _ _ => rfl]
    rfl
  · intro hnil
    have herrors := (PartialBuilder.read_errors_eq_nil.mp hnil).1
    obtain ⟨-, _, hok⟩ := PartialBuilder.read_errors_eq_nil.mp herrors
    cases hok

theorem Answers.readEntries (h : Answers rpc target registry s) (hn : rpc.blockNumber = .ok n)
    (vaults : List Address) : ∀ (i : ℕ) (b : PartialBuilder GetVaultsData),
    (readEntries rpc target (blockTag n) i vaults b).data.vaults =
        b.data.vaults ++ vaults.map (.blank rpc (blockTag n)) ∧
      ((readEntries rpc target (blockTag n) i vaults b).errors = [] → b.errors = [] ∧ vaults = []) := by
  induction vaults with
  | nil =>
    intro i b
    exact ⟨(List.append_nil _).symm, fun hnil => ⟨hnil, rfl⟩⟩
  | cons vault vaults ih =>
    intro i b
    obtain ⟨hdata, herrors⟩ := h.readEntry hn i vault b
    obtain ⟨hdata', herrors'⟩ := ih (i + 1) (Client.readEntry rpc target (blockTag n) i vault b)
    refine ⟨?_, fun hnil => absurd (herrors' hnil).1 herrors⟩
    rw [Client.readEntries, hdata', hdata, List.append_assoc]
    rfl

/-- **The list of vaults.**  Every registered vault is listed, in the registry's order, with its address
and its assets and nothing else; and the envelope is partial unless the registry is empty. -/
theorem readVaults_blank (h : Answers rpc target registry s) {out : Envelope GetVaultsData}
    (hread : readVaults rpc target = .ok out) :
    (∃ n, rpc.blockNumber = .ok n ∧
      out.data.vaults = registry.vaults.map (.blank rpc (blockTag n))) ∧
      (out.isPartial = false → registry.vaults = []) := by
  simp only [readVaults, bind_eq_ok, pure_eq_ok] at hread
  obtain ⟨chainId, -, n, hn, vaults, hlist, rfl⟩ := hread
  obtain rfl := h.callListVaults_eq_ok hn hlist
  obtain ⟨hdata, herrors⟩ := h.readEntries hn registry.vaults 0
    (.new chainId n { registry := lowerHex target })
  refine ⟨⟨n, hn, hdata⟩, ?_⟩
  intro hp
  exact (herrors (PartialBuilder.finish_isPartial.mp hp)).2

/-- A command that is not set up exits with the one code there is for it. -/
theorem getVault_error {address : String} {code : ℕ} (h : getVault c rpc cfg address = .error code) :
    code = exitStartupFail := by
  simp only [getVault, configured, bind_eq_error, mapError_eq_error] at h
  rcases h with ⟨-, -, rfl⟩ | ⟨vault, -, h⟩
  · rfl
  · split at h
    · simp only [mapError_eq_error] at h
      rcases h with ⟨-, -, rfl⟩ | ⟨-, -, -, -, rfl⟩ <;> rfl
    · rcases h with h | ⟨registry, h, -⟩
      · exact (Except.error.inj h).symm
      · cases h

/-- **One vault.**  Nothing is printed, be the vault registered or not. -/
theorem getVault_exits {address : String}
    (h : ∀ target, configured c cfg.registryAddress = .ok target → Answers rpc target registry s) :
    getVault c rpc cfg address = .error exitStartupFail := by
  cases hget : getVault c rpc cfg address with
  | error code => rw [getVault_error hget]
  | ok out =>
    exfalso
    simp only [getVault, bind_eq_ok, mapError_eq_ok, readVaultFromRegistry] at hget
    obtain ⟨vault, -, target, htarget, chainId, -, n, hn, record, hrecord, -⟩ := hget
    obtain ⟨e, he⟩ := (h target htarget).callGetVault_fails hn vault
    rw [he] at hrecord
    cases hrecord

end Reads

end RobotMoney.Client
