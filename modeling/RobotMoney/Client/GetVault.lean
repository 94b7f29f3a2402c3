import RobotMoney.Client.GetVaults
import RobotMoney.Client.Honest

/-!
# One vault, as the client prints it

`rmpc get-vault`, in its two modes: the vault of the configuration, which the gateway is asked about as well,
and a vault of the registry.  Every field has a read of its own, but for the share price, which is made of three
numbers: of the assets and the supply if both were read, and of the decimals *that are in the payload*, which
are zero when they were not read.  So what is printed of a vault is honest but for the share price, and for this
it is exactly where the decimals do not matter or were read (`readVault_honest_iff`,
`readVaultFromRegistry_honest_iff`).
-/

namespace RobotMoney.Client

open RobotMoney.Lib

/-! ### The vault of the configuration -/

/-- What the node answers in either mode. -/
structure VaultRpc extends RecordRpc where
  callVaultAddr : (gateway : Address) → (blockTag : String) → Except String Address
  callName : (vault : Address) → (blockTag : String) → Except String String
  callSymbol : (vault : Address) → (blockTag : String) → Except String String

/-- `VaultData`, without the notes. -/
structure VaultData where
  address : String := ""
  gatewayVault : String := ""
  asset : String := ""
  name : String := ""
  symbol : String := ""
  decimals : ℕ := 0
  totalAssets : ℕ := 0
  totalSupply : ℕ := 0
  sharePrice : Option String := none

def VaultData.putSharePrice (p : Option String) (d : VaultData) : VaultData := { d with sharePrice := p }

def VaultData.setSharePrice (assets supply : Except String ℕ) : VaultData → VaultData :=
  withSharePrice VaultData.putSharePrice VaultData.decimals assets supply

/-- `read_vault` -/
def readVault (rpc : VaultRpc) (gateway vault : Address) : Result (Envelope VaultData) := do
  let chainId ← rpc.chainId
  let blockNumber ← rpc.blockNumber
  let tag := blockTag blockNumber
  let b := PartialBuilder.new chainId blockNumber { address := lowerHex vault }
  let b := b.read "gateway_vault" (rpc.callVaultAddr gateway tag) fun v d => { d with gatewayVault := lowerHex v }
  let b := b.read "asset" (rpc.callAsset vault tag) fun v d => { d with asset := lowerHex v }
  let b := b.read "name" (rpc.callName vault tag) fun v d => { d with name := v }
  let b := b.read "symbol" (rpc.callSymbol vault tag) fun v d => { d with symbol := v }
  let b := b.read "decimals" (rpc.callDecimals vault tag) fun v d => { d with decimals := v }
  let totalAssets := rpc.callTotalAssets vault tag
  let b := b.read "total_assets" totalAssets fun v d => { d with totalAssets := v }
  let totalSupply := rpc.callTotalSupply vault tag
  let b := b.read "total_supply" totalSupply fun v d => { d with totalSupply := v }
  let b := b.dataMut (VaultData.setSharePrice totalAssets totalSupply)
  pure b.finish

/-- `run` without an address: the envelope that is printed, or the exit code. -/
def getConfiguredVault (c : Crates) (rpc : VaultRpc) (cfg : Config) : Except ℕ (Envelope VaultData) := do
  let gatewayAddr ← (c.addressFromStr cfg.gatewayAddress).mapError fun _ => GetAgent.exitStartupFail
  let vaultAddr ← (c.addressFromStr cfg.vaultAddress).mapError fun _ => GetAgent.exitStartupFail
  (readVault rpc gatewayAddr vaultAddr).mapError fun _ => GetAgent.exitStartupFail

/-! ### The vault in the pinned block -/

/-- What a vault says of itself. -/
structure VaultState where
  asset : Address
  name : String
  symbol : String
  decimals : ℕ
  totalAssets : ℕ
  totalSupply : ℕ

/-- The value of a share, rounded down; there is none without shares. -/
def VaultState.sharePrice (s : VaultState) : Option ℕ :=
  if s.totalSupply = 0 then none else some (s.totalAssets * 10 ^ s.decimals / s.totalSupply)

/-- The answers of the vault are true, as far as there are any. -/
structure RecordRpc.ShowsVault (rpc : RecordRpc) (vault : Address) (tag : String) (s : VaultState) : Prop where
  asset : Tells (rpc.callAsset vault tag) s.asset
  decimals : Tells (rpc.callDecimals vault tag) s.decimals
  totalAssets : Tells (rpc.callTotalAssets vault tag) s.totalAssets
  totalSupply : Tells (rpc.callTotalSupply vault tag) s.totalSupply

/-- And those of its names, and that of the gateway. -/
structure VaultRpc.ShowsVault (rpc : VaultRpc) (gateway vault : Address) (tag : String) (gatewayVault : Address)
    (s : VaultState) : Prop extends rpc.toRecordRpc.ShowsVault vault tag s where
  gatewayVault : Tells (rpc.callVaultAddr gateway tag) gatewayVault
  name : Tells (rpc.callName vault tag) s.name
  symbol : Tells (rpc.callSymbol vault tag) s.symbol

/-! ### The share price -/

/-- The errors that are about the share price or about one of its numbers. -/
def priceFields : List String := ["share_price", "total_assets", "total_supply", "decimals"]

section Price

variable {assets supply decimals : Except String ℕ} {s : VaultState} {group : List String}

/-- The share price of the numbers that were read. -/
def shownPrice (assets supply decimals : Except String ℕ) : Option String :=
  match assets, supply with
  | .ok ta, .ok ts => computeSharePrice ta ts (decimals.toOption.getD 0)
  | _, _ => none

/-- One of the numbers was not read, and the group has its name. -/
def PriceNamed (group : List String) (assets supply decimals : Except String ℕ) : Prop :=
  "total_assets" ∈ group ∧ Fails assets ∨ "total_supply" ∈ group ∧ Fails supply ∨ "decimals" ∈ group ∧ Fails decimals

/-- The share price comes out right: there are no shares, or the two amounts were read, and so were the
decimals, unless the price is the same without them. -/
def PriceRead (assets supply decimals : Except String ℕ) (s : VaultState) : Prop :=
  s.totalSupply = 0 ∨ ¬ Fails assets ∧ ¬ Fails supply ∧
    (¬ Fails decimals ∨ s.totalAssets * 10 ^ s.decimals / s.totalSupply = s.totalAssets / s.totalSupply)

/-- Below the bound of the words nothing wraps and nothing saturates. -/
theorem computeSharePrice_eq {totalAssets totalSupply decimals : ℕ} (h : totalAssets * 10 ^ decimals < wordSize) :
    computeSharePrice totalAssets totalSupply decimals =
      if totalSupply = 0 then none else some (toString (totalAssets * 10 ^ decimals / totalSupply)) := by
  unfold computeSharePrice
  have hscale : totalAssets * (10 ^ decimals % wordSize) = totalAssets * 10 ^ decimals := by
    rcases Nat.eq_zero_or_pos totalAssets with rfl | hpos
    · simp
    · rw [Nat.mod_eq_of_lt (lt_of_le_of_lt (Nat.le_mul_of_pos_left _ hpos) h)]
  simp only [hscale, Nat.min_eq_left (Nat.le_sub_one_of_lt h)]

/-- **The share price** that is shown is the true one just where it comes out right. -/
theorem shownPrice_eq_iff (hassets : Tells assets s.totalAssets) (hsupply : Tells supply s.totalSupply)
    (hdecimals : Tells decimals s.decimals) (hfits : s.totalAssets * 10 ^ s.decimals < wordSize) :
    shownPrice assets supply decimals = s.sharePrice.map toString ↔ PriceRead assets supply decimals s := by
  unfold PriceRead VaultState.sharePrice shownPrice
  by_cases hsome : s.totalSupply = 0
  · -- no price is true, and none is shown
    rw [if_pos hsome]
    refine iff_of_true ?_ (.inl hsome)
    rcases hassets.cases with rfl | ⟨e, rfl⟩
    · rcases hsupply.cases with rfl | ⟨e, rfl⟩
      · exact if_pos hsome
      · rfl
    · rfl
  rw [if_neg hsome, or_iff_right hsome]
  rcases hassets.cases with rfl | ⟨e, rfl⟩
  swap
  · simp
  rcases hsupply.cases with rfl | ⟨e, rfl⟩
  swap
  · simp
  rcases hdecimals.cases with rfl | ⟨e, rfl⟩
  · exact iff_of_true ((computeSharePrice_eq hfits).trans (if_neg hsome)) (by simp)
  · -- the price is made without the decimals
    have hfits' : s.totalAssets * 10 ^ 0 < wordSize :=
      lt_of_le_of_lt (Nat.mul_le_mul_left _ (Nat.pow_le_pow_right (by decide) (Nat.zero_le _))) hfits
    simp only [Except.toOption, Option.getD_none, computeSharePrice_eq hfits', if_neg hsome, pow_zero, mul_one,
      Option.map_some, Option.some.injEq, not_fails_ok, not_false_eq_true, fails_error, not_true_eq_false,
      true_and, false_or]
    rw [eq_comm]
    exact natRepr_injective.eq_iff

end Price

/-! ### What is printed -/

/-- An envelope of the vault of the configuration, field by field; the share price goes by the names of the
group. -/
structure HonestVault (out : Envelope VaultData) (vault gatewayVault : Address) (s : VaultState)
    (group : List String) : Prop where
  address : out.Honest VaultData.address (lowerHex vault) ["address"]
  gatewayVault : out.Honest VaultData.gatewayVault (lowerHex gatewayVault) ["gateway_vault"]
  asset : out.Honest VaultData.asset (lowerHex s.asset) ["asset"]
  name : out.Honest VaultData.name s.name ["name"]
  symbol : out.Honest VaultData.symbol s.symbol ["symbol"]
  decimals : out.Honest VaultData.decimals s.decimals ["decimals"]
  totalAssets : out.Honest VaultData.totalAssets s.totalAssets ["total_assets"]
  totalSupply : out.Honest VaultData.totalSupply s.totalSupply ["total_supply"]
  sharePrice : out.Honest VaultData.sharePrice (s.sharePrice.map toString) group

/-- An envelope of a vault of the registry, with its record there. -/
structure HonestRegistryVault (out : Envelope RegistryVaultData) (vault : Address) (record : VaultRecord)
    (s : VaultState) (group : List String) : Prop where
  address : out.Honest RegistryVaultData.address (lowerHex vault) ["address"]
  name : out.Honest RegistryVaultData.name record.name ["name"]
  riskLabel : out.Honest RegistryVaultData.riskLabel record.riskLabel ["risk_label"]
  mandate : out.Honest RegistryVaultData.mandate record.mandate ["mandate"]
  status : out.Honest RegistryVaultData.status (vaultStatusToStr record.status) ["status"]
  receiptTokenAddress : out.Honest RegistryVaultData.receiptTokenAddress (lowerHex record.receiptToken)
    ["receipt_token_address"]
  depositCap : out.Honest RegistryVaultData.depositCap record.depositCap ["deposit_cap"]
  exitFeeBps : out.Honest RegistryVaultData.exitFeeBps record.exitFeeBps ["exit_fee_bps"]
  registeredAt : out.Honest RegistryVaultData.registeredAt record.registeredAt ["registered_at"]
  totalAssets : out.Honest RegistryVaultData.totalAssets s.totalAssets ["total_assets"]
  totalSupply : out.Honest RegistryVaultData.totalSupply s.totalSupply ["total_supply"]
  sharePrice : out.Honest RegistryVaultData.sharePrice (s.sharePrice.map toString) group
  asset : out.Honest RegistryVaultData.asset (lowerHex s.asset) ["asset"]
  decimals : out.Honest RegistryVaultData.decimals s.decimals ["decimals"]

/-- The numbers that the share price is made of, as they are answered in the block of the envelope. -/
def RecordRpc.PriceRight (rpc : RecordRpc) (vault : Address) (tag : String) (s : VaultState) (group : List String) :
    Prop :=
  PriceRead (rpc.callTotalAssets vault tag) (rpc.callTotalSupply vault tag) (rpc.callDecimals vault tag) s ∨
    PriceNamed group (rpc.callTotalAssets vault tag) (rpc.callTotalSupply vault tag) (rpc.callDecimals vault tag)

section Printed

open PartialBuilder

variable {rpc : VaultRpc} {gateway vault gatewayVault : Address} {s : VaultState} {group : List String}
  {out : Envelope VaultData}

theorem withSharePrice_keeps {T β : Type} (put : Option String → T → T) {shown : T → ℕ}
    {assets supply : Except String ℕ} (view : T → β) (h : ∀ p d, view (put p d) = view d) (d : T) :
    view (withSharePrice put shown assets supply d) = view d := by
  unfold withSharePrice
  split
  · exact h _ d
  · rfl

theorem withSharePrice_price {T : Type} {put : Option String → T → T} {shown : T → ℕ}
    {assets supply decimals : Except String ℕ} {price : T → Option String} {d : T}
    (hput : ∀ p d, price (put p d) = p) (hdecimals : shown d = decimals.toOption.getD 0) (hprice : price d = none) :
    price (withSharePrice put shown assets supply d) = shownPrice assets supply decimals := by
  cases assets with
  | error e => exact hprice
  | ok ta =>
    cases supply with
    | error e => exact hprice
    | ok ts => exact (hput _ d).trans (congrArg (computeSharePrice ta ts) hdecimals)

/-- The share price, however the payload keeps it. -/
theorem price_honest_iff {T : Type} {b : PartialBuilder T} {f : T → T} {price : T → Option String}
    {assets supply decimals : Except String ℕ} (hshown : price (f b.data) = shownPrice assets supply decimals)
    (hnamed : b.Named group ↔ PriceNamed group assets supply decimals) (hassets : Tells assets s.totalAssets)
    (hsupply : Tells supply s.totalSupply) (hdecimals : Tells decimals s.decimals)
    (hfits : s.totalAssets * 10 ^ s.decimals < wordSize) :
    (b.dataMut f).finish.Honest price (s.sharePrice.map toString) group ↔
      PriceRead assets supply decimals s ∨ PriceNamed group assets supply decimals := by
  refine or_congr ?_ hnamed
  rw [finish_data, dataMut_data, hshown]
  exact shownPrice_eq_iff hassets hsupply hdecimals hfits

/-- **The vault of the configuration.**  What is printed is honest just where the share price is. -/
theorem readVault_honest_iff (h : readVault rpc gateway vault = .ok out)
    (hshows : rpc.ShowsVault gateway vault (blockTag out.blockNumber) gatewayVault s)
    (hfits : s.totalAssets * 10 ^ s.decimals < wordSize) (hgroup : ∀ name ∈ group, name ∈ priceFields) :
    HonestVault out vault gatewayVault s group ↔
      rpc.toRecordRpc.PriceRight vault (blockTag out.blockNumber) s group := by
  have hother : ∀ {name : String}, name ∉ priceFields → name ∉ group := fun hname => mt (hgroup _) hname
  unfold readVault at h
  simp only [bind_eq_ok, pure_eq_ok] at h
  obtain ⟨chainId, -, n, -, rfl⟩ := h
  simp only [finish_blockNumber, dataMut_blockNumber, read_blockNumber, new_blockNumber] at hshows ⊢
  refine Iff.trans ⟨fun hhonest => hhonest.sharePrice, fun hprice => ?_⟩
    (price_honest_iff ?_ ?_ hshows.totalAssets hshows.totalSupply hshows.decimals hfits)
  · exact
      { address := ((Honest.read (.inl rfl)).read.read.read.read.read.read).dataMut
          (withSharePrice_keeps VaultData.putSharePrice VaultData.address fun _ _ => rfl)
        gatewayVault := ((honest_read hshows.gatewayVault).read.read.read.read.read.read).dataMut
          (withSharePrice_keeps VaultData.putSharePrice VaultData.gatewayVault fun _ _ => rfl)
        asset := ((honest_read hshows.asset).read.read.read.read.read).dataMut
          (withSharePrice_keeps VaultData.putSharePrice VaultData.asset fun _ _ => rfl)
        name := ((honest_read hshows.name).read.read.read.read).dataMut
          (withSharePrice_keeps VaultData.putSharePrice VaultData.name fun _ _ => rfl)
        symbol := ((honest_read hshows.symbol).read.read.read).dataMut
          (withSharePrice_keeps VaultData.putSharePrice VaultData.symbol fun _ _ => rfl)
        decimals := ((honest_read hshows.decimals).read.read).dataMut
          (withSharePrice_keeps VaultData.putSharePrice VaultData.decimals fun _ _ => rfl)
        totalAssets := ((honest_read hshows.totalAssets).read).dataMut
          (withSharePrice_keeps VaultData.putSharePrice VaultData.totalAssets fun _ _ => rfl)
        totalSupply := (honest_read hshows.totalSupply).dataMut
          (withSharePrice_keeps VaultData.putSharePrice VaultData.totalSupply fun _ _ => rfl)
        sharePrice := hprice }
  · refine withSharePrice_price (fun _ _ => rfl) ?_ ?_
    · exact data_keeps (data_keeps (data_read (data_keeps (data_keeps (data_keeps (data_keeps rfl))))))
    · exact data_keeps (data_keeps (data_keeps (data_keeps (data_keeps (data_keeps (data_keeps rfl))))))
  · have hgateway : "gateway_vault" ∉ group := hother (by decide)
    have hasset : "asset" ∉ group := hother (by decide)
    have hname : "name" ∉ group := hother (by decide)
    have hsymbol : "symbol" ∉ group := hother (by decide)
    simp only [named_read, named_new, PriceNamed, hgateway, hasset, hname, hsymbol, false_and, false_or]
    tauto

/-- **A vault of the registry.**  Its record is read first, and without it nothing is printed; of the rest the
same holds. -/
theorem readVaultFromRegistry_honest_iff {rpc : RecordRpc} {registry vault : Address} {record : VaultRecord}
    {out : Envelope RegistryVaultData} (h : readVaultFromRegistry rpc registry vault = .ok out)
    (hrecord : Tells (callGetVault rpc registry vault (blockTag out.blockNumber)) record)
    (hshows : rpc.ShowsVault vault (blockTag out.blockNumber) s)
    (hfits : s.totalAssets * 10 ^ s.decimals < wordSize) (hgroup : ∀ name ∈ group, name ∈ priceFields) :
    HonestRegistryVault out vault record s group ↔ rpc.PriceRight vault (blockTag out.blockNumber) s group := by
  unfold readVaultFromRegistry at h
  simp only [bind_eq_ok, pure_eq_ok] at h
  obtain ⟨chainId, -, n, -, read, hread, rfl⟩ := h
  simp only [finish_blockNumber, dataMut_blockNumber, read_blockNumber, new_blockNumber] at hrecord hshows ⊢
  obtain rfl := hrecord read hread
  refine Iff.trans ⟨fun hhonest => hhonest.sharePrice, fun hprice => ?_⟩
    (price_honest_iff ?_ ?_ hshows.totalAssets hshows.totalSupply hshows.decimals hfits)
  · exact
      { address := ((Honest.read (.inl rfl)).read.read.read).dataMut
          (withSharePrice_keeps RegistryVaultData.putSharePrice RegistryVaultData.address fun _ _ => rfl)
        name := ((Honest.read (.inl rfl)).read.read.read).dataMut
          (withSharePrice_keeps RegistryVaultData.putSharePrice RegistryVaultData.name fun _ _ => rfl)
        riskLabel := ((Honest.read (.inl rfl)).read.read.read).dataMut
          (withSharePrice_keeps RegistryVaultData.putSharePrice RegistryVaultData.riskLabel fun _ _ => rfl)
        mandate := ((Honest.read (.inl rfl)).read.read.read).dataMut
          (withSharePrice_keeps RegistryVaultData.putSharePrice RegistryVaultData.mandate fun _ _ => rfl)
        status := ((Honest.read (.inl rfl)).read.read.read).dataMut
          (withSharePrice_keeps RegistryVaultData.putSharePrice RegistryVaultData.status fun _ _ => rfl)
        receiptTokenAddress := ((Honest.read (.inl rfl)).read.read.read).dataMut
          (withSharePrice_keeps RegistryVaultData.putSharePrice RegistryVaultData.receiptTokenAddress fun _ _ => rfl)
        depositCap := ((Honest.read (.inl rfl)).read.read.read).dataMut
          (withSharePrice_keeps RegistryVaultData.putSharePrice RegistryVaultData.depositCap fun _ _ => rfl)
        exitFeeBps := ((Honest.read (.inl rfl)).read.read.read).dataMut
          (withSharePrice_keeps RegistryVaultData.putSharePrice RegistryVaultData.exitFeeBps fun _ _ => rfl)
        registeredAt := ((Honest.read (.inl rfl)).read.read.read).dataMut
          (withSharePrice_keeps RegistryVaultData.putSharePrice RegistryVaultData.registeredAt fun _ _ => rfl)
        asset := ((honest_read hshows.asset).read.read.read).dataMut
          (withSharePrice_keeps RegistryVaultData.putSharePrice RegistryVaultData.asset fun _ _ => rfl)
        decimals := ((honest_read hshows.decimals).read.read).dataMut
          (withSharePrice_keeps RegistryVaultData.putSharePrice RegistryVaultData.decimals fun _ _ => rfl)
        totalAssets := (honest_read hshows.totalAssets).read.dataMut
          (withSharePrice_keeps RegistryVaultData.putSharePrice RegistryVaultData.totalAssets fun _ _ => rfl)
        totalSupply := (honest_read hshows.totalSupply).dataMut
          (withSharePrice_keeps RegistryVaultData.putSharePrice RegistryVaultData.totalSupply fun _ _ => rfl)
        sharePrice := hprice }
  · refine withSharePrice_price (fun _ _ => rfl) ?_ ?_
    · exact data_keeps (data_keeps (data_read (data_keeps rfl)))
    · exact data_keeps (data_keeps (data_keeps (data_keeps rfl)))
  · have hasset : "asset" ∉ group := mt (hgroup _) (by decide)
    simp only [named_read, named_new, PriceNamed, hasset, false_and, false_or]
    tauto

end Printed

end RobotMoney.Client
