import RobotMoney.Dapp.Preview
import RobotMoney.Lib.Hex

/-!
# The calldata of an authorization

What the documentation of the package `viem` says of its encoder, as far as the preview of an `authorizeAgent`
rests on it (`Viem.Documented`), and an encoder that is so documented (`abiViem`): the contract ABI, word by
word, over the addresses in any case.
-/

namespace RobotMoney.Dapp

open RobotMoney.Lib

/-! ### What is signed -/

/-- The number an address text spells: `0x` and forty hex digits. -/
def spells (address : String) : Option ℕ :=
  match address.toList with
  | '0' :: 'x' :: digits => if digits.length = 40 then readHex digits else none
  | _ => none

/-- The policy with its addresses read. -/
def AgentPolicy.read (p : AgentPolicy String) : AgentPolicy (Option ℕ) :=
  ⟨p.active, p.validUntil, p.maxPerPayment, p.maxPerWindow, spells p.shareReceiver,
    p.allowedDestinations.map spells, spells p.assetRecipient, p.maxWithdrawPerPayment, p.maxWithdrawPerWindow,
    p.allowedSourceVaults.map spells⟩

/-- An array of addresses: one of the language has fewer than `2 ^ 32` entries. -/
def AddressArray (isAddress : String → Bool) (as : List String) : Prop :=
  as.length < 2 ^ 32 ∧ ∀ a ∈ as, isAddress a = true

instance (isAddress : String → Bool) (as : List String) : Decidable (AddressArray isAddress as) :=
  inferInstanceAs (Decidable (_ ∧ _))

/-- The policy fits its Solidity type. -/
structure AgentPolicy.Fits (isAddress : String → Bool) (p : AgentPolicy String) : Prop where
  validUntil : 0 ≤ p.validUntil ∧ p.validUntil < 2 ^ 64
  maxPerPayment : 0 ≤ p.maxPerPayment ∧ p.maxPerPayment < 2 ^ 256
  maxPerWindow : 0 ≤ p.maxPerWindow ∧ p.maxPerWindow < 2 ^ 256
  shareReceiver : isAddress p.shareReceiver = true
  allowedDestinations : AddressArray isAddress p.allowedDestinations
  assetRecipient : isAddress p.assetRecipient = true
  maxWithdrawPerPayment : 0 ≤ p.maxWithdrawPerPayment ∧ p.maxWithdrawPerPayment < 2 ^ 256
  maxWithdrawPerWindow : 0 ≤ p.maxWithdrawPerWindow ∧ p.maxWithdrawPerWindow < 2 ^ 256
  allowedSourceVaults : AddressArray isAddress p.allowedSourceVaults

/-- What the documentation of `viem` says of the functions the preview of an `authorizeAgent` uses. -/
structure Viem.Documented (v : Viem) : Prop where
  /-- `getAddress` takes an address of any case and gives the same with its checksum. -/
  getAddress_ok : ∀ a, (∃ c, v.getAddress a = .ok c) ↔ (spells a).isSome
  getAddress_same : ∀ a c, v.getAddress a = .ok c → spells c = spells a ∧ v.isAddress c = true
  /-- The encoder takes what fits the types of the ABI. -/
  encode_ok : ∀ a p, (∃ d, v.encodeFunctionData (.authorizeAgent a p) = .ok d) ↔
    v.isAddress a = true ∧ p.Fits v.isAddress
  /-- The ABI encoding of two calls is the same where their values are, and there only. -/
  encode_eq : ∀ a p b q d e, v.encodeFunctionData (.authorizeAgent a p) = .ok d →
    v.encodeFunctionData (.authorizeAgent b q) = .ok e → (d = e ↔ spells a = spells b ∧ p.read = q.read)
  decode_encode : ∀ c d, v.encodeFunctionData c = .ok d → v.decodeFunctionData d = .ok c.functionName
  selector_ok : ∀ n, ∃ s, v.toFunctionSelector n = .ok s

/-! ### An encoder -/

/-- The selector of a function, behind `0x`. -/
def selectorDigits : AdminActionName → List Char
  | .authorizeAgent => ['0', 'x', '5', 'd', '6', '2', '1', '1', '6', '4']
  | .setPolicy => ['0', 'x', 'c', '1', 'a', '3', 'd', '4', '5', '4']
  | .revokeAgent => ['0', 'x', '7', 'd', 'a', '6', 'a', 'c', '0', 'd']
  | .pause => ['0', 'x', '8', '4', '5', '6', 'c', 'b', '5', '9']
  | .unpause => ['0', 'x', '3', 'f', '4', 'b', 'a', '8', '3', 'a']
  | .grantRole => ['0', 'x', '2', 'f', '2', 'f', 'f', '1', '5', 'd']
  | .revokeRole => ['0', 'x', 'd', '5', '4', '7', '7', '4', '1', 'f']

def actionNames : List AdminActionName :=
  [.authorizeAgent, .setPolicy, .revokeAgent, .pause, .unpause, .grantRole, .revokeRole]

def addressWord (a : String) : ℕ := (spells a).getD 0

/-- The words of the arguments of `authorizeAgent`: the agent, the place of the policy, its ten fields with the
places of its two lists, and the lists behind their lengths. -/
def authorizeWords (agent : String) (p : AgentPolicy String) : List ℕ :=
  [addressWord agent, 64, p.active.toNat, p.validUntil.toNat, p.maxPerPayment.toNat, p.maxPerWindow.toNat,
    addressWord p.shareReceiver, 320, addressWord p.assetRecipient, p.maxWithdrawPerPayment.toNat,
    p.maxWithdrawPerWindow.toNat, 352 + 32 * p.allowedDestinations.length, p.allowedDestinations.length] ++
  (p.allowedDestinations.map addressWord ++
    (p.allowedSourceVaults.length :: p.allowedSourceVaults.map addressWord))

/-- The words of the arguments of a call. -/
def GatewayCall.words : GatewayCall → List ℕ
  | .authorizeAgent agent p => authorizeWords agent p
  | .revokeAgent agent => [addressWord agent]
  | .pause => []
  | .unpause => []
  | .grantRole role account => [(readHex (role.toList.drop 2)).getD 0, addressWord account]
  | .revokeRole role account => [(readHex (role.toList.drop 2)).getD 0, addressWord account]

def calldataOf (c : GatewayCall) : String :=
  String.ofList (selectorDigits c.functionName ++ hexWords 64 c.words)

instance (isAddress : String → Bool) (p : AgentPolicy String) : Decidable (p.Fits isAddress) :=
  decidable_of_iff
    ((0 ≤ p.validUntil ∧ p.validUntil < 2 ^ 64) ∧ (0 ≤ p.maxPerPayment ∧ p.maxPerPayment < 2 ^ 256) ∧
      (0 ≤ p.maxPerWindow ∧ p.maxPerWindow < 2 ^ 256) ∧ isAddress p.shareReceiver = true ∧
      AddressArray isAddress p.allowedDestinations ∧ isAddress p.assetRecipient = true ∧
      (0 ≤ p.maxWithdrawPerPayment ∧ p.maxWithdrawPerPayment < 2 ^ 256) ∧
      (0 ≤ p.maxWithdrawPerWindow ∧ p.maxWithdrawPerWindow < 2 ^ 256) ∧
      AddressArray isAddress p.allowedSourceVaults)
    ⟨fun ⟨h1, h2, h3, h4, h5, h6, h7, h8, h9⟩ => ⟨h1, h2, h3, h4, h5, h6, h7, h8, h9⟩,
      fun ⟨h1, h2, h3, h4, h5, h6, h7, h8, h9⟩ => ⟨h1, h2, h3, h4, h5, h6, h7, h8, h9⟩⟩

def spelled (a : String) : Bool := (spells a).isSome

/-- The call fits the types of the ABI. -/
def GatewayCall.Fits : GatewayCall → Prop
  | .authorizeAgent agent p => spelled agent = true ∧ p.Fits spelled
  | .revokeAgent agent => spelled agent = true
  | .pause => True
  | .unpause => True
  | .grantRole _ account => spelled account = true
  | .revokeRole _ account => spelled account = true

instance : DecidablePred GatewayCall.Fits
  | .authorizeAgent _ _ => inferInstanceAs (Decidable (_ ∧ _))
  | .revokeAgent _ => inferInstanceAs (Decidable (_ = _))
  | .pause => inferInstanceAs (Decidable True)
  | .unpause => inferInstanceAs (Decidable True)
  | .grantRole _ _ => inferInstanceAs (Decidable (_ = _))
  | .revokeRole _ _ => inferInstanceAs (Decidable (_ = _))

/-- The contract ABI.  An address stands for its own checksum form, as one of digits only does. -/
def abiViem : Viem where
  isAddress := spelled
  getAddress a := if spelled a then .ok a else .error ("Address \"" ++ a ++ "\" is invalid.")
  encodeFunctionData c := if c.Fits then .ok (calldataOf c) else .error "Invalid arguments."
  decodeFunctionData d :=
    match actionNames.find? fun n => d.toList.take 10 == selectorDigits n with
    | some n => .ok n
    | none => .error "Function not found on ABI."
  toFunctionSelector n := .ok (String.ofList (selectorDigits n))

/-! ### The encoder is as documented -/

theorem spells_lt {a : String} {n : ℕ} (h : spells a = some n) : n < 16 ^ 40 := by
  unfold spells at h
  split at h
  · split at h
    · rename_i hlen
      have hlt := readHex_lt h
      rwa [hlen] at hlt
    · cases h
  · cases h

theorem addressWord_lt (a : String) : addressWord a < 16 ^ 64 := by
  unfold addressWord
  cases h : spells a with
  | none => norm_num
  | some n => exact lt_trans (spells_lt h) (by norm_num)

theorem addressWord_inj {a b : String} (ha : spelled a = true) (hb : spelled b = true)
    (h : addressWord a = addressWord b) : spells a = spells b := by
  obtain ⟨n, hn⟩ := Option.isSome_iff_exists.mp ha
  obtain ⟨m, hm⟩ := Option.isSome_iff_exists.mp hb
  simpa [addressWord, hn, hm] using h

theorem addressWords_inj {as bs : List String} (has : ∀ a ∈ as, spelled a = true)
    (hbs : ∀ b ∈ bs, spelled b = true) (h : as.map addressWord = bs.map addressWord) :
    as.map spells = bs.map spells := by
  induction as generalizing bs with
  | nil =>
    cases bs with
    | nil => rfl
    | cons b bs => cases h
  | cons a as ih =>
    cases bs with
    | nil => cases h
    | cons b bs =>
      simp only [List.map_cons, List.cons.injEq, List.forall_mem_cons] at has hbs h ⊢
      exact ⟨addressWord_inj has.1 hbs.1 h.1, ih has.2 hbs.2 h.2⟩

theorem boolToNat_inj {a b : Bool} (h : a.toNat = b.toNat) : a = b := by
  cases a <;> cases b <;> simp_all

theorem toNat_inj {n m : ℤ} (hn : 0 ≤ n) (hm : 0 ≤ m) (h : n.toNat = m.toNat) : n = m := by omega

/-- The words of a call that fits fit. -/
theorem authorizeWords_lt {agent : String} {p : AgentPolicy String} (h : p.Fits spelled) :
    ∀ n ∈ authorizeWords agent p, n < 16 ^ 64 := by
  have hword : (16 : ℕ) ^ 64 = 2 ^ 256 := by norm_num
  have hactive : p.active.toNat ≤ 1 := Bool.toNat_le p.active
  have haddress := addressWord_lt
  obtain ⟨hu, hp, hw, -, hd, -, hwp, hww, hs⟩ := h
  have hdlen := hd.1
  have hslen := hs.1
  intro n hn
  simp only [authorizeWords, List.mem_append, List.mem_cons, List.mem_map, List.not_mem_nil, or_false] at hn
  rw [hword] at haddress ⊢
  rcases hn with (rfl | rfl | rfl | rfl | rfl | rfl | rfl | rfl | rfl | rfl | rfl | rfl | rfl) |
    ⟨a, -, rfl⟩ | rfl | ⟨a, -, rfl⟩
  all_goals first | exact haddress _ | omega

/-- The words of a call tell the values of its arguments. -/
theorem authorizeWords_inj {a b : String} {p q : AgentPolicy String} (ha : spelled a = true)
    (hb : spelled b = true) (hp : p.Fits spelled) (hq : q.Fits spelled)
    (h : authorizeWords a p = authorizeWords b q) : spells a = spells b ∧ p.read = q.read := by
  simp only [authorizeWords, List.cons_append, List.nil_append, List.cons.injEq, true_and] at h
  obtain ⟨hagent, hactive, huntil, hpay, hwindow, hreceiver, hasset, hwpay, hwwindow, -, hlen, hrest⟩ := h
  obtain ⟨hdests, hvaults⟩ := List.append_inj hrest (by simpa using hlen)
  simp only [List.cons.injEq] at hvaults
  refine ⟨addressWord_inj ha hb hagent, ?_⟩
  simp only [AgentPolicy.read, AgentPolicy.mk.injEq]
  exact ⟨boolToNat_inj hactive, toNat_inj hp.validUntil.1 hq.validUntil.1 huntil,
    toNat_inj hp.maxPerPayment.1 hq.maxPerPayment.1 hpay, toNat_inj hp.maxPerWindow.1 hq.maxPerWindow.1 hwindow,
    addressWord_inj hp.shareReceiver hq.shareReceiver hreceiver,
    addressWords_inj hp.allowedDestinations.2 hq.allowedDestinations.2 hdests,
    addressWord_inj hp.assetRecipient hq.assetRecipient hasset,
    toNat_inj hp.maxWithdrawPerPayment.1 hq.maxWithdrawPerPayment.1 hwpay,
    toNat_inj hp.maxWithdrawPerWindow.1 hq.maxWithdrawPerWindow.1 hwwindow,
    addressWords_inj hp.allowedSourceVaults.2 hq.allowedSourceVaults.2 hvaults.2⟩

/-- The words depend on the values of the arguments only. -/
theorem authorizeWords_congr {a b : String} {p q : AgentPolicy String} (hagent : spells a = spells b)
    (hread : p.read = q.read) : authorizeWords a p = authorizeWords b q := by
  simp only [AgentPolicy.read, AgentPolicy.mk.injEq] at hread
  obtain ⟨hactive, huntil, hpay, hwindow, hreceiver, hdests, hasset, hwpay, hwwindow, hvaults⟩ := hread
  have hwords : ∀ {as bs : List String}, as.map spells = bs.map spells →
      as.map addressWord = bs.map addressWord := by
    intro as bs h
    have hmap := congrArg (List.map fun o : Option ℕ => o.getD 0) h
    rw [List.map_map, List.map_map] at hmap
    exact hmap
  have hdlen : p.allowedDestinations.length = q.allowedDestinations.length := by
    simpa using congrArg List.length hdests
  have hvlen : p.allowedSourceVaults.length = q.allowedSourceVaults.length := by
    simpa using congrArg List.length hvaults
  simp only [authorizeWords, hwords hdests, hwords hvaults, hdlen, hvlen, hactive, huntil, hpay, hwindow, hwpay,
    hwwindow]
  simp only [addressWord, hagent, hreceiver, hasset]

theorem calldataOf_decodes (c : GatewayCall) :
    abiViem.decodeFunctionData (calldataOf c) = .ok c.functionName := by
  have hlen : (selectorDigits c.functionName).length = 10 := by
    cases c <;> rfl
  have htake : (calldataOf c).toList.take 10 = selectorDigits c.functionName := by
    simp [calldataOf, ← hlen]
  simp only [abiViem, htake]
  cases c <;> rfl

theorem abiViem_getAddress {a c : String} : abiViem.getAddress a = .ok c ↔ spelled a = true ∧ a = c := by
  unfold abiViem
  dsimp only
  split <;> simp_all

theorem abiViem_encode {c : GatewayCall} {d : String} :
    abiViem.encodeFunctionData c = .ok d ↔ c.Fits ∧ calldataOf c = d := by
  unfold abiViem
  dsimp only
  split <;> simp_all

theorem calldataOf_eq_iff {a b : String} {p q : AgentPolicy String} (ha : spelled a = true)
    (hb : spelled b = true) (hp : p.Fits spelled) (hq : q.Fits spelled) :
    calldataOf (.authorizeAgent a p) = calldataOf (.authorizeAgent b q) ↔
      spells a = spells b ∧ p.read = q.read := by
  constructor
  · intro h
    have hwords : hexWords 64 (authorizeWords a p) = hexWords 64 (authorizeWords b q) :=
      List.append_cancel_left (String.ofList_injective h)
    exact authorizeWords_inj ha hb hp hq
      (hexWords_inj (by omega) (authorizeWords_lt hp) (authorizeWords_lt hq) hwords)
  · rintro ⟨hagent, hread⟩
    simp only [calldataOf, GatewayCall.functionName, GatewayCall.words, authorizeWords_congr hagent hread]

theorem abiViem_documented : abiViem.Documented where
  getAddress_ok a := by
    simp only [abiViem_getAddress, exists_and_left, exists_eq', and_true]
    exact Iff.rfl
  getAddress_same a c h := by
    obtain ⟨ha, rfl⟩ := abiViem_getAddress.mp h
    exact ⟨rfl, ha⟩
  encode_ok a p := by
    simp only [abiViem_encode, exists_and_left, exists_eq', and_true]
    exact Iff.rfl
  encode_eq a p b q d e hd he := by
    obtain ⟨ha, rfl⟩ := abiViem_encode.mp hd
    obtain ⟨hb, rfl⟩ := abiViem_encode.mp he
    exact calldataOf_eq_iff ha.1 hb.1 ha.2 hb.2
  decode_encode c d h := by
    obtain ⟨-, rfl⟩ := abiViem_encode.mp h
    exact calldataOf_decodes c
  selector_ok n := ⟨_, rfl⟩

end RobotMoney.Dapp
