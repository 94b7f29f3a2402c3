import Mathlib.Data.List.TakeWhile
import RobotMoney.Client.ConfigFile
import RobotMoney.Lib.Utf16

/-!
# The export of a configuration

`configExport.ts` writes the file the payment client reads.  Its strings are written as JSON writes them, which
is what TOML reads but for two kinds of code point: JSON leaves the control character `U+007F` as it is, and
escapes a lone surrogate, and TOML allows neither.  `export_roundtrips_iff`: the client reads back what was
exported exactly where no string has one of these.
-/

namespace RobotMoney.Dapp

open RobotMoney.Lib
open RobotMoney.Lib.Toml
open RobotMoney.Client (Config LogConfig)

/-- A string of the language: its code units. -/
abbrev JsString : Type := List UInt16

/-- `SignerKind` -/
inductive SignerKind where
  | encryptedKeystore
  | hardware
  | kms
  deriving DecidableEq

/-- `SignerSpec` -/
structure SignerSpec where
  kind : SignerKind
  keystorePath : Option JsString
  device : Option JsString
  derivationPath : Option JsString
  provider : Option JsString
  keyId : Option JsString
  region : Option JsString

/-- `RmpcExportInputs`; the chain id is a safe integer that is not negative. -/
structure RmpcExportInputs where
  chainId : ℕ
  rpcUrl : JsString
  gatewayAddress : JsString
  usdcAddress : JsString
  vaultAddress : JsString
  gatewayRuntimeHash : JsString
  signer : SignerSpec
  chainId_lt : chainId < 2 ^ 53 := by decide

/-! ### Writing -/

/-- A code point as `JSON.stringify` writes it. -/
def quoteCodePoint : CodePoint → List Char
  | .surrogate u _ => '\\' :: 'u' :: hexWord 4 u.toNat
  | .scalar c =>
    if c.toNat = 0x08 then ['\\', 'b']
    else if c.toNat = 0x09 then ['\\', 't']
    else if c.toNat = 0x0A then ['\\', 'n']
    else if c.toNat = 0x0C then ['\\', 'f']
    else if c.toNat = 0x0D then ['\\', 'r']
    else if c.toNat = 0x22 then ['\\', '"']
    else if c.toNat = 0x5C then ['\\', '\\']
    else if c.toNat < 0x20 then '\\' :: 'u' :: hexWord 4 c.toNat
    else [c]

/-- `tomlStr`, that is `JSON.stringify` of a string. -/
def tomlStr (s : JsString) : List Char := '"' :: ((codePoints s).flatMap quoteCodePoint ++ ['"'])

/-- The line of a field that may be missing. -/
def fieldLine (start : String) (value : Option JsString) : List (List Char) :=
  match value with
  | some s => [start.toList ++ tomlStr s]
  | none => []

/-- `buildSignerLines` -/
def buildSignerLines (signer : SignerSpec) : List (List Char) :=
  match signer.kind with
  | .encryptedKeystore =>
    ["# UNSAFE FOR PRODUCTION: software keystore is for devnet/test use only.".toList,
      "# Base mainnet write commands require an HSM/KMS/device-bound signer.".toList,
      "allow_software_fallback = true".toList] ++ fieldLine "keystore_path = " signer.keystorePath
  | .hardware =>
    fieldLine "# device = " signer.device ++ fieldLine "# derivation_path = " signer.derivationPath ++
      ["# TODO: hardware signer backend not yet supported by rmpc; fill in signer fields manually.".toList]
  | .kms =>
    fieldLine "# provider = " signer.provider ++ fieldLine "# key_id = " signer.keyId ++
      fieldLine "# region = " signer.region ++
      ["# TODO: KMS signer backend not yet supported by rmpc; fill in signer fields manually.".toList]

def exportLines (inputs : RmpcExportInputs) : List (List Char) :=
  ["chain_id             = ".toList ++ Nat.toDigits 10 inputs.chainId,
    "rpc_url              = ".toList ++ tomlStr inputs.rpcUrl,
    "gateway_address      = ".toList ++ tomlStr inputs.gatewayAddress,
    "usdc_address         = ".toList ++ tomlStr inputs.usdcAddress,
    "vault_address        = ".toList ++ tomlStr inputs.vaultAddress,
    "gateway_runtime_hash = ".toList ++ tomlStr inputs.gatewayRuntimeHash,
    [],
    "[signer]".toList] ++ buildSignerLines inputs.signer

/-- `exportRmpcConfig` -/
def exportRmpcConfig (inputs : RmpcExportInputs) : String :=
  String.ofList (['\n'].intercalate (exportLines inputs) ++ ['\n'])

/-! ### What is to come back -/

/-- The configuration has the exported values, and nothing else set. -/
structure Exported (defaultLogDir : String) (inputs : RmpcExportInputs) (keystorePath : JsString) (cfg : Config) :
    Prop where
  chainId : cfg.chainId = inputs.chainId
  rpcUrl : utf16 cfg.rpcUrl.toList = inputs.rpcUrl
  gatewayAddress : utf16 cfg.gatewayAddress.toList = inputs.gatewayAddress
  usdcAddress : utf16 cfg.usdcAddress.toList = inputs.usdcAddress
  vaultAddress : utf16 cfg.vaultAddress.toList = inputs.vaultAddress
  gatewayRuntimeHash : utf16 cfg.gatewayRuntimeHash.toList = inputs.gatewayRuntimeHash
  allowSoftwareFallback : cfg.signer.allowSoftwareFallback = true
  keystorePath : utf16 cfg.signer.keystorePath.toList = keystorePath
  addresses : cfg.registryAddress = none ∧ cfg.routerAddress = none ∧ cfg.governanceAddress = none ∧
    cfg.timelockAddress = none
  caps : cfg.maxFeePerGasCap = none ∧ cfg.maxPriorityFeePerGasCap = none
  stateDir : cfg.stateDir = none
  log : cfg.log = LogConfig.default defaultLogDir

/-- The client reads the exported text, and reads the exported values. -/
def RoundTrips (parse : String → Except String Document) (defaultLogDir : String) (inputs : RmpcExportInputs)
    (keystorePath : JsString) : Prop :=
  ∃ cfg, Config.fromStr parse defaultLogDir (exportRmpcConfig inputs) = .ok cfg ∧
    Exported defaultLogDir inputs keystorePath cfg

/-- A code point that both formats write alike. -/
def plainCodePoint : CodePoint → Bool
  | .scalar c => c.toNat ≠ 0x7F
  | .surrogate _ _ => false

/-- No lone surrogate, and no `U+007F`. -/
def Plain (s : JsString) : Prop := ∀ p ∈ codePoints s, plainCodePoint p = true

instance (s : JsString) : Decidable (Plain s) := inferInstanceAs (Decidable (∀ p ∈ _, _ = true))

/-- The characters among the code points. -/
def scalars (ps : List CodePoint) : List Char :=
  ps.filterMap fun p =>
    match p with
    | .scalar c => some c
    | .surrogate _ _ => none

/-- The characters of a string. -/
def characters (s : JsString) : List Char := scalars (codePoints s)

theorem map_scalars {ps : List CodePoint} (h : ∀ p ∈ ps, plainCodePoint p = true) :
    ps = (scalars ps).map .scalar := by
  induction ps with
  | nil => rfl
  | cons p ps ih =>
    simp only [List.forall_mem_cons] at h
    cases p with
    | scalar c =>
      have hrest := ih h.2
      simpa [scalars] using hrest
    | surrogate u hu => cases h.1

theorem utf16_characters {s : JsString} (h : Plain s) : utf16 (characters s) = s :=
  utf16_of_codePoints (map_scalars h)

/-! ### A string is read as it was written -/

/-- What is read of a code point as it was written. -/
def readPoint : CodePoint → Reading Char
  | .scalar c => if c.toNat = 0x7F then .error .invalid else .ok c
  | .surrogate _ _ => .error .invalid

theorem char_eq_of_toNat {c : Char} {n : ℕ} (h : c.toNat = n) : c = Char.ofNat n := by
  rw [← h, Char.ofNat_toNat]

theorem basicString_quoteSurrogate {u : UInt16} (hu : isHighSurrogate u ∨ isLowSurrogate u) (cs : List Char) :
    basicString (quoteCodePoint (.surrogate u hu) ++ cs) = .error .invalid := by
  have hlt := u.toNat_lt
  have hinvalid : ¬ u.toNat.isValidChar := by
    unfold isHighSurrogate isLowSurrogate at hu
    unfold Nat.isValidChar
    omega
  have hunicode := basicString_unicode (n := u.toNat) (by omega) cs
  rw [if_neg hinvalid, push_invalid_left] at hunicode
  exact hunicode

/-- A character is written as an escape of one letter, as an escape of four digits, or as it is. -/
theorem quoteScalar_cases (c : Char) :
    (∃ e : Char, quoteCodePoint (.scalar c) = ['\\', e] ∧ e ≠ 'u' ∧ e ≠ 'U' ∧ 0x20 ≤ e.toNat ∧
      shortEscape e = .ok c ∧ c.toNat ≠ 0x7F) ∨
    (quoteCodePoint (.scalar c) = '\\' :: 'u' :: hexWord 4 c.toNat ∧ c.toNat < 0x20) ∨
    (quoteCodePoint (.scalar c) = [c] ∧ c.toNat ≠ 0x22 ∧ c.toNat ≠ 0x5C ∧ 0x20 ≤ c.toNat) := by
  have hletter : ∀ (n : ℕ) (e : Char), n ≠ 0x7F → e ≠ 'u' → e ≠ 'U' → 0x20 ≤ e.toNat →
      shortEscape e = .ok (Char.ofNat n) → c.toNat = n → ∃ e' : Char, ['\\', e] = ['\\', e'] ∧
        e' ≠ 'u' ∧ e' ≠ 'U' ∧ 0x20 ≤ e'.toNat ∧ shortEscape e' = .ok c ∧ c.toNat ≠ 0x7F := by
    intro n e hn hu hU hle he hc
    rw [← char_eq_of_toNat hc] at he
    exact ⟨e, rfl, hu, hU, hle, he, by omega⟩
  rw [quoteCodePoint]
  by_cases h08 : c.toNat = 0x08
  · rw [if_pos h08]
    exact .inl (hletter 0x08 'b' (by decide) (by decide) (by decide) (by decide) rfl h08)
  rw [if_neg h08]
  by_cases h09 : c.toNat = 0x09
  · rw [if_pos h09]
    exact .inl (hletter 0x09 't' (by decide) (by decide) (by decide) (by decide) rfl h09)
  rw [if_neg h09]
  by_cases h0A : c.toNat = 0x0A
  · rw [if_pos h0A]
    exact .inl (hletter 0x0A 'n' (by decide) (by decide) (by decide) (by decide) rfl h0A)
  rw [if_neg h0A]
  by_cases h0C : c.toNat = 0x0C
  · rw [if_pos h0C]
    exact .inl (hletter 0x0C 'f' (by decide) (by decide) (by decide) (by decide) rfl h0C)
  rw [if_neg h0C]
  by_cases h0D : c.toNat = 0x0D
  · rw [if_pos h0D]
    exact .inl (hletter 0x0D 'r' (by decide) (by decide) (by decide) (by decide) rfl h0D)
  rw [if_neg h0D]
  by_cases h22 : c.toNat = 0x22
  · rw [if_pos h22]
    exact .inl (hletter 0x22 '"' (by decide) (by decide) (by decide) (by decide) rfl h22)
  rw [if_neg h22]
  by_cases h5C : c.toNat = 0x5C
  · rw [if_pos h5C]
    exact .inl (hletter 0x5C '\\' (by decide) (by decide) (by decide) (by decide) rfl h5C)
  rw [if_neg h5C]
  by_cases h20 : c.toNat < 0x20
  · rw [if_pos h20]
    exact .inr (.inl ⟨rfl, h20⟩)
  · rw [if_neg h20]
    exact .inr (.inr ⟨rfl, h22, h5C, Nat.not_lt.mp h20⟩)

theorem basicString_quoteScalar (c : Char) (cs : List Char) :
    basicString (quoteCodePoint (.scalar c) ++ cs) = push (readPoint (.scalar c)) (basicString cs) := by
  rcases quoteScalar_cases c with ⟨e, hq, hu, hU, -, he, h7F⟩ | ⟨hq, h20⟩ | ⟨hq, h22, h5C, hle⟩
  · rw [hq, List.cons_append, List.singleton_append, basicString_short hu hU, he, readPoint, if_neg h7F]
  · have hvalid : c.toNat.isValidChar := c.valid
    have hunicode := basicString_unicode (n := c.toNat) (by omega) cs
    have h7F : c.toNat ≠ 0x7F := by omega
    rw [if_pos hvalid, Char.ofNat_toNat] at hunicode
    rw [hq, readPoint, if_neg h7F]
    exact hunicode
  · have hquote : c ≠ '"' := by
      rintro rfl
      exact h22 rfl
    have hescape : c ≠ '\\' := by
      rintro rfl
      exact h5C rfl
    rw [hq, List.singleton_append, basicString_plain hquote hescape, readPoint]
    by_cases h7F : c.toNat = 0x7F
    · rw [if_pos h7F, if_neg (by simp [unescaped, h7F])]
    · rw [if_neg h7F, if_pos (by simp [unescaped]; omega)]

/-- Plain code points are read back. -/
theorem basicString_plain_points {ps : List CodePoint} (h : ∀ p ∈ ps, plainCodePoint p = true) (cs : List Char) :
    basicString (ps.flatMap quoteCodePoint ++ '"' :: cs) = .ok (scalars ps, cs) := by
  induction ps with
  | nil => exact basicString_end cs
  | cons p ps ih =>
    simp only [List.forall_mem_cons] at h
    cases p with
    | scalar c =>
      have hc : c.toNat ≠ 0x7F := by simpa [plainCodePoint] using h.1
      rw [List.flatMap_cons, List.append_assoc, basicString_quoteScalar, ih h.2, readPoint, if_neg hc, push_ok]
      rfl
    | surrogate u hu => cases h.1

/-- Any other code point spoils the string. -/
theorem basicString_not_plain {ps : List CodePoint} (h : ¬ ∀ p ∈ ps, plainCodePoint p = true) (cs : List Char) :
    basicString (ps.flatMap quoteCodePoint ++ '"' :: cs) = .error .invalid := by
  induction ps with
  | nil => simp at h
  | cons p ps ih =>
    rw [List.flatMap_cons, List.append_assoc]
    cases p with
    | surrogate u hu => exact basicString_quoteSurrogate hu _
    | scalar c =>
      rw [basicString_quoteScalar]
      by_cases hc : c.toNat = 0x7F
      · rw [readPoint, if_pos hc, push_invalid_left]
      · have hrest : ¬ ∀ p ∈ ps, plainCodePoint p = true := by
          intro hall
          exact h (List.forall_mem_cons.mpr ⟨by simpa [plainCodePoint] using hc, hall⟩)
        rw [ih hrest, readPoint, if_neg hc]
        rfl

theorem quoteCodePoint_head (p : CodePoint) : ∃ c cs, quoteCodePoint p = c :: cs ∧ c ≠ '"' := by
  cases p with
  | surrogate u hu => exact ⟨'\\', _, rfl, by decide⟩
  | scalar c =>
    rcases quoteScalar_cases c with ⟨e, hq, -⟩ | ⟨hq, -⟩ | ⟨hq, h22, -⟩
    · exact ⟨'\\', _, hq, by decide⟩
    · exact ⟨'\\', _, hq, by decide⟩
    · refine ⟨c, [], hq, ?_⟩
      rintro rfl
      exact h22 rfl

/-- What is written is no control character. -/
theorem le_of_mem_quoteCodePoint {p : CodePoint} {c : Char} (h : c ∈ quoteCodePoint p) : 0x20 ≤ c.toNat := by
  have hhex : ∀ n : ℕ, c ∈ '\\' :: 'u' :: hexWord 4 n → 0x20 ≤ c.toNat := by
    intro n hn
    rcases List.mem_cons.mp hn with rfl | hn
    · decide
    · rcases List.mem_cons.mp hn with rfl | hn
      · decide
      · exact le_of_mem_hexWord hn
  cases p with
  | surrogate u hu => exact hhex _ h
  | scalar d =>
    rcases quoteScalar_cases d with ⟨e, hq, -, -, he, -⟩ | ⟨hq, -⟩ | ⟨hq, -, -, hle⟩
    · rw [hq] at h
      rcases List.mem_cons.mp h with rfl | h
      · decide
      · rw [List.mem_singleton.mp h]
        exact he
    · rw [hq] at h
      exact hhex _ h
    · rw [hq] at h
      rw [List.mem_singleton.mp h]
      exact hle

theorem le_of_mem_tomlStr {s : JsString} {c : Char} (h : c ∈ tomlStr s) : 0x20 ≤ c.toNat := by
  simp only [tomlStr, List.mem_cons, List.mem_append, List.mem_flatMap, List.not_mem_nil, or_false] at h
  rcases h with rfl | ⟨p, -, hp⟩ | rfl
  · decide
  · exact le_of_mem_quoteCodePoint hp
  · decide

/-- A string that was written is not the start of a string of many lines. -/
theorem value_tomlStr (s : JsString) :
    value (tomlStr s) = basicString ((codePoints s).flatMap quoteCodePoint ++ ['"']) >>= fun r =>
      pure (.string (String.ofList r.1), r.2) := by
  have hprefix : ['"', '"'].isPrefixOf ((codePoints s).flatMap quoteCodePoint ++ ['"']) = false := by
    cases codePoints s with
    | nil => rfl
    | cons p ps =>
      obtain ⟨c, cs, hp, hc⟩ := quoteCodePoint_head p
      simp [hp, List.isPrefixOf, hc.symm]
  rw [tomlStr, value, if_pos rfl, hprefix]
  rfl

theorem value_tomlStr_plain {s : JsString} (h : Plain s) :
    value (tomlStr s) = .ok (.string (String.ofList (characters s)), []) := by
  rw [value_tomlStr, basicString_plain_points h]
  rfl

theorem value_tomlStr_not_plain {s : JsString} (h : ¬ Plain s) : value (tomlStr s) = .error .invalid := by
  rw [value_tomlStr, basicString_not_plain h]
  rfl

/-! ### The lines of an export -/

/-- The start of a line: a bare key, padded, and the equals sign. -/
def Starts (start key : String) : Prop :=
  ∃ n, start.toList = key.toList ++ (List.replicate n ' ' ++ ['=', ' ']) ∧ key.toList ≠ [] ∧
    ∀ c ∈ key.toList, bareKeyChar c = true

theorem line_of_starts {start key : String} (h : Starts start key) {c : Char} (hspace : c ≠ ' ')
    (htab : c ≠ '\t') (cs : List Char) :
    line (start.toList ++ c :: cs) = value (c :: cs) >>= fun r => lineEnd (.entry key r.1) r.2 := by
  obtain ⟨n, hstart, hne, hkey⟩ := h
  have hline := line_entry hne hkey n hspace htab cs
  rw [String.ofList_toList] at hline
  rw [← hline, hstart]
  simp

theorem starts_chain_id : Starts "chain_id             = " "chain_id" := by
  unfold Starts
  rw [String.toList_ofList, String.toList_ofList]
  exact ⟨13, rfl, List.cons_ne_nil _ _, List.all_eq_true.mp rfl⟩

theorem starts_rpc_url : Starts "rpc_url              = " "rpc_url" := by
  unfold Starts
  rw [String.toList_ofList, String.toList_ofList]
  exact ⟨14, rfl, List.cons_ne_nil _ _, List.all_eq_true.mp rfl⟩

theorem starts_gateway_address : Starts "gateway_address      = " "gateway_address" := by
  unfold Starts
  rw [String.toList_ofList, String.toList_ofList]
  exact ⟨6, rfl, List.cons_ne_nil _ _, List.all_eq_true.mp rfl⟩

theorem starts_usdc_address : Starts "usdc_address         = " "usdc_address" := by
  unfold Starts
  rw [String.toList_ofList, String.toList_ofList]
  exact ⟨9, rfl, List.cons_ne_nil _ _, List.all_eq_true.mp rfl⟩

theorem starts_vault_address : Starts "vault_address        = " "vault_address" := by
  unfold Starts
  rw [String.toList_ofList, String.toList_ofList]
  exact ⟨8, rfl, List.cons_ne_nil _ _, List.all_eq_true.mp rfl⟩

theorem starts_gateway_runtime_hash : Starts "gateway_runtime_hash = " "gateway_runtime_hash" := by
  unfold Starts
  rw [String.toList_ofList, String.toList_ofList]
  exact ⟨1, rfl, List.cons_ne_nil _ _, List.all_eq_true.mp rfl⟩

theorem starts_keystore_path : Starts "keystore_path = " "keystore_path" := by
  unfold Starts
  rw [String.toList_ofList, String.toList_ofList]
  exact ⟨1, rfl, List.cons_ne_nil _ _, List.all_eq_true.mp rfl⟩

/-- The line of a string field. -/
theorem line_string {start key : String} (h : Starts start key) (s : JsString) :
    line (start.toList ++ tomlStr s) =
      if Plain s then .ok (.entry key (.string (String.ofList (characters s)))) else .error .invalid := by
  have hline := line_of_starts h (c := '"') (by decide) (by decide) ((codePoints s).flatMap quoteCodePoint ++ ['"'])
  rw [← tomlStr] at hline
  rw [hline]
  by_cases hs : Plain s
  · rw [if_pos hs, value_tomlStr_plain hs]
    rfl
  · rw [if_neg hs, value_tomlStr_not_plain hs]
    rfl

/-- The line of the chain id. -/
theorem line_chain_id {n : ℕ} (hlt : n < 2 ^ 53) :
    line ("chain_id             = ".toList ++ Nat.toDigits 10 n) = .ok (.entry "chain_id" (.integer n)) := by
  obtain ⟨c, cs, hcs⟩ := List.exists_cons_of_ne_nil (Nat.toDigits_ne_nil (n := n) (b := 10))
  have hdigits : ∀ d ∈ c :: cs, d.isDigit = true := by
    intro d hd
    rw [← hcs] at hd
    exact Nat.isDigit_of_mem_toDigits (by omega) (by omega) hd
  have hc : c.isDigit = true := hdigits c (by simp)
  have hne : ∀ d : Char, d.isDigit = false → c ≠ d := by
    rintro d hd rfl
    rw [hc] at hd
    cases hd
  have htake : (c :: cs).takeWhile Char.isDigit = c :: cs := List.takeWhile_eq_self_iff.mpr hdigits
  have hdrop : (c :: cs).dropWhile Char.isDigit = [] := List.dropWhile_eq_nil_iff.mpr hdigits
  have hn : Nat.ofDigitChars 10 (c :: cs) 0 = n := by
    rw [← hcs]
    exact Nat.ofDigitChars_ten_toDigits
  have hvalue : value (c :: cs) = .ok (.integer n, []) := by
    rw [value, if_neg (hne '"' rfl), if_neg (hne 't' rfl), if_neg (hne 'f' rfl), if_pos hc]
    simp only [integer, htake, hdrop, hn, List.head?_nil, Option.any_none, Bool.false_eq_true, if_false]
    rw [if_pos ⟨hcs.symm, by omega, by omega⟩]
  rw [hcs, line_of_starts starts_chain_id (hne ' ' rfl) (hne '\t' rfl), hvalue]
  rfl

theorem line_allow :
    line "allow_software_fallback = true".toList = .ok (.entry "allow_software_fallback" (.boolean true)) := by
  rw [String.toList_ofList]
  rfl

theorem line_signer : line "[signer]".toList = .ok (.table "signer") := by
  rw [String.toList_ofList]
  rfl

theorem line_unsafe :
    line "# UNSAFE FOR PRODUCTION: software keystore is for devnet/test use only.".toList = .ok .blank := by
  rw [String.toList_ofList]
  rfl

theorem line_mainnet :
    line "# Base mainnet write commands require an HSM/KMS/device-bound signer.".toList = .ok .blank := by
  rw [String.toList_ofList]
  rfl

/-! ### The file -/

/-- The strings of an export. -/
def exportedStrings (inputs : RmpcExportInputs) (keystorePath : JsString) : List JsString :=
  [inputs.rpcUrl, inputs.gatewayAddress, inputs.usdcAddress, inputs.vaultAddress, inputs.gatewayRuntimeHash,
    keystorePath]

/-- The document that is read of an export whose strings are plain. -/
def exportedDocument (inputs : RmpcExportInputs) (keystorePath : JsString) : Document where
  top :=
    [("chain_id", .integer inputs.chainId),
      ("rpc_url", .string (String.ofList (characters inputs.rpcUrl))),
      ("gateway_address", .string (String.ofList (characters inputs.gatewayAddress))),
      ("usdc_address", .string (String.ofList (characters inputs.usdcAddress))),
      ("vault_address", .string (String.ofList (characters inputs.vaultAddress))),
      ("gateway_runtime_hash", .string (String.ofList (characters inputs.gatewayRuntimeHash)))]
  tables :=
    [("signer",
      [("allow_software_fallback", .boolean true),
        ("keystore_path", .string (String.ofList (characters keystorePath)))])]

/-- The configuration that is read of it. -/
def exportedConfig (defaultLogDir : String) (inputs : RmpcExportInputs) (keystorePath : JsString) : Config where
  chainId := inputs.chainId
  rpcUrl := String.ofList (characters inputs.rpcUrl)
  gatewayAddress := String.ofList (characters inputs.gatewayAddress)
  usdcAddress := String.ofList (characters inputs.usdcAddress)
  vaultAddress := String.ofList (characters inputs.vaultAddress)
  registryAddress := none
  routerAddress := none
  governanceAddress := none
  timelockAddress := none
  gatewayRuntimeHash := String.ofList (characters inputs.gatewayRuntimeHash)
  maxFeePerGasCap := none
  maxPriorityFeePerGasCap := none
  stateDir := none
  signer := { allowSoftwareFallback := true, keystorePath := String.ofList (characters keystorePath) }
  log := LogConfig.default defaultLogDir

section Export

variable {inputs : RmpcExportInputs} {keystorePath : JsString} {parse : String → Except String Document}
  {defaultLogDir : String}

theorem exportLines_eq (hkind : inputs.signer.kind = .encryptedKeystore)
    (hpath : inputs.signer.keystorePath = some keystorePath) :
    exportLines inputs =
      ["chain_id             = ".toList ++ Nat.toDigits 10 inputs.chainId,
        "rpc_url              = ".toList ++ tomlStr inputs.rpcUrl,
        "gateway_address      = ".toList ++ tomlStr inputs.gatewayAddress,
        "usdc_address         = ".toList ++ tomlStr inputs.usdcAddress,
        "vault_address        = ".toList ++ tomlStr inputs.vaultAddress,
        "gateway_runtime_hash = ".toList ++ tomlStr inputs.gatewayRuntimeHash,
        [],
        "[signer]".toList,
        "# UNSAFE FOR PRODUCTION: software keystore is for devnet/test use only.".toList,
        "# Base mainnet write commands require an HSM/KMS/device-bound signer.".toList,
        "allow_software_fallback = true".toList,
        "keystore_path = ".toList ++ tomlStr keystorePath] := by
  unfold exportLines buildSignerLines
  rw [hkind, hpath]
  rfl

theorem printable_of_all {l : List Char} (h : l.all (fun c => decide (0x20 ≤ c.toNat)) = true) :
    ∀ c ∈ l, 0x20 ≤ c.toNat := by
  simpa using h

/-- No line of an export has a control character. -/
theorem exportLines_printable (hkind : inputs.signer.kind = .encryptedKeystore)
    (hpath : inputs.signer.keystorePath = some keystorePath) :
    ∀ l ∈ exportLines inputs, ∀ c ∈ l, 0x20 ≤ c.toNat := by
  have hstring : ∀ start : List Char, (∀ c ∈ start, 0x20 ≤ c.toNat) → ∀ s : JsString,
      ∀ c ∈ start ++ tomlStr s, 0x20 ≤ c.toNat := by
    intro start hstart s c hc
    rcases List.mem_append.mp hc with hc | hc
    · exact hstart c hc
    · exact le_of_mem_tomlStr hc
  have hdigit : ∀ c ∈ Nat.toDigits 10 inputs.chainId, 0x20 ≤ c.toNat := by
    intro c hc
    have hd := Nat.isDigit_of_mem_toDigits (by omega) (by omega) hc
    have hle : 48 ≤ c.toNat := by
      simp only [Char.isDigit, Bool.and_eq_true, decide_eq_true_eq, ge_iff_le, UInt32.le_iff_toNat_le] at hd
      exact hd.1
    omega
  have hchain : ∀ start : List Char, (∀ c ∈ start, 0x20 ≤ c.toNat) →
      ∀ c ∈ start ++ Nat.toDigits 10 inputs.chainId, 0x20 ≤ c.toNat := by
    intro start hstart c hc
    rcases List.mem_append.mp hc with hc | hc
    · exact hstart c hc
    · exact hdigit c hc
  rw [exportLines_eq hkind hpath]
  -- the literals become lists of characters
  repeat rw [String.toList_ofList]
  intro l hl
  simp only [List.mem_cons, List.not_mem_nil, or_false] at hl
  rcases hl with rfl | rfl | rfl | rfl | rfl | rfl | rfl | rfl | rfl | rfl | rfl | rfl
  · exact hchain _ (printable_of_all rfl)
  · exact hstring _ (printable_of_all rfl) _
  · exact hstring _ (printable_of_all rfl) _
  · exact hstring _ (printable_of_all rfl) _
  · exact hstring _ (printable_of_all rfl) _
  · exact hstring _ (printable_of_all rfl) _
  · exact List.forall_mem_nil _
  · exact printable_of_all rfl
  · exact printable_of_all rfl
  · exact printable_of_all rfl
  · exact printable_of_all rfl
  · exact hstring _ (printable_of_all rfl) _

/-- The document of an export is read line by line. -/
theorem document_export (hkind : inputs.signer.kind = .encryptedKeystore)
    (hpath : inputs.signer.keystorePath = some keystorePath) :
    document (exportRmpcConfig inputs).toList =
      (exportLines inputs ++ [[]]).mapM line >>= fun lines => lines.foldlM Document.add ⟨[], []⟩ := by
  have hprint := exportLines_printable hkind hpath
  have hlines := exportLines_eq hkind hpath
  rw [exportRmpcConfig, String.toList_ofList]
  rw [hlines] at hprint ⊢
  have hstart : "chain_id             = ".toList.head? = some 'c' := by
    rw [String.toList_ofList]
    rfl
  have hfirst : ("chain_id             = ".toList ++ Nat.toDigits 10 inputs.chainId).head? = some 'c' := by
    rw [List.head?_append, hstart]
    rfl
  exact document_joined hfirst (by decide) hprint

/-- The lines of an export make up its document. -/
theorem add_export (inputs : RmpcExportInputs) (keystorePath : JsString) :
    [.entry "chain_id" (.integer inputs.chainId),
      .entry "rpc_url" (.string (String.ofList (characters inputs.rpcUrl))),
      .entry "gateway_address" (.string (String.ofList (characters inputs.gatewayAddress))),
      .entry "usdc_address" (.string (String.ofList (characters inputs.usdcAddress))),
      .entry "vault_address" (.string (String.ofList (characters inputs.vaultAddress))),
      .entry "gateway_runtime_hash" (.string (String.ofList (characters inputs.gatewayRuntimeHash))),
      .blank, .table "signer", .blank, .blank, .entry "allow_software_fallback" (.boolean true),
      .entry "keystore_path" (.string (String.ofList (characters keystorePath))), .blank].foldlM
        Document.add ⟨[], []⟩ = .ok (exportedDocument inputs keystorePath) := by
  simp [Document.add, exportedDocument, bind, Except.bind, pure, Except.pure]

/-- An export of plain strings is read as its document. -/
theorem document_plain (hkind : inputs.signer.kind = .encryptedKeystore)
    (hpath : inputs.signer.keystorePath = some keystorePath)
    (hplain : ∀ s ∈ exportedStrings inputs keystorePath, Plain s) :
    document (exportRmpcConfig inputs).toList = .ok (exportedDocument inputs keystorePath) := by
  simp only [exportedStrings, List.forall_mem_cons, List.not_mem_nil, false_implies, implies_true, and_true]
    at hplain
  obtain ⟨hrpc, hgateway, husdc, hvault, hhash, hkeystore⟩ := hplain
  have hstring : ∀ {start key : String} {s : JsString}, Starts start key → Plain s →
      line (start.toList ++ tomlStr s) = .ok (.entry key (.string (String.ofList (characters s)))) := by
    intro start key s hstart hs
    rw [line_string hstart, if_pos hs]
  have hlines := mapM_cons_ok (line_chain_id inputs.chainId_lt) <|
    mapM_cons_ok (hstring starts_rpc_url hrpc) <|
    mapM_cons_ok (hstring starts_gateway_address hgateway) <|
    mapM_cons_ok (hstring starts_usdc_address husdc) <|
    mapM_cons_ok (hstring starts_vault_address hvault) <|
    mapM_cons_ok (hstring starts_gateway_runtime_hash hhash) <|
    mapM_cons_ok (rfl : line [] = .ok .blank) <| mapM_cons_ok line_signer <| mapM_cons_ok line_unsafe <|
    mapM_cons_ok line_mainnet <| mapM_cons_ok line_allow <|
    mapM_cons_ok (hstring starts_keystore_path hkeystore) <|
    mapM_cons_ok (rfl : line [] = .ok .blank) (List.mapM_nil (f := line))
  rw [document_export hkind hpath, exportLines_eq hkind hpath]
  exact bind_eq_ok.mpr ⟨_, hlines, add_export inputs keystorePath⟩

/-- Every exported string has its line. -/
theorem exists_line (hkind : inputs.signer.kind = .encryptedKeystore)
    (hpath : inputs.signer.keystorePath = some keystorePath) {s : JsString}
    (hs : s ∈ exportedStrings inputs keystorePath) :
    ∃ start key, Starts start key ∧ start.toList ++ tomlStr s ∈ exportLines inputs := by
  rw [exportLines_eq hkind hpath]
  simp only [exportedStrings, List.mem_cons, List.not_mem_nil, or_false] at hs
  rcases hs with rfl | rfl | rfl | rfl | rfl | rfl
  · exact ⟨_, _, starts_rpc_url, List.mem_of_getElem? (i := 1) rfl⟩
  · exact ⟨_, _, starts_gateway_address, List.mem_of_getElem? (i := 2) rfl⟩
  · exact ⟨_, _, starts_usdc_address, List.mem_of_getElem? (i := 3) rfl⟩
  · exact ⟨_, _, starts_vault_address, List.mem_of_getElem? (i := 4) rfl⟩
  · exact ⟨_, _, starts_gateway_runtime_hash, List.mem_of_getElem? (i := 5) rfl⟩
  · exact ⟨_, _, starts_keystore_path, List.mem_of_getElem? (i := 11) rfl⟩

/-- A string that is not plain spoils the export. -/
theorem document_not_plain (hkind : inputs.signer.kind = .encryptedKeystore)
    (hpath : inputs.signer.keystorePath = some keystorePath)
    (hplain : ¬ ∀ s ∈ exportedStrings inputs keystorePath, Plain s) :
    document (exportRmpcConfig inputs).toList = .error .invalid := by
  have hstring : ∀ {start key : String}, Starts start key → ∀ s, line (start.toList ++ tomlStr s) ≠ .error .beyond := by
    intro start key hstart s
    rw [line_string hstart]
    split <;> simp
  have hok : ∀ {l : List Char} {r : Line}, line l = .ok r → line l ≠ .error .beyond := by
    intro l r h
    simp [h]
  have hlines : ∀ l ∈ exportLines inputs ++ [[]], line l ≠ .error .beyond := by
    rw [exportLines_eq hkind hpath]
    simp only [-String.reduceToList, List.cons_append, List.nil_append, List.forall_mem_cons,
      List.not_mem_nil, false_implies, implies_true, and_true]
    exact ⟨hok (line_chain_id inputs.chainId_lt), hstring starts_rpc_url _, hstring starts_gateway_address _,
      hstring starts_usdc_address _, hstring starts_vault_address _, hstring starts_gateway_runtime_hash _,
      by decide, hok line_signer, hok line_unsafe, hok line_mainnet, hok line_allow,
      hstring starts_keystore_path _, by decide⟩
  have hbad : ∃ bad ∈ exportLines inputs ++ [[]], line bad = .error .invalid := by
    obtain ⟨s, hs, hnot⟩ : ∃ s ∈ exportedStrings inputs keystorePath, ¬ Plain s := by
      by_contra hall
      exact hplain fun s hs => by_contra fun hs' => hall ⟨s, hs, hs'⟩
    obtain ⟨start, key, hstart, hmem⟩ := exists_line hkind hpath hs
    refine ⟨_, List.mem_append_left _ hmem, ?_⟩
    rw [line_string hstart, if_neg hnot]
  obtain ⟨bad, hmem, hinvalid⟩ := hbad
  rw [document_export hkind hpath, mapM_line_invalid hlines hmem hinvalid]
  rfl

/-! ### The round trip -/

/-- The entries of the document of an export. -/
theorem documentEntries_export :
    Client.documentEntries (exportedDocument inputs keystorePath) =
      [("chain_id", .value (.integer inputs.chainId)),
        ("rpc_url", .value (.string (String.ofList (characters inputs.rpcUrl)))),
        ("gateway_address", .value (.string (String.ofList (characters inputs.gatewayAddress)))),
        ("usdc_address", .value (.string (String.ofList (characters inputs.usdcAddress)))),
        ("vault_address", .value (.string (String.ofList (characters inputs.vaultAddress)))),
        ("gateway_runtime_hash", .value (.string (String.ofList (characters inputs.gatewayRuntimeHash)))),
        ("signer", .table [("allow_software_fallback", .boolean true),
          ("keystore_path", .string (String.ofList (characters keystorePath)))])] := rfl

/-- The client's deserializer takes the document of an export. -/
theorem deserialize_export :
    Config.deserialize defaultLogDir (Client.documentEntries (exportedDocument inputs keystorePath)) =
      .ok (exportedConfig defaultLogDir inputs keystorePath) := by
  have hlt : inputs.chainId < 2 ^ 64 := lt_trans inputs.chainId_lt (by norm_num)
  rw [documentEntries_export]
  unfold Config.deserialize
  simp only [bind_eq_ok, pure_eq_ok]
  -- field by field: the required ones are there, the others are not
  exact ⟨(), rfl, _, Client.deUnsigned_natCast hlt "chain_id", _, rfl, _, rfl, _, rfl, _, rfl, none, rfl, none, rfl,
    none, rfl, none, rfl, _, rfl, none, rfl, none, rfl, none, rfl, _, rfl, _, rfl, rfl⟩

/-- The exported values are those of the configuration. -/
theorem exported_of_plain (hplain : ∀ s ∈ exportedStrings inputs keystorePath, Plain s) :
    Exported defaultLogDir inputs keystorePath (exportedConfig defaultLogDir inputs keystorePath) := by
  simp only [exportedStrings, List.forall_mem_cons, List.not_mem_nil, false_implies, implies_true, and_true]
    at hplain
  obtain ⟨hrpc, hgateway, husdc, hvault, hhash, hkeystore⟩ := hplain
  have hback : ∀ {s : JsString}, Plain s → utf16 (String.ofList (characters s)).toList = s := by
    intro s hs
    rw [String.toList_ofList, utf16_characters hs]
  exact ⟨rfl, hback hrpc, hback hgateway, hback husdc, hback hvault, hback hhash, rfl, hback hkeystore,
    ⟨rfl, rfl, rfl, rfl⟩, ⟨rfl, rfl⟩, rfl, rfl⟩

theorem not_roundTrips (hparse : Conforms parse) (hkind : inputs.signer.kind = .encryptedKeystore)
    (hpath : inputs.signer.keystorePath = some keystorePath)
    (hplain : ¬ ∀ s ∈ exportedStrings inputs keystorePath, Plain s) :
    ¬ RoundTrips parse defaultLogDir inputs keystorePath := by
  rintro ⟨cfg, hcfg, -⟩
  obtain ⟨message, hmessage⟩ := hparse.rejects _ (document_not_plain hkind hpath hplain)
  rw [Config.fromStr, hmessage] at hcfg
  cases hcfg

/-- The client reads back what was exported exactly where no exported string has a lone surrogate or a
`U+007F`. -/
theorem export_roundtrips_iff (hparse : Conforms parse) (hkind : inputs.signer.kind = .encryptedKeystore)
    (hpath : inputs.signer.keystorePath = some keystorePath) :
    RoundTrips parse defaultLogDir inputs keystorePath ↔
      ∀ s ∈ exportedStrings inputs keystorePath, Plain s := by
  constructor
  · intro hback
    by_contra hplain
    exact not_roundTrips hparse hkind hpath hplain hback
  · intro hplain
    have hread := hparse.accepts _ _ (document_plain hkind hpath hplain)
    refine ⟨exportedConfig defaultLogDir inputs keystorePath, ?_, exported_of_plain hplain⟩
    simp only [Config.fromStr, hread, Except.mapError, bind, Except.bind]
    exact deserialize_export

end Export

/-! ### A parser, and two exports -/

/-- The library's own reading, with a text for its errors. -/
def flatParser (text : String) : Except String Document :=
  (document text.toList).mapError fun _ => "TOML parse error"

theorem flatParser_conforms : Conforms flatParser where
  accepts text d h := by
    rw [flatParser, h]
    rfl
  rejects text h := ⟨"TOML parse error", by rw [flatParser, h]; rfl⟩

/-- The code units of an ASCII text. -/
def ascii (s : String) : JsString := s.toList.map fun c => UInt16.ofNat c.toNat

/-- A local export. -/
def localExport (keystorePath : JsString) : RmpcExportInputs where
  chainId := 31337
  rpcUrl := ascii "http://127.0.0.1:8545"
  gatewayAddress := ascii "0x1111111111111111111111111111111111111111"
  usdcAddress := ascii "0x2222222222222222222222222222222222222222"
  vaultAddress := ascii "0x3333333333333333333333333333333333333333"
  gatewayRuntimeHash := ascii "0xab"
  signer :=
    { kind := .encryptedKeystore, keystorePath := some keystorePath, device := none, derivationPath := none,
      provider := none, keyId := none, region := none }

theorem export_roundtrips_iff_local :
    RoundTrips flatParser "logs" (localExport (ascii "C:\\agent\n.json")) (ascii "C:\\agent\n.json") := by
  refine (export_roundtrips_iff flatParser_conforms rfl rfl).mpr ?_
  unfold exportedStrings localExport ascii
  repeat rw [String.toList_ofList]
  decide

/-- A keystore path with `U+007F` in it, and one with half an emoji: the client refuses both files. -/
theorem export_refused :
    ¬ RoundTrips flatParser "logs" (localExport [0x61, 0x7F]) [0x61, 0x7F] ∧
      ¬ RoundTrips flatParser "logs" (localExport [0xD83D]) [0xD83D] := by
  have hlast : ∀ path : JsString, ¬ Plain path →
      ¬ ∀ s ∈ exportedStrings (localExport path) path, Plain s := by
    intro path hpath hall
    exact hpath (hall path (by simp [exportedStrings]))
  constructor
  · exact not_roundTrips flatParser_conforms rfl rfl (hlast _ (by decide))
  · exact not_roundTrips flatParser_conforms rfl rfl (hlast _ (by decide))

end RobotMoney.Dapp
