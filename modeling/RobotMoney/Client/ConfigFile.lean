import RobotMoney.Client.Config
import RobotMoney.Lib.Toml

/-!
# Reading the configuration file

`Config::from_str`: the text is parsed as TOML, and the document is read into a `Config` as serde's derived
code does, with the defaults and the refusal of unknown fields that `config.rs` asks for.  Which of several
errors is reported is left to the order of the fields here.
-/

namespace RobotMoney.Client

open RobotMoney.Lib
open RobotMoney.Lib.Toml (Value Document)

/-- Why a text is no `Config`. -/
inductive DeError where
  | toml (message : String)
  | unknownField (field : String)
  | missingField (field : String)
  | invalidType (field : String)
  | invalidValue (field : String)
  deriving DecidableEq

abbrev De (α : Type) : Type := Except DeError α

/-- What stands under a key. -/
inductive Item where
  | value (v : Value)
  | table (entries : List (String × Value))

abbrev Entries : Type := List (String × Item)

section Derived

variable {α : Type}

def deString (field : String) : Item → De String
  | .value (.string s) => .ok s
  | _ => .error (.invalidType field)

def deBool (field : String) : Item → De Bool
  | .value (.boolean b) => .ok b
  | _ => .error (.invalidType field)

/-- An unsigned integer below a bound. -/
def deUnsigned (bound : ℕ) (field : String) : Item → De ℕ
  | .value (.integer n) => if 0 ≤ n ∧ n < bound then .ok n.toNat else .error (.invalidValue field)
  | _ => .error (.invalidType field)

theorem deUnsigned_natCast {bound n : ℕ} (h : n < bound) (field : String) :
    deUnsigned bound field (.value (.integer n)) = .ok n := by
  rw [deUnsigned, if_pos ⟨by omega, by omega⟩]
  simp

def deU64 (field : String) : Item → De ℕ := deUnsigned (2 ^ 64) field

def deU32 (field : String) : Item → De ℕ := deUnsigned (2 ^ 32) field

/-- A struct: the entries of its table. -/
def deStruct (read : Entries → De α) (field : String) : Item → De α
  | .table entries => read (entries.map fun e => (e.1, .value e.2))
  | .value _ => .error (.invalidType field)

def required (es : Entries) (field : String) (read : String → Item → De α) : De α :=
  match es.lookup field with
  | some item => read field item
  | none => .error (.missingField field)

/-- `#[serde(default)]` on an `Option` -/
def optional (es : Entries) (field : String) (read : String → Item → De α) : De (Option α) :=
  match es.lookup field with
  | some item => (read field item).map some
  | none => .ok none

/-- `#[serde(default = "..")]` -/
def withDefault (es : Entries) (field : String) (read : String → Item → De α) (default : α) : De α :=
  match es.lookup field with
  | some item => read field item
  | none => .ok default

/-- `#[serde(deny_unknown_fields)]` -/
def denyUnknownFields (es : Entries) (fields : List String) : De Unit :=
  match es.find? fun e => !fields.contains e.1 with
  | some e => .error (.unknownField e.1)
  | none => .ok ()

end Derived

def SignerConfig.deserialize (es : Entries) : De SignerConfig := do
  denyUnknownFields es ["allow_software_fallback", "keystore_path"]
  let allowSoftwareFallback ← required es "allow_software_fallback" deBool
  let keystorePath ← required es "keystore_path" deString
  pure { allowSoftwareFallback, keystorePath }

/-- `LogConfig::default`, with what `default_log_dir` finds. -/
def LogConfig.default (defaultLogDir : String) : LogConfig :=
  { level := "info", dir := defaultLogDir, rotateSizeMb := 10, keepFiles := 14 }

def LogConfig.deserialize (defaultLogDir : String) (es : Entries) : De LogConfig := do
  denyUnknownFields es ["level", "dir", "rotate_size_mb", "keep_files"]
  let level ← withDefault es "level" deString "info"
  let dir ← withDefault es "dir" deString defaultLogDir
  let rotateSizeMb ← withDefault es "rotate_size_mb" deU32 10
  let keepFiles ← withDefault es "keep_files" deU32 14
  pure { level, dir, rotateSizeMb, keepFiles }

def Config.deserialize (defaultLogDir : String) (es : Entries) : De Config := do
  denyUnknownFields es ["chain_id", "rpc_url", "gateway_address", "usdc_address", "vault_address",
    "registry_address", "router_address", "governance_address", "timelock_address", "gateway_runtime_hash",
    "max_fee_per_gas_cap", "max_priority_fee_per_gas_cap", "state_dir", "signer", "log"]
  let chainId ← required es "chain_id" deU64
  let rpcUrl ← required es "rpc_url" deString
  let gatewayAddress ← required es "gateway_address" deString
  let usdcAddress ← required es "usdc_address" deString
  let vaultAddress ← required es "vault_address" deString
  let registryAddress ← optional es "registry_address" deString
  let routerAddress ← optional es "router_address" deString
  let governanceAddress ← optional es "governance_address" deString
  let timelockAddress ← optional es "timelock_address" deString
  let gatewayRuntimeHash ← required es "gateway_runtime_hash" deString
  let maxFeePerGasCap ← optional es "max_fee_per_gas_cap" deU64
  let maxPriorityFeePerGasCap ← optional es "max_priority_fee_per_gas_cap" deU64
  let stateDir ← optional es "state_dir" deString
  let signer ← required es "signer" (deStruct SignerConfig.deserialize)
  let log ← withDefault es "log" (deStruct (LogConfig.deserialize defaultLogDir)) (LogConfig.default defaultLogDir)
  pure { chainId, rpcUrl, gatewayAddress, usdcAddress, vaultAddress, registryAddress, routerAddress,
         governanceAddress, timelockAddress, gatewayRuntimeHash, maxFeePerGasCap, maxPriorityFeePerGasCap,
         stateDir, signer, log }

/-- The entries of a document, in its order. -/
def documentEntries (d : Document) : Entries :=
  d.top.map (fun e => (e.1, .value e.2)) ++ d.tables.reverse.map fun t => (t.1, .table t.2)

/-- `Config::from_str`, over a parser of TOML and the default directory of the logs. -/
def Config.fromStr (parse : String → Except String Document) (defaultLogDir text : String) : De Config := do
  let d ← (parse text).mapError .toml
  Config.deserialize defaultLogDir (documentEntries d)

end RobotMoney.Client
