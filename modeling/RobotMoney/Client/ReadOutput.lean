import RobotMoney.Client.Preflight
import RobotMoney.Lib.Hex

/-!
# The output of the read commands

`read_output.rs`: every `rmpc get-*` command prints one envelope.  A command that makes several reads
records the ones that fail, by the field they were for, and goes on; the envelope is *partial* when one
failed.  `PartialBuilder.read` is such a read, and `read_errors_eq_nil` what an envelope that is not
partial says of it.
-/

namespace RobotMoney.Client

open RobotMoney.Lib

/-- `Display` of an error. -/
def RmpcError.display : RmpcError → String
  | .errAgentNotAuthorized => "ErrAgentNotAuthorized: agent address is not registered with the gateway"
  | .errFeeCapExceeded => "ErrFeeCapExceeded: computed maxFeePerGas exceeds operator-configured cap"
  | .errConcurrentInvocation =>
    "ErrConcurrentInvocation: another rmpc invocation already holds the agent lock"
  | .errCodeHashMismatch =>
    "ErrCodeHashMismatch: keccak256(eth_getCode(gateway)) does not match pinned hash"
  | .errChainIdMismatch => "ErrChainIdMismatch: RPC eth_chainId does not match configured chain_id"
  | .errGatewayPaused => "ErrGatewayPaused: gateway contract reports paused() == true"
  | .errAllowanceInsufficient => "ErrAllowanceInsufficient: USDC allowance(self, gateway) < amount"
  | .errBalanceInsufficient => "ErrBalanceInsufficient: USDC balanceOf(self) < amount"
  | .errSoftwareSignerDisallowed =>
    "ErrSoftwareSignerDisallowed: [signer].allow_software_fallback must be true"
  | .errProductionSignerRequired =>
    "ErrProductionSignerRequired: Base mainnet write commands require an HSM/KMS/device-bound signer; " ++
      "software keystores are non-production only"
  | .errVaultPaused => "ErrVaultPaused: source vault reports paused() == true"
  | .errShareBalanceInsufficient =>
    "ErrShareBalanceInsufficient: agent vault share balance < requested shares"
  | .errShareAllowanceInsufficient =>
    "ErrShareAllowanceInsufficient: vault share allowance(agent, gateway) < requested shares"
  | .errConfig message => "ErrConfig: configuration error: " ++ message
  | .errRpcTransport message => "ErrRpcTransport: JSON-RPC transport error: " ++ message
  | .errRpcServer code message =>
    "ErrRpcServer: JSON-RPC server error code=" ++ toString code ++ " message=" ++ message
  | .errRpcDecode message => "ErrRpcDecode: JSON-RPC response decode error: " ++ message

/-- `format!("{:#x}", address)` -/
def lowerHex (a : Address) : String := "0x" ++ String.ofList (hexWord 40 (Fin.val a))

/-- `format!("0x{block_number:x}")` -/
def blockTag (blockNumber : ℕ) : String := "0x" ++ String.ofList (Nat.toDigits 16 blockNumber)

inductive NetworkEnv where
  | localDevnet
  | rmTestnet
  | productionBase
  | unknown
  deriving DecidableEq

/-- `from_chain_id` -/
def NetworkEnv.fromChainId (chainId : ℕ) : NetworkEnv :=
  if chainId = 31337 then .localDevnet
  else if chainId = 84532 then .rmTestnet
  else if chainId = 8453 then .productionBase
  else .unknown

inductive Source where
  | jsonRpc
  deriving DecidableEq

structure FieldError where
  field : String
  message : String
  deriving DecidableEq

/-- What is printed; the field `partial` of the source is `isPartial`. -/
structure Envelope (T : Type) where
  chainId : ℕ
  blockNumber : ℕ
  source : Source
  networkEnv : NetworkEnv
  isPartial : Bool
  errors : List FieldError
  data : T

structure PartialBuilder (T : Type) where
  chainId : ℕ
  blockNumber : ℕ
  errors : List FieldError
  data : T

namespace PartialBuilder

variable {T α : Type}

def new (chainId blockNumber : ℕ) (data : T) : PartialBuilder T where
  chainId := chainId
  blockNumber := blockNumber
  errors := []
  data := data

/-- `data_mut`, with what is done to the payload -/
def dataMut (b : PartialBuilder T) (f : T → T) : PartialBuilder T := { b with data := f b.data }

/-- `record_err` -/
def recordErr (b : PartialBuilder T) (field message : String) : PartialBuilder T :=
  { b with errors := b.errors ++ [⟨field, message⟩] }

def finish (b : PartialBuilder T) : Envelope T where
  chainId := b.chainId
  blockNumber := b.blockNumber
  source := .jsonRpc
  networkEnv := .fromChainId b.chainId
  isPartial := !b.errors.isEmpty
  errors := b.errors
  data := b.data

/-- One read of several: its value goes into the payload, its failure on the list of errors. -/
def read (b : PartialBuilder T) (field : String) (x : Except String α) (fill : α → T → T) :
    PartialBuilder T :=
  match x with
  | .ok a => b.dataMut (fill a)
  | .error e => b.recordErr field e

variable {b : PartialBuilder T} {field : String} {x : Except String α} {fill : α → T → T}

theorem finish_isPartial : b.finish.isPartial = false ↔ b.errors = [] := by
  simp [finish]

@[simp] theorem finish_data : b.finish.data = b.data := rfl

/-- No read failed so far: none before this one, and not this one. -/
theorem read_errors_eq_nil :
    (b.read field x fill).errors = [] ↔ b.errors = [] ∧ ∃ a, x = .ok a := by
  unfold read
  cases x with
  | ok a => simp [dataMut]
  | error e => simp [recordErr]

theorem read_ok {a : α} (h : x = .ok a) : b.read field x fill = b.dataMut (fill a) := by
  rw [h]
  rfl

@[simp] theorem dataMut_data (f : T → T) : (b.dataMut f).data = f b.data := rfl

/-- What a read does not touch of the payload. -/
theorem read_data_of_keeps {β : Type} (view : T → β) (h : ∀ a t, view (fill a t) = view t) :
    view (b.read field x fill).data = view b.data := by
  unfold read
  cases x with
  | ok a => exact h a b.data
  | error e => rfl

end PartialBuilder

end RobotMoney.Client
