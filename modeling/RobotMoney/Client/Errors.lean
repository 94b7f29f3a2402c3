import Mathlib.Tactic

/-!
# The errors of the payment client

`errors.rs`: what the reads and the checks of the client fail with.  The variants with a transaction hash are
with the commands.
-/

namespace RobotMoney.Client

/-- The variants of `RmpcError` up to the broadcast. -/
inductive RmpcError where
  | errAgentNotAuthorized
  | errFeeCapExceeded
  | errConcurrentInvocation
  | errCodeHashMismatch
  | errChainIdMismatch
  | errGatewayPaused
  | errAllowanceInsufficient
  | errBalanceInsufficient
  | errSoftwareSignerDisallowed
  | errProductionSignerRequired
  | errVaultPaused
  | errShareBalanceInsufficient
  | errShareAllowanceInsufficient
  | errConfig (message : String)
  | errRpcTransport (message : String)
  | errRpcServer (code : ℤ) (message : String)
  | errRpcDecode (message : String)
  deriving DecidableEq

abbrev Result (α : Type) : Type := Except RmpcError α

/-- `if c { return Err(e); }` -/
def refuseIf (c : Prop) [Decidable c] (e : RmpcError) : Result Unit := if c then .error e else .ok ()

theorem refuseIf_eq_ok {c : Prop} [Decidable c] {e : RmpcError} {u : Unit} :
    refuseIf c e = .ok u ↔ ¬ c := by
  unfold refuseIf
  split <;> simp_all

end RobotMoney.Client
