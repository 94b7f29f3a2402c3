import Mathlib.Data.Fintype.Basic
import Mathlib.Tactic

/-!
# Accounts and blocks

An account is a 160-bit number; the zero account is the one no call comes from.  A block carries the
two numbers a contract reads of it.  Both fit 64 bits, and no block after genesis has time zero.
-/

namespace RobotMoney.Lib

instance addressCount_neZero : NeZero (2 ^ 160) := ⟨by decide⟩

/-- An account of the chain. -/
def Address : Type := Fin (2 ^ 160)
  deriving DecidableEq, Fintype

instance (n : ℕ) : OfNat Address n := inferInstanceAs (OfNat (Fin (2 ^ 160)) n)

instance : Zero Address := ⟨(0 : Fin (2 ^ 160))⟩

/-- What a contract sees of the block it runs in. -/
structure Block where
  timestamp : ℕ
  number : ℕ
  timestamp_pos : 0 < timestamp := by decide
  timestamp_lt : timestamp < 2 ^ 64 := by decide
  number_lt : number < 2 ^ 64 := by decide
  deriving DecidableEq

/-- A call: the block, the caller, which is never the zero account, and what is called. -/
structure Tx (κ : Type) where
  block : Block
  sender : Address
  call : κ
  sender_ne : sender ≠ 0 := by decide

/-- The block with a number and a time; the first block where these are out of range. -/
def Block.of (number timestamp : ℕ) : Block :=
  if h : 0 < timestamp ∧ timestamp < 2 ^ 64 ∧ number < 2 ^ 64 then ⟨timestamp, number, h.1, h.2.1, h.2.2⟩
  else ⟨1, 0, by decide, by decide, by decide⟩

/-- A call of `sender` in a block; of the account `1` where no call comes from `sender`. -/
def Tx.of {κ : Type} (sender : Address) (block : Block) (call : κ) : Tx κ :=
  if h : sender ≠ 0 then ⟨block, sender, call, h⟩ else ⟨block, 1, call, by decide⟩

end RobotMoney.Lib
