import RobotMoney.Lib.Hex
import Mathlib.Data.List.DropRight

/-!
# The texts of the dapp

`format.ts`, and the pieces of the language it and the preview print with: decimal digits, padding, slices,
and the ISO text of a moment.  Positions in a text are counted in characters; an address is ASCII, where these
are the code units the source counts.
-/

namespace RobotMoney.Dapp

open RobotMoney.Lib

/-! ### Pieces of the language -/

/-- `String(b)` -/
def boolToString (b : Bool) : String := if b then "true" else "false"

/-- `n.toString()` of a `bigint` -/
def bigintToString (n : ℤ) : String := n.repr

/-- `padStart(width, "0")` -/
def padStart (s : List Char) (width : ℕ) : List Char := s.leftpad width '0'

/-- `shorten` of `preview.ts`: `${addr.slice(0, 6)}...${addr.slice(-4)}` -/
def shorten (addr : String) : String :=
  String.ofList (addr.toList.take 6) ++ "..." ++ String.ofList (addr.toList.drop (addr.length - 4))

/-! ### Amounts -/

/-- `bigintToDecimalString` -/
def bigintToDecimalString (raw : ℤ) (decimals maxFrac : ℕ) : String :=
  let abs := raw.natAbs
  let scale := 10 ^ decimals
  let whole := abs / scale
  let fracFull := padStart (Nat.toDigits 10 (abs % scale)) decimals
  let fracTrimmed := (fracFull.take maxFrac).rdropWhile (· == '0')
  let formatted :=
    if 0 < fracTrimmed.length then toString whole ++ "." ++ String.ofList fracTrimmed else toString whole
  if raw < 0 then "−" ++ formatted else formatted

/-- `formatUsdc` -/
def formatUsdc (raw : ℤ) : String := bigintToDecimalString raw 6 6 ++ " USDC"

/-- `formatShares` of `preview.ts` -/
def formatShares (raw : ℤ) : String := bigintToString raw ++ " shares"

/-! ### Moments -/

/-- The last moment a `Date` can hold, in seconds. -/
def maxTime : ℤ := 8640000000000

def paddedNat (width n : ℕ) : String := String.ofList (padStart (Nat.toDigits 10 n) width)

/-- A year: four digits, or a sign and six. -/
def isoYear (year : ℤ) : String :=
  if 0 ≤ year ∧ year ≤ 9999 then paddedNat 4 year.natAbs
  else (if year < 0 then "-" else "+") ++ paddedNat 6 year.natAbs

/-- Year, month and day of a day, counted from 1 January 1970. -/
def civilFromDays (days : ℤ) : ℤ × ℕ × ℕ :=
  -- eras of 400 years, each year from 1 March
  let z := days + 719468
  let era := z / 146097
  let doe := (z % 146097).toNat
  let yoe := (doe - doe / 1460 + doe / 36524 - doe / 146096) / 365
  let doy := doe - (365 * yoe + yoe / 4 - yoe / 100)
  let mp := (5 * doy + 2) / 153
  let month := if mp < 10 then mp + 3 else mp - 9
  (era * 400 + yoe + (if month ≤ 2 then 1 else 0), month, doy - (153 * mp + 2) / 5 + 1)

/-- `new Date(Number(seconds) * 1000).toISOString()`.  Up to `maxTime` the number is exact, and beyond it
the date is invalid. -/
def toISOString (seconds : ℤ) : Except String String :=
  if -maxTime ≤ seconds ∧ seconds ≤ maxTime then
    let date := civilFromDays (seconds / 86400)
    let second := (seconds % 86400).toNat
    .ok (isoYear date.1 ++ "-" ++ paddedNat 2 date.2.1 ++ "-" ++ paddedNat 2 date.2.2 ++ "T" ++
      paddedNat 2 (second / 3600) ++ ":" ++ paddedNat 2 (second / 60 % 60) ++ ":" ++
      paddedNat 2 (second % 60) ++ ".000Z")
  else .error "Invalid time value"

theorem toISOString_ok_iff (seconds : ℤ) :
    (∃ s, toISOString seconds = .ok s) ↔ -maxTime ≤ seconds ∧ seconds ≤ maxTime := by
  unfold toISOString
  constructor
  · rintro ⟨s, hs⟩
    by_contra hout
    rw [if_neg hout] at hs
    cases hs
  · intro hin
    rw [if_pos hin]
    exact ⟨_, rfl⟩

example : toISOString 1700000000 = .ok "2023-11-14T22:13:20.000Z" := by decide +kernel
example : toISOString maxTime = .ok "+275760-09-13T00:00:00.000Z" := by decide +kernel
example : formatUsdc 1500000 = "1.5 USDC" := by decide +kernel

/-! ### What is printed can be told apart -/

theorem boolToString_injective : Function.Injective boolToString := by decide

/-- No text of a natural number begins with a minus sign. -/
theorem natRepr_ne_minus (n : ℕ) (s : String) : n.repr ≠ "-" ++ s := by
  intro h
  have hmem : '-' ∈ Nat.toDigits 10 n := by
    rw [← Nat.toList_repr, h]
    simp
  have hdigit := Nat.isDigit_of_mem_toDigits (by omega) (by omega) hmem
  simp at hdigit

theorem bigintToString_injective : Function.Injective bigintToString := by
  intro n m h
  simp only [bigintToString, Int.repr_eq_if] at h
  split at h <;> split at h
  · have habs := natRepr_injective h
    omega
  · exact absurd h (natRepr_ne_minus _ _)
  · exact absurd h.symm (natRepr_ne_minus _ _)
  · have habs := natRepr_injective (by simpa using h)
    omega

end RobotMoney.Dapp
