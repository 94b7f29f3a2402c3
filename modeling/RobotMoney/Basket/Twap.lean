import RobotMoney.Lib.Address
import RobotMoney.Lib.Proportion

/-!
# Time-weighted prices

How a basket vault prices a token: from the two cumulative ticks that a pool reports for a window, the
mean tick over the window; from the tick, by `TickMath`, the square root of the price; from that, the
quote of an amount.  Ticks are signed words and wrap or panic where the code casts or computes them.

A quote is a share of the amount (`quoteAt_linear`): the price enters as a numerator and a denominator
that do not depend on the amount.
-/

namespace RobotMoney.Basket

open RobotMoney.Lib

inductive BasketError where
  | tvlCapExceeded
  | perDepositCapExceeded
  | zeroAddress
  | vaultShutdown
  | invalidFee
  | invalidParam
  | maxAssetsReached
  | assetNotFound
  | assetStillHeld
  | noActiveAssets
  | cannotRescueUsdc
  | emergencyUnwindOverrideDisabled
  | poolTokenMismatch
  | assetInBasket
  | emergencyUnwindLossCapExceeded (token : Address) (received appliedFloor : ℕ)
  | invalidTwapWindow (window : ℕ)
  | insufficientPoolCardinality (pool : Address) (required actual : ℕ)
  /-- `TickOutOfBounds` of `TickMath` -/
  | tickOutOfBounds
  /-- `EnforcedPause` and `ExpectedPause` of `Pausable` -/
  | enforcedPause
  | expectedPause
  /-- `ERC4626ExceededMaxWithdraw` and `ERC4626ExceededMaxRedeem` -/
  | exceededMaxWithdraw (owner : Address) (assets max : ℕ)
  | exceededMaxRedeem (owner : Address) (shares max : ℕ)
  deriving DecidableEq

/-- A cumulative tick, a signed word of 56 bits. -/
abbrev Int56 : Type := { z : ℤ // -2 ^ 55 ≤ z ∧ z < 2 ^ 55 }

/-! ### The mean tick -/

/-- `a - b` on 56-bit signed words. -/
def subI56 (a b : Int56) : Call BasketError ℤ :=
  if -2 ^ 55 ≤ a.1 - b.1 ∧ a.1 - b.1 < 2 ^ 55 then .ok (a.1 - b.1) else .error (.panic .arithmetic)

/-- The element at an index of an array. -/
def elementAt {α : Type} (as : List α) (index : ℕ) : Call BasketError α :=
  match as[index]? with
  | none => .error (.panic .outOfBounds)
  | some a => .ok a

/-- The arithmetic mean tick over a window, rounded down. -/
def arithmeticMeanTick (tickCumulatives : List Int56) (window : ℕ) : Call BasketError ℤ := do
  let last ← elementAt tickCumulatives 1
  let first ← elementAt tickCumulatives 0
  let delta ← subI56 last first
  -- the cast to 24 bits wraps, the decrement below panics
  let tick := (delta.tdiv window).bmod (2 ^ 24)
  if delta < 0 ∧ delta.tmod window ≠ 0 then
    if -2 ^ 23 ≤ tick - 1 then pure (tick - 1) else .error (.panic .arithmetic)
  else pure tick

/-! ### From a tick to a price -/

namespace TickMath

/-- `MAX_TICK` -/
def maxTick : ℕ := 887272

/-- The factor of each bit of the tick but the lowest, from the second lowest on. -/
def factors : List ℕ :=
  [0xfff97272373d413259a46990580e213a, 0xfff2e50f5f656932ef12357cf3c7fdcc,
   0xffe5caca7e10e4e61c3624eaa0941cd0, 0xffcb9843d60f6159c9db58835c926644,
   0xff973b41fa98c081472e6896dfb254c0, 0xff2ea16466c96a3843ec78b326b52861,
   0xfe5dee046a99a2a811c461f1969c3053, 0xfcbe86c7900a88aedcffc83b479aa3a4,
   0xf987a7253ac413176f2b074cf7815e54, 0xf3392b0822b70005940c7a398e4b70f3,
   0xe7159475a2c29b7443b29c7fa6e889d9, 0xd097f3bdfd2022b8845ad8f792aa5825,
   0xa9f746462d870fdf8a65dc1f90e061e5, 0x70d869a156d2a1b890bb3df62baf32f7,
   0x31be135f97d08fd981231505542fcfa6, 0x9aa508b5b7a84e1c677de54f3e99bc9,
   0x5d6af8dedb81196699c329225ee604, 0x2216e584f5fa1ea926041bedfe98,
   0x48a170391f7dc42444e8fa2]

/-- `if (absTick & (1 << bit) != 0) ratio = (ratio * factor) >> 128`, for the bits from `bit` on. -/
def scale (absTick : ℕ) : ℕ → List ℕ → ℕ → Call BasketError ℕ
  | _, [], ratio => .ok ratio
  | bit, factor :: factors, ratio =>
    if absTick.testBit bit then do
      let product ← mulU ratio factor
      scale absTick (bit + 1) factors (product / 2 ^ 128)
    else scale absTick (bit + 1) factors ratio

/-- `getSqrtRatioAtTick(tick)` -/
def getSqrtRatioAtTick (tick : ℤ) : Call BasketError ℕ := do
  let absTick := tick.natAbs
  revertIf (maxTick < absTick) BasketError.tickOutOfBounds
  let ratio := if absTick.testBit 0 then 0xfffcb933bd6fad37aa2d162d1a594001 else 2 ^ 128
  let ratio ← scale absTick 1 factors ratio
  let ratio ← if 0 < tick then
      if ratio = 0 then Except.error (.panic .divisionByZero) else pure (maxWord / ratio)
    else pure ratio
  pure ((ratio / 2 ^ 32 + if ratio % 2 ^ 32 = 0 then 0 else 1) % 2 ^ 160)

example : getSqrtRatioAtTick 0 = .ok (2 ^ 96) := by decide +kernel

example : getSqrtRatioAtTick (-887272) = .ok 4295128739 := by decide +kernel

example : getSqrtRatioAtTick 887272 = .ok 1461446703485210103287273052203988822378723970342 := by
  decide +kernel

end TickMath

/-! ### Quotes -/

/-- The quote of `amountIn` at the square root `sqrtP` of the price, in 96 fractional bits. -/
def quoteAt (sqrtP : ℕ) (zeroForOne : Bool) (amountIn : ℕ) : Call BasketError ℕ :=
  if sqrtP ≤ 2 ^ 128 - 1 then do
    let ratioX192 ← mulU sqrtP sqrtP
    if zeroForOne then mulDiv amountIn ratioX192 (2 ^ 192) else mulDiv amountIn (2 ^ 192) ratioX192
  else do
    let ratioX128 ← mulDiv sqrtP sqrtP (2 ^ 64)
    if zeroForOne then mulDiv amountIn ratioX128 (2 ^ 128) else mulDiv amountIn (2 ^ 128) ratioX128

/-- A quote is a share of the amount, at a price that does not depend on the amount. -/
theorem quoteAt_linear {sqrtP x v : ℕ} {zeroForOne : Bool} (h : quoteAt sqrtP zeroForOne x = .ok v) :
    ∃ num den, ∀ y, quoteAt sqrtP zeroForOne y = mulDiv y num den := by
  unfold quoteAt at *
  by_cases hsmall : sqrtP ≤ 2 ^ 128 - 1
  · rw [if_pos hsmall] at h
    obtain ⟨ratio, hratio, -⟩ := bind_eq_ok.mp h
    cases zeroForOne with
    | false => exact ⟨2 ^ 192, ratio, fun y => by rw [if_pos hsmall, hratio, ok_bind, if_neg Bool.false_ne_true]⟩
    | true => exact ⟨ratio, 2 ^ 192, fun y => by rw [if_pos hsmall, hratio, ok_bind, if_pos rfl]⟩
  · rw [if_neg hsmall] at h
    obtain ⟨ratio, hratio, -⟩ := bind_eq_ok.mp h
    cases zeroForOne with
    | false => exact ⟨2 ^ 128, ratio, fun y => by rw [if_neg hsmall, hratio, ok_bind, if_neg Bool.false_ne_true]⟩
    | true => exact ⟨ratio, 2 ^ 128, fun y => by rw [if_neg hsmall, hratio, ok_bind, if_pos rfl]⟩

end RobotMoney.Basket
