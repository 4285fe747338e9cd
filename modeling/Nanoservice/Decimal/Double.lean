/-!
# Binary64 numbers as ranks

A number in the binary64 format is a sign and a *rank*: the position of its magnitude among the
non-negative magnitudes in increasing order. Rank `0` is zero, the ranks below `binade` are the
subnormal magnitudes, and `infinityRank` is infinity. Rounding a positive rational is then exact
arithmetic on natural numbers: the rank of the nearest magnitude, a tie going to the even one.
-/

namespace Nanoservice.Decimal

/-- The number of magnitudes from one power of two to the next. -/
def binade : Nat := 4503599627370496

/-- The rank of infinity. -/
def infinityRank : Nat := 2047 * binade

/-- The position of a magnitude among the non-negative magnitudes, infinity last. -/
abbrev Rank : Type := Fin (infinityRank + 1)

/-- A binary64 number; all not-a-number patterns are one value. -/
inductive Double where
  | nan
  | signed (negative : Bool) (rank : Rank)
  deriving DecidableEq, Repr

namespace Double

/-- Positive zero. -/
def zero : Double := .signed false 0

/-- Infinity of the given sign. -/
def infinity (negative : Bool) : Double := .signed negative (Fin.last infinityRank)

/-- A number other than the infinities and not-a-number. -/
def isFinite : Double → Bool
  | .nan => false
  | .signed _ rank => rank.val < infinityRank

/-- The integer mantissa of a finite rank. -/
def mantissa (rank : Nat) : Nat :=
  if rank < binade then rank else binade + rank % binade

/-- The power of two that scales the mantissa of a finite rank. -/
def scale (rank : Nat) : Int :=
  if rank < binade then -1074 else (rank / binade : Nat) - 1075

/-- The magnitude of a finite rank as a fraction of natural numbers. -/
def fraction (rank : Nat) : Nat × Nat :=
  if 0 ≤ scale rank then (mantissa rank * Nat.pow 2 (scale rank).toNat, 1)
  else (mantissa rank, Nat.pow 2 (-scale rank).toNat)

/-! ## Rounding -/

/-- The natural number nearest to `num / den`, a tie going to the even one. -/
def nearest (num den : Nat) : Nat :=
  let q := num / den
  let r := num % den
  if 2 * r < den then q else if den < 2 * r then q + 1 else q + q % 2

/-- The exponent of the largest power of two that is at most `num / den`. -/
def binaryExponent (num den : Nat) : Int :=
  let e : Int := (Nat.log2 num : Int) - Nat.log2 den
  let reached :=
    if 0 ≤ e then den * Nat.pow 2 e.toNat ≤ num else den ≤ num * Nat.pow 2 (-e).toNat
  if reached then e else e - 1

/-- A position counted without regard to the range, cut off at infinity. -/
def cutOff (n : Nat) : Rank :=
  ⟨min n infinityRank, Nat.lt_succ_of_le (Nat.min_le_right n infinityRank)⟩

/-- The rank of the magnitude nearest to `num / den`, for a positive `den`. -/
def rankOfFraction (num den : Nat) : Rank :=
  if num = 0 then 0
  else
    let s := max (binaryExponent num den - 52) (-1074)
    let m :=
      if 0 ≤ s then nearest num (den * Nat.pow 2 s.toNat)
      else nearest (num * Nat.pow 2 (-s).toNat) den
    cutOff ((s + 1074).toNat * binade + m)

/-- The decimal magnitudes from `10 ^ 400` on round to infinity and those below `10 ^ (-400)` to
zero, so that no huge power is ever formed. -/
def rankOfDecimal (digits : Nat) (exponent : Int) : Rank :=
  if digits = 0 then 0
  else
    let size : Int := (Nat.toDigits 10 digits).length + exponent
    if 400 < size then Fin.last infinityRank
    else if size < -400 then 0
    else if 0 ≤ exponent then rankOfFraction (digits * Nat.pow 10 exponent.toNat) 1
    else rankOfFraction digits (Nat.pow 10 (-exponent).toNat)

/-- The number nearest to `digits * 10 ^ exponent` with the given sign. -/
def ofDecimal (negative : Bool) (digits : Nat) (exponent : Int) : Double :=
  .signed negative (rankOfDecimal digits exponent)

/-- The number nearest to an integer. -/
def ofInt (n : Int) : Double :=
  ofDecimal (n < 0) n.natAbs 0

/-! ## Whole numbers -/

/-- The integer that a finite number without a fractional part stands for. -/
def toInt? : Double → Option Int
  | .nan => none
  | .signed negative rank =>
    if rank.val < infinityRank then
      let f := fraction rank
      if f.1 % f.2 = 0 then some (if negative then -(f.1 / f.2 : Nat) else (f.1 / f.2 : Nat))
      else none
    else none

/-- The integer part of a finite number, the fraction cut off towards zero. -/
def truncate? : Double → Option Int
  | .nan => none
  | .signed negative rank =>
    if rank.val < infinityRank then
      let f := fraction rank
      some (if negative then -(f.1 / f.2 : Nat) else (f.1 / f.2 : Nat))
    else none

/-- Zero of either sign. -/
def isZero : Double → Bool
  | .nan => false
  | .signed _ rank => rank == 0

end Double

end Nanoservice.Decimal
