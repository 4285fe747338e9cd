import Nanoservice.Decimal.Double

/-!
# Shortest decimals

The shortest decimal of a number is the one with the fewest digits that reads back as the same
number, the nearest to it among those. For one digit, two digits and so on up to seventeen, the
two neighbours of the number on that decimal grid are tried; if none reads back, which no binary64
number reaches, the exact decimal expansion stands in, so the result always reads back.
-/

namespace Nanoservice.Decimal

/-- A decimal magnitude `digits * 10 ^ exponent`. -/
structure Scaled where
  digits : Nat
  exponent : Int
  deriving DecidableEq, Repr

namespace Shortest

/-- The `k` with `10 ^ (k - 1) ≤ num / den < 10 ^ k`, for positive `num` and `den`. -/
def decimalPoint (num den : Nat) : Int :=
  if den ≤ num then (Nat.toDigits 10 (num / den)).length
  else 1 - ((Nat.toDigits 10 ((den - 1) / num)).length : Int)

/-- `num / den` in units of `10 ^ unit`, as a fraction. -/
def inUnits (num den : Nat) (unit : Int) : Nat × Nat :=
  if 0 ≤ unit then (num, den * Nat.pow 10 unit.toNat) else (num * Nat.pow 10 (-unit).toNat, den)

/-- The neighbour on the grid of `10 ^ unit` that reads back as `rank`, the nearer of two; of two
equally near the even one. -/
def onGrid (rank num den : Nat) (unit : Int) : Option Scaled :=
  let f := inUnits num den unit
  let low := f.1 / f.2
  let readsBack := fun d => (Double.rankOfDecimal d unit).val == rank
  let lowFirst := if 2 * (f.1 % f.2) = f.2 then low % 2 == 0 else 2 * (f.1 % f.2) < f.2
  let order := if lowFirst then [low, low + 1] else [low + 1, low]
  (order.find? readsBack).map fun d => ⟨d, unit⟩

/-- A decimal without trailing zeros among its digits; `fuel` bounds their number. -/
def stripZeros : Nat → Scaled → Scaled
  | 0, d => d
  | fuel + 1, d =>
    if d.digits % 10 = 0 ∧ d.digits ≠ 0 then stripZeros fuel ⟨d.digits / 10, d.exponent + 1⟩ else d

/-- The exact decimal expansion of a finite rank. -/
def expansion (rank : Nat) : Scaled :=
  if 0 ≤ Double.scale rank then ⟨Double.mantissa rank * Nat.pow 2 (Double.scale rank).toNat, 0⟩
  else ⟨Double.mantissa rank * Nat.pow 5 (-Double.scale rank).toNat, Double.scale rank⟩

/-- The grids with one to seventeen digits for a number whose decimal point is at `point`. -/
def grids (point : Int) : List Int :=
  (List.range 17).map fun n => point - (n + 1 : Nat)

/-- The shortest decimal of a finite rank, without trailing zeros. -/
def ofRank (rank : Nat) : Scaled :=
  if rank = 0 then ⟨0, 0⟩
  else
    let f := Double.fraction rank
    let best := (grids (decimalPoint f.1 f.2)).findSome? (onGrid rank f.1 f.2)
    stripZeros 20 (best.getD (expansion rank))

end Shortest

end Nanoservice.Decimal
