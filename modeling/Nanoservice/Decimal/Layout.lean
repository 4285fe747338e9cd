import Nanoservice.Decimal.Shortest

/-!
# Writing a number

A number is written from the digits of its shortest decimal, positionally when its decimal point
lies near the digits and with an exponent otherwise. Where the change is made and how an exponent
looks are decisions of a format, gathered in one record.
-/

namespace Nanoservice.Decimal

/-- The decisions of a number format. -/
structure Layout where
  /-- The smallest position of the decimal point that is written positionally. -/
  lowestPoint : Int
  /-- The largest position of the decimal point that is written positionally. -/
  highestPoint : Int
  /-- The least number of exponent digits. -/
  exponentWidth : Nat
  /-- Whether a mantissa of one digit keeps a fraction before an exponent. -/
  keepsFraction : Bool
  notANumber : String
  infinity : String
  negativeInfinity : String

namespace Layout

/-- The digits of an exponent with its sign, padded with zeros to `width`. -/
def exponentText (width : Nat) (e : Int) : List Char :=
  let ds := Nat.toDigits 10 e.natAbs
  (if e < 0 then '-' else '+') :: (List.replicate (width - ds.length) '0' ++ ds)

/-- The digits `ds` with the decimal point after the first `point` of them. -/
def positional (ds : List Char) (point : Int) : List Char :=
  if point ≤ 0 then '0' :: '.' :: (List.replicate (-point).toNat '0' ++ ds)
  else
    let p := point.toNat
    if p < ds.length then ds.take p ++ '.' :: ds.drop p
    else ds ++ List.replicate (p - ds.length) '0' ++ ['.', '0']

/-- The digits `ds` with one digit before the point and an exponent. -/
def scientific (l : Layout) (ds : List Char) (point : Int) : List Char :=
  let fraction := match ds.drop 1 with
    | [] => if l.keepsFraction then ['.', '0'] else []
    | more => '.' :: more
  ds.take 1 ++ fraction ++ 'e' :: exponentText l.exponentWidth (point - 1)

/-- The written form of a finite magnitude. -/
def magnitude (l : Layout) (rank : Nat) : List Char :=
  let d := Shortest.ofRank rank
  let ds := Nat.toDigits 10 d.digits
  let point := if d.digits = 0 then 1 else ds.length + d.exponent
  if l.lowestPoint ≤ point ∧ point ≤ l.highestPoint then positional ds point
  else l.scientific ds point

/-- The written form of a number. -/
def write (l : Layout) : Double → List Char
  | .nan => l.notANumber.toList
  | .signed negative rank =>
    if rank.val < infinityRank then
      if negative then '-' :: l.magnitude rank else l.magnitude rank
    else (if negative then l.negativeInfinity else l.infinity).toList

end Layout

end Nanoservice.Decimal
