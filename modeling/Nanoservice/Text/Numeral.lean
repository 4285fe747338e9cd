import Nanoservice.Decimal.Double
import Nanoservice.Text.Blank
import Nanoservice.Text.Digit

/-!
# Numerals

Reading integers and decimal fractions that people type: blank margins, a sign, single underscores
between digits. An integer of more than 4300 digits is refused, as its conversion would take
quadratic time.
-/

namespace Nanoservice.Text

open Nanoservice.Decimal (Double)

/-- The most digits that an integer numeral may have. -/
def maxIntegerDigits : Nat := 4300

/-- An integer that has a decimal text: it has no more digits than may be converted. -/
def isShortInteger (n : Int) : Bool :=
  n.natAbs < Nat.pow 10 maxIntegerDigits

/-- Why an integer has no decimal text. -/
def longIntegerMessage : String :=
  s!"Exceeds the limit ({maxIntegerDigits} digits) for integer string conversion; " ++
    "use sys.set_int_max_str_digits() to increase the limit"

/-- The decimal text of an integer. -/
def intChars (n : Int) : List Char :=
  if n < 0 then '-' :: Nat.toDigits 10 n.natAbs else Nat.toDigits 10 n.natAbs

/-- The number that a list of digit values stands for. -/
def valueOfDigits (ds : List Nat) : Nat :=
  ds.foldl (fun n d => 10 * n + d) 0

/-- The value of an ASCII digit. -/
def asciiValue? (c : Char) : Option Nat :=
  if '0' ≤ c ∧ c ≤ '9' then some (c.toNat - 48) else none

/-- An ASCII digit. -/
def isAsciiDigit (c : Char) : Bool :=
  '0' ≤ c && c ≤ '9'

/-- Reads digits with single underscores between them off the front of a list. -/
def digitRun (value? : Char → Option Nat) : List Char → Option (List Nat × List Char)
  | [] => none
  | c :: cs =>
    match value? c with
    | none => none
    | some d =>
      match cs with
      | [] => some ([d], [])
      | '_' :: more => (digitRun value? more).map fun p => (d :: p.1, p.2)
      | e :: more =>
        if (value? e).isSome then (digitRun value? (e :: more)).map fun p => (d :: p.1, p.2)
        else some ([d], e :: more)

/-- Splits an optional sign off the front of a list; `true` stands for a minus. -/
def takeSign : List Char → Bool × List Char
  | '-' :: cs => (true, cs)
  | '+' :: cs => (false, cs)
  | cs => (false, cs)

/-- An integer from its sign and magnitude. -/
def signedInt (negative : Bool) (n : Nat) : Int :=
  if negative then -n else n

/-- Why a text is not read as an integer. -/
inductive NumeralFault where
  | malformed
  | tooLong (digits : Nat)
  deriving DecidableEq, Repr

/-- The integer that a text spells with decimal digits of any script. -/
def wholeNumber (s : String) : Except NumeralFault Int :=
  let (negative, cs) := takeSign (trimChars isSpace s.toList)
  match digitRun decimalValue? cs with
  | none => .error .malformed
  | some (ds, rest) =>
    if maxIntegerDigits < ds.length then .error (.tooLong ds.length)
    else if rest.isEmpty then .ok (signedInt negative (valueOfDigits ds))
    else .error .malformed

/-- A fraction part that changes nothing: a point and one or more zeros, or nothing. -/
def isZeroFraction : List Char → Bool
  | [] => true
  | '.' :: z :: zs => (z :: zs).all (· == '0')
  | _ => false

/-- The integer that a text spells with ASCII digits; a fraction of zeros is allowed. -/
def roundedNumber (s : String) : Except NumeralFault Int :=
  let trimmed := trimChars isSpace s.toList
  if maxIntegerDigits < trimmed.length then .error (.tooLong trimmed.length)
  else
    let (negative, cs) := takeSign trimmed
    match digitRun asciiValue? cs with
    | none => .error .malformed
    | some (ds, rest) =>
      if isZeroFraction rest then .ok (signedInt negative (valueOfDigits ds))
      else .error .malformed

/-! ## Decimal fractions -/

/-- The exponent part of a decimal fraction: nothing, or a mark, a sign and digits. -/
def exponentPart? : List Char → Option Int
  | [] => some 0
  | c :: cs =>
    if c == 'e' || c == 'E' then
      let (negative, ds) := takeSign cs
      if ds.isEmpty || !ds.all isAsciiDigit then none
      else some (signedInt negative (valueOfDigits (ds.filterMap asciiValue?)))
    else none

/-- A text without regard to ASCII letter case is one of the words. -/
def isOneOf (words : List String) (cs : List Char) : Bool :=
  words.contains (String.ofList (cs.map Char.toLower))

/-- The number that an unsigned decimal fraction, or a word for a special value, stands for. -/
def unsignedFraction? (negative : Bool) (cs : List Char) : Option Double :=
  if isOneOf ["inf", "infinity"] cs then some (.infinity negative)
  else if isOneOf ["nan"] cs then some .nan
  else
    let whole := cs.takeWhile isAsciiDigit
    let afterWhole := cs.dropWhile isAsciiDigit
    let (part, rest) := match afterWhole with
      | '.' :: more => (more.takeWhile isAsciiDigit, more.dropWhile isAsciiDigit)
      | more => ([], more)
    if whole.isEmpty && part.isEmpty then none
    else (exponentPart? rest).map fun e =>
      let ds := (whole ++ part).filterMap asciiValue?
      .ofDecimal negative (valueOfDigits ds) (e - part.length)

/-- The number that a signed decimal fraction stands for. -/
def signedFraction? (cs : List Char) : Option Double :=
  let (negative, rest) := takeSign cs
  unsignedFraction? negative rest

/-- Single underscores strictly inside a text may be left out. -/
def withoutUnderscores? (cs : List Char) : Option (List Char) :=
  let doubled := (cs.zip (cs.drop 1)).any fun p => p.1 == '_' && p.2 == '_'
  if cs.head? == some '_' || cs.getLast? == some '_' || doubled then none
  else some (cs.filter (· != '_'))

/-- The number that a text spells as a decimal fraction. -/
def fractionNumber? (s : String) : Option Double :=
  let cs := trimChars isSpace s.toList
  (signedFraction? cs).or ((withoutUnderscores? cs).bind signedFraction?)

end Nanoservice.Text
