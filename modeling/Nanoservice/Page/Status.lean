import Nanoservice.Literal
import Nanoservice.Text.Numeral

/-!
# Classes of response statuses

The class by which a page colours a response: its hundred where that is a success or an error, and
one class for all others. A status given as something else than an integer is converted first.
-/

namespace Nanoservice.Page

/-- The class of a status. -/
def statusClass (status : Int) : String :=
  let family := status / 100
  if family = 2 then "code-2xx"
  else if family = 4 then "code-4xx"
  else if family = 5 then "code-5xx"
  else "code-other"

/-- Why a value is no status. -/
inductive StatusFault where
  | unreadable (text : RawText)
  | tooLong (digits : Nat)
  | notNumber (kind : String)
  | infinite
  | notANumber
  deriving DecidableEq, Repr

namespace StatusFault

/-- The wording of a fault. A literal is shown up to its two-hundredth character. -/
def message : StatusFault → String
  | .unreadable text =>
    "invalid literal for int() with base 10: " ++
      String.ofList ((Literal.rawChars text).take 200)
  | .tooLong n =>
    s!"Exceeds the limit ({Text.maxIntegerDigits} digits) for integer string conversion: " ++
      s!"value has {n} digits; use sys.set_int_max_str_digits() to increase the limit"
  | .notNumber kind =>
    "int() argument must be a string, a bytes-like object or a real number, not '" ++ kind ++ "'"
  | .infinite => "cannot convert float infinity to integer"
  | .notANumber => "cannot convert float NaN to integer"

end StatusFault

/-- The status that a value stands for: an integer, the integer part of a number, or the integer
that a text spells. -/
def statusOf : Json → Except StatusFault Int
  | .int n => .ok n
  | .bool b => .ok (if b then 1 else 0)
  | .float x =>
    match x.truncate? with
    | some n => .ok n
    | none => .error (if x = .nan then .notANumber else .infinite)
  | .str s =>
    match Text.wholeNumber s with
    | .ok n => .ok n
    | .error .malformed => .error (.unreadable s)
    | .error (.tooLong n) => .error (.tooLong n)
  | .broken symbols => .error (.unreadable (.broken symbols))
  | .null => .error (.notNumber "NoneType")
  | .arr _ => .error (.notNumber "list")
  | .obj _ => .error (.notNumber "dict")

end Nanoservice.Page
