import Nanoservice.Text.Numeral

/-!
# What an unquoted YAML scalar means

The YAML 1.1 rules by which an unquoted text stands for null, a boolean, a number, a timestamp or
one of the reserved indicators. A text that means itself is one that no rule claims.
-/

namespace Nanoservice.Yaml

open Nanoservice.Text (isAsciiDigit)

/-- The words that stand for null, a boolean or a reserved meaning. -/
def reservedWords : List String :=
  ["", "~", "null", "Null", "NULL",
    "yes", "Yes", "YES", "no", "No", "NO", "true", "True", "TRUE", "false", "False", "FALSE",
    "on", "On", "ON", "off", "Off", "OFF",
    "<<", "=", "!", "&", "*"]

/-- A text without a leading sign. -/
def withoutSign : List Char → List Char
  | '-' :: cs => cs
  | '+' :: cs => cs
  | cs => cs

/-- A digit or an underscore. -/
def isDigitOrUnderscore (c : Char) : Bool :=
  isAsciiDigit c || c == '_'

/-- A digit followed by digits and underscores only. -/
def isDigits : List Char → Bool
  | c :: cs => isAsciiDigit c && cs.all isDigitOrUnderscore
  | [] => false

/-- Digits that start with no zero, underscores allowed behind the first. -/
def isCount : List Char → Bool
  | c :: cs => isAsciiDigit c && c != '0' && cs.all isDigitOrUnderscore
  | [] => false

/-- One or more characters of a class. -/
def isRun (p : Char → Bool) (cs : List Char) : Bool :=
  !cs.isEmpty && cs.all p

/-- One or two digits that stand for less than sixty. -/
def isSixty : List Char → Bool
  | [d] => isAsciiDigit d
  | [t, d] => '0' ≤ t && t ≤ '5' && isAsciiDigit d
  | _ => false

/-- The pieces of a text between the occurrences of a character. -/
def splitAt (mark : Char) : List Char → List (List Char)
  | [] => [[]]
  | c :: cs =>
    if c == mark then [] :: splitAt mark cs
    else match splitAt mark cs with
      | [] => [[c]]
      | w :: ws => (c :: w) :: ws

/-- A head and one or more pieces of less than sixty behind colons. -/
def isSexagesimal (isHead : List Char → Bool) (cs : List Char) : Bool :=
  match splitAt ':' cs with
  | head :: p :: ps => isHead head && (p :: ps).all isSixty
  | _ => false

/-- A hexadecimal digit or an underscore. -/
def isHexOrUnderscore (c : Char) : Bool :=
  isDigitOrUnderscore c || ('a' ≤ c && c ≤ 'f') || ('A' ≤ c && c ≤ 'F')

/-- An unsigned integer: binary, octal, decimal, hexadecimal or sexagesimal. -/
def isUnsignedInteger (cs : List Char) : Bool :=
  cs == ['0'] || isCount cs || isSexagesimal isCount cs ||
    match cs with
    | '0' :: 'b' :: ds => isRun (fun c => c == '0' || c == '1' || c == '_') ds
    | '0' :: 'x' :: ds => isRun isHexOrUnderscore ds
    | '0' :: ds => isRun (fun c => ('0' ≤ c && c ≤ '7') || c == '_') ds
    | _ => false

/-- Nothing, or an exponent with a sign. -/
def isSignedExponent : List Char → Bool
  | [] => true
  | e :: s :: ds => (e == 'e' || e == 'E') && (s == '-' || s == '+') && isRun isAsciiDigit ds
  | _ => false

/-- Digits and underscores, then nothing or an exponent with a sign. -/
def isFractionTail (cs : List Char) : Bool :=
  isSignedExponent (cs.dropWhile isDigitOrUnderscore)

/-- An unsigned number with a point. -/
def isUnsignedFloat (cs : List Char) : Bool :=
  let whole := cs.takeWhile (· != '.')
  match cs.dropWhile (· != '.') with
  | [] => false
  | _ :: part =>
    (isDigits whole && isFractionTail part) ||
      (isSexagesimal isDigits whole && part.all isDigitOrUnderscore) ||
      (whole.isEmpty && ["inf", "Inf", "INF"].contains (String.ofList part))

/-- A number with a point and nothing in front of it, or the word for not-a-number. -/
def isBareFloat : List Char → Bool
  | '.' :: c :: cs =>
    (isAsciiDigit c && isFractionTail cs) ||
      ["nan", "NaN", "NAN"].contains (String.ofList (c :: cs))
  | _ => false

/-! ## Timestamps -/

/-- What is left behind between `least` and two digits. -/
def afterDigits? (least : Nat) (cs : List Char) : Option (List Char) :=
  let n := (cs.takeWhile isAsciiDigit).length
  if least ≤ n ∧ n ≤ 2 then some (cs.drop n) else none

/-- What is left behind a character. -/
def afterChar? (c : Char) : List Char → Option (List Char)
  | d :: cs => if d = c then some cs else none
  | [] => none

/-- A time zone, blanks in front allowed, or nothing. -/
def isZone (cs : List Char) : Bool :=
  cs.isEmpty ||
    match cs.dropWhile fun c => c == ' ' || c == '\t' with
    | ['Z'] => true
    | s :: rest =>
      (s == '-' || s == '+') &&
        match afterDigits? 1 rest with
        | some [] => true
        | some more => ((afterChar? ':' more).bind (afterDigits? 2)) == some []
        | none => false
    | [] => false

/-- A time of day with an optional fraction and zone. -/
def isTime (cs : List Char) : Bool :=
  match do
    let cs ← afterDigits? 1 cs
    let cs ← afterChar? ':' cs
    let cs ← afterDigits? 2 cs
    let cs ← afterChar? ':' cs
    afterDigits? 2 cs with
  | some ('.' :: rest) => isZone (rest.dropWhile isAsciiDigit)
  | some rest => isZone rest
  | none => false

/-- What is left behind the separator of a date and a time. -/
def afterSeparator? : List Char → Option (List Char)
  | c :: cs =>
    if c == 'T' || c == 't' then some cs
    else if c == ' ' || c == '\t' then some (cs.dropWhile fun c => c == ' ' || c == '\t')
    else none
  | [] => none

/-- A date, or a date and a time. -/
def isTimestamp (cs : List Char) : Bool :=
  let year := cs.takeWhile isAsciiDigit
  year.length == 4 &&
    match do
      let rest ← afterChar? '-' (cs.drop 4)
      let rest ← afterDigits? 1 rest
      let rest ← afterChar? '-' rest
      afterDigits? 1 rest with
    | some [] => cs.length == 10
    | some rest =>
      match afterSeparator? rest with
      | some time => isTime time
      | none => false
    | none => false

/-- An unquoted text that means itself. -/
def meansItself (s : String) : Bool :=
  let cs := s.toList
  !(reservedWords.contains s || isUnsignedInteger (withoutSign cs) ||
    isUnsignedFloat (withoutSign cs) || isBareFloat cs || isTimestamp cs)

end Nanoservice.Yaml
