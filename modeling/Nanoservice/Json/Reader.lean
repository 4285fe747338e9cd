import Nanoservice.Json.Basic
import Nanoservice.Text.Numeral

/-!
# Reading JSON

The reader takes a value off the front of a character list and returns it with what is left. A
fault keeps the characters that were left where it was noticed, so the offset of a fault in the
whole text is a subtraction.

Beyond the standard grammar the words `NaN`, `Infinity` and `-Infinity` are numbers. Of fields with
one key the last value counts, at the place of the first. An integer of more than 4300 digits is a
fault of its own. Whether half of a surrogate pair may stand alone in a text is for the caller to
say: free text from a service may hold one, a persisted document may not.
-/

namespace Nanoservice.Json

open Nanoservice.Decimal (Double)
open Nanoservice.Text (asciiValue? isAsciiDigit valueOfDigits maxIntegerDigits)

/-- Why a text is not read as JSON. -/
inductive Fault where
  /-- The text breaks the grammar where `left` begins. -/
  | malformed (left : List Char)
  /-- An integer has too many digits to be converted. -/
  | longInteger (digits : Nat)
  deriving DecidableEq, Repr

/-- The blanks of the JSON grammar. -/
def isBlank (c : Char) : Bool :=
  c == ' ' || c == '\t' || c == '\n' || c == '\r'

/-- What is left after leading blanks. -/
def skipBlank (cs : List Char) : List Char :=
  cs.dropWhile isBlank

/-- What is left after a word at the front of a list. -/
def afterWord? : List Char → List Char → Option (List Char)
  | [], cs => some cs
  | _ :: _, [] => none
  | w :: ws, c :: cs => if w = c then afterWord? ws cs else none

/-! ## Texts -/

/-- The value of a hexadecimal digit. -/
def hexValue? (c : Char) : Option Nat :=
  if '0' ≤ c ∧ c ≤ '9' then some (c.toNat - 48)
  else if 'a' ≤ c ∧ c ≤ 'f' then some (c.toNat - 87)
  else if 'A' ≤ c ∧ c ≤ 'F' then some (c.toNat - 55)
  else none

/-- The value of four hexadecimal digits. -/
def hexUnit? (a b c d : Char) : Option Nat := do
  let a ← hexValue? a
  let b ← hexValue? b
  let c ← hexValue? c
  let d ← hexValue? d
  pure (((a * 16 + b) * 16 + c) * 16 + d)

/-- The first half of a surrogate pair. -/
def isHighHalf (unit : Nat) : Bool :=
  0xD800 ≤ unit && unit ≤ 0xDBFF

/-- The second half of a surrogate pair. -/
def isLowHalf (unit : Nat) : Bool :=
  0xDC00 ≤ unit && unit ≤ 0xDFFF

/-- The symbol of a single sixteen-bit unit. -/
def unitSymbol (unit : Nat) : Symbol :=
  if h : 0xD800 ≤ unit ∧ unit ≤ 0xDFFF then .half ⟨unit, h⟩ else .char (Char.ofNat unit)

/-- The character of a surrogate pair. -/
def pairChar (high low : Nat) : Char :=
  Char.ofNat (0x10000 + (high - 0xD800) * 0x400 + (low - 0xDC00))

/-- The character that a one-letter escape stands for. -/
def escapeChar? (c : Char) : Option Char :=
  match c with
  | '"' => some '"'
  | '\\' => some '\\'
  | '/' => some '/'
  | 'b' => some '\x08'
  | 'f' => some '\x0c'
  | 'n' => some '\n'
  | 'r' => some '\r'
  | 't' => some '\t'
  | _ => none

/-- What comes next inside a text: its closing quote or a symbol. -/
inductive Piece where
  | close
  | symbol (s : Symbol)
  deriving DecidableEq, Repr

/-- Reads a four-digit unit and, after a first half, the second half that may follow. The list
`left` begins at the mark of the escape and `more` behind it. An escape of the fourth digit at the
end of the whole text is refused, as no closing quote can follow. -/
def readUnit (pairsOnly : Bool) (left more : List Char) : Except Fault (Piece × List Char) :=
  match more with
  | a :: b :: c :: d :: next :: tail =>
    match hexUnit? a b c d with
    | none => .error (.malformed left)
    | some unit =>
      let alone : Except Fault (Piece × List Char) :=
        if pairsOnly && (isHighHalf unit || isLowHalf unit) then .error (.malformed left)
        else .ok (.symbol (unitSymbol unit), next :: tail)
      if isHighHalf unit then
        match next :: tail with
        | '\\' :: 'u' :: e :: f :: g :: h :: after :: rest =>
          match hexUnit? e f g h with
          | none => .error (.malformed tail)
          | some low =>
            if isLowHalf low then .ok (.symbol (.char (pairChar unit low)), after :: rest)
            else alone
        | _ => alone
      else alone
  | _ => .error (.malformed left)

/-- Reads the next piece of a text whose opening quote is the first character of `opening`. -/
def readPiece (pairsOnly : Bool) (opening : List Char) :
    List Char → Except Fault (Piece × List Char)
  | [] => .error (.malformed opening)
  | '"' :: rest => .ok (.close, rest)
  | '\\' :: [] => .error (.malformed opening)
  | '\\' :: 'u' :: more => readUnit pairsOnly ('u' :: more) more
  | '\\' :: c :: rest =>
    match escapeChar? c with
    | some e => .ok (.symbol (.char e), rest)
    | none => .error (.malformed ('\\' :: c :: rest))
  | c :: rest =>
    if c.toNat < 0x20 then .error (.malformed (c :: rest)) else .ok (.symbol (.char c), rest)

/-- Reads the symbols of a text up to its closing quote; `fuel` bounds their number. -/
def readSymbols (pairsOnly : Bool) (opening : List Char) :
    Nat → List Char → Except Fault (List Symbol × List Char)
  | 0, cs => .error (.malformed cs)
  | fuel + 1, cs =>
    match readPiece pairsOnly opening cs with
    | .error e => .error e
    | .ok (.close, rest) => .ok ([], rest)
    | .ok (.symbol s, rest) =>
      match readSymbols pairsOnly opening fuel rest with
      | .error e => .error e
      | .ok (ss, rest') => .ok (s :: ss, rest')

/-! ## Numbers -/

/-- The fraction digits behind a point that has at least one, and what is left. -/
def takeFraction : List Char → List Char × List Char
  | '.' :: c :: cs =>
    if isAsciiDigit c then (c :: cs.takeWhile isAsciiDigit, cs.dropWhile isAsciiDigit)
    else ([], '.' :: c :: cs)
  | cs => ([], cs)

/-- The exponent behind its mark, if it has at least one digit, and what is left. -/
def takeExponent : List Char → Option Int × List Char
  | [] => (none, [])
  | c :: cs =>
    if c == 'e' || c == 'E' then
      let (negative, ds) := Text.takeSign cs
      if (ds.takeWhile isAsciiDigit).isEmpty then (none, c :: cs)
      else
        (some (Text.signedInt negative
          (valueOfDigits ((ds.takeWhile isAsciiDigit).filterMap asciiValue?))),
         ds.dropWhile isAsciiDigit)
    else (none, c :: cs)

/-- The digits of the integer part: a single zero, or digits that start with another one. -/
def takeWhole : List Char → Option (List Char × List Char)
  | '0' :: cs => some (['0'], cs)
  | c :: cs =>
    if isAsciiDigit c then some (c :: cs.takeWhile isAsciiDigit, cs.dropWhile isAsciiDigit)
    else none
  | [] => none

/-- Reads a number; `left` begins at its sign and `cs` behind the sign. -/
def readNumber (left : List Char) (negative : Bool) (cs : List Char) :
    Except Fault (Json × List Char) :=
  match takeWhole cs with
  | none => .error (.malformed left)
  | some (whole, afterWhole) =>
    let (part, afterPart) := takeFraction afterWhole
    let (exponent, rest) := takeExponent afterPart
    if part.isEmpty && exponent.isNone then
      if maxIntegerDigits < whole.length then .error (.longInteger whole.length)
      else .ok (.int (Text.signedInt negative (valueOfDigits (whole.filterMap asciiValue?))), rest)
    else
      let digits := valueOfDigits ((whole ++ part).filterMap asciiValue?)
      .ok (.float (.ofDecimal negative digits (exponent.getD 0 - part.length)), rest)

/-- The words that stand for values. -/
def words : List (String × Json) :=
  [("null", .null), ("true", .bool true), ("false", .bool false), ("NaN", .float .nan),
   ("Infinity", .float (.infinity false)), ("-Infinity", .float (.infinity true))]

/-- Reads a word or a number. -/
def readScalar (cs : List Char) : Except Fault (Json × List Char) :=
  match words.findSome? fun w => (afterWord? w.1.toList cs).map fun rest => (w.2, rest) with
  | some found => .ok found
  | none =>
    match cs with
    | '-' :: rest => readNumber cs true rest
    | _ => readNumber cs false cs

/-! ## Values -/

mutual
/-- Reads a value off the front of a list that starts with no blank. -/
def readValue (pairsOnly : Bool) : Nat → List Char → Except Fault (Json × List Char)
  | 0, cs => .error (.malformed cs)
  | fuel + 1, cs =>
    match cs with
    | '"' :: rest =>
      match readSymbols pairsOnly cs fuel rest with
      | .error e => .error e
      | .ok (symbols, rest') => .ok (ofText (.ofSymbols symbols), rest')
    | '{' :: rest =>
      match skipBlank rest with
      | '}' :: rest' => .ok (.obj [], rest')
      | rest' =>
        match readFields pairsOnly fuel [] rest' with
        | .error e => .error e
        | .ok (fs, rest'') => .ok (.obj fs, rest'')
    | '[' :: rest =>
      match skipBlank rest with
      | ']' :: rest' => .ok (.arr [], rest')
      | rest' =>
        match readItems pairsOnly fuel rest' with
        | .error e => .error e
        | .ok (vs, rest'') => .ok (.arr vs, rest'')
    | _ => readScalar cs

/-- Reads the items of an array that is not empty, from its first item on. -/
def readItems (pairsOnly : Bool) : Nat → List Char → Except Fault (List Json × List Char)
  | 0, cs => .error (.malformed cs)
  | fuel + 1, cs =>
    match readValue pairsOnly fuel cs with
    | .error e => .error e
    | .ok (v, rest) =>
      match skipBlank rest with
      | ']' :: rest' => .ok ([v], rest')
      | ',' :: rest' =>
        match readItems pairsOnly fuel (skipBlank rest') with
        | .error e => .error e
        | .ok (vs, rest'') => .ok (v :: vs, rest'')
      | rest' => .error (.malformed rest')

/-- Reads the fields of an object that is not empty, from its first key on, into those read. -/
def readFields (pairsOnly : Bool) :
    Nat → List (RawText × Json) → List Char → Except Fault (List (RawText × Json) × List Char)
  | 0, _, cs => .error (.malformed cs)
  | fuel + 1, fs, cs =>
    match cs with
    | '"' :: rest =>
      match readSymbols pairsOnly cs fuel rest with
      | .error e => .error e
      | .ok (symbols, rest1) =>
        match skipBlank rest1 with
        | ':' :: rest2 =>
          match readValue pairsOnly fuel (skipBlank rest2) with
          | .error e => .error e
          | .ok (v, rest3) =>
            let fs' := Table.put (RawText.ofSymbols symbols) v fs
            match skipBlank rest3 with
            | '}' :: rest4 => .ok (fs', rest4)
            | ',' :: rest4 => readFields pairsOnly fuel fs' (skipBlank rest4)
            | rest4 => .error (.malformed rest4)
        | rest2 => .error (.malformed rest2)
    | _ => .error (.malformed cs)
end

/-- Enough steps to read any value from a list. -/
def readFuel (cs : List Char) : Nat :=
  2 * cs.length + 2

/-- Reads a whole text as one value with blanks around it. -/
def readChars (pairsOnly : Bool) (cs : List Char) : Except Fault Json :=
  match readValue pairsOnly (readFuel cs) (skipBlank cs) with
  | .error e => .error e
  | .ok (v, rest) =>
    match skipBlank rest with
    | [] => .ok v
    | rest' => .error (.malformed rest')

/-- Reads free text, in which half of a surrogate pair may stand alone. -/
def read (s : String) : Except Fault Json :=
  readChars false s.toList

/-- Reads a document that must be a sequence of characters throughout. -/
def readStrict (s : String) : Except Fault Json :=
  readChars true s.toList

/-- The offset of a fault in the text that was read. -/
def Fault.offset (s : String) : Fault → Nat
  | .malformed left => s.toList.length - left.length
  | .longInteger _ => 0

end Nanoservice.Json
