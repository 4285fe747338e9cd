import Nanoservice.Decimal.Layout
import Nanoservice.Json.Basic
import Nanoservice.Text.Numeral

/-!
# Writing JSON

One writer serves every JSON text of the library; a `Style` gathers what differs between them.
Characters are escaped one by one, so a written text is the concatenation of the forms of its
symbols.
-/

namespace Nanoservice.Json

open Nanoservice.Decimal (Double Layout)

/-- The decisions of a JSON text. -/
structure Style where
  /-- Whether every character outside ASCII is escaped. -/
  asciiOnly : Bool
  /-- The number of blanks per level when values are spread over lines. -/
  indent : Option Nat
  /-- What stands between items on one line. -/
  comma : String
  /-- What stands between a key and its value. -/
  colon : String
  number : Layout

/-- A lower-case hexadecimal digit. -/
def hexDigit (n : Nat) : Char :=
  if n < 10 then Char.ofNat (48 + n) else Char.ofNat (87 + n)

/-- The escape of a sixteen-bit unit. -/
def unitEscape (n : Nat) : List Char :=
  ['\\', 'u', hexDigit (n / 4096 % 16), hexDigit (n / 256 % 16), hexDigit (n / 16 % 16),
    hexDigit (n % 16)]

/-- The written form of a character inside a text. -/
def charForm (asciiOnly : Bool) (c : Char) : List Char :=
  if c = '"' then ['\\', '"']
  else if c = '\\' then ['\\', '\\']
  else if c = '\n' then ['\\', 'n']
  else if c = '\r' then ['\\', 'r']
  else if c = '\t' then ['\\', 't']
  else if c = '\x08' then ['\\', 'b']
  else if c = '\x0c' then ['\\', 'f']
  else if c.toNat < 0x20 then unitEscape c.toNat
  else if asciiOnly ∧ 0x10000 ≤ c.toNat then
    let n := c.toNat - 0x10000
    unitEscape (0xD800 + n / 0x400) ++ unitEscape (0xDC00 + n % 0x400)
  else if asciiOnly ∧ 0x7F ≤ c.toNat then unitEscape c.toNat
  else [c]

/-- The written form of a symbol inside a text. -/
def symbolForm (asciiOnly : Bool) : Symbol → List Char
  | .char c => charForm asciiOnly c
  | .half s => unitEscape s.unit

/-- A text between quotes. -/
def writeText (asciiOnly : Bool) : RawText → List Char
  | .plain s => '"' :: (s.toList.flatMap (charForm asciiOnly) ++ ['"'])
  | .broken symbols => '"' :: (symbols.flatMap (symbolForm asciiOnly) ++ ['"'])

/-- A line break with the indentation of a level, or nothing on one line. -/
def lineBreak (style : Style) (level : Nat) : List Char :=
  match style.indent with
  | none => []
  | some width => '\n' :: List.replicate (width * level) ' '

/-- What stands between two items of a level. -/
def separator (style : Style) (level : Nat) : List Char :=
  match style.indent with
  | none => style.comma.toList
  | some _ => ',' :: lineBreak style level

mutual
/-- The written form of a value that stands at a level. -/
def writeChars (style : Style) (level : Nat) : Json → List Char
  | .null => ['n', 'u', 'l', 'l']
  | .bool true => ['t', 'r', 'u', 'e']
  | .bool false => ['f', 'a', 'l', 's', 'e']
  | .int n => Text.intChars n
  | .float x => style.number.write x
  | .str s => writeText style.asciiOnly s
  | .broken symbols => writeText style.asciiOnly (.broken symbols)
  | .arr [] => ['[', ']']
  | .arr (v :: vs) =>
    '[' :: (lineBreak style (level + 1) ++ writeChars style (level + 1) v ++
      writeItems style (level + 1) vs ++ lineBreak style level ++ [']'])
  | .obj [] => ['{', '}']
  | .obj ((k, v) :: fs) =>
    '{' :: (lineBreak style (level + 1) ++ writeText style.asciiOnly k ++ style.colon.toList ++
      writeChars style (level + 1) v ++ writeFields style (level + 1) fs ++
      lineBreak style level ++ ['}'])

/-- The items of an array behind the first one. -/
def writeItems (style : Style) (level : Nat) : List Json → List Char
  | [] => []
  | v :: vs => separator style level ++ writeChars style level v ++ writeItems style level vs

/-- The fields of an object behind the first one. -/
def writeFields (style : Style) (level : Nat) : List (RawText × Json) → List Char
  | [] => []
  | (k, v) :: fs =>
    separator style level ++ writeText style.asciiOnly k ++ style.colon.toList ++
      writeChars style level v ++ writeFields style level fs
end

/-- The text of a value. -/
def write (style : Style) (v : Json) : String :=
  String.ofList (writeChars style 0 v)

/-! ## The styles in use -/

/-- Numbers as programs write them: an exponent from `1e+16` on and below `0.0001`, with at least
two digits; the special numbers by their names. -/
def plainNumber : Layout :=
  ⟨-3, 16, 2, false, "NaN", "Infinity", "-Infinity"⟩

/-- Numbers of a persisted model: an exponent from `1e+16` on and below `0.00001`, without padding;
a special number is written as null. -/
def modelNumber : Layout :=
  ⟨-4, 16, 1, false, "null", "null", "null"⟩

/-- ASCII text on one line with a blank behind commas and colons. -/
def Style.line : Style := ⟨true, none, ", ", ": ", plainNumber⟩

/-- ASCII text spread over lines. -/
def Style.spread (indent : Nat) : Style := ⟨true, some indent, ", ", ": ", plainNumber⟩

/-- The text of a persisted model: every character as it is but for the escapes that the grammar
asks for, spread over lines when an indentation is given. -/
def Style.model (indent : Option Nat) : Style :=
  ⟨false, indent, ",", if indent.isSome then ": " else ":", modelNumber⟩

end Nanoservice.Json
