import Nanoservice.Decimal.Layout
import Nanoservice.Json.Basic
import Nanoservice.Text.Numeral
import Nanoservice.Text.Printable

/-!
# Source literals

Texts and values as literals of the source language of generated services. A text stands between
single quotes, or between double quotes when it holds a single quote and no double one. A
backslash, the quote itself and the line and tab controls have short escapes; any other character
that is not printable is escaped by its code point, so a literal never spans two lines.
-/

namespace Nanoservice.Literal

open Nanoservice.Decimal (Layout)

/-- `width` lower-case hexadecimal digits of a number. -/
def hexDigits (width n : Nat) : List Char :=
  let ds := Nat.toDigits 16 n
  List.replicate (width - ds.length) '0' ++ ds

/-- The escape of a code point, as short as its size allows. -/
def codeEscape (n : Nat) : List Char :=
  if n < 0x100 then '\\' :: 'x' :: hexDigits 2 n
  else if n < 0x10000 then '\\' :: 'u' :: hexDigits 4 n
  else '\\' :: 'U' :: hexDigits 8 n

/-- The form of a character in a literal between quotes of the given kind. -/
def charForm (quote c : Char) : List Char :=
  if c = quote ∨ c = '\\' then ['\\', c]
  else if c = '\t' then ['\\', 't']
  else if c = '\n' then ['\\', 'n']
  else if c = '\r' then ['\\', 'r']
  else if Text.isPrintable c then [c]
  else codeEscape c.toNat

/-- The form of a symbol in a literal between quotes of the given kind. -/
def symbolForm (quote : Char) : Symbol → List Char
  | .char c => charForm quote c
  | .half s => codeEscape s.unit

/-- The kind of quotes for a text: double ones for a text with single quotes only. -/
def quoteFor (cs : List Char) : Char :=
  if cs.contains '\'' && !cs.contains '"' then '"' else '\''

/-- The characters of a text as a literal. -/
def quoteChars (cs : List Char) : List Char :=
  let q := quoteFor cs
  q :: (cs.flatMap (charForm q) ++ [q])

/-- A text as a literal. -/
def quote (s : String) : String :=
  String.ofList (quoteChars s.toList)

/-- A broken text as a literal. -/
def brokenChars (symbols : List Symbol) : List Char :=
  let q := quoteFor (symbols.filterMap Symbol.char?)
  q :: (symbols.flatMap (symbolForm q) ++ [q])

/-- The characters of a raw text as a literal. -/
def rawChars : RawText → List Char
  | .plain s => quoteChars s.toList
  | .broken symbols => brokenChars symbols

/-- A raw text as a literal. -/
def quoteRaw (t : RawText) : String :=
  String.ofList (rawChars t)

/-- Numbers in literals: an exponent from `1e+16` on and below `0.0001`. -/
def number : Layout :=
  ⟨-3, 16, 2, false, "nan", "inf", "-inf"⟩

mutual
/-- A value as a literal. -/
def valueChars : Json → List Char
  | .null => ['N', 'o', 'n', 'e']
  | .bool true => ['T', 'r', 'u', 'e']
  | .bool false => ['F', 'a', 'l', 's', 'e']
  | .int n => Text.intChars n
  | .float x => number.write x
  | .str s => quoteChars s.toList
  | .broken symbols => brokenChars symbols
  | .arr [] => ['[', ']']
  | .arr (v :: vs) => '[' :: (valueChars v ++ itemsChars vs ++ [']'])
  | .obj [] => ['{', '}']
  | .obj ((k, v) :: fs) =>
    '{' :: (rawChars k ++ [':', ' '] ++ valueChars v ++ fieldsChars fs ++ ['}'])

/-- The items of an array behind the first one, as literals. -/
def itemsChars : List Json → List Char
  | [] => []
  | v :: vs => ',' :: ' ' :: (valueChars v ++ itemsChars vs)

/-- The fields of an object behind the first one, as literals. -/
def fieldsChars : List (RawText × Json) → List Char
  | [] => []
  | (k, v) :: fs =>
    ',' :: ' ' :: (rawChars k ++ [':', ' '] ++ valueChars v ++ fieldsChars fs)
end

/-- A value as a literal. -/
def ofJson (v : Json) : String :=
  String.ofList (valueChars v)

/-- A value inside a message: a text as it is, any other value as a literal. -/
def shown (v : Json) : RawText :=
  v.rawText?.getD (ofJson v)

end Nanoservice.Literal
