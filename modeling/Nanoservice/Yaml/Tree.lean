import Nanoservice.Json.Writer
import Nanoservice.Yaml.Scalar

/-!
# YAML documents

A YAML document in block style. Entries of a map and items of a list have lines of their own; a
list in a map is not indented, and a map or list that is empty is written in brackets. A key that
is empty, multi-line or long has a line of its own, marked by `?`. A node that occurs more than
once is written at its first place, with an anchor, and named elsewhere.
-/

namespace Nanoservice.Yaml

open Nanoservice.Decimal (Double Layout)

/-- A document or a part of one. -/
inductive Tree where
  /-- A value other than a text, in its unquoted form. -/
  | literal (chars : List Char)
  | text (s : String)
  /-- A text with halves of surrogate pairs. -/
  | broken (symbols : List Symbol)
  | list (items : List Tree)
  | map (entries : List (RawText × Tree))
  /-- A map that other places name. -/
  | anchored (anchor : String) (entries : List (RawText × Tree))
  /-- The node with an anchor. -/
  | named (anchor : String)
  deriving Inhabited

/-! ## From JSON values -/

/-- Numbers in YAML: an exponent needs a point in front. -/
def number : Layout :=
  ⟨-3, 16, 2, true, ".nan", ".inf", "-.inf"⟩

mutual
/-- The node of a JSON value. -/
def Tree.ofJson : Json → Tree
  | .null => .literal ['n', 'u', 'l', 'l']
  | .bool true => .literal ['t', 'r', 'u', 'e']
  | .bool false => .literal ['f', 'a', 'l', 's', 'e']
  | .int n => .literal (Text.intChars n)
  | .float x => .literal (number.write x)
  | .str s => .text s
  | .broken symbols => .broken symbols
  | .arr vs => .list (Tree.ofItems vs)
  | .obj fs => .map (Tree.ofFields fs)

/-- The nodes of array items. -/
def Tree.ofItems : List Json → List Tree
  | [] => []
  | v :: vs => Tree.ofJson v :: Tree.ofItems vs

/-- The entries of object fields. -/
def Tree.ofFields : List (RawText × Json) → List (RawText × Tree)
  | [] => []
  | (k, v) :: fs => (k, Tree.ofJson v) :: Tree.ofFields fs
end

/-! ## Lines -/

/-- The length that a key on its value's line may have. -/
def maxKeyLength : Nat := 122

/-- A key that stands on the line of its value. -/
def isShortKey (key : RawText) : Bool :=
  !key.isEmpty && !isMultiline key.shown.toList && key.shown.length ≤ maxKeyLength

/-- The scalar of a raw text at a place; one that is broken stands in double quotes. -/
def rawScalar (isKey : Bool) (place : Place) : RawText → List Char
  | .plain s => scalar isKey place s
  | .broken symbols => doubleQuoted place symbols

/-- The lines in front of a nested node: none where it starts on the marker's line, and otherwise a
new line at its indentation. -/
def opening (compact : Bool) (indent : Nat) : List Char :=
  if compact then [' '] else newLine indent

/-- A key up to and with its colon, and how its value follows. -/
structure KeyPart where
  chars : List Char
  /-- Whether a nested map or list may start on the colon's line. -/
  compact : Bool
  /-- The column behind the colon. -/
  column : Nat

/-- The part of an entry that its key makes up, from the entry's indentation on. -/
def keyPart (indent : Nat) (key : RawText) : KeyPart :=
  if isShortKey key then
    let chars := rawScalar true ⟨indent, indent + 2, false⟩ key
    ⟨chars ++ [':'], false, indent + chars.length + 1⟩
  else
    ⟨'?' :: ' ' :: (rawScalar false ⟨indent + 2, indent + 2, true⟩ key ++ newLine indent ++ [':']),
      true, indent + 1⟩

mutual
/-- A node behind a marker that ends at `column`. `indent` is the indentation of the map or list
that holds the marker; a compact marker lets nested maps and lists start on its line. -/
def writeNode (compact : Bool) (indent column : Nat) : Tree → List Char
  | .literal cs => ' ' :: cs
  | .text s => ' ' :: scalar false ⟨column + 1, indent + 2, true⟩ s
  | .broken symbols => ' ' :: doubleQuoted ⟨column + 1, indent + 2, true⟩ symbols
  | .list [] => [' ', '[', ']']
  | .list (v :: vs) =>
    let nested := if compact then indent + 2 else indent
    opening compact nested ++ '-' :: (writeNode true nested (nested + 1) v ++
      writeItems nested vs)
  | .map [] => [' ', '\x7b', '\x7d']
  | .map ((k, v) :: es) =>
    let key := keyPart (indent + 2) k
    opening compact (indent + 2) ++ key.chars ++
      writeNode key.compact (indent + 2) key.column v ++ writeEntries (indent + 2) es
  | .anchored a [] => ' ' :: '&' :: (a.toList ++ [' ', '\x7b', '\x7d'])
  | .anchored a ((k, v) :: es) =>
    let key := keyPart (indent + 2) k
    ' ' :: '&' :: (a.toList ++ newLine (indent + 2) ++ key.chars ++
      writeNode key.compact (indent + 2) key.column v ++ writeEntries (indent + 2) es)
  | .named a => ' ' :: '*' :: a.toList

/-- The items of a list behind the first one. -/
def writeItems (indent : Nat) : List Tree → List Char
  | [] => []
  | v :: vs =>
    newLine indent ++ '-' :: (writeNode true indent (indent + 1) v ++ writeItems indent vs)

/-- The entries of a map behind the first one. -/
def writeEntries (indent : Nat) : List (RawText × Tree) → List Char
  | [] => []
  | (k, v) :: es =>
    let key := keyPart indent k
    newLine indent ++ key.chars ++ writeNode key.compact indent key.column v ++
      writeEntries indent es
end

/-- The text of a document whose root is a map. -/
def document (entries : List (RawText × Tree)) : String :=
  match entries with
  | [] => "\x7b\x7d\n"
  | _ => String.ofList ((writeEntries 0 entries).drop 1 ++ ['\n'])

end Nanoservice.Yaml
