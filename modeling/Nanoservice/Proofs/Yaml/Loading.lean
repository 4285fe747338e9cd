import Nanoservice.Json.Reader
import Nanoservice.Proofs.Literal
import Nanoservice.Table
import Nanoservice.Yaml.Scalar

/-!
# Loading YAML

A loader of YAML 1.1 documents in block style: maps and lists by indentation, texts unquoted and in
both kinds of quotes, folded lines, anchors and aliases, and the types that unquoted texts stand
for. It is a part of what a safe loader takes, and it refuses the rest: comments, tags, directives,
literal blocks, maps and lists in brackets other than empty ones, nodes that are left out, keys that
are no texts, and every character that must be escaped and is not. What it gives is what a safe
loader gives.

Two rules are easily missed. A line break that ends a line of a scalar is a blank for a reader,
unless more of them follow, and the next-line character ends a line just as the line feed does
(`Gap.chars`). And a key on the line of its colon ends within 1024 characters (`readShortKey?`).
-/

namespace Nanoservice.Yaml

open Nanoservice.Text (isAsciiDigit asciiValue? valueOfDigits)

/-! ## Gaps -/

/-- What stands between two words or tokens. -/
inductive Gap where
  | empty
  | blanks (count : Nat)
  /-- Line breaks and blanks: the first break, unless a backslash takes it away, the breaks that
  follow, and the number of blanks behind the last one. -/
  | lines (first : Option Char) (more : List Char) (column : Nat)
  deriving DecidableEq, Repr

/-- A character of gaps. -/
def isGapChar (c : Char) : Bool :=
  c == ' ' || isBreak c

/-- The character that a line break stands for. -/
def breakChar (c : Char) : Char :=
  if c == '\u2028' || c == '\u2029' then c else '\n'

namespace Gap

/-- A gap with one more character. -/
def push (g : Gap) (c : Char) : Gap :=
  match g with
  | .empty => if isBreak c then .lines (some (breakChar c)) [] 0 else .blanks 1
  | .blanks n => if isBreak c then .lines (some (breakChar c)) [] 0 else .blanks (n + 1)
  | .lines first more column =>
    if isBreak c then .lines first (more ++ [breakChar c]) 0 else .lines first more (column + 1)

/-- What a gap inside a scalar stands for: blanks for themselves, a line feed for a blank, if it is
the only break, and otherwise the line breaks behind the first line feed for themselves. -/
def chars : Gap → List Char
  | .empty => []
  | .blanks n => List.replicate n ' '
  | .lines none more _ => more
  | .lines (some c) more _ =>
    if c == '\n' then (if more.isEmpty then [' '] else more) else c :: more

/-- The gap leads to a line that starts in front of a column. -/
def isOutside (least : Nat) : Gap → Bool
  | .lines _ _ column => column < least
  | _ => false

/-- The column and the text behind a gap that leads to a new line or to the end of the text. -/
def next? (g : Gap) (rest : List Char) : Option (Nat × List Char) :=
  match g with
  | .lines _ _ column => some (column, rest)
  | _ => if rest.isEmpty then some (0, []) else none

end Gap

/-- The gap at the front of a text, and what is left. -/
def takeGap (cs : List Char) : Gap × List Char :=
  ((cs.takeWhile isGapChar).foldl Gap.push .empty, cs.dropWhile isGapChar)

/-! ## Quoted scalars -/

/-- The text starts with a marker between documents. -/
def isMarker (cs : List Char) : Bool :=
  (['-', '-', '-'].isPrefixOf cs || ['.', '.', '.'].isPrefixOf cs) && endsWord (cs.drop 3)

/-- Puts a gap and more symbols in front of those that were read. -/
def behind (gap : Gap) (symbols : List Symbol) (r : Option (List Symbol × List Char)) :
    Option (List Symbol × List Char) :=
  r.map fun (more, rest) => (gap.chars.map .char ++ symbols ++ more, rest)

/-- Reads single quotes up to the closing one; `gap` was read last. -/
def readSingle (gap : Gap) : List Char → Option (List Symbol × List Char)
  | [] => none
  | c :: cs =>
    if isGapChar c then
      if isBreak c && isMarker cs then none else readSingle (gap.push c) cs
    else if c == '\'' then
      match cs with
      | '\'' :: cs => behind gap [.char '\''] (readSingle .empty cs)
      | cs => some (gap.chars.map .char, cs)
    else if isPlainChar c then behind gap [.char c] (readSingle .empty cs)
    else none

/-- The characters that the one-letter escapes of double quotes stand for. -/
def escapeMeanings : List (Char × Char) :=
  [('0', '\x00'), ('a', '\x07'), ('b', '\x08'), ('t', '\t'), ('n', '\n'), ('v', '\x0b'),
    ('f', '\x0c'), ('r', '\r'), ('e', '\x1b'), (' ', ' '), ('"', '"'), ('\\', '\\'), ('/', '/'),
    ('N', '\u0085'), ('_', '\u00a0'), ('L', '\u2028'), ('P', '\u2029')]

/-- Where the reading of double quotes stands. -/
inductive DoubleState where
  /-- Behind a gap. -/
  | text (gap : Gap)
  /-- Behind a backslash. -/
  | escape
  /-- In front of a digit of a code point, behind which `left` more digits follow. -/
  | code (left value : Nat)

/-- Reads double quotes up to the closing one. -/
def readDouble : DoubleState → List Char → Option (List Symbol × List Char)
  | _, [] => none
  | .text gap, c :: cs =>
    if isGapChar c then
      if isBreak c && isMarker cs then none else readDouble (.text (gap.push c)) cs
    else if c == '"' then some (gap.chars.map .char, cs)
    else if c == '\\' then behind gap [] (readDouble .escape cs)
    else if isPlainChar c then behind gap [.char c] (readDouble (.text .empty) cs)
    else none
  | .escape, c :: cs =>
    if isBreak c then
      if isMarker cs then none else readDouble (.text (.lines none [] 0)) cs
    else match escapeMeanings.lookup c with
      | some d => behind .empty [.char d] (readDouble (.text .empty) cs)
      | none =>
        match Literal.digitCount? c with
        | some n => readDouble (.code (n - 1) 0) cs
        | none => none
  | .code left value, c :: cs =>
    match Json.hexValue? c with
    | none => none
    | some d =>
      match left with
      | left + 1 => readDouble (.code left (16 * value + d)) cs
      | 0 =>
        if 16 * value + d < 0x110000 then
          behind .empty [Json.unitSymbol (16 * value + d)] (readDouble (.text .empty) cs)
        else none

/-! ## Unquoted scalars -/

/-- Reads an unquoted text whose lines start at column `least` at the earliest: the text, the gap
behind it, and what is left. `gap` was read last. -/
def readPlain (least : Nat) (gap : Gap) : List Char → List Char × Gap × List Char
  | [] => ([], gap, [])
  | c :: cs =>
    if isGapChar c then readPlain least (gap.push c) cs
    else if gap.isOutside least || (c == '#' && gap != .empty) || (c == ':' && endsWord cs) ||
        !isPlainChar c then
      ([], gap, c :: cs)
    else
      let (text, after) := readPlain least .empty cs
      (gap.chars ++ c :: text, after)

/-- An unquoted text can start here. -/
def startsPlain : List Char → Bool
  | [] => false
  | c :: cs =>
    isPlainChar c && !isSeparator c && !leadingIndicators.contains c &&
      !((c == '-' || c == '?' || c == ':') && endsWord cs) &&
      !(['-', '-', '-'].isPrefixOf (c :: cs)) && !(['.', '.', '.'].isPrefixOf (c :: cs))

/-- The number that an unquoted text stands for: a decimal integer of no more digits than are
converted, or a decimal fraction. -/
def resolveNumber? (cs : List Char) : Option Json :=
  let (negative, ds) := Text.takeSign cs
  if isRun isAsciiDigit ds && (ds.head? != some '0' || ds.length == 1) then
    if ds.length ≤ Text.maxIntegerDigits then
      some (.int (Text.signedInt negative (valueOfDigits (ds.filterMap asciiValue?))))
    else none
  else if ['.', 'i', 'n', 'f'] == ds then some (.float (.infinity negative))
  else if ['.', 'n', 'a', 'n'] == cs then some (.float .nan)
  else if isUnsignedFloat ds && ds.all fun c => isAsciiDigit c || ['.', 'e', '+', '-'].contains c
  then
    (Text.signedFraction? cs).map .float
  else none

/-- What an unquoted text stands for. -/
def resolve (cs : List Char) : Option Json :=
  let s := String.ofList cs
  if meansItself s then some (.str s)
  else if ["null", "Null", "NULL", "~"].contains s then some .null
  else if ["true", "True", "TRUE", "yes", "Yes", "YES", "on", "On", "ON"].contains s then
    some (.bool true)
  else if ["false", "False", "FALSE", "no", "No", "NO", "off", "Off", "OFF"].contains s then
    some (.bool false)
  else resolveNumber? cs

/-! ## Scalars and keys -/

/-- Reads a scalar: what it stands for, the gap behind it, and what is left. -/
def readScalar (least : Nat) (cs : List Char) : Option (Json × Gap × List Char) :=
  match cs with
  | '\'' :: cs =>
    (readSingle .empty cs).map fun (text, rest) => (.ofText (.ofSymbols text), takeGap rest)
  | '"' :: cs =>
    (readDouble (.text .empty) cs).map fun (text, rest) => (.ofText (.ofSymbols text), takeGap rest)
  | cs =>
    if startsPlain cs then
      let (text, after) := readPlain least .empty cs
      (resolve text).map fun v => (v, after)
    else none

/-- How many characters a key may take up in front of its colon. -/
def keyLimit : Nat := 1024

/-- Reads a key on the line of its colon; what is left is behind the colon. -/
def readShortKey? (column : Nat) (cs : List Char) : Option (RawText × List Char) :=
  match readScalar (column + 1) cs with
  | some (v, _, ':' :: rest) =>
    let form := cs.take (cs.length - (rest.length + 1))
    if endsWord rest && form.length ≤ keyLimit && !form.any isBreak then
      v.rawText?.map fun key => (key, rest)
    else none
  | _ => none

/-- Reads a key behind its mark, with the colon on a line of its own. -/
def readLongKey? (column : Nat) (cs : List Char) : Option (RawText × List Char) :=
  match takeGap cs with
  | (.blanks _, cs) =>
    match readScalar (column + 1) cs with
    | some (v, .lines _ _ k, ':' :: rest) =>
      if k == column && endsWord rest then v.rawText?.map fun key => (key, rest) else none
    | _ => none
  | _ => none

/-- A mark starts here that has the end of a word behind it. -/
def isMark (mark : Char) : List Char → Bool
  | [] => false
  | c :: cs => c == mark && endsWord cs

/-- Reads a key of a map in some column, and whether it has a mark. -/
def readKey? (column : Nat) (cs : List Char) : Option (RawText × Bool × List Char) :=
  if isMark '?' cs then (readLongKey? column (cs.drop 1)).map fun (key, rest) => (key, true, rest)
  else (readShortKey? column cs).map fun (key, rest) => (key, false, rest)

/-! ## Nodes -/

/-- The nodes with anchors so far, the latest first. -/
abbrev Anchors := List (String × Json)

/-- A character of the name of an anchor. -/
def isNameChar (c : Char) : Bool :=
  isAsciiDigit c || ('a' ≤ c && c ≤ 'z') || ('A' ≤ c && c ≤ 'Z') || c == '-' || c == '_'

mutual
/-- Reads the node behind a marker of a map or a list in column `parent`: its value, and the column
and the text of the next token. Behind a colon a list may stand in the column of the map (`inMap`);
where the marker is a dash, a question mark or the colon of a key with a mark, maps and lists may
start on its line (`inline`). -/
def readNode (fuel : Nat) (inMap inline : Bool) (parent : Nat) (anchors : Anchors)
    (cs : List Char) : Option (Json × Anchors × Nat × List Char) :=
  match fuel with
  | 0 => none
  | fuel + 1 =>
    match takeGap cs with
    | (.empty, _) => none
    | (.lines _ _ column, rest) =>
      if isMark '-' rest then
        if parent < column || (inMap && column == parent) then
          (readItems fuel (column == parent) column anchors rest).map fun (vs, more) =>
            (.arr vs, more)
        else none
      else if parent < column then
        (readEntries fuel column anchors rest).map fun (fs, more) =>
          (.obj (Table.ofLast fs), more)
      else none
    | (.blanks n, rest) =>
      match rest with
      | '&' :: cs =>
        let name := String.ofList (cs.takeWhile isNameChar)
        let cs := cs.dropWhile isNameChar
        if (takeGap cs).2.head?.any ['&', '*'].contains then none
        else match readNode fuel inMap false parent anchors cs with
          | some (v, anchors, next) =>
            if name.isEmpty || (anchors.lookup name).isSome then none
            else some (v, (name, v) :: anchors, next)
          | none => none
      | '*' :: cs =>
        match anchors.lookup (String.ofList (cs.takeWhile isNameChar)) with
        | some v =>
          let (gap, rest) := takeGap (cs.dropWhile isNameChar)
          (gap.next? rest).map fun next => (v, anchors, next)
        | none => none
      | '[' :: ']' :: cs =>
        let (gap, rest) := takeGap cs
        (gap.next? rest).map fun next => (.arr [], anchors, next)
      | '\x7b' :: '\x7d' :: cs =>
        let (gap, rest) := takeGap cs
        (gap.next? rest).map fun next => (.obj [], anchors, next)
      | rest =>
        if inline && isMark '-' rest then
          (readItems fuel false (parent + 1 + n) anchors rest).map fun (vs, more) => (.arr vs, more)
        else if inline && (isMark '?' rest || (readShortKey? parent rest).isSome) then
          (readEntries fuel (parent + 1 + n) anchors rest).map fun (fs, more) =>
            (.obj (Table.ofLast fs), more)
        else
          match readScalar (parent + 1) rest with
          | some (v, gap, rest) => (gap.next? rest).map fun next => (v, anchors, next)
          | none => none

/-- Reads the items of a list in some column; `inMap` where that is the column of the map around
it. -/
def readItems (fuel : Nat) (inMap : Bool) (column : Nat) (anchors : Anchors) (cs : List Char) :
    Option (List Json × Anchors × Nat × List Char) :=
  match fuel with
  | 0 => none
  | fuel + 1 =>
    if !isMark '-' cs then none
    else match readNode fuel false true column anchors (cs.drop 1) with
      | none => none
      | some (v, anchors, next, rest) =>
        if rest.isEmpty || next < column then some ([v], anchors, next, rest)
        else if next == column && isMark '-' rest then
          (readItems fuel inMap column anchors rest).map fun (vs, more) => (v :: vs, more)
        else if next == column && inMap then some ([v], anchors, next, rest)
        else none

/-- Reads the entries of a map in some column. -/
def readEntries (fuel : Nat) (column : Nat) (anchors : Anchors) (cs : List Char) :
    Option (List (RawText × Json) × Anchors × Nat × List Char) :=
  match fuel with
  | 0 => none
  | fuel + 1 =>
    match readKey? column cs with
    | none => none
    | some (key, inline, rest) =>
      match readNode fuel true inline column anchors rest with
      | none => none
      | some (v, anchors, next, rest) =>
        if rest.isEmpty || next < column then some ([(key, v)], anchors, next, rest)
        else if next == column then
          (readEntries fuel column anchors rest).map fun (fs, more) => ((key, v) :: fs, more)
        else none
end

/-- The value of a document whose root is a map. -/
def load (s : String) : Option Json :=
  match s.toList with
  | '\x7b' :: '\x7d' :: cs =>
    if (takeGap cs).2.isEmpty then some (.obj []) else none
  | cs =>
    match readEntries (cs.length + 1) 0 [] cs with
    | some (fs, _, _, []) => some (.obj (Table.ofLast fs))
    | _ => none

end Nanoservice.Yaml
