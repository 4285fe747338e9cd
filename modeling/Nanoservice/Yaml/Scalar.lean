import Nanoservice.Json.Basic
import Nanoservice.Yaml.Resolution

/-!
# Scalars in YAML

How a text is written as a YAML scalar: unquoted where it means itself and no character of it has
a meaning in YAML, in single quotes where all its characters can stand there as they are, and in
double quotes with escapes otherwise. A text that does not fit on its line is folded at single
blanks; the form of a scalar depends on the column where it starts, the indentation of the lines
it is folded to and whether it may be folded at all.
-/

namespace Nanoservice.Yaml

/-- The width of a line, beyond which a scalar is folded. -/
def lineWidth : Nat := 80

/-- A character that ends a line. -/
def isBreak (c : Char) : Bool :=
  c == '\n' || c == '\u0085' || c == '\u2028' || c == '\u2029'

/-- A character that separates words for the indicators of YAML, the text's end included. -/
def isSeparator (c : Char) : Bool :=
  c == '\x00' || c == ' ' || c == '\t' || c == '\r' || isBreak c

/-- A character that a scalar can show as it is, line breaks included. -/
def isPlainChar (c : Char) : Bool :=
  let n := c.toNat
  c == '\n' || (0x20 ≤ n && n ≤ 0x7E) ||
    ((n == 0x85 || 0xA0 ≤ n) && n != 0xFEFF && n != 0xFFFE && n != 0xFFFF && n != 0x10FFFF)

/-! ## The choice of a form -/

/-- The characters that may not start an unquoted text. -/
def leadingIndicators : List Char :=
  ['#', ',', '[', ']', '\x7b', '\x7d', '&', '*', '!', '|', '>', '\'', '"', '%', '@', '\x60']

/-- The next character, if any, separates words. -/
def endsWord : List Char → Bool
  | [] => true
  | c :: _ => isSeparator c

/-- An indicator stands behind the first character; `previous` is the character in front. -/
def hasInnerIndicator (previous : Char) : List Char → Bool
  | [] => false
  | c :: cs =>
    (c == ':' && endsWord cs) || (c == '#' && isSeparator previous) || hasInnerIndicator c cs

/-- A character of the text has a meaning of its own in YAML. -/
def hasIndicator : List Char → Bool
  | [] => false
  | c :: cs =>
    leadingIndicators.contains c || ((c == '?' || c == ':' || c == '-') && endsWord cs) ||
      ['-', '-', '-'].isPrefixOf (c :: cs) || ['.', '.', '.'].isPrefixOf (c :: cs) ||
      hasInnerIndicator c cs

/-- Two neighbours of the text satisfy the two conditions. -/
def hasNeighbours {α : Type} (p q : α → Bool) : List α → Bool
  | a :: b :: cs => (p a && q b) || hasNeighbours p q (b :: cs)
  | _ => false

/-- The text has a blank or a line break at a margin. -/
def hasBlankMargin (cs : List Char) : Bool :=
  let isEdge := fun c => c == ' ' || isBreak c
  cs.head?.any isEdge || cs.getLast?.any isEdge

/-- The text spans several lines. -/
def isMultiline (cs : List Char) : Bool :=
  cs.any isBreak

/-- The text can stand without quotes. -/
def allowsPlain (cs : List Char) : Bool :=
  !hasBlankMargin cs && !isMultiline cs && cs.all isPlainChar && !hasIndicator cs

/-- The text can stand in single quotes. -/
def allowsSingleQuotes (cs : List Char) : Bool :=
  cs.all isPlainChar && !hasNeighbours isBreak (· == ' ') cs && !hasNeighbours (· == ' ') isBreak cs

/-- The forms of a scalar. -/
inductive Form where
  | plain
  | single
  | double
  deriving DecidableEq, Repr

/-- The form of a text; a key that stays on its line is never empty or multi-line without double
quotes. -/
def formOf (isKey : Bool) (s : String) : Form :=
  let cs := s.toList
  if meansItself s && !(isKey && (cs.isEmpty || isMultiline cs)) && allowsPlain cs then .plain
  else if allowsSingleQuotes cs && !(isKey && isMultiline cs) then .single
  else .double

/-! ## Folding -/

/-- Where a scalar is written. -/
structure Place where
  /-- The column at which it starts. -/
  column : Nat
  /-- The indentation of the lines that it is folded to. -/
  indent : Nat
  /-- Whether it may be folded. -/
  folds : Bool

/-- A line break and the indentation behind it. -/
def newLine (indent : Nat) : List Char :=
  '\n' :: List.replicate indent ' '

/-- A run of blanks, a run of line breaks, or a run of other characters. -/
inductive Chunk where
  | blanks (count : Nat)
  | breaks (marks : List Char)
  | word (chars : List Char)
  deriving DecidableEq, Repr

/-- Adds a character in front of the chunks of a text. -/
def pushChunk (c : Char) : List Chunk → List Chunk
  | .blanks n :: rest => if c == ' ' then .blanks (n + 1) :: rest else
    (if isBreak c then .breaks [c] else .word [c]) :: .blanks n :: rest
  | .breaks ms :: rest => if isBreak c then .breaks (c :: ms) :: rest else
    (if c == ' ' then .blanks 1 else .word [c]) :: .breaks ms :: rest
  | .word cs :: rest => if c == ' ' then .blanks 1 :: .word cs :: rest
    else if isBreak c then .breaks [c] :: .word cs :: rest else .word (c :: cs) :: rest
  | [] => [if c == ' ' then .blanks 1 else if isBreak c then .breaks [c] else .word [c]]

/-- The chunks of a text. -/
def chunks (cs : List Char) : List Chunk :=
  cs.foldr pushChunk []

/-- An unquoted text from some column on. -/
def plainFrom (place : Place) (column : Nat) : List Chunk → List Char
  | [] => []
  | .blanks n :: rest =>
    if n = 1 ∧ lineWidth < column ∧ place.folds then
      newLine place.indent ++ plainFrom place place.indent rest
    else List.replicate n ' ' ++ plainFrom place (column + n) rest
  | .breaks ms :: rest => ms ++ plainFrom place column rest
  | .word cs :: rest => cs ++ plainFrom place (column + cs.length) rest

/-- A quote inside single quotes is written twice. -/
def doubleQuotes (cs : List Char) : List Char :=
  cs.flatMap fun c => if c == '\'' then ['\'', '\''] else [c]

/-- Line breaks inside single quotes: a line feed in front doubles, so that folding leaves one. -/
def quotedBreaks (indent : Nat) (ms : List Char) : List Char :=
  (match ms with
    | '\n' :: _ => ['\n']
    | _ => []) ++ ms ++ List.replicate indent ' '

/-- A text inside single quotes from some column on; `first` holds before the first chunk. -/
def singleFrom (place : Place) (column : Nat) (first : Bool) : List Chunk → List Char
  | [] => []
  | .blanks n :: rest =>
    if n = 1 ∧ lineWidth < column ∧ place.folds ∧ !first ∧ !rest.isEmpty then
      newLine place.indent ++ singleFrom place place.indent false rest
    else List.replicate n ' ' ++ singleFrom place (column + n) false rest
  | .breaks ms :: rest =>
    quotedBreaks place.indent ms ++ singleFrom place place.indent false rest
  | .word cs :: rest =>
    let text := doubleQuotes cs
    text ++ singleFrom place (column + text.length) false rest

/-- The one-letter escapes of double quotes. -/
def shortEscapes : List (Char × Char) :=
  [('\x00', '0'), ('\x07', 'a'), ('\x08', 'b'), ('\t', 't'), ('\n', 'n'), ('\x0b', 'v'),
    ('\x0c', 'f'), ('\r', 'r'), ('\x1b', 'e'), ('"', '"'), ('\\', '\\'), ('\u0085', 'N'),
    ('\u00a0', '_'), ('\u2028', 'L'), ('\u2029', 'P')]

/-- `width` upper-case hexadecimal digits of a number. -/
def hexDigits (width n : Nat) : List Char :=
  let ds := (Nat.toDigits 16 n).map Char.toUpper
  List.replicate (width - ds.length) '0' ++ ds

/-- The escape of a character inside double quotes. -/
def escape (c : Char) : List Char :=
  match shortEscapes.lookup c with
  | some e => ['\\', e]
  | none =>
    if c.toNat ≤ 0xFF then '\\' :: 'x' :: hexDigits 2 c.toNat
    else if c.toNat ≤ 0xFFFF then '\\' :: 'u' :: hexDigits 4 c.toNat
    else '\\' :: 'U' :: hexDigits 8 c.toNat

/-- A character that double quotes show as it is. -/
def isShownInDouble (c : Char) : Bool :=
  let n := c.toNat
  c != '"' && c != '\\' && n != 0x2028 && n != 0x2029 && n != 0xFEFF &&
    ((0x20 ≤ n && n ≤ 0x7E) || (0xA0 ≤ n && n ≤ 0xFFFD))

/-- A symbol that double quotes show as it is. -/
def isShown : Symbol → Bool
  | .char c => isShownInDouble c
  | .half _ => false

/-- The form of a symbol inside double quotes. -/
def symbolForm : Symbol → List Char
  | .char c => if isShownInDouble c then [c] else escape c
  | .half s => '\\' :: 'u' :: hexDigits 4 s.unit

/-- The symbol is a blank. -/
def isBlank (s : Symbol) : Bool :=
  s == .char ' '

/-- A fold inside double quotes, with the column behind it; a blank that starts the next line is
marked. -/
def doubleFold (indent : Nat) (blankNext : Bool) : List Char × Nat :=
  if blankNext then ('\\' :: (newLine indent ++ ['\\']), indent + 1)
  else ('\\' :: newLine indent, indent)

/-- Symbols inside double quotes from some column on. `first` holds before the first one, and
`loose` before the first one and behind an escape. -/
def doubleFrom (place : Place) (column : Nat) (first loose : Bool) : List Symbol → List Char
  | [] => []
  | s :: ss =>
    let inner := !first && !ss.isEmpty && place.folds
    if isShown s then
      let (fold, start) :=
        if inner && (isBlank s || loose) && lineWidth < column then
          doubleFold place.indent (isBlank s)
        else ([], column)
      fold ++ symbolForm s ++ doubleFrom place (start + 1) false false ss
    else
      let column := column + (symbolForm s).length
      let (fold, start) :=
        if inner && lineWidth + 1 < column then doubleFold place.indent (ss.head?.any isBlank)
        else ([], column)
      symbolForm s ++ fold ++ doubleFrom place start false true ss

/-- The scalar of symbols in double quotes. -/
def doubleQuoted (place : Place) (symbols : List Symbol) : List Char :=
  '"' :: (doubleFrom place (place.column + 1) true true symbols ++ ['"'])

/-- The scalar of a text at a place. -/
def scalar (isKey : Bool) (place : Place) (s : String) : List Char :=
  match formOf isKey s with
  | .plain => plainFrom place place.column (chunks s.toList)
  | .single => '\'' :: (singleFrom place (place.column + 1) true (chunks s.toList) ++ ['\''])
  | .double => doubleQuoted place (s.toList.map .char)

end Nanoservice.Yaml
