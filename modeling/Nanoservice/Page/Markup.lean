import Nanoservice.Text.Raw

/-!
# Markup

A page is a sequence of pieces: markup that is written as it is, and texts whose characters with a
meaning in HTML are written as character references. So no text can open or close a tag or an
attribute. A page with half of a surrogate pair in a text can be shown, but it cannot be sent.
-/

namespace Nanoservice.Page

/-- The form of a character in a page. -/
def escapeChar (c : Char) : List Char :=
  if c = '&' then ['&', 'a', 'm', 'p', ';']
  else if c = '<' then ['&', 'l', 't', ';']
  else if c = '>' then ['&', 'g', 't', ';']
  else if c = '\'' then ['&', '#', '3', '9', ';']
  else if c = '"' then ['&', '#', '3', '4', ';']
  else [c]

/-- The form of a text in a page. -/
def escape (s : String) : String :=
  String.ofList (s.toList.flatMap escapeChar)

/-- A piece of a page. -/
inductive Piece where
  | markup (s : String)
  | text (t : RawText)
  deriving DecidableEq, Repr

namespace Piece

/-- The characters of a piece. -/
def chars : Piece → List Char
  | .markup s => s.toList
  | .text t => t.shown.toList.flatMap escapeChar

/-- A piece without halves of surrogate pairs. -/
def isWhole : Piece → Bool
  | .markup _ => true
  | .text t => t.isWhole

/-- A line of markup. -/
def line (s : String) : Piece :=
  .markup (s ++ "\n")

end Piece

/-- A page from its pieces. -/
def ofPieces (pieces : List Piece) : String :=
  String.ofList (pieces.flatMap Piece.chars)

/-- The characters that open or close tags and attributes. -/
def isStructural (c : Char) : Bool :=
  c == '<' || c == '>' || c == '"' || c == '\''

/-- An escaped text has no structural characters. -/
theorem isStructural_of_mem_escapeChar {c d : Char} (h : d ∈ escapeChar c) :
    isStructural d = false := by
  unfold escapeChar at h
  split at h
  · simp only [List.mem_cons, List.not_mem_nil, or_false] at h
    rcases h with rfl | rfl | rfl | rfl | rfl <;> rfl
  split at h
  · simp only [List.mem_cons, List.not_mem_nil, or_false] at h
    rcases h with rfl | rfl | rfl | rfl <;> rfl
  split at h
  · simp only [List.mem_cons, List.not_mem_nil, or_false] at h
    rcases h with rfl | rfl | rfl | rfl <;> rfl
  split at h
  · simp only [List.mem_cons, List.not_mem_nil, or_false] at h
    rcases h with rfl | rfl | rfl | rfl | rfl <;> rfl
  split at h
  · simp only [List.mem_cons, List.not_mem_nil, or_false] at h
    rcases h with rfl | rfl | rfl | rfl | rfl <;> rfl
  · next h1 h2 h3 h4 h5 =>
    rw [List.mem_singleton] at h
    subst h
    simp [isStructural, h2, h3, h4, h5]

end Nanoservice.Page
