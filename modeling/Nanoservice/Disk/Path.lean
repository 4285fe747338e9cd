/-!
# Paths

A place on the disk is the list of names that lead to it from the top. A written path is followed
from a starting place: empty names and single dots stay, two dots go one place up, and a leading
slash starts at the top. No name is a link to somewhere else.
-/

namespace Nanoservice

/-- A place on the disk: the names that lead to it from the top. -/
abbrev Path : Type := List String

namespace Path

/-- The texts between the slashes of a written path, the empty ones included. -/
def segments : List Char → List (List Char)
  | [] => [[]]
  | c :: cs =>
    if c = '/' then [] :: segments cs
    else match segments cs with
      | [] => [[c]]
      | s :: ss => (c :: s) :: ss

/-- A segment that leads somewhere. -/
def isName (s : String) : Bool :=
  s != "" && s != "."

/-- The names in a written path, two dots among them. -/
def names (written : String) : List String :=
  ((segments written.toList).map String.ofList).filter isName

/-- Where a name leads from a place. -/
def step (p : Path) (name : String) : Path :=
  if name = ".." then p.dropLast else p ++ [name]

/-- A written path starts at the top. -/
def isAbsolute (written : String) : Bool :=
  written.toList.head? == some '/'

/-- The place that a written path leads to from a place. -/
def resolve (start : Path) (written : String) : Path :=
  (names written).foldl step (if isAbsolute written then [] else start)

/-- The slashes that a tidy path begins with: none, one, or exactly two. -/
def leadingSlashes (written : String) : String :=
  match written.toList with
  | ['/', '/'] => "//"
  | '/' :: '/' :: c :: _ => if c = '/' then "/" else "//"
  | '/' :: _ => "/"
  | _ => ""

/-- A written path without what leads nowhere; a single dot if nothing else is left. -/
def tidy (written : String) : String :=
  let s := leadingSlashes written ++ String.intercalate "/" (names written)
  if s.isEmpty then "." else s

/-- The path from the top in writing. -/
def text (p : Path) : String :=
  "/" ++ String.intercalate "/" p

/-- A place lies below another one. -/
def isBelow (p root : Path) : Bool :=
  root.isPrefixOf p && root.length < p.length

/-- The places on the way to a place, from the one below the top to the place itself. -/
def stations (p : Path) : List Path :=
  (List.range p.length).map fun n => p.take (n + 1)

/-- The way from one place to another below it. -/
def relative (root p : Path) : String :=
  String.intercalate "/" (p.drop root.length)

theorem isBelow_iff {p root : Path} :
    isBelow p root = true ↔ root <+: p ∧ root.length < p.length := by
  simp [isBelow, List.isPrefixOf_iff_prefix]

end Path

end Nanoservice
