import Nanoservice.Text.Case
import Nanoservice.Text.Blank
import Nanoservice.Text.Digit
import Nanoservice.Text.Numeral

/-!
# Names in generated code

How names of nodes, workflows and endpoints become identifiers. A name is broken into words at
changes of letter case and at everything but ASCII letters and digits; the lower-case words joined
by underscores are its snake-case form. An identifier puts a stem in front of a form that starts
with a digit, is a keyword or is empty, and a name that is taken gets the least free number.
-/

namespace Nanoservice.Name

/-- An ASCII capital. -/
def isCapital (c : Char) : Bool :=
  'A' ≤ c && c ≤ 'Z'

/-- A small ASCII letter. -/
def isSmall (c : Char) : Bool :=
  'a' ≤ c && c ≤ 'z'

/-- A character that words are made of. -/
def isWordChar (c : Char) : Bool :=
  isCapital c || isSmall c || Text.isAsciiDigit c

/-! ## Words -/

/-- Separates each capital that starts a small-letter word from the character before it, unless
that is a line feed; what a separated word took is not looked at again. -/
def breakWords : List Char → List Char
  | a :: b :: c :: rest =>
    if a ≠ '\n' ∧ isCapital b ∧ isSmall c then
      a :: '_' :: b :: c :: (rest.takeWhile isSmall ++ breakWords (rest.dropWhile isSmall))
    else a :: breakWords (b :: c :: rest)
  | cs => cs
termination_by cs => cs.length
decreasing_by
  · have := (List.dropWhile_sublist (l := rest) isSmall).length_le
    simp only [List.length_cons]
    omega
  · simp only [List.length_cons]
    omega

/-- Separates a capital from the small letter or digit before it. -/
def breakCapitals : List Char → List Char
  | a :: b :: rest =>
    if (isSmall a || Text.isAsciiDigit a) && isCapital b then a :: '_' :: b :: breakCapitals rest
    else a :: breakCapitals (b :: rest)
  | cs => cs

/-- Adds a character in front of the first of some words; the first of the list may be unfinished
and empty. -/
def extendWord (c : Char) : List (List Char) → List (List Char)
  | [] => [[c]]
  | w :: ws => (c :: w) :: ws

/-- The runs of word characters, with an empty one wherever two other characters meet or a margin
is no word character. -/
def runs : List Char → List (List Char)
  | [] => [[]]
  | c :: cs => if isWordChar c then extendWord c (runs cs) else [] :: runs cs

/-- The words of a text. -/
def words (cs : List Char) : List (List Char) :=
  (runs cs).filter (!·.isEmpty)

/-- The lower-case words of a name. -/
def snakeWords (name : String) : List (List Char) :=
  (words (breakCapitals (breakWords name.toList))).map fun w => w.map Char.toLower

/-- Words with underscores between them. -/
def joinWords : List (List Char) → List Char
  | [] => []
  | [w] => w
  | w :: ws => w ++ '_' :: joinWords ws

/-- The snake-case form of a name. -/
def snakeCase (name : String) : String :=
  String.ofList (joinWords (snakeWords name))

/-! ## Identifiers -/

/-- The words that are no identifiers. -/
def keywords : List String :=
  ["False", "None", "True", "and", "as", "assert", "async", "await", "break", "class", "continue",
    "def", "del", "elif", "else", "except", "finally", "for", "from", "global", "if", "import",
    "in", "is", "lambda", "nonlocal", "not", "or", "pass", "raise", "return", "try", "while",
    "with", "yield"]

/-- The text starts with a digit. -/
def startsWithDigit (s : String) : Bool :=
  match s.toList with
  | c :: _ => Text.isDigit c
  | [] => false

/-- The identifier of a name, given the stem for names that need one; none if both are empty. -/
def identifier? (stem name : String) : Option String :=
  let form := if (snakeCase name).isEmpty then stem else snakeCase name
  if form.isEmpty then none
  else if startsWithDigit form || keywords.contains form then some (stem ++ "_" ++ form)
  else some form

/-- What an identifier names. -/
inductive Role where
  | node
  | workflow
  | route
  deriving DecidableEq, Repr

/-- The stem for names that need one. -/
def Role.stem : Role → String
  | .node => "n"
  | .workflow => "wf"
  | .route => "route"

/-- The identifier of a name in a role. -/
def identifier (role : Role) (name : String) : String :=
  (identifier? role.stem name).getD role.stem

/-- A word with a capital in front. -/
def capitalize : List Char → List Char
  | [] => []
  | c :: cs => c.toUpper :: cs

/-- The Pascal-case form of a name, with an `N` in front of a digit and for a name without words. -/
def pascalCase (name : String) : String :=
  let form := (snakeWords name).flatMap capitalize
  match form with
  | [] => "N"
  | c :: _ => String.ofList (if Text.isAsciiDigit c then 'N' :: form else form)

/-! ## Distinct names -/

/-- A name with a number behind it. -/
def numbered (base : String) (n : Nat) : String :=
  base ++ "_" ++ Nat.repr n

/-- The name itself if it is not used, and otherwise the name with the least number from two on
that is not used; among one more number than there are used names, one is free. -/
def unique (used : List String) (base : String) : String :=
  if used.contains base then
    let free := (List.range (used.length + 1)).find? fun i => !used.contains (numbered base (i + 2))
    numbered base (free.getD used.length + 2)
  else base

/-- Distinct names for bases in order, and all names that are used afterwards. -/
def uniqueAll (used : List String) : List String → List String × List String
  | [] => ([], used)
  | base :: bases =>
    let name := unique used base
    let (names, used') := uniqueAll (used ++ [name]) bases
    (name :: names, used')

/-! ## Handlers -/

/-- The segments of a path between its slashes. -/
def segments : List Char → List (List Char)
  | [] => [[]]
  | c :: cs => if c == '/' then [] :: segments cs else extendWord c (segments cs)

/-- The name of a parameter segment, which stands in braces and holds no closing brace. -/
def parameterName? : List Char → Option (List Char)
  | '\x7b' :: cs =>
    match cs.getLast? with
    | some '\x7d' =>
      let inner := cs.dropLast
      if inner.isEmpty || inner.contains '\x7d' then none else some inner
    | _ => none
  | _ => none

/-- The words that a segment adds to a handler's name. -/
def segmentWords (segment : List Char) : List Char :=
  match parameterName? segment with
  | some name => ['b', 'y', '_'] ++ name
  | none => segment

/-- The name of the handler of a method and a path. -/
def handler (method path : String) : String :=
  let parts := ((segments path.toList).filter (!·.isEmpty)).map segmentWords
  identifier .route (String.ofList (joinWords ((Text.lower method).toList :: parts)))

end Nanoservice.Name
