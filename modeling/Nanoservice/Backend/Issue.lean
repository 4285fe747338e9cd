import Nanoservice.Json.Basic

/-!
# Issues with a model

What is wrong with a value that should describe a part of a model, and where. Reading a model
collects every issue, in the order of the fields; a report shows the first five.
-/

namespace Nanoservice

/-- A step from a value to one of its parts. -/
inductive Step where
  | key (name : String)
  | index (i : Nat)
  deriving DecidableEq, Repr

namespace Step

/-- The text of a step in a report. -/
def text : Step → String
  | .key name => name
  | .index i => Nat.repr i

end Step

/-- What is wrong with a value. -/
inductive Flaw where
  | missing
  | notText
  | brokenText
  | emptyText
  | notList
  | notPart (kind : String)
  | notObject
  | notOneOf (choices : List String)
  | notSwitch
  | unclearSwitch
  | notInteger
  | unclearInteger
  | fractionalInteger
  | hugeInteger
  | endlessInteger
  | notNumber
  | unclearNumber
  | blankPath
  | unknownNode (workflow : String) (node : RawText)
  deriving DecidableEq, Repr

namespace Flaw

/-- Choices in single quotes with commas between them and `or` before the last. -/
def choicesText : List String → String
  | [] => ""
  | [a] => s!"'{a}'"
  | [a, b] => s!"'{a}' or '{b}'"
  | a :: rest => s!"'{a}', " ++ choicesText rest

/-- The wording of a flaw. -/
def message : Flaw → String
  | .missing => "Field required"
  | .notText => "Input should be a valid string"
  | .brokenText =>
    "Input should be a valid string, unable to parse raw data as a unicode string"
  | .emptyText => "String should have at least 1 character"
  | .notList => "Input should be a valid tuple"
  | .notPart kind => s!"Input should be a valid dictionary or instance of {kind}"
  | .notObject => "Input should be a valid dictionary"
  | .notOneOf choices => "Input should be " ++ choicesText choices
  | .notSwitch => "Input should be a valid boolean"
  | .unclearSwitch => "Input should be a valid boolean, unable to interpret input"
  | .notInteger => "Input should be a valid integer"
  | .unclearInteger => "Input should be a valid integer, unable to parse string as an integer"
  | .fractionalInteger => "Input should be a valid integer, got a number with a fractional part"
  | .hugeInteger => "Unable to parse input string as an integer, exceeded maximum size"
  | .endlessInteger => "Input should be a finite number"
  | .notNumber => "Input should be a valid number"
  | .unclearNumber => "Input should be a valid number, unable to parse string as a number"
  | .blankPath => "Value error, endpoint path must not be empty"
  | .unknownNode workflow node =>
    s!"Value error, workflow '{workflow}' references unknown node '{node.shown}'"

end Flaw

/-- A flaw and the path to the value that has it. -/
structure Issue where
  path : List Step
  flaw : Flaw
  deriving DecidableEq, Repr

namespace Issue

/-- The issue as seen from the value that a step leads out of. -/
def under (s : Step) (i : Issue) : Issue :=
  ⟨s :: i.path, i.flaw⟩

/-- The line that reports an issue: its path, if it has one, and its wording. -/
def text (i : Issue) : String :=
  let place := String.intercalate "." (i.path.map Step.text)
  if place.isEmpty then i.flaw.message else place ++ ": " ++ i.flaw.message

/-- The number of issues that a report shows. -/
def reportLimit : Nat := 5

/-- The report of issues: the first ones, and how many more there are. -/
def report (issues : List Issue) : String :=
  let shown := (issues.take reportLimit).map text
  let more := issues.length - reportLimit
  String.intercalate "; " (if more = 0 then shown else shown ++ [s!"... and {more} more"])

end Issue

/-- A value, or every issue that keeps it from being read. -/
abbrev Reading (α : Type) : Type := Except (List Issue) α

namespace Reading

variable {α β : Type}

/-- A reading that fails for one flaw of the value itself. -/
def fail (flaw : Flaw) : Reading α :=
  .error [⟨[], flaw⟩]

/-- A reading whose issues lie behind a step. -/
def under (s : Step) : Reading α → Reading α
  | .ok a => .ok a
  | .error issues => .error (issues.map (Issue.under s))

/-- Two readings side by side; the issues of both are kept in order. -/
def both : Reading α → Reading β → Reading (α × β)
  | .ok a, .ok b => .ok (a, b)
  | .ok _, .error issues => .error issues
  | .error issues, .ok _ => .error issues
  | .error issues, .error more => .error (issues ++ more)

/-- Reads the items of a list, each behind its index counted from `start`. -/
def items (rule : Json → Reading α) (start : Nat) : List Json → Reading (List α)
  | [] => .ok []
  | v :: vs => ((rule v).under (.index start)).both (items rule (start + 1) vs) |>.map
      fun p => p.1 :: p.2

end Reading

end Nanoservice
