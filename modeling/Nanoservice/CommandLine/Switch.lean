import Nanoservice.Literal
import Nanoservice.Settings

/-!
# Switches of the command line

A switch has a long name and may have a short one. The words of a command line are told apart first:
a word that begins with a dash is a switch if it is its name, begins like its long name and like no
other, or runs a short name and a value together. A negative number and a word with a space are
plain, as is everything behind a double dash.
-/

namespace Nanoservice.CommandLine

/-- What a switch decides. -/
inductive SwitchKey where
  | help
  | output
  | model
  | verbose
  | serve
  | host
  | port
  deriving DecidableEq, Repr

/-- A switch with its names in order; one that takes a value is followed by it. -/
structure Switch where
  key : SwitchKey
  names : List String
  takesValue : Bool
  deriving DecidableEq, Repr

namespace Switch

/-- What messages call a switch. -/
def title (s : Switch) : String :=
  String.intercalate "/" s.names

end Switch

/-- The switch that every command has. -/
def helpSwitch : Switch := ⟨.help, ["-h", "--help"], false⟩

/-- The switches of a generation. -/
def generateSwitches : List Switch :=
  [helpSwitch, ⟨.output, ["-o", "--output"], true⟩, ⟨.model, ["-m", "--model"], true⟩,
    ⟨.verbose, ["-v", "--verbose"], false⟩, ⟨.serve, ["-s", "--serve"], false⟩,
    ⟨.host, ["--host"], true⟩, ⟨.port, ["--port"], true⟩]

/-- The switches of serving. -/
def serveSwitches : List Switch :=
  [helpSwitch, ⟨.host, ["--host"], true⟩, ⟨.port, ["--port"], true⟩,
    ⟨.verbose, ["-v", "--verbose"], false⟩]

/-- The names of switches in order, each with its switch. -/
def named (switches : List Switch) : List (String × Switch) :=
  switches.flatMap fun s => s.names.map fun n => (n, s)

/-- A use of a switch: the switch, the value that stands in the same word, and whether an equals
sign stands in front of the value. -/
structure SwitchUse where
  switch : Switch
  value : Option String := none
  assigned : Bool := false
  deriving DecidableEq, Repr

/-- What a word of a command line is. -/
inductive Role where
  | plain
  | separator
  | switch (use : SwitchUse)
  /-- A word like a switch that no switch has. -/
  | unknown
  deriving DecidableEq, Repr

/-- Why a command line is refused. -/
inductive Refusal where
  | ambiguous (word : String) (names : List String)
  | expectedValue (s : Switch)
  | unexpectedValue (s : Switch) (value : String)
  | notInteger (s : Switch) (value : String)
  | unknownCommand (word : String)
  | missing (name : String)
  | unrecognized (words : List String)
  deriving DecidableEq, Repr

namespace Refusal

/-- The wording of a refusal. -/
def message : Refusal → String
  | .ambiguous w names =>
    "ambiguous option: " ++ w ++ " could match " ++ String.intercalate ", " names
  | .expectedValue s => "argument " ++ s.title ++ ": expected one argument"
  | .unexpectedValue s v =>
    "argument " ++ s.title ++ ": ignored explicit argument " ++ Literal.quote v
  | .notInteger s v => "argument " ++ s.title ++ ": invalid int value: " ++ Literal.quote v
  | .unknownCommand w =>
    "argument command: invalid choice: " ++ Literal.quote w ++
      " (choose from 'generate', 'serve')"
  | .missing name => "the following arguments are required: " ++ name
  | .unrecognized ws => "unrecognized arguments: " ++ String.intercalate " " ws

end Refusal

/-! ## Telling words apart -/

/-- The parts of a word in front of and behind its first equals sign. -/
def splitEquals (cs : List Char) : List Char × Option (List Char) :=
  match cs.dropWhile (· ≠ '=') with
  | [] => (cs, none)
  | _ :: value => (cs.takeWhile (· ≠ '='), some value)

/-- A decimal digit of any script. -/
def isDecimalDigit (c : Char) : Bool :=
  (Text.decimalValue? c).isSome

/-- A word is a number below zero, with or without a fraction. -/
def isNegativeNumber : List Char → Bool
  | '-' :: cs =>
    let whole := cs.takeWhile isDecimalDigit
    match cs.dropWhile isDecimalDigit with
    | [] => !whole.isEmpty
    | '.' :: part => !part.isEmpty && part.all isDecimalDigit
    | _ => false
  | _ => false

/-- The uses of switches that a word can be short for. -/
def abbreviated (switches : List Switch) (cs : List Char) : List (String × SwitchUse) :=
  match cs with
  | '-' :: '-' :: _ =>
    let (front, value) := splitEquals cs
    (named switches).filterMap fun (n, s) =>
      if front.isPrefixOf n.toList then
        some (n, ⟨s, value.map String.ofList, value.isSome⟩)
      else none
  | '-' :: c :: rest =>
    (named switches).filterMap fun (n, s) =>
      if n.toList = ['-', c] then some (n, ⟨s, some (String.ofList rest), false⟩)
      else if cs.isPrefixOf n.toList then some (n, { switch := s })
      else none
  | _ => []

/-- The switch of a name. -/
def switch? (switches : List Switch) (name : String) : Option Switch :=
  (named switches).lookup name

/-- The use of a switch whose name stands in front of an equals sign. -/
def assigned? (switches : List Switch) (word : String) : Option SwitchUse :=
  match splitEquals word.toList with
  | (front, some value) =>
    (switch? switches (String.ofList front)).map fun s =>
      ⟨s, some (String.ofList value), true⟩
  | (_, none) => none

/-- What a word is that begins with a dash and has more than the dash. -/
def dashedRole (switches : List Switch) (word : String) : Except Refusal Role :=
  match (switch? switches word).map (fun s => { switch := s }) |>.or
      (assigned? switches word) with
  | some use => .ok (.switch use)
  | none =>
    match abbreviated switches word.toList with
    | [(_, use)] => .ok (.switch use)
    | a :: b :: more => .error (.ambiguous word ((a :: b :: more).map Prod.fst))
    | [] =>
      if isNegativeNumber word.toList || word.toList.contains ' ' then .ok .plain
      else .ok .unknown

/-- What a word is that no separator stands in front of. -/
def roleOf (switches : List Switch) (word : String) : Except Refusal Role :=
  match word.toList with
  | '-' :: _ :: _ => if word = "--" then .ok .separator else dashedRole switches word
  | _ => .ok .plain

/-- The words of a command line with what they are. -/
def roles (switches : List Switch) : List String → Except Refusal (List (String × Role))
  | [] => .ok []
  | w :: ws =>
    match roleOf switches w with
    | .error r => .error r
    | .ok .separator => .ok ((w, .separator) :: ws.map fun v => (v, .plain))
    | .ok role => (roles switches ws).map ((w, role) :: ·)

end Nanoservice.CommandLine
