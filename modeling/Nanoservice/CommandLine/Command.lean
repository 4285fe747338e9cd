import Nanoservice.CommandLine.Switch

/-!
# Commands

The command line names a command and what it works on. Words are taken from left to right: switches
with their values, the prompt of a generation, and what is left over; a command line with anything
left over is refused. The first use of a switch that is wrong ends the reading, and so does a
request for help.
-/

namespace Nanoservice.CommandLine

/-- What the switches of a command line decide. -/
structure Options where
  output : String
  model : Option String := none
  verbose : Bool := false
  serve : Bool := false
  host : String
  port : Int
  deriving DecidableEq, Repr

/-- The options of a command line without switches. -/
def Options.ofSettings (s : Settings) : Options :=
  { output := s.outputDir, host := s.apiHost, port := s.apiPort }

/-- A command. -/
inductive Command where
  | generate (prompt : String) (options : Options)
  | serve (options : Options)
  deriving DecidableEq, Repr

/-- The parts of the program that read a command line. -/
inductive Program where
  | whole
  | generate
  | serve
  deriving DecidableEq, Repr

/-- What messages call a part of the program. -/
def Program.name : Program → String
  | .whole => "genbackend"
  | .generate => "genbackend generate"
  | .serve => "genbackend serve"

/-- Why a command line leads to no command: it is refused, or it asks for help. -/
inductive Halt where
  | refused (program : Program) (refusal : Refusal)
  | help (program : Program)
  deriving DecidableEq, Repr

/-! ## Uses of switches -/

/-- The use of a switch whose letter has some characters behind it in its word. -/
def lettersBehind (s : Switch) : List Char → SwitchUse
  | [] => { switch := s }
  | '=' :: cs => ⟨s, some (String.ofList cs), true⟩
  | cs => ⟨s, some (String.ofList cs), false⟩

/-- The uses of switches that run together in one word, and what is left over of the word. A switch
that takes a value takes the rest of the word; without a rest it stands last and has no value. In a
word with a single dash, each character behind a switch that takes no value should be the letter of
another switch. -/
def spread (switches : List Switch) (short : Bool) :
    (fuel : Nat) → SwitchUse → Except Refusal (List SwitchUse × List String)
  | 0, use => .ok ([use], [])
  | fuel + 1, use =>
    if use.switch.takesValue then .ok ([use], [])
    else match use.value with
      | none => .ok ([use], [])
      | some v =>
        match v.toList with
        | [] => .error (.unexpectedValue use.switch v)
        | c :: rest =>
          if !short || use.assigned || c = '-' then .error (.unexpectedValue use.switch v)
          else match switch? switches (String.ofList ['-', c]) with
            | none => .ok ([{ switch := use.switch }], ["-" ++ v])
            | some next =>
              (spread switches short fuel (lettersBehind next rest)).map fun (uses, left) =>
                ({ switch := use.switch } :: uses, left)

/-- A word is written with a single dash. -/
def isShort (word : String) : Bool :=
  match word.toList with
  | '-' :: '-' :: _ => false
  | _ => true

/-- The options after the use of a switch. -/
def Options.apply (o : Options) (use : SwitchUse) : Except Refusal Options :=
  let value := use.value.getD ""
  match use.switch.key with
  | .help => .ok o
  | .output => .ok { o with output := value }
  | .model => .ok { o with model := some value }
  | .verbose => .ok { o with verbose := true }
  | .serve => .ok { o with serve := true }
  | .host => .ok { o with host := value }
  | .port =>
    match Text.wholeNumber value with
    | .ok n => .ok { o with port := n }
    | .error _ => .error (.notInteger use.switch value)

/-- The options after uses of switches in order. -/
def applyAll (program : Program) : Options → List SwitchUse → Except Halt Options
  | o, [] => .ok o
  | o, use :: more =>
    if use.switch.key = .help then .error (.help program)
    else match o.apply use with
      | .error r => .error (.refused program r)
      | .ok o => applyAll program o more

/-- The last of some uses takes a value and has none. -/
def lacksValue (uses : List SwitchUse) : Bool :=
  match uses.getLast? with
  | some use => use.switch.takesValue && use.value.isNone
  | none => false

/-- Uses of switches with a value for the last one. -/
def withValue (uses : List SwitchUse) (value : String) : List SwitchUse :=
  match uses.getLast? with
  | some use => uses.dropLast ++ [⟨use.switch, some value, false⟩]
  | none => uses

/-! ## Commands with their words -/

/-- What the words of a command amount to. -/
structure Gathered where
  prompt : Option String := none
  options : Options
  left : List String := []
  deriving DecidableEq, Repr

/-- Takes the words of a command; `wantsPrompt` says whether a prompt is still to come. -/
def gather (program : Program) (switches : List Switch) (wantsPrompt : Bool) (g : Gathered) :
    List (String × Role) → Except Halt Gathered
  | [] => .ok g
  | (w, .plain) :: rest =>
    if wantsPrompt then
      match rest with
      | (_, .separator) :: more =>
        gather program switches false { g with prompt := some w } more
      | rest => gather program switches false { g with prompt := some w } rest
    else gather program switches false { g with left := g.left ++ [w] } rest
  | (w, .separator) :: rest =>
    match wantsPrompt, rest with
    | true, (v, _) :: more => gather program switches false { g with prompt := some v } more
    | _, rest => gather program switches wantsPrompt { g with left := g.left ++ [w] } rest
  | (w, .unknown) :: rest =>
    gather program switches wantsPrompt { g with left := g.left ++ [w] } rest
  | (w, .switch use) :: rest =>
    match spread switches (isShort w) (w.length + 1) use with
    | .error r => .error (.refused program r)
    | .ok (uses, left) =>
      if lacksValue uses then
        match rest with
        | (v, .plain) :: more =>
          match applyAll program g.options (withValue uses v) with
          | .error h => .error h
          | .ok options => gather program switches wantsPrompt { g with options } more
        | _ => .error (.refused program (.expectedValue ((uses.getLast?.map SwitchUse.switch).getD
            use.switch)))
      else
        match applyAll program g.options uses with
        | .error h => .error h
        | .ok options =>
          gather program switches wantsPrompt { g with options, left := g.left ++ left } rest

/-- Takes the words behind the name of a command. -/
def gatherWords (program : Program) (switches : List Switch) (wantsPrompt : Bool)
    (options : Options) (words : List String) : Except Halt Gathered :=
  match roles switches words with
  | .error r => .error (.refused program r)
  | .ok rs => gather program switches wantsPrompt { options } rs

/-- The command of its name and the words behind it, with the words left over. -/
def named? (settings : Settings) (name : String) (words : List String) :
    Except Halt (Command × List String) :=
  let options := Options.ofSettings settings
  match name with
  | "generate" =>
    match gatherWords .generate generateSwitches true options words with
    | .error h => .error h
    | .ok g =>
      match g.prompt with
      | some prompt => .ok (.generate prompt g.options, g.left)
      | none => .error (.refused .generate (.missing "prompt"))
  | "serve" =>
    (gatherWords .serve serveSwitches false options words).map fun g =>
      (.serve g.options, g.left)
  | _ => .error (.refused .whole (.unknownCommand name))

/-- Finds the name of the command among the words of a command line; `left` are the words in front
of it that are left over. -/
def findCommand (settings : Settings) (left : List String) :
    List (String × Role) → Except Halt (Command × List String)
  | [] => .error (.refused .whole (.missing "command"))
  | (w, .plain) :: rest =>
    (named? settings w (rest.map Prod.fst)).map fun (c, more) => (c, left ++ more)
  | [(_, .separator)] => .error (.refused .whole (.missing "command"))
  | (w, .separator) :: _ => .error (.refused .whole (.unknownCommand w))
  | (w, .unknown) :: rest => findCommand settings (left ++ [w]) rest
  | (w, .switch use) :: rest =>
    match spread [helpSwitch] (isShort w) (w.length + 1) use with
    | .error r => .error (.refused .whole r)
    | .ok (uses, more) =>
      if uses.any fun u => u.switch.key = .help then .error (.help .whole)
      else findCommand settings (left ++ more) rest

/-- The command of a command line. -/
def Command.ofWords (settings : Settings) (words : List String) : Except Halt Command :=
  match roles [helpSwitch] words with
  | .error r => .error (.refused .whole r)
  | .ok rs =>
    match findCommand settings [] rs with
    | .error h => .error h
    | .ok (c, []) => .ok c
    | .ok (_, left) => .error (.refused .whole (.unrecognized left))

end Nanoservice.CommandLine
