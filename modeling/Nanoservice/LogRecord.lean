import Nanoservice.Literal

/-!
# Log records

A log record is shown as a line with its level, the name of its source, the generation and stage
that it belongs to, and its message. A message is a pattern when arguments come with it.
-/

namespace Nanoservice

/-- How grave a log record is. -/
inductive LogLevel where
  | debug
  | info
  | warning
  | error
  | critical
  deriving DecidableEq, Repr

namespace LogLevel

/-- The name of a level. -/
def name : LogLevel → String
  | .debug => "DEBUG"
  | .info => "INFO"
  | .warning => "WARNING"
  | .error => "ERROR"
  | .critical => "CRITICAL"

/-- The rank of a level among all levels. -/
def rank : LogLevel → Nat
  | .debug => 10
  | .info => 20
  | .warning => 30
  | .error => 40
  | .critical => 50

/-- All levels. -/
def all : List LogLevel := [.debug, .info, .warning, .error, .critical]

/-- The level of a name. -/
def ofName? (s : String) : Option LogLevel :=
  all.find? fun l => l.name == s

/-- The level from which records are written. -/
def threshold (verbose : Bool) : LogLevel :=
  if verbose then .debug else .info

/-- Records of a level are written. -/
def isWritten (l : LogLevel) (verbose : Bool) : Bool :=
  (threshold verbose).rank ≤ l.rank

end LogLevel

/-- Why a pattern cannot be filled in. -/
inductive PatternFault where
  | tooFew
  | tooMany
  | notNumber (conversion : Char) (kind : String)
  | unknown (conversion : Char) (index : Nat)
  | unfinished
  deriving DecidableEq, Repr

namespace PatternFault

/-- The form of a conversion in messages: one outside ASCII is shown as a question mark. -/
def shownConversion (c : Char) : String :=
  String.singleton (if 31 < c.toNat && c.toNat < 127 then c else '?')

/-- The wording of a fault. -/
def message : PatternFault → String
  | .tooFew => "not enough arguments for format string"
  | .tooMany => "not all arguments converted during string formatting"
  | .notNumber c kind =>
    "%" ++ String.singleton c ++ " format: a real number is required, not " ++ kind
  | .unknown c n =>
    "unsupported format character '" ++ shownConversion c ++ "' (0x" ++
      String.ofList (Nat.toDigits 16 c.toNat) ++ ") at index " ++ toString n
  | .unfinished => "incomplete format"

/-- The fault lies in the arguments and not in the pattern. -/
def isOfArguments : PatternFault → Bool
  | .tooFew | .tooMany | .notNumber _ _ => true
  | _ => false

end PatternFault

namespace Pattern

/-- What messages call the kind of a value. -/
def kindName : Json → String
  | .null => "NoneType"
  | .bool _ => "bool"
  | .int _ => "int"
  | .float _ => "float"
  | .str _ | .broken _ => "str"
  | .arr _ => "list"
  | .obj _ => "dict"

/-- The text that a conversion makes of an argument; `index` is the place of the conversion. -/
def convert (conversion : Char) (index : Nat) (v : Json) : Except PatternFault (List Char) :=
  match conversion with
  | 's' => .ok (Literal.shown v).shown.toList
  | 'r' => .ok (Literal.valueChars v)
  | 'd' | 'i' =>
    match v with
    | .int n => .ok (Text.intChars n)
    | .bool b => .ok (if b then ['1'] else ['0'])
    | .float x =>
      match x.truncate? with
      | some n => .ok (Text.intChars n)
      | none => .error (.notNumber conversion (kindName v))
    | _ => .error (.notNumber conversion (kindName v))
  | c => .error (.unknown c index)

/-- Fills the arguments into a pattern; `index` is the place of its first character. -/
def fill (index : Nat) : List Char → List Json → Except PatternFault (List Char)
  | [], [] => .ok []
  | [], _ :: _ => .error .tooMany
  | ['%'], _ => .error .unfinished
  | '%' :: '%' :: cs, args => (fill (index + 2) cs args).map ('%' :: ·)
  | '%' :: c :: cs, args =>
    match args with
    | [] => .error .tooFew
    | v :: more =>
      match convert c (index + 1) v with
      | .error f => .error f
      | .ok text => (fill (index + 2) cs more).map (text ++ ·)
  | c :: cs, args => (fill (index + 1) cs args).map (c :: ·)

end Pattern

/-- A log record. A field that the record does not have is shown as a dash. -/
structure LogRecord where
  level : LogLevel
  name : String
  message : String
  arguments : List Json := []
  generation : Option Json := none
  stage : Option Json := none

namespace LogRecord

/-- A field of a record in its line. -/
def fieldText (v : Option Json) : String :=
  (v.map fun v => (Literal.shown v).shown).getD "-"

/-- The message of a record with its arguments filled in. -/
def messageText (r : LogRecord) : Except PatternFault String :=
  if r.arguments.isEmpty then .ok r.message
  else (Pattern.fill 0 r.message.toList r.arguments).map String.ofList

/-- The line of a record, behind its time. -/
def text (r : LogRecord) : Except PatternFault String :=
  r.messageText.map fun message =>
    r.level.name ++ " " ++ r.name ++ " [generation_id=" ++ fieldText r.generation ++ " stage=" ++
      fieldText r.stage ++ "] - " ++ message

end LogRecord

end Nanoservice
