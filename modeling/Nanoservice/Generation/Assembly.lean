import Nanoservice.Candidate
import Nanoservice.Generation.Completion

/-!
# From prompt to model

A generation checks its input, asks for one completion, decodes the reply into a candidate and
validates the candidate. It has two halves around the completion: `Generation.request` comes to a
request or an input failure, and `Generation.conclude` turns what became of the request into a
model or the failure where the generation stopped. Two things interrupt a generation without being
a failure of it: a client that breaks off, and a reply with an integer too long to convert.
-/

namespace Nanoservice

/-- Why a generation broke off. -/
inductive Interruption where
  | client (message : RawText)
  | longInteger (digits : Nat)
  deriving DecidableEq, Repr

namespace Interruption

/-- The wording of an interruption. -/
def message : Interruption → RawText
  | .client m => m
  | .longInteger n => .plain <|
    s!"Exceeds the limit ({Text.maxIntegerDigits} digits) for integer string conversion: " ++
      s!"value has {n} digits; use sys.set_int_max_str_digits() to increase the limit"

end Interruption

/-- A failure and the stage at which the generation stopped for it. -/
structure Stop where
  failure : Failure
  stage : Stage
  deriving DecidableEq, Repr

namespace Reply

/-- The failure of a reply that is no JSON. -/
def malformed : Failure :=
  ⟨.malformedResponse, "Failed to parse the text-generation response as JSON", .translate⟩

/-- The failure of a reply that is JSON of another shape. -/
def misshapen : Failure :=
  ⟨.invalidShape,
    "Invalid data format in text-generation response: 'name' and a 'workflows' list are required",
    .translate⟩

/-- A reply must be an object with a name that does not count as absent and a workflow list. -/
def hasShape : Json → Bool
  | .obj fs =>
    !((fs.lookup (.plain "name")).getD .null).isFalsy &&
      ((fs.lookup (.plain "workflows")).bind Json.items?).isSome
  | _ => false

/-- The candidate that a reply holds. -/
def decode (text : String) : Except Interruption (Except Failure Json) :=
  match Json.read text with
  | .error (.malformed _) => .ok (.error malformed)
  | .error (.longInteger n) => .error (.longInteger n)
  | .ok v => .ok (if hasShape v then .ok v else .error misshapen)

end Reply

namespace Generation

/-- The model that a request asks for: the override unless it is missing or empty. -/
def modelName (settings : Settings) (override : Option RawText) : RawText :=
  match override with
  | some m => if m.isEmpty then settings.model else m
  | none => settings.model

/-- The completion request of a prompt, or the failure of its input. -/
def request (settings : Settings) (prompt : RawText) (override : Option RawText) :
    Except Failure CompletionRequest :=
  match Prompt.inputFailure? (some prompt) settings.apiKey with
  | some f => .error f
  | none => .ok
    { messages := Prompt.messages prompt
      model := modelName settings override
      temperature := .float settings.temperature
      maxTokens := .int settings.maxTokens
      jsonMode := true }

/-- The candidate that a completion leads to. -/
def candidate : Completion → Except Interruption (Except Failure Json)
  | .reply text => Reply.decode text
  | .failure m => .ok (.error ⟨.serviceUnavailable, m, .translate⟩)
  | .crash m => .error (.client m)

/-- The candidate that a prompt leads to, with the requests made on the way; `respond` says what
becomes of a request. -/
def translate (settings : Settings) (prompt : RawText) (override : Option RawText)
    (respond : CompletionRequest → Completion) :
    List CompletionRequest × Except Interruption (Except Failure Json) :=
  match request settings prompt override with
  | .error f => ([], .ok (.error f))
  | .ok r => ([r], candidate (respond r))

/-- The model of a candidate, or the failure at which the generation stops. -/
def validated (freshId : String) : Except Failure Json → Except Stop Backend
  | .error f => .error ⟨f, .translate⟩
  | .ok raw =>
    match Candidate.validate freshId raw with
    | .ok b => .ok b
    | .error r => .error ⟨⟨r.code, r.reason, .validate⟩, .validate⟩

/-- The model that a completion leads to. -/
def conclude (freshId : String) (c : Completion) :
    Except Interruption (Except Stop Backend) :=
  (candidate c).map (validated freshId)

/-- The model that a prompt leads to, with the requests made on the way. -/
def assemble (freshId : String) (settings : Settings) (prompt : RawText)
    (override : Option RawText) (respond : CompletionRequest → Completion) :
    List CompletionRequest × Except Interruption (Except Stop Backend) :=
  let (requests, outcome) := translate settings prompt override respond
  (requests, outcome.map (validated freshId))

/-- The wording of a generation that came to a model. -/
def successMessage (b : Backend) : String :=
  "Generated backend '" ++ b.name ++ "'"

end Generation

end Nanoservice
