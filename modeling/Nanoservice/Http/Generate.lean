import Nanoservice.Generation.Completion
import Nanoservice.Job.Basic

/-!
# Generation requests in bodies

The body of a request for a generation is a JSON object with a prompt and, if they are not left
out, a model and an identity. A body that is something else is refused with a detail for every
flaw, which shows the flawed value; a body that cannot be converted at all is refused without any.
-/

namespace Nanoservice.Http

/-- What is wrong with a part of a body. -/
inductive BodyFlaw where
  | missing
  | notText
  | notObject
  | malformed
  deriving DecidableEq, Repr

namespace BodyFlaw

/-- The name of a flaw. -/
def name : BodyFlaw → String
  | .missing => "missing"
  | .notText => "string_type"
  | .notObject => "model_attributes_type"
  | .malformed => "json_invalid"

/-- The wording of a flaw. -/
def message : BodyFlaw → String
  | .missing => "Field required"
  | .notText => "Input should be a valid string"
  | .notObject => "Input should be a valid dictionary or object to extract fields from"
  | .malformed => "JSON decode error"

end BodyFlaw

/-- Where in a body a flaw is. -/
inductive BodyPlace where
  | whole
  | field (name : String)
  | offset (n : Nat)
  deriving DecidableEq, Repr

/-- A flaw of a body, its place, and the value that has it or that lacks a field. -/
structure BodyDetail where
  flaw : BodyFlaw
  place : BodyPlace
  input : Json

/-- The JSON value of a detail. -/
def BodyDetail.toJson (d : BodyDetail) : Json :=
  let place : List Json := match d.place with
    | .whole => []
    | .field name => [.str name]
    | .offset n => [.int n]
  .obj [("type", .str d.flaw.name), ("loc", .arr (.str "body" :: place)),
    ("msg", .str d.flaw.message), ("input", d.input)]

/-- Why a body is refused. -/
inductive BodyFault where
  | flawed (details : List BodyDetail)
  | unconvertible

/-- The text of a field, or the detail of its flaw. -/
def textOf (name : String) (v : Json) : Except BodyDetail RawText :=
  match v.rawText? with
  | some t => .ok t
  | none => .error ⟨.notText, .field name, v⟩

/-- The text of a field that must be there. -/
def mandatoryText (fs : List (RawText × Json)) (name : String) : Except BodyDetail RawText :=
  match fs.lookup (.plain name) with
  | some v => textOf name v
  | none => .error ⟨.missing, .field name, .obj fs⟩

/-- The text of a field that may be left out or null. -/
def optionalText (fs : List (RawText × Json)) (name : String) :
    Except BodyDetail (Option RawText) :=
  match fs.lookup (.plain name) with
  | some .null | none => .ok none
  | some v => (textOf name v).map some

/-- The detail of a field that is flawed. -/
def detailOf {α : Type} : Except BodyDetail α → List BodyDetail
  | .ok _ => []
  | .error detail => [detail]

/-- The generation request of a JSON value. -/
def jobRequestOf : Json → Except BodyFault JobRequest
  | .obj fs =>
    let prompt := mandatoryText fs "prompt"
    let model := optionalText fs "model"
    let identity := optionalText fs "identity"
    match prompt, model, identity with
    | .ok prompt, .ok model, .ok identity => .ok ⟨prompt, model, identity⟩
    | _, _, _ => .error (.flawed
        (detailOf prompt ++ detailOf model ++ detailOf identity))
  | .null => .error (.flawed [⟨.missing, .whole, .null⟩])
  | v => .error (.flawed [⟨.notObject, .whole, v⟩])

/-- The generation request of a body. -/
def readBody (body : Option String) : Except BodyFault JobRequest :=
  let text := body.getD ""
  if text.isEmpty then .error (.flawed [⟨.missing, .whole, .null⟩])
  else
    let document := ChatAnswer.withoutMark text
    match Json.read document with
    | .ok v => jobRequestOf v
    | .error (.malformed left) =>
      .error (.flawed [⟨.malformed, .offset ((Json.Fault.malformed left).offset document),
        .obj []⟩])
    | .error (.longInteger _) => .error .unconvertible

end Nanoservice.Http
