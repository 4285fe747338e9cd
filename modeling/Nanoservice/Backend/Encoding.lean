import Nanoservice.Backend.Basic
import Nanoservice.Json.Reader
import Nanoservice.Json.Writer
import Nanoservice.Backend.Reading
import Nanoservice.Literal

/-!
# Writing a model

The JSON value of a model has every field, in the order of the types. Inside response schemas null
stands for each special number, as JSON has none, and each key has its spelled form. The text of
that value is what is persisted. Writing it stops at the first text with half of a surrogate pair
and at the first value that is nested too deep in a schema; such a model has no text. -/

namespace Nanoservice

/-- The JSON value of an input or output. -/
def Field.toJson (f : Field) : Json :=
  .obj [("name", .str f.name), ("type", .str f.type.keyword),
    ("description", .ofText f.description)]

/-- The JSON value of a node. -/
def Node.toJson (n : Node) : Json :=
  .obj [("name", .str n.name), ("type", .str n.kind.keyword),
    ("description", .ofText n.description), ("inputs", .arr (n.inputs.map Field.toJson)),
    ("outputs", .arr (n.outputs.map Field.toJson))]

/-- The JSON value of a parameter. -/
def Parameter.toJson (p : Parameter) : Json :=
  .obj [("name", .str p.name), ("in", .str p.location.keyword), ("required", .bool p.required),
    ("type", .str p.type.keyword), ("description", .ofText p.description)]

/-- The JSON value of a response. -/
def Response.toJson (r : Response) : Json :=
  .obj [("status", .int r.status), ("description", .ofText r.description),
    ("schema", match r.schema with
      | some fs => .obj (Json.spelledFields (Json.finiteFields fs))
      | none => .null)]

/-- The JSON value of an endpoint. -/
def Endpoint.toJson (e : Endpoint) : Json :=
  .obj [("path", .ofText e.path), ("method", .str e.method.keyword),
    ("description", .ofText e.description),
    ("parameters", .arr (e.parameters.map Parameter.toJson)),
    ("responses", .arr (e.responses.map Response.toJson))]

/-- The JSON value of a workflow. -/
def Workflow.toJson (w : Workflow) : Json :=
  .obj [("name", .str w.name), ("description", .ofText w.description),
    ("nodes", .arr (w.nodes.map Json.ofText)),
    ("endpoints", .arr (w.endpoints.map Endpoint.toJson))]

/-! ## What stops the writing -/

/-- Why a model cannot be encoded. -/
inductive EncodingFault where
  /-- Halves of surrogate pairs are part of a text. -/
  | broken (symbols : List Symbol)
  /-- A value is nested too deep. -/
  | tooDeep
  deriving DecidableEq, Repr

namespace EncodingFault

/-- The number of characters in front of the first half. -/
def position (symbols : List Symbol) : Nat :=
  (symbols.takeWhile fun s => s.char?.isSome).length

/-- The first half and those that follow it in a row. -/
def halves (symbols : List Symbol) : List Symbol :=
  (symbols.drop (position symbols)).takeWhile fun s => s.char?.isNone

/-- The wording of an encoding fault. -/
def message : EncodingFault → String
  | .broken symbols =>
    "Error serializing to JSON: UnicodeEncodeError: 'utf-8' codec can't encode " ++
      (match halves symbols with
        | [.half s] =>
          s!"character '{String.ofList (Literal.codeEscape s.unit)}' in position {position symbols}"
        | hs => s!"characters in position {position symbols}-{position symbols + hs.length - 1}") ++
      ": surrogates not allowed"
  | .tooDeep =>
    "Error serializing to JSON: ValueError: Circular reference detected (depth exceeded)"

end EncodingFault

/-- What stops the writing of a text. -/
def RawText.fault? : RawText → Option EncodingFault
  | .plain _ => none
  | .broken symbols => some (.broken symbols)

namespace Json

mutual
/-- What stops the writing of a value where `room` levels of values are left. -/
def fault? : (room : Nat) → Json → Option EncodingFault
  | 0, _ => some .tooDeep
  | _ + 1, .broken symbols => some (.broken symbols)
  | room + 1, .arr vs => faultOfItems? room vs
  | room + 1, .obj fs => faultOfFields? room fs
  | _ + 1, _ => none

/-- What stops the writing of array items. -/
def faultOfItems? (room : Nat) : List Json → Option EncodingFault
  | [] => none
  | v :: vs => (fault? room v).or (faultOfItems? room vs)

/-- What stops the writing of object fields. -/
def faultOfFields? (room : Nat) : List (RawText × Json) → Option EncodingFault
  | [] => none
  | (_, v) :: fs => (fault? room v).or (faultOfFields? room fs)
end

/-- The most levels of values that may be written below a schema. -/
def writableHeight : Nat := 254

/-- The most levels of arrays and objects that the reader of persisted texts takes. -/
def readableLevels : Nat := 200

end Json

/-- What stops the writing of an input or output. -/
def Field.fault? (f : Field) : Option EncodingFault :=
  f.description.fault?

/-- What stops the writing of a node. -/
def Node.fault? (n : Node) : Option EncodingFault :=
  n.description.fault?.or ((n.inputs ++ n.outputs).findSome? Field.fault?)

/-- What stops the writing of a parameter. -/
def Parameter.fault? (p : Parameter) : Option EncodingFault :=
  p.description.fault?

/-- What stops the writing of a response. -/
def Response.fault? (r : Response) : Option EncodingFault :=
  r.description.fault?.or (r.schema.bind (Json.faultOfFields? Json.writableHeight))

/-- What stops the writing of an endpoint. -/
def Endpoint.fault? (e : Endpoint) : Option EncodingFault :=
  ([e.path, e.description].findSome? RawText.fault?).or
    ((e.parameters.findSome? Parameter.fault?).or (e.responses.findSome? Response.fault?))

/-- What stops the writing of a workflow. -/
def Workflow.fault? (w : Workflow) : Option EncodingFault :=
  ((w.description :: w.nodes).findSome? RawText.fault?).or (w.endpoints.findSome? Endpoint.fault?)

/-- The schema of a response, if there is one, is nested no deeper than can be written. -/
def Response.isShallow (r : Response) : Bool :=
  r.schema.all fun fs => Json.heightOfFields fs ≤ Json.writableHeight

namespace Backend

/-- What stops the writing of a model. -/
def encodingFault? (b : Backend) : Option EncodingFault :=
  ([b.id, b.description, b.version].findSome? RawText.fault?).or
    ((b.nodes.findSome? Node.fault?).or
      ((b.workflows.findSome? Workflow.fault?).or (b.endpoints.findSome? Endpoint.fault?)))

/-- A model that can be encoded. -/
def isEncodable (b : Backend) : Bool :=
  b.encodingFault?.isNone

/-! ## The text of a model -/

/-- The JSON value of a model. -/
def toJson (b : Backend) : Json :=
  .obj [("id", .ofText b.id), ("name", .str b.name), ("description", .ofText b.description),
    ("version", .ofText b.version), ("nodes", .arr (b.nodes.map Node.toJson)),
    ("workflows", .arr (b.workflows.map Workflow.toJson)),
    ("endpoints", .arr (b.endpoints.map Endpoint.toJson))]

/-- The text of a model that can be encoded, spread over lines when an indentation is given. -/
def toText (b : Backend) (indent : Option Nat) : String :=
  b.toJson.write (.model indent)

/-- Encodes a model as a text. -/
def encode (b : Backend) (indent : Option Nat) : Except EncodingFault String :=
  match b.encodingFault? with
  | some f => .error f
  | none => .ok (b.toText indent)

/-- The text of a model as it is persisted. -/
def persistedText (b : Backend) : String :=
  b.toText (some 2)

/-- The model that a persisted text holds. -/
def ofText? (freshId : String) (s : String) : Option Backend :=
  match Json.readStrict s with
  | .error _ => none
  | .ok v => if v.levels ≤ Json.readableLevels then (ofJson freshId v).toOption else none

/-! ## The value of a model apart from its text -/

/-- The responses of all endpoints of a model, those inside workflows included. -/
def responses (b : Backend) : List Response :=
  (b.endpoints ++ b.workflows.flatMap Workflow.endpoints).flatMap Endpoint.responses

/-- The JSON value of a model as answers show it, in which no key occurs twice. Texts in it may hold
halves of surrogate pairs; a model with a value that is nested too deep in a schema has none. -/
def dump? (b : Backend) : Option Json :=
  if b.responses.all Response.isShallow then some b.toJson.merged else none

end Backend

end Nanoservice
