import Nanoservice.Backend.Basic
import Nanoservice.Literal

/-!
# Shown forms of model parts

The text that stands for a part of a model where a page asks for the part as a whole: the name of
its kind and all its fields, with their values as literals.
-/

namespace Nanoservice

namespace Shown

/-- A part from its kind and its shown fields. -/
def part (kind : String) (fields : List (String × String)) : String :=
  kind ++ "(" ++ String.intercalate ", " (fields.map fun f => f.1 ++ "=" ++ f.2) ++ ")"

/-- A sequence of shown items. -/
def sequence : List String → String
  | [] => "()"
  | [s] => "(" ++ s ++ ",)"
  | ss => "(" ++ String.intercalate ", " ss ++ ")"

end Shown

open Shown Literal

/-- The shown form of an input or output. -/
def Field.shown (f : Field) : String :=
  part "IOField" [("name", quote f.name), ("type", quote f.type.keyword),
    ("description", quoteRaw f.description)]

/-- The shown form of a node. -/
def Node.shown (n : Node) : String :=
  part "Node" [("name", quote n.name), ("type", quote n.kind.keyword),
    ("description", quoteRaw n.description), ("inputs", sequence (n.inputs.map Field.shown)),
    ("outputs", sequence (n.outputs.map Field.shown))]

/-- The shown form of a parameter. -/
def Parameter.shown (p : Parameter) : String :=
  part "Parameter" [("name", quote p.name), ("location", quote p.location.keyword),
    ("required", Literal.ofJson (.bool p.required)), ("type", quote p.type.keyword),
    ("description", quoteRaw p.description)]

/-- The shown form of a response. -/
def Response.shown (r : Response) : String :=
  part "Response" [("status", Literal.ofJson (.int r.status)),
    ("description", quoteRaw r.description),
    ("schema_", Literal.ofJson ((r.schema.map Json.obj).getD .null))]

/-- The shown form of an endpoint. -/
def Endpoint.shown (e : Endpoint) : String :=
  part "Endpoint" [("path", quoteRaw e.path), ("method", quote e.method.keyword),
    ("description", quoteRaw e.description),
    ("parameters", sequence (e.parameters.map Parameter.shown)),
    ("responses", sequence (e.responses.map Response.shown))]

/-- The shown form of a workflow. -/
def Workflow.shown (w : Workflow) : String :=
  part "Workflow" [("name", quote w.name), ("description", quoteRaw w.description),
    ("nodes", sequence (w.nodes.map quoteRaw)),
    ("endpoints", sequence (w.endpoints.map Endpoint.shown))]

/-- The shown form of a model: its fields alone. -/
def Backend.shown (b : Backend) : String :=
  String.intercalate " " ([("id", quoteRaw b.id), ("name", quote b.name),
    ("description", quoteRaw b.description), ("version", quoteRaw b.version),
    ("nodes", sequence (b.nodes.map Node.shown)),
    ("workflows", sequence (b.workflows.map Workflow.shown)),
    ("endpoints", sequence (b.endpoints.map Endpoint.shown))].map fun f => f.1 ++ "=" ++ f.2)

end Nanoservice
