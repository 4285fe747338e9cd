import Nanoservice.Backend.Reading
import Nanoservice.Generation.Failure
import Nanoservice.Literal

/-!
# Candidates

A candidate is the JSON value that a completion proposes as a backend. It is checked for its shape,
for names used twice, for workflow nodes that are not defined and for endpoints without a path or a
known method; the checks look only at entries that are objects and leave all else to the reading of
the model that follows. Endpoints listed at the top level take the place of those of the workflows.
-/

namespace Nanoservice

/-- Why a candidate is refused. -/
inductive Refusal where
  | notObject
  | noName
  | noWorkflows
  | repeatedNode (name : RawText)
  | repeatedWorkflow (name : RawText)
  | nodesNotList (workflow : Json)
  | unknownNode (workflow node : Json)
  | noPath
  | unknownMethod (path : RawText) (method : Json)
  | invalid (issues : List Issue)

namespace Refusal

/-- The failure code of a refusal. -/
def code : Refusal → FailureCode
  | .notObject | .noName | .noWorkflows => .invalidShape
  | .repeatedNode _ | .repeatedWorkflow _ => .duplicateName
  | .unknownNode _ _ => .danglingNodeReference
  | .noPath | .unknownMethod _ _ => .invalidEndpoint
  | .nodesNotList _ | .invalid _ => .invalidModel

/-- The wording of a refusal. -/
def reason : Refusal → RawText
  | .notObject => "candidate must be a JSON object"
  | .noName => "candidate is missing a non-empty 'name'"
  | .noWorkflows => "candidate is missing a 'workflows' list"
  | .repeatedNode name => "node name '" ++ name ++ "' is used more than once"
  | .repeatedWorkflow name => "workflow name '" ++ name ++ "' is used more than once"
  | .nodesNotList workflow =>
    "workflow '" ++ Literal.shown workflow ++ "' nodes must be a list"
  | .unknownNode workflow node =>
    "workflow '" ++ Literal.shown workflow ++ "' references unknown node '" ++
      Literal.shown node ++ "'"
  | .noPath => "endpoint path must be a non-empty string"
  | .unknownMethod path method =>
    "endpoint " ++ path ++ (" has unsupported method " ++ Literal.ofJson method ++
      " (expected one of " ++ String.intercalate ", " (Method.all.map Method.keyword) ++ ")")
  | .invalid issues => Issue.report issues

end Refusal

namespace Candidate

/-- The fields of an object. -/
abbrev Fields : Type := List (RawText × Json)

/-- The entries of a list that are objects; any other value has none. -/
def objects : Option Json → List Fields
  | some (.arr vs) => vs.filterMap fun v =>
    match v with
    | .obj fs => some fs
    | _ => none
  | _ => []

/-- The names of parts that have a text as name. -/
def names (parts : List Fields) : List RawText :=
  parts.filterMap fun fs => (fs.lookup (.plain "name")).bind Json.rawText?

/-- The first name that stands in a list before. -/
def firstRepeated? (seen : List RawText) : List RawText → Option RawText
  | [] => none
  | n :: ns => if seen.contains n then some n else firstRepeated? (n :: seen) ns

/-- The first fault of a workflow's node list, given the names of the nodes. -/
def nodesFault? (known : List RawText) (workflow : Fields) : Option Refusal :=
  let name := (workflow.lookup (.plain "name")).getD .null
  match workflow.lookup (.plain "nodes") with
  | none => none
  | some v =>
    if v.isFalsy then none
    else match v with
      | .arr refs =>
        (refs.find? fun r => !((Json.rawText? r).any known.contains)).map (.unknownNode name)
      | _ => some (.nodesNotList name)

/-- The endpoints that the model gets: those at the top level, or those of the workflows in
order. -/
def endpoints (fs : Fields) : List Json :=
  match fs.lookup (.plain "endpoints") with
  | some (.arr vs) => vs
  | _ => (objects (fs.lookup (.plain "workflows"))).flatMap fun w =>
    ((w.lookup (.plain "endpoints")).bind Json.items?).getD []

/-- The fault of an endpoint's path or method. -/
def endpointFault? (endpoint : Fields) : Option Refusal :=
  match (endpoint.lookup (.plain "path")).bind Json.rawText? with
  | none => some .noPath
  | some path =>
    if path.isBlank then some .noPath
    else
      let method := (endpoint.lookup (.plain "method")).getD .null
      match Rule.method method with
      | .ok _ => none
      | .error _ => some (.unknownMethod path method)

/-- The object that is read as a model: the fields that a candidate may set, and no other. -/
def prepared (fs : Fields) : Json :=
  let nodes := (fs.lookup (.plain "nodes")).getD .null
  .obj [("name", (fs.lookup (.plain "name")).getD .null),
    ("description", (fs.lookup (.plain "description")).getD .null),
    ("version", (fs.lookup (.plain "version")).getD .null),
    ("nodes", if nodes.isFalsy then .arr [] else nodes),
    ("workflows", (fs.lookup (.plain "workflows")).getD .null),
    ("endpoints", .arr (endpoints fs))]

/-- The first fault that shows before a candidate is read as a model. -/
def fault? (fs : Fields) : Option Refusal :=
  let nodes := objects (fs.lookup (.plain "nodes"))
  let workflows := objects (fs.lookup (.plain "workflows"))
  let nodeNames := names nodes
  match firstRepeated? [] nodeNames with
  | some n => some (.repeatedNode n)
  | none =>
    match firstRepeated? [] (names workflows) with
    | some n => some (.repeatedWorkflow n)
    | none =>
      match workflows.findSome? (nodesFault? nodeNames) with
      | some r => some r
      | none =>
        let nested := workflows.flatMap fun w => objects (w.lookup (.plain "endpoints"))
        (objects (some (.arr (endpoints fs))) ++ nested).findSome? endpointFault?

/-- The name of a candidate is a text that is not blank. -/
def hasName (fs : Fields) : Bool :=
  match (fs.lookup (.plain "name")).bind Json.rawText? with
  | some name => !name.isBlank
  | none => false

/-- The workflows of a candidate are a list. -/
def hasWorkflows (fs : Fields) : Bool :=
  ((fs.lookup (.plain "workflows")).bind Json.items?).isSome

/-- The model of a candidate, or why it is refused; `freshId` is the identity of the model. -/
def validate (freshId : String) : Json → Except Refusal Backend
  | .obj fs =>
    if !hasName fs then .error .noName
    else if !hasWorkflows fs then .error .noWorkflows
    else match fault? fs with
      | some r => .error r
      | none =>
        match Backend.ofJson freshId (prepared fs) with
        | .ok b => .ok b
        | .error issues => .error (.invalid issues)
  | _ => .error .notObject

end Candidate

end Nanoservice
