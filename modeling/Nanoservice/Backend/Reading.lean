import Nanoservice.Backend.Rule

/-!
# Reading a model

How JSON objects are read as the parts of a backend model. Unknown fields are ignored, a missing
field takes its default if it has one, and the issues of all fields are collected in the order in
which the fields are listed here. Two fields have a second key: `in` may be called `location`, and
`schema` may be called `schema_`; the first key wins. Once every part is read, every node that a
workflow names must be a node of the model.
-/

namespace Nanoservice

namespace Reading

variable {α β : Type}

/-- The fields of an object that should describe a part of the given kind. -/
def part (kind : String) (read : List (RawText × Json) → Reading α) : Json → Reading α
  | .obj fs => read fs
  | _ => .fail (.notPart kind)

/-- A field that must be there. -/
def mandatory (rule : Json → Reading α) (key : String) (fs : List (RawText × Json)) : Reading α :=
  match fs.lookup (.plain key) with
  | some v => (rule v).under (.key key)
  | none => (fail .missing).under (.key key)

/-- A field that may be missing. -/
def optional (rule : Json → Reading α) (default : α) (key : String) (fs : List (RawText × Json)) :
    Reading α :=
  match fs.lookup (.plain key) with
  | some v => (rule v).under (.key key)
  | none => .ok default

/-- The key of a field with two names that an object uses, the first one when it uses neither. -/
def usedKey (key second : String) (fs : List (RawText × Json)) : String :=
  if (fs.lookup (.plain key)).isNone && (fs.lookup (.plain second)).isSome then second else key

/-- A list of parts. -/
def list (rule : Json → Reading α) : Json → Reading (List α)
  | .arr vs => items rule 0 vs
  | _ => .fail .notList

end Reading

open Reading

/-- Reads an input or output of a node. -/
def Field.ofJson : Json → Reading Field :=
  part "IOField" fun fs =>
    (mandatory Rule.name "name" fs).both
      ((optional Rule.valueType .string "type" fs).both
        (optional Rule.description "" "description" fs))
    |>.map fun (name, type, description) => ⟨name, type, description⟩

/-- Reads a node. -/
def Node.ofJson : Json → Reading Node :=
  part "Node" fun fs =>
    (mandatory Rule.name "name" fs).both
      ((mandatory Rule.nodeKind "type" fs).both
        ((optional Rule.description "" "description" fs).both
          ((optional (list Field.ofJson) [] "inputs" fs).both
            (optional (list Field.ofJson) [] "outputs" fs))))
    |>.map fun (name, kind, description, inputs, outputs) =>
      ⟨name, kind, description, inputs, outputs⟩

/-- Reads a parameter of an endpoint. -/
def Parameter.ofJson : Json → Reading Parameter :=
  part "Parameter" fun fs =>
    (mandatory Rule.name "name" fs).both
      ((mandatory Rule.location (usedKey "in" "location" fs) fs).both
        ((optional Rule.switch false "required" fs).both
          ((optional Rule.valueType .string "type" fs).both
            (optional Rule.description "" "description" fs))))
    |>.map fun (name, location, required, type, description) =>
      ⟨name, location, required, type, description⟩

/-- Reads a response of an endpoint. -/
def Response.ofJson : Json → Reading Response :=
  part "Response" fun fs =>
    (mandatory Rule.integer "status" fs).both
      ((optional Rule.description "" "description" fs).both
        (optional Rule.schema none (usedKey "schema" "schema_" fs) fs))
    |>.map fun (status, description, schema) => ⟨status, description, schema⟩

/-- Reads an endpoint. -/
def Endpoint.ofJson : Json → Reading Endpoint :=
  part "Endpoint" fun fs =>
    (mandatory Rule.path "path" fs).both
      ((mandatory Rule.method "method" fs).both
        ((optional Rule.description "" "description" fs).both
          ((optional (list Parameter.ofJson) [] "parameters" fs).both
            (optional (list Response.ofJson) [] "responses" fs))))
    |>.map fun (path, method, description, parameters, responses) =>
      ⟨path, method, description, parameters, responses⟩

/-- Reads a workflow. -/
def Workflow.ofJson : Json → Reading Workflow :=
  part "Workflow" fun fs =>
    (mandatory Rule.name "name" fs).both
      ((optional Rule.description "" "description" fs).both
        ((optional (list Rule.rawText) [] "nodes" fs).both
          (optional (list Endpoint.ofJson) [] "endpoints" fs)))
    |>.map fun (name, description, nodes, endpoints) => ⟨name, description, nodes, endpoints⟩

namespace Backend

/-- The first node that a workflow names and the model does not have. -/
def unknownNode? (b : Backend) : Option (String × RawText) :=
  let known := b.nodes.map fun n => RawText.plain n.name
  b.workflows.findSome? fun w =>
    (w.nodes.find? fun n => !known.contains n).map fun n => (w.name, n)

/-- Reads the parts of a model; `freshId` is the identity of a model that states none. -/
def partsOfJson (freshId : String) : Json → Reading Backend :=
  part "BackendModel" fun fs =>
    (optional Rule.rawText freshId "id" fs).both
      ((mandatory Rule.title "name" fs).both
        ((optional Rule.description "" "description" fs).both
          ((optional Rule.version defaultVersion "version" fs).both
            ((optional (list Node.ofJson) [] "nodes" fs).both
              ((optional (list Workflow.ofJson) [] "workflows" fs).both
                (optional (list Endpoint.ofJson) [] "endpoints" fs))))))
    |>.map fun (id, name, description, version, nodes, workflows, endpoints) =>
      ⟨id, name, description, version, nodes, workflows, endpoints⟩

/-- Reads a model whose references all lead to its nodes. -/
def ofJson (freshId : String) (v : Json) : Reading Backend :=
  match partsOfJson freshId v with
  | .error issues => .error issues
  | .ok b =>
    match b.unknownNode? with
    | some (workflow, node) => Reading.fail (.unknownNode workflow node)
    | none => .ok b

end Backend

end Nanoservice
