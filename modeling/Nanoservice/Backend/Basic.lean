import Nanoservice.Json.Basic

/-!
# The backend model

A backend consists of nodes (single units of logic), workflows (ordered sequences of nodes) and
endpoints (the HTTP operations that workflows serve). Names are sequences of characters; every other
text is a raw one. The types below hold what the model means; that names are not empty, paths are in
normal form and references lead somewhere is said by the rules that read a model
(`Nanoservice.Backend.Reading`).
-/

namespace Nanoservice

/-- What a node does. -/
inductive NodeKind where
  | dataProcessor
  | validator
  | externalApi
  | database
  | transformer
  deriving DecidableEq, Repr

/-- The type of a value that flows between nodes or comes with a request. -/
inductive ValueType where
  | string
  | number
  | boolean
  | object
  deriving DecidableEq, Repr

/-- Where a request carries a parameter. -/
inductive Location where
  | path
  | query
  | body
  | header
  deriving DecidableEq, Repr

/-- The HTTP methods that an endpoint may have. -/
inductive Method where
  | get
  | post
  | put
  | delete
  deriving DecidableEq, Repr

namespace NodeKind

/-- The keyword of a node kind. -/
def keyword : NodeKind → String
  | .dataProcessor => "data-processor"
  | .validator => "validator"
  | .externalApi => "external-api"
  | .database => "database"
  | .transformer => "transformer"

/-- All node kinds, in the order in which messages list them. -/
def all : List NodeKind := [.dataProcessor, .validator, .externalApi, .database, .transformer]

end NodeKind

namespace ValueType

/-- The keyword of a value type. -/
def keyword : ValueType → String
  | .string => "string"
  | .number => "number"
  | .boolean => "boolean"
  | .object => "object"

/-- All value types, in the order in which messages list them. -/
def all : List ValueType := [.string, .number, .boolean, .object]

end ValueType

namespace Location

/-- The keyword of a parameter location. -/
def keyword : Location → String
  | .path => "path"
  | .query => "query"
  | .body => "body"
  | .header => "header"

/-- All parameter locations, in the order in which messages list them. -/
def all : List Location := [.path, .query, .body, .header]

end Location

namespace Method

/-- The keyword of a method, in upper case. -/
def keyword : Method → String
  | .get => "GET"
  | .post => "POST"
  | .put => "PUT"
  | .delete => "DELETE"

/-- The name of a method in lower case. -/
def lowerName : Method → String
  | .get => "get"
  | .post => "post"
  | .put => "put"
  | .delete => "delete"

/-- All methods, in the order in which messages list them. -/
def all : List Method := [.get, .post, .put, .delete]

end Method

/-- A typed input or output of a node. -/
structure Field where
  name : String
  type : ValueType
  description : RawText
  deriving DecidableEq, Repr

/-- A single unit of logic. -/
structure Node where
  name : String
  kind : NodeKind
  description : RawText
  inputs : List Field
  outputs : List Field
  deriving DecidableEq, Repr

/-- A parameter of an endpoint. -/
structure Parameter where
  name : String
  location : Location
  required : Bool
  type : ValueType
  description : RawText
  deriving DecidableEq, Repr

/-- A response that an endpoint may give; the schema is free JSON. -/
structure Response where
  status : Int
  description : RawText
  schema : Option (List (RawText × Json))
  deriving Repr

/-- An HTTP operation. -/
structure Endpoint where
  path : RawText
  method : Method
  description : RawText
  parameters : List Parameter
  responses : List Response
  deriving Repr

/-- An ordered sequence of nodes, by name, and the endpoints it serves. -/
structure Workflow where
  name : String
  description : RawText
  nodes : List RawText
  endpoints : List Endpoint
  deriving Repr

/-- A generated backend. -/
structure Backend where
  id : RawText
  name : String
  description : RawText
  version : RawText
  nodes : List Node
  workflows : List Workflow
  endpoints : List Endpoint
  deriving Repr

/-! ## Integers with a decimal text -/

/-- Every status of an endpoint has a decimal text. -/
def Endpoint.hasShortStatuses (e : Endpoint) : Bool :=
  e.responses.all fun r => Text.isShortInteger r.status

/-- Every integer of an endpoint has a decimal text, in schemas too. -/
def Endpoint.hasShortIntegers (e : Endpoint) : Bool :=
  e.hasShortStatuses && e.responses.all fun r => r.schema.all Json.fieldsHaveShortIntegers

/-- Every integer of a model has a decimal text. -/
def Backend.hasShortIntegers (b : Backend) : Bool :=
  (b.endpoints ++ b.workflows.flatMap Workflow.endpoints).all Endpoint.hasShortIntegers

/-- The version of a backend that states none. -/
def Backend.defaultVersion : String := "0.1.0"

end Nanoservice
