import Nanoservice.Backend.Basic
import Nanoservice.Json.Writer
import Nanoservice.Table
import Nanoservice.Text.Numeral

/-!
# The OpenAPI document

A backend as an OpenAPI document. The service answers below `/api`, so that segment is cut off the
front of paths. Endpoints whose paths agree afterwards share an entry, in which the last endpoint
of each method counts. Body parameters are merged into one request body: the first one decides
whether it is required and how it is described, and the first one of each name gives its property.

The statuses of responses are keys of the document, so an endpoint with a status that is too long
for a decimal text has no operation. A backend with such an endpoint has the smallest document in
place of one that is complete (`project`). -/

namespace Nanoservice.OpenApi

/-- The version of the format. -/
def formatVersion : String := "3.0.3"

/-- The path below which the service answers. -/
def basePath : String := "/api"

/-- A path without the leading base segment, with a slash in front. -/
def relativePath (path : String) : String :=
  let cs := match path.toList with
    | '/' :: 'a' :: 'p' :: 'i' :: [] => []
    | '/' :: 'a' :: 'p' :: 'i' :: '/' :: rest => '/' :: rest
    | other => other
  String.ofList (match cs with
    | '/' :: rest => '/' :: rest
    | other => '/' :: other)

/-! ## The parts of a document -/

/-- How a media type is described: as JSON with a schema. -/
structure Content where
  schema : List (RawText × Json)

/-- A parameter that is no body parameter. -/
structure ParameterEntry where
  name : String
  location : Location
  description : RawText
  required : Bool
  type : ValueType

/-- The merged body parameters. -/
structure RequestBody where
  description : RawText
  required : Bool
  properties : List (String × Parameter)

/-- The responses of an operation; without declared ones, the one default response. -/
inductive Responses where
  | standard
  | declared (table : List (String × Response))

/-- An operation: what one method of a path does. -/
structure Operation where
  description : RawText
  parameters : List ParameterEntry
  body : Option RequestBody
  responses : Responses

/-- A document: its head and the operations of each path by method. -/
structure Document where
  title : String
  description : RawText
  version : RawText
  paths : List (RawText × List (Method × Operation))

/-! ## From endpoints to operations -/

/-- The entry of a parameter; a path parameter is always required. -/
def ParameterEntry.ofParameter (p : Parameter) : ParameterEntry :=
  { name := p.name
    location := p.location
    description := p.description
    required := p.location == .path || p.required
    type := p.type }

/-- The request body of merged body parameters, if there are any. -/
def RequestBody.ofParameters? : List Parameter → Option RequestBody
  | [] => none
  | first :: rest => some
    { description := first.description
      required := first.required
      properties := Table.ofFirst ((first :: rest).map fun p => (p.name, p)) }

/-- The responses by status; the last response of a status counts. -/
def Responses.ofList (rs : List Response) : Responses :=
  if rs.isEmpty then .standard
  else .declared (Table.ofLast (rs.map fun r => (String.ofList (Text.intChars r.status), r)))

/-- What an endpoint says as an operation, with every status written out. -/
def Operation.ofEndpoint (e : Endpoint) : Operation :=
  { description := e.description
    parameters := (e.parameters.filter (·.location != .body)).map ParameterEntry.ofParameter
    body := RequestBody.ofParameters? (e.parameters.filter (·.location == .body))
    responses := Responses.ofList e.responses }

/-- The operation of an endpoint; there is none if a status is too long for a decimal text. -/
def Operation.ofEndpoint? (e : Endpoint) : Option Operation :=
  if e.hasShortStatuses then some (.ofEndpoint e) else none

/-- Enters an endpoint under its path and method. -/
def enter (paths : List (RawText × List (Method × Operation))) (e : Endpoint) :
    List (RawText × List (Method × Operation)) :=
  let path := e.path.rewrite relativePath
  let entry := (Table.get? path paths).getD []
  Table.put path (Table.put e.method (Operation.ofEndpoint e) entry) paths

/-- The complete document of a backend. -/
def Document.ofBackend (b : Backend) : Document :=
  { title := b.name
    description := b.description
    version := b.version
    paths := b.endpoints.foldl enter [] }

/-! ## The JSON value of a document -/

/-- The object that says only a type. -/
def typeObject (t : ValueType) : List (RawText × Json) :=
  [("type", .str t.keyword)]

/-- The content object of a schema. -/
def contentJson (schema : List (RawText × Json)) : Json :=
  .obj [("application/json", .obj [("schema", .obj schema)])]

/-- The JSON value of a parameter. -/
def ParameterEntry.toJson (p : ParameterEntry) : Json :=
  .obj [("name", .str p.name), ("in", .str p.location.keyword),
    ("description", .ofText p.description), ("required", .bool p.required),
    ("schema", .obj (typeObject p.type))]

/-- The JSON value of a request body. -/
def RequestBody.toJson (r : RequestBody) : Json :=
  let properties := r.properties.map fun (name, p) =>
    (RawText.plain name,
      Json.obj (typeObject p.type ++ [(RawText.plain "description", Json.ofText p.description)]))
  .obj [("description", .ofText r.description), ("required", .bool r.required),
    ("content", contentJson [("type", .str "object"), ("properties", .obj properties)])]

/-- The JSON value of a declared response; an empty schema says nothing. -/
def responseJson (r : Response) : Json :=
  let content : List (RawText × Json) := match r.schema with
    | some (f :: fs) => [("content", contentJson (f :: fs))]
    | _ => []
  .obj (("description", .ofText r.description) :: content)

/-- The JSON value of the response of an operation that declares none. -/
def standardResponse : Json :=
  .obj [("description", .str "Successful operation")]

/-- The JSON value of responses. -/
def Responses.toJson : Responses → Json
  | .standard => .obj [("200", standardResponse)]
  | .declared table => .obj (table.map fun (status, r) => (.plain status, responseJson r))

/-- The fields of an operation in front of its responses. -/
def Operation.headFields (o : Operation) : List (RawText × Json) :=
  [(RawText.plain "summary", Json.ofText o.description),
    (RawText.plain "description", Json.ofText o.description)] ++
    (if o.parameters.isEmpty then []
      else [(RawText.plain "parameters", .arr (o.parameters.map ParameterEntry.toJson))]) ++
    (match o.body with
      | some r => [(RawText.plain "requestBody", r.toJson)]
      | none => [])

/-- The JSON value of an operation. -/
def Operation.toJson (o : Operation) : Json :=
  .obj (o.headFields ++ [(.plain "responses", o.responses.toJson)])

/-- The JSON value of the operations of a path. -/
def pathJson (operations : List (Method × Operation)) : Json :=
  .obj (operations.map fun (m, o) => (.plain m.lowerName, o.toJson))

/-- The head of a document. -/
def infoJson (title description version : Json) : Json :=
  .obj [("title", title), ("description", description), ("version", version)]

/-- The servers of a document. -/
def serversJson : Json :=
  .arr [.obj [("url", .str basePath)]]

/-- The JSON value of a document. -/
def Document.toJson (d : Document) : Json :=
  .obj [("openapi", .str formatVersion),
    ("info", infoJson (.str d.title) (.ofText d.description) (.ofText d.version)),
    ("servers", serversJson),
    ("paths", .obj (d.paths.map fun (path, operations) => (path, pathJson operations))),
    ("components", .obj [("schemas", .obj [])])]

/-- The smallest document, for a backend of which only a title and a version are known. -/
def minimalJson (title version : Option Json) : Json :=
  let orElse (v : Option Json) (default : String) : Json :=
    match v with
    | some x => if x.isFalsy then .str default else x
    | none => .str default
  .obj [("openapi", .str formatVersion),
    ("info", infoJson (orElse title "Generated API")
      (.str "Error generating complete specification") (orElse version "0.1.0")),
    ("servers", serversJson),
    ("paths", .obj [])]

/-! ## The projection -/

/-- The document of a backend: a complete one, or the smallest one in its place. -/
inductive Projection where
  | complete (d : Document)
  | minimal (title : String) (version : RawText)

/-- The JSON value of a projection. -/
def Projection.toJson : Projection → Json
  | .complete d => d.toJson
  | .minimal title version => minimalJson (some (.str title)) (some (.ofText version))

/-- The document of a backend: the complete one if every endpoint has an operation. -/
def project (b : Backend) : Projection :=
  if b.endpoints.all fun e => (Operation.ofEndpoint? e).isSome then .complete (.ofBackend b)
  else .minimal b.name b.version

/-- The document of loose attributes: complete if there are no endpoints and no attribute is
missing, and the smallest document otherwise. -/
def ofAttributes (attributes : List (RawText × Json)) : Json :=
  let noEndpoints := match attributes.lookup (.plain "endpoints") with
    | some (.arr vs) => vs.isEmpty
    | some (.str s) => s.isEmpty
    | some (.obj fs) => fs.isEmpty
    | _ => false
  let title := attributes.lookup (.plain "name")
  let version := attributes.lookup (.plain "version")
  match title, attributes.lookup (.plain "description"), version,
      attributes.lookup (.plain "endpoint_count") with
  | some t, some d, some v, some _ =>
    if noEndpoints then
      .obj [("openapi", .str formatVersion), ("info", infoJson t d v), ("servers", serversJson),
        ("paths", .obj []), ("components", .obj [("schemas", .obj [])])]
    else minimalJson title version
  | _, _, _, _ => minimalJson title version

end Nanoservice.OpenApi
