import Nanoservice.Proofs.OpenApi.Parameters

/-!
# What an operation says of its endpoint

The operation of an endpoint is read off its JSON value and compared with the endpoint, in both
directions: what each part of the endpoint became, and that nothing else is there
(`isOperation_ofEndpoint`). There is one exactly if the statuses of the endpoint can be written.
Parameters outside of the body are listed one for one. Those in the body are merged into one request
body, where the first one counts, for the body as a whole and for each name. Of the responses the
last one of each status counts. -/

namespace Nanoservice

/-- The value that a path of steps leads to. -/
def Json.at? : List Step → Json → Option Json
  | [], v => some v
  | .key k :: path, .obj fs => (fs.lookup (.plain k)).bind (at? path)
  | .index i :: path, .arr vs => vs[i]?.bind (at? path)
  | _, _ => none

/-- The parameters of an endpoint that are not in the body. -/
def Endpoint.outsideBody (e : Endpoint) : List Parameter :=
  e.parameters.filter (·.location != .body)

/-- The parameters of an endpoint that are in the body. -/
def Endpoint.inBody (e : Endpoint) : List Parameter :=
  e.parameters.filter (·.location == .body)

namespace OpenApi

/-! ## Parts of an operation -/

/-- A JSON value is the entry of a parameter that is not in the body. -/
structure IsEntry (p : Parameter) (v : Json) : Prop where
  keys : v.fields.map Prod.fst = ["name", "in", "description", "required", "schema"]
  name : v.field? "name" = some (.str p.name)
  location : v.field? "in" = some (.str p.location.keyword)
  description : v.field? "description" = some (.ofText p.description)
  type : v.field? "schema" = some (.obj [("type", .str p.type.keyword)])
  /-- A parameter of the path is required, and any other one as it says. -/
  inPath : p.location = .path → v.field? "required" = some (.bool true)
  elsewhere : p.location ≠ .path → v.field? "required" = some (.bool p.required)

/-- The way to the schema of a request body or a response. -/
def schemaPath : List Step :=
  [.key "content", .key "application/json", .key "schema"]

/-- The properties of a request body. -/
def properties (body : Json) : List (RawText × Json) :=
  ((body.at? (schemaPath ++ [.key "properties"])).getD .null).fields

/-- A JSON value is the request body of parameters. -/
structure IsRequestBody (ps : List Parameter) (body : Json) : Prop where
  keys : body.fields.map Prod.fst = ["description", "required", "content"]
  /-- The first parameter says how the body is described and whether it is required. -/
  first : ∃ p ∈ ps.head?, body.field? "description" = some (.ofText p.description) ∧
    body.field? "required" = some (.bool p.required)
  object : body.at? (schemaPath ++ [.key "type"]) = some (.str "object")
  /-- The names of the parameters stand where they first occur. -/
  order : (properties body).map Prod.fst = ((ps.map Parameter.name).eraseDups).map .plain
  /-- Under a name stand the type and the description of the first parameter that has it. -/
  property : ∀ name v, (.plain name, v) ∈ properties body →
    ∃ p, IsFirst (fun p => p.name = name) ps p ∧
      v = .obj [("type", .str p.type.keyword), ("description", .ofText p.description)]

/-- The decimal text of a status. -/
def decimal (status : Int) : String :=
  String.ofList (Text.intChars status)

/-- A JSON value is that of a declared response. -/
structure IsResponse (r : Response) (v : Json) : Prop where
  description : v.field? "description" = some (.ofText r.description)
  /-- There is a content when the response has a schema that is not empty, and it is this schema. -/
  content : v.field? "content" ≠ none ↔ ∃ fs, r.schema = some fs ∧ fs ≠ []
  schema : ∀ fs, r.schema = some fs → fs ≠ [] → v.at? schemaPath = some (.obj fs)
  keys : ∀ key ∈ v.fields.map Prod.fst, key = "description" ∨ key = "content"

/-- A JSON value is that of the responses of an operation. -/
structure AreResponses (rs : List Response) (v : Json) : Prop where
  nonempty : v.fields ≠ []
  standard : rs = [] → v = .obj [("200", .obj [("description", .str "Successful operation")])]
  /-- The statuses stand where they first occur. -/
  order : rs ≠ [] → v.fields.map Prod.fst =
    ((rs.map Response.status).eraseDups).map fun status => .plain (decimal status)
  /-- Under a status stands the last response that has it. -/
  last : rs ≠ [] → ∀ status w, (.plain (decimal status), w) ∈ v.fields →
    ∃ r, IsLast (fun r => r.status = status) rs r ∧ IsResponse r w

/-- The parameters that an operation lists. -/
def entries (operation : Json) : List Json :=
  ((operation.field? "parameters").bind Json.items?).getD []

/-- A JSON value is the operation of an endpoint. -/
structure IsOperation (e : Endpoint) (operation : Json) : Prop where
  keys : operation.fields.map Prod.fst = ["summary", "description"] ++
    (if e.outsideBody = [] then [] else ["parameters"]) ++
    (if e.inBody = [] then [] else ["requestBody"]) ++ ["responses"]
  summary : operation.field? "summary" = some (.ofText e.description)
  description : operation.field? "description" = some (.ofText e.description)
  listed : operation.field? "parameters" = none ↔ e.outsideBody = []
  parameters : List.Forall₂ IsEntry e.outsideBody (entries operation)
  merged : operation.field? "requestBody" = none ↔ e.inBody = []
  body : ∀ body, operation.field? "requestBody" = some body → IsRequestBody e.inBody body
  responses : ∃ v, operation.field? "responses" = some v ∧ AreResponses e.responses v

/-! ## Parameters outside of the body -/

theorem isEntry_ofParameter (p : Parameter) : IsEntry p (ParameterEntry.ofParameter p).toJson := by
  have hrequired : (ParameterEntry.ofParameter p).toJson.field? "required" =
      some (.bool (p.location == .path || p.required)) := rfl
  constructor
  case keys => rfl
  case name => rfl
  case location => rfl
  case description => rfl
  case type => rfl
  case inPath =>
    intro h
    rw [hrequired, h]
    rfl
  case elsewhere =>
    intro h
    rw [hrequired, beq_false_of_ne h, Bool.false_or]

/-! ## The request body -/

theorem isRequestBody_ofParameters {ps : List Parameter} {r : RequestBody}
    (h : RequestBody.ofParameters? ps = some r) : IsRequestBody ps r.toJson := by
  obtain ⟨p, rest, rfl⟩ : ∃ p rest, ps = p :: rest := by
    cases ps with
    | nil => cases h
    | cons p rest => exact ⟨p, rest, rfl⟩
  obtain rfl := Option.some.inj h
  have hproperties {r : RequestBody} : properties r.toJson = r.properties.map fun q =>
      (.plain q.1, .obj [("type", .str q.2.type.keyword),
        ("description", .ofText q.2.description)]) := rfl
  constructor
  case keys => rfl
  case first => exact ⟨p, rfl, rfl, rfl⟩
  case object => rfl
  case order =>
    have hnames : (Table.ofFirst ((p :: rest).map fun p => (p.name, p))).map Prod.fst =
        ((p :: rest).map Parameter.name).eraseDups := Table.keys_ofFirst_map
    rw [hproperties, List.map_map, ← hnames, List.map_map]
    rfl
  case property =>
    intro name v hmem
    rw [hproperties] at hmem
    obtain ⟨⟨name', q⟩, hq, heq⟩ := List.mem_map.1 hmem
    obtain ⟨hname, rfl⟩ := Prod.mk.inj heq
    obtain rfl : name' = name := RawText.plain.inj hname
    exact ⟨q, Table.mem_ofFirst_map.1 hq, rfl⟩

/-! ## Responses -/

theorem decimal_injective : Function.Injective decimal :=
  fun _ _ h => Text.intChars_injective (String.ofList_injective h)

/-- A table of responses by status holds the last response of each status. -/
theorem mem_byStatus_iff {rs : List Response} {status : String} {r : Response} :
    (status, r) ∈ Table.ofLast (rs.map fun r => (decimal r.status, r)) ↔
      decimal r.status = status ∧ IsLast (fun q => q.status = r.status) rs r := by
  rw [Table.mem_ofLast_map]
  constructor
  · intro h
    obtain rfl := h.1
    exact ⟨rfl, by simpa only [decimal_injective.eq_iff] using h⟩
  · rintro ⟨rfl, h⟩
    simpa only [decimal_injective.eq_iff] using h

theorem isResponse_responseJson (r : Response) : IsResponse r (responseJson r) := by
  by_cases hschema : ∃ fs, r.schema = some fs ∧ fs ≠ []
  · obtain ⟨fs, hfs, hne⟩ := hschema
    obtain ⟨f, fs, rfl⟩ := List.exists_cons_of_ne_nil hne
    have hjson : responseJson r =
        .obj [("description", .ofText r.description), ("content", contentJson (f :: fs))] := by
      rw [responseJson, hfs]
    rw [hjson]
    constructor
    case description => rfl
    case content => exact iff_of_true (Option.some_ne_none _) ⟨_, hfs, hne⟩
    case schema =>
      rintro gs hgs -
      obtain rfl := Option.some.inj (hfs.symm.trans hgs)
      rfl
    case keys => simp [Json.fields]
  · have hjson : responseJson r = .obj [("description", .ofText r.description)] := by
      rw [responseJson]
      split
      · next f fs hfs => exact absurd ⟨_, hfs, List.cons_ne_nil f fs⟩ hschema
      · rfl
    rw [hjson]
    constructor
    case description => rfl
    case content => exact iff_of_false (fun hne => hne rfl) hschema
    case schema => exact fun fs hfs hne => absurd ⟨fs, hfs, hne⟩ hschema
    case keys => simp [Json.fields]

theorem areResponses_ofList (rs : List Response) :
    AreResponses rs (Responses.ofList rs).toJson := by
  by_cases hrs : rs = []
  · subst hrs
    constructor
    case nonempty => simp [Responses.ofList, Responses.toJson, Json.fields]
    case standard => exact fun _ => rfl
    case order => exact fun hne => absurd rfl hne
    case last => exact fun hne => absurd rfl hne
  · have hfields : (Responses.ofList rs).toJson.fields =
        (Table.ofLast (rs.map fun r => (decimal r.status, r))).map fun p =>
          (.plain p.1, responseJson p.2) := by
      rw [Responses.ofList, if_neg (by simpa using hrs)]
      rfl
    have horder : (Responses.ofList rs).toJson.fields.map Prod.fst =
        ((rs.map Response.status).eraseDups).map fun status => .plain (decimal status) := by
      have hstatuses : (Table.ofLast (rs.map fun r => (decimal r.status, r))).map Prod.fst =
          ((rs.map Response.status).eraseDups).map decimal := by
        rw [← Table.eraseDups_map decimal_injective, List.map_map]
        exact Table.keys_ofLast_map
      have hkeys := congrArg (List.map RawText.plain) hstatuses
      rw [List.map_map, List.map_map] at hkeys
      rw [hfields, List.map_map]
      exact hkeys
    constructor
    case nonempty =>
      intro hnil
      obtain ⟨r, rest, rfl⟩ := List.exists_cons_of_ne_nil hrs
      rw [hnil, List.map_cons, List.eraseDups_cons] at horder
      cases horder
    case standard => exact fun h => absurd h hrs
    case order => exact fun _ => horder
    case last =>
      intro _ status w hmem
      rw [hfields] at hmem
      obtain ⟨⟨key, r⟩, hr, heq⟩ := List.mem_map.1 hmem
      obtain ⟨hkey, rfl⟩ := Prod.mk.inj heq
      obtain rfl : key = decimal status := RawText.plain.inj hkey
      obtain ⟨hstatus, hlast⟩ := mem_byStatus_iff.1 hr
      obtain rfl := decimal_injective hstatus
      exact ⟨r, hlast, isResponse_responseJson r⟩

/-! ## Operations -/

theorem keys_toJson (o : Operation) :
    o.toJson.fields.map Prod.fst = ["summary", "description"] ++
    (if o.parameters = [] then [] else ["parameters"]) ++
    (if o.body = none then [] else ["requestBody"]) ++ ["responses"] := by
  unfold Operation.toJson Operation.headFields
  cases o.parameters <;> cases o.body <;> rfl

theorem ofParameters?_eq_none_iff {ps : List Parameter} :
    RequestBody.ofParameters? ps = none ↔ ps = [] := by
  cases ps <;> simp [RequestBody.ofParameters?]

/-- What an operation says of an endpoint is all of the endpoint and nothing else. -/
theorem isOperation_toJson (e : Endpoint) : IsOperation e (Operation.ofEndpoint e).toJson := by
  have hlisted : (Operation.ofEndpoint e).parameters =
      e.outsideBody.map ParameterEntry.ofParameter := rfl
  have hmerged : (Operation.ofEndpoint e).body = RequestBody.ofParameters? e.inBody := rfl
  obtain ⟨hsummary, hdescription, hparameters, hbody, hresponses⟩ :=
    field?_toJson (Operation.ofEndpoint e)
  have hkeys := keys_toJson (Operation.ofEndpoint e)
  simp only [hlisted, hmerged, List.map_eq_nil_iff, ofParameters?_eq_none_iff] at *
  constructor
  case keys => exact hkeys
  case summary => exact hsummary
  case description => exact hdescription
  case listed => rw [hparameters]; split <;> simp [*]
  case parameters =>
    have hentries : entries (Operation.ofEndpoint e).toJson =
        e.outsideBody.map fun p => (ParameterEntry.ofParameter p).toJson := by
      rw [entries, hparameters]
      split
      · next hnil => rw [hnil]; rfl
      · rw [List.map_map]; rfl
    rw [hentries, List.forall₂_map_right_iff, List.forall₂_same]
    exact fun p _ => isEntry_ofParameter p
  case merged => rw [hbody, Option.map_eq_none_iff, ofParameters?_eq_none_iff]
  case body =>
    intro body h
    obtain ⟨r, hr, rfl⟩ := Option.map_eq_some_iff.1 (hbody.symm.trans h)
    exact isRequestBody_ofParameters hr
  case responses => exact ⟨_, hresponses, areResponses_ofList e.responses⟩

/-- An endpoint has an operation exactly if its statuses are short enough to be written, and it says
all of the endpoint and nothing else. -/
theorem isOperation_ofEndpoint (e : Endpoint) :
    (∃ o, Operation.ofEndpoint? e = some o ∧ IsOperation e o.toJson) ↔ e.HasShortStatuses := by
  constructor
  · rintro ⟨o, ho, -⟩
    exact (Operation.ofEndpoint?_eq_some.1 ho).1
  · exact fun h => ⟨_, Operation.ofEndpoint?_eq_some.2 ⟨h, rfl⟩, isOperation_toJson e⟩

/-- An endpoint with a status that has no decimal text. -/
def unwritable : Endpoint :=
  ⟨.plain "/x", .get, .plain "", [], [⟨10 ^ Text.maxIntegerDigits, .plain "", none⟩]⟩

theorem not_hasShortStatuses_unwritable : ¬ unwritable.HasShortStatuses := by
  intro h
  have hlong := h _ List.mem_cons_self
  have hten : (10 : Int).natAbs = 10 := rfl
  rw [Int.natAbs_pow, hten] at hlong
  exact Nat.lt_irrefl _ hlong

/-- An endpoint with a status that is too long has no operation. -/
theorem ofEndpoint?_unwritable : Operation.ofEndpoint? unwritable = none :=
  Option.eq_none_iff_forall_ne_some.2 fun _ ho =>
    not_hasShortStatuses_unwritable (Operation.ofEndpoint?_eq_some.1 ho).1

end OpenApi

end Nanoservice
