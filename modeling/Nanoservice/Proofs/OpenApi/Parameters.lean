import Nanoservice.Proofs.Candidate.Endpoints
import Nanoservice.Proofs.OpenApi.Calls
import Nanoservice.Proofs.OpenApi.RelativePath

/-!
# Parameters of the operations of a document

OpenAPI has rules for the parameters of an operation: no two share both name and location, every
parameter of the path is required, and the parameters of the path are the variables of the path
that the operation stands under. A reader of the document checks them on its JSON value
(`OpenApi.ObeysRules`). The second rule always holds. The other two ask something of the endpoint
that an operation was made of, and hold exactly where the endpoint itself grants it
(`OpenApi.obeysRules_iff`): the document lists what an endpoint declares, less its body parameters,
and adds and drops nothing. Accepted candidates need not grant it
(`OpenApi.operation_breaking_rules`).
-/

namespace Nanoservice

namespace OpenApi

/-! ## Variables of paths -/

/-- The names between braces in what follows. Behind an opening brace, `name` holds the symbols
since; a name has no brace in it and is not empty. -/
def namesFrom : (name : Option (List Symbol)) → List Symbol → List RawText
  | _, [] => []
  | none, s :: ss => namesFrom (if s = .char '\x7b' then some [] else none) ss
  | some name, s :: ss =>
    if s = .char '\x7b' then namesFrom (some []) ss
    else if s = .char '\x7d' then
      (if name = [] then [] else [.ofSymbols name]) ++ namesFrom none ss
    else namesFrom (some (name ++ [s])) ss

/-- The variables of a path: the names in it that stand between braces. -/
def braceNames (path : RawText) : List RawText :=
  namesFrom none path.symbols

example : braceNames (.plain "/shops/{shop}/items/{item}.json") = [.plain "shop", .plain "item"] :=
  by decide +kernel

/-- Characters outside of braces that open none belong to no variable. -/
theorem namesFrom_none_append {cs : List Char} (h : '\x7b' ∉ cs) (ss : List Symbol) :
    namesFrom none (cs.map .char ++ ss) = namesFrom none ss := by
  induction cs with
  | nil => rfl
  | cons c cs ih =>
    obtain ⟨hc, hcs⟩ := not_or.1 fun hmem => h (List.mem_cons.2 hmem)
    have hopen : ¬ Symbol.char c = .char '\x7b' := fun he => hc (Symbol.char.inj he).symm
    rw [List.map_cons, List.cons_append, namesFrom, if_neg hopen, ih hcs]

/-- A path has the same variables in a document as it has itself. -/
theorem braceNames_relativePath (path : RawText) :
    braceNames (path.rewrite relativePath) = braceNames path := by
  obtain ⟨cut, put, kept, hpath, hrelative, hcut, hput⟩ := symbols_relativePath path
  have hcut' : '\x7b' ∉ cut := by rcases hcut with rfl | rfl <;> decide
  have hput' : '\x7b' ∉ put := by rcases hput with rfl | rfl <;> decide
  rw [braceNames, braceNames, hpath, hrelative, namesFrom_none_append hcut',
    namesFrom_none_append hput']

/-! ## The rules -/

/-- What a document says of a parameter: its name and location, and whether it is required. -/
structure Listed where
  name : RawText
  location : RawText
  required : Bool
  deriving DecidableEq, Repr

/-- The parameter that a JSON value describes. -/
def Listed.ofJson (v : Json) : Listed where
  name := ((v.field? "name").bind Json.rawText?).getD (.plain "")
  location := ((v.field? "in").bind Json.rawText?).getD (.plain "")
  required := match v.field? "required" with
    | some (.bool b) => b
    | _ => false

/-- The parameters that an operation lists. -/
def parameters (operation : Json) : List Listed :=
  (((operation.field? "parameters").bind Json.items?).getD []).map Listed.ofJson

/-- The parameters of an operation under a path are as the format asks. -/
structure ObeysRules (path : RawText) (operation : Json) : Prop where
  different : ((parameters operation).map fun p => (p.name, p.location)).Nodup
  required : ∀ p ∈ parameters operation, p.location = .plain "path" → p.required = true
  inPath : ∀ name, (∃ p ∈ parameters operation, p.location = .plain "path" ∧ p.name = name) ↔
    name ∈ braceNames path

/-- The operations of a document, each with the path it stands under. -/
def operations (doc : Json) : List (RawText × Json) :=
  ((doc.field? "paths").getD .null).fields.flatMap fun (path, methods) =>
    methods.fields.map fun (_, operation) => (path, operation)

end OpenApi

/-- An endpoint declares its parameters as OpenAPI asks: no two that are not in the body share name
and location, and those in the path are the variables of its path. -/
structure Endpoint.DeclaresParameters (e : Endpoint) : Prop where
  different : ((e.parameters.filter (·.location != .body)).map fun p =>
    (p.name, p.location)).Nodup
  inPath : ∀ name, (∃ p ∈ e.parameters, p.location = .path ∧ .plain p.name = name) ↔
    name ∈ OpenApi.braceNames e.path

namespace OpenApi

/-! ## Operations of endpoints -/

/-- What a document says of a parameter of an endpoint. -/
def Listed.ofParameter (p : Parameter) : Listed where
  name := .plain p.name
  location := .plain p.location.keyword
  required := p.location == .path || p.required

theorem keyword_injective {l l' : Location} (h : l.keyword = l'.keyword) : l = l' := by
  cases l <;> cases l' <;> first | rfl | simp [Location.keyword] at h

/-- The fields of an operation, where parameters and a request body need not be there. -/
theorem field?_toJson (o : Operation) :
    o.toJson.field? "summary" = some (.ofText o.description) ∧
      o.toJson.field? "description" = some (.ofText o.description) ∧
      o.toJson.field? "parameters" = (if o.parameters = [] then none
        else some (.arr (o.parameters.map ParameterEntry.toJson))) ∧
      o.toJson.field? "requestBody" = o.body.map RequestBody.toJson ∧
      o.toJson.field? "responses" = some o.responses.toJson := by
  unfold Operation.toJson Operation.headFields
  cases o.parameters <;> cases o.body <;> exact ⟨rfl, rfl, rfl, rfl, rfl⟩

/-- An operation lists the parameters of its endpoint, one for one, but for those of the body. -/
theorem parameters_ofEndpoint (e : Endpoint) : parameters (Operation.ofEndpoint e).toJson =
    (e.parameters.filter (·.location != .body)).map Listed.ofParameter := by
  have hlisted : (Operation.ofEndpoint e).parameters =
      (e.parameters.filter (·.location != .body)).map ParameterEntry.ofParameter := rfl
  obtain ⟨-, -, hfield, -⟩ := field?_toJson (Operation.ofEndpoint e)
  rw [parameters, hfield, hlisted]
  split
  · next hnil =>
    rw [List.map_eq_nil_iff.1 hnil]
    rfl
  · simp only [Option.bind_some, Json.items?, Option.getD_some, List.map_map]
    rfl

/-- A parameter in the path is listed when it is declared. -/
theorem exists_listed_iff {e : Endpoint} {name : RawText} :
    (∃ p ∈ parameters (Operation.ofEndpoint e).toJson,
      p.location = .plain "path" ∧ p.name = name) ↔
      ∃ p ∈ e.parameters, p.location = .path ∧ .plain p.name = name := by
  rw [parameters_ofEndpoint]
  constructor
  · rintro ⟨p, hp, hlocation, rfl⟩
    obtain ⟨q, hq, rfl⟩ := List.mem_map.1 hp
    exact ⟨q, (List.mem_filter.1 hq).1, keyword_injective (RawText.plain.inj hlocation), rfl⟩
  · rintro ⟨q, hq, hlocation, rfl⟩
    have hmem : q ∈ e.parameters.filter (·.location != .body) :=
      List.mem_filter.2 ⟨hq, by rw [hlocation]; rfl⟩
    exact ⟨_, List.mem_map_of_mem hmem, by rw [Listed.ofParameter, hlocation]; rfl, rfl⟩

/-- A parameter in the path is required in a document, whatever the endpoint declares. -/
theorem required_ofEndpoint (e : Endpoint) :
    ∀ p ∈ parameters (Operation.ofEndpoint e).toJson,
      p.location = .plain "path" → p.required = true := by
  intro p hp hlocation
  rw [parameters_ofEndpoint] at hp
  obtain ⟨q, -, rfl⟩ := List.mem_map.1 hp
  have hpath : q.location = .path := keyword_injective (RawText.plain.inj hlocation)
  rw [Listed.ofParameter, hpath]
  rfl

/-- The operation of an endpoint obeys the rules under the endpoint's path when the endpoint
declares its parameters as they ask. -/
theorem obeysRules_ofEndpoint (e : Endpoint) :
    ObeysRules (e.path.rewrite relativePath) (Operation.ofEndpoint e).toJson ↔
      e.DeclaresParameters := by
  have hpairs : (parameters (Operation.ofEndpoint e).toJson).map (fun p => (p.name, p.location)) =
      ((e.parameters.filter (·.location != .body)).map fun p => (p.name, p.location)).map
        (Prod.map .plain fun l => .plain l.keyword) := by
    rw [parameters_ofEndpoint, List.map_map, List.map_map]
    rfl
  have hinjective : Function.Injective
      (Prod.map RawText.plain fun l : Location => RawText.plain l.keyword) :=
    Function.Injective.prodMap (fun _ _ => RawText.plain.inj)
      fun _ _ h => keyword_injective (RawText.plain.inj h)
  have hinPath : (∀ name, (∃ p ∈ parameters (Operation.ofEndpoint e).toJson,
      p.location = .plain "path" ∧ p.name = name) ↔
        name ∈ braceNames (e.path.rewrite relativePath)) ↔
      ∀ name, (∃ p ∈ e.parameters, p.location = .path ∧ .plain p.name = name) ↔
        name ∈ braceNames e.path := by
    simp only [exists_listed_iff, braceNames_relativePath]
  constructor
  · intro h
    exact { different := List.Nodup.of_map _ (hpairs ▸ h.different)
            inPath := hinPath.1 h.inPath }
  · intro h
    exact { different := hpairs ▸ h.different.map hinjective
            required := required_ofEndpoint e
            inPath := hinPath.2 h.inPath }

/-! ## Operations of documents -/

/-- The operations of the document in which the endpoints of a backend were entered are those of the
endpoints that are the last ones in their places. -/
theorem mem_operations_iff {b : Backend} {path : RawText} {operation : Json} :
    (path, operation) ∈ operations (Document.ofBackend b).toJson ↔
      ∃ e, IsLast (fun f => f.place = e.place) b.endpoints e ∧ e.path.rewrite relativePath = path ∧
        (Operation.ofEndpoint e).toJson = operation := by
  have hentered : Entered b.endpoints (Document.ofBackend b).paths := entered_foldl b.endpoints
  have hpaths : (((Document.ofBackend b).toJson.field? "paths").getD .null).fields =
      (Document.ofBackend b).paths.map fun p => (p.1, pathJson p.2) := rfl
  have hoperations : operations (Document.ofBackend b).toJson =
      (Document.ofBackend b).paths.flatMap fun p => p.2.map fun q => (p.1, q.2.toJson) := by
    rw [operations, hpaths, List.flatMap_map]
    simp only [pathJson, Json.fields, List.map_map]
    rfl
  rw [hoperations, List.mem_flatMap]
  constructor
  · rintro ⟨⟨path', methods⟩, hmethods, hmem⟩
    obtain ⟨⟨m, o⟩, ho, heq⟩ := List.mem_map.1 hmem
    obtain ⟨rfl, rfl⟩ := Prod.mk.inj heq
    obtain ⟨e, hlast, rfl⟩ := hentered.mem_iff.1 ⟨methods, hmethods, ho⟩
    have hplace : e.place = (m, path') := hlast.1
    exact ⟨e, hplace ▸ hlast, congrArg Prod.snd hplace, rfl⟩
  · rintro ⟨e, hlast, rfl, rfl⟩
    obtain ⟨methods, hmethods, ho⟩ := hentered.mem_iff.2 ⟨e, hlast, rfl⟩
    exact ⟨_, hmethods, List.mem_map.2 ⟨_, ho, rfl⟩⟩

/-- An operation under a path lists the parameters of an endpoint as the document of a backend does.
-/
structure ListsParameters (e : Endpoint) (path : RawText) (operation : Json) : Prop where
  place : e.path.rewrite relativePath = path
  /-- The parameters outside of the body are listed one for one. -/
  listed : parameters operation =
    (e.parameters.filter (·.location != .body)).map Listed.ofParameter
  required : ∀ p ∈ parameters operation, p.location = .plain "path" → p.required = true
  /-- The rules are obeyed exactly when the endpoint declares its parameters as they ask. -/
  obeys : ObeysRules path operation ↔ e.DeclaresParameters

/-- The operations of a document are those of the endpoints of a backend that are the last ones in
their places. -/
structure AreOperations (b : Backend) (os : List (RawText × Json)) : Prop where
  sound : ∀ o ∈ os, ∃ e, IsLast (fun f => f.place = e.place) b.endpoints e ∧
    ListsParameters e o.1 o.2
  complete : ∀ e, IsLast (fun f => f.place = e.place) b.endpoints e →
    ∃ o ∈ os, ListsParameters e o.1 o.2

theorem listsParameters_ofEndpoint (e : Endpoint) :
    ListsParameters e (e.path.rewrite relativePath) (Operation.ofEndpoint e).toJson where
  place := rfl
  listed := parameters_ofEndpoint e
  required := required_ofEndpoint e
  obeys := obeysRules_ofEndpoint e

theorem areOperations_ofBackend (b : Backend) :
    AreOperations b (operations (Document.ofBackend b).toJson) where
  sound := by
    rintro ⟨path, operation⟩ ho
    obtain ⟨e, hlast, rfl, rfl⟩ := mem_operations_iff.1 ho
    exact ⟨e, hlast, listsParameters_ofEndpoint e⟩
  complete e hlast :=
    ⟨_, mem_operations_iff.2 ⟨e, hlast, rfl, rfl⟩, listsParameters_ofEndpoint e⟩

/-- A backend has a complete document exactly if its statuses are short enough to be written. Every
operation there is that of the last endpoint in a place, and every such endpoint has one. Its path
parameters are required, and it obeys the rules under its path exactly when the endpoint declares
its parameters as they ask. -/
theorem obeysRules_iff (b : Backend) :
    (∃ d, project b = .complete d ∧ AreOperations b (operations d.toJson)) ↔ b.HasShortStatuses :=
  exists_complete_iff (areOperations_ofBackend b)

/-- An endpoint that declares the variable of its path, and a parameter of the query. -/
def careful : Endpoint :=
  ⟨"/items/\x7bid\x7d", .get, "", [⟨"id", .path, false, .string, ""⟩,
    ⟨"q", .query, false, .number, ""⟩], []⟩

theorem obeysRules_iff_careful : ∃ d, project (Backend.ofEndpoints [careful]) = .complete d ∧
    ∃ o ∈ operations d.toJson, ObeysRules o.1 o.2 := by
  have hshort : (Backend.ofEndpoints [careful]).HasShortStatuses := by
    intro e he r hr
    obtain rfl := List.mem_singleton.1 he
    cases hr
  obtain ⟨d, hd, hoperations⟩ := (obeysRules_iff (Backend.ofEndpoints [careful])).2 hshort
  have hlast : IsLast (fun f => f.place = careful.place) ([] ++ [careful]) careful :=
    isLast_concat.2 (.inl ⟨rfl, rfl⟩)
  obtain ⟨o, ho, hlists⟩ := hoperations.complete careful hlast
  have hnames : braceNames careful.path = [.plain "id"] := by
    decide +kernel
  refine ⟨d, hd, o, ho, hlists.obeys.2 { different := by decide, inPath := fun name => ?_ }⟩
  rw [hnames]
  simp [careful, eq_comm]

/-! ## A model whose document breaks the rules -/

/-- An endpoint that declares a parameter twice and the variable of its path not at all. -/
def careless : Endpoint :=
  ⟨"/items/\x7bid\x7d", .get, "", [⟨"q", .query, false, .string, ""⟩,
    ⟨"q", .query, false, .number, ""⟩], []⟩

/-- A candidate with such an endpoint is accepted, and the operation of its document lists a
parameter twice and no variable of the path. -/
theorem operation_breaking_rules :
    Candidate.validate "0" (.obj (Backend.ofEndpoints [careless]).candidate) =
      .ok (Backend.ofEndpoints [careless]) ∧
    ∃ o ∈ operations (project (Backend.ofEndpoints [careless])).toJson,
      ¬ ((parameters o.2).map fun p => (p.name, p.location)).Nodup ∧
      .plain "id" ∈ braceNames o.1 ∧
        ¬ ∃ p ∈ parameters o.2, p.location = .plain "path" ∧ p.name = .plain "id" := by
  have hpath : EndpointPath.IsNormal "/items/\x7bid\x7d" :=
    EndpointPath.isNormal_of_not_mem_colon (by simp) (by simp [Text.Trimmed, Text.isBlank])
      (by simp)
  have hnormal : careless.IsNormal := ⟨hpath, by simp [careless, Parameter.IsNormal]⟩
  have hlast : IsLast (fun f => f.place = careless.place) ([] ++ [careless]) careless :=
    isLast_concat.2 (.inl ⟨rfl, rfl⟩)
  have hshort : (Backend.ofEndpoints [careless]).HasShortStatuses := by
    intro e he r hr
    obtain rfl := List.mem_singleton.1 he
    cases hr
  have hresponses : (Backend.ofEndpoints [careless]).responses = [] := rfl
  rw [project_eq_complete.2 ⟨hshort, rfl⟩]
  refine ⟨Backend.validate_ofEndpoints (List.forall_mem_singleton.2 hnormal) ?_ ?_,
    _, mem_operations_iff.2 ⟨careless, hlast, rfl, rfl⟩, ?_⟩
  · exact List.forall_mem_singleton.2 (List.forall_mem_nil _)
  · exact Backend.finite_of_isFinite (hresponses ▸ List.forall_mem_nil _)
  · rw [parameters_ofEndpoint, braceNames_relativePath]
    exact ⟨by decide, by decide +kernel, by decide⟩

end OpenApi

end Nanoservice
