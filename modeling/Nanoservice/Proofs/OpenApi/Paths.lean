import Nanoservice.Proofs.OpenApi.Operation
import Nanoservice.Proofs.OpenApi.Routes

/-!
# The paths of a document

The paths of a document are a fold that enters endpoints one after another, where several paths of
endpoints may come to one. `project_paths` says what comes of it: every path and every method of a
path stands where it first occurs among the endpoints, and holds the operation of the last endpoint
that belongs there. Only a backend with a status that has no decimal text has the smallest document
instead (`project_unwritable`).
-/

namespace Nanoservice.OpenApi

open Nanoservice.Path (components)

/-! ## The order of paths and methods -/

variable {es : List Endpoint} {path : RawText}

/-- The methods under a path are those of the endpoints that belong there, each where it first
occurs. -/
theorem keys_methods (es : List Endpoint) (path : RawText) :
    ((Table.get? path (es.foldl enter [])).getD []).map Prod.fst =
      ((es.filter fun e => e.path.rewrite relativePath = path).map Endpoint.method).eraseDups := by
  induction es using List.reverseRecOn with
  | nil => rfl
  | append_singleton es e ih =>
    rw [List.foldl_append, List.foldl_cons, List.foldl_nil, List.filter_append, enter,
      Table.get?_put]
    by_cases hpath : e.path.rewrite relativePath = path
    · subst hpath
      have hown : [e].filter (fun f =>
          f.path.rewrite relativePath = e.path.rewrite relativePath) = [e] := by simp
      rw [if_pos rfl, Option.getD_some, Table.keys_put, ih, hown, List.map_append,
        List.map_singleton, Table.eraseDups_concat]
      simp only [List.mem_eraseDups]
    · rw [if_neg hpath, ih]
      simp [hpath]

/-! ## Documents -/

/-- The paths of a document, each with what it holds. -/
def pathItems (doc : Json) : List (RawText × Json) :=
  ((doc.field? "paths").getD .null).fields

/-- What a document holds under a path, given the endpoints that it was made from. -/
structure IsItem (es : List Endpoint) (path : RawText) (item : Json) : Prop where
  /-- It is an object whose keys are the methods of the path, each where it first occurs. -/
  object : item = .obj item.fields
  order : item.fields.map Prod.fst =
    (((es.filter fun e => e.path.rewrite relativePath = path).map Endpoint.method).eraseDups).map
      fun m => .plain m.lowerName
  once : (item.fields.map Prod.fst).Nodup
  /-- A method is there when an endpoint with this path has it. -/
  occurs : ∀ m : Method, .plain m.lowerName ∈ item.fields.map Prod.fst ↔
    ∃ e ∈ es, e.path.rewrite relativePath = path ∧ e.method = m
  /-- Under a method stands the operation of the last endpoint with this path and method. -/
  last : ∀ (m : Method) (v : Json), (.plain m.lowerName, v) ∈ item.fields ↔
    ∃ e, IsLast (fun e => e.path.rewrite relativePath = path ∧ e.method = m) es e ∧
      ∃ o, Operation.ofEndpoint? e = some o ∧ o.toJson = v

/-- The paths of a document, given the endpoints that it was made from. -/
structure ArePaths (es : List Endpoint) (items : List (RawText × Json)) : Prop where
  /-- The paths stand where they first occur. -/
  order : items.map Prod.fst = (es.map fun e => e.path.rewrite relativePath).eraseDups
  once : (items.map Prod.fst).Nodup
  /-- A path is there when it is that of an endpoint. -/
  occurs : ∀ path, path ∈ items.map Prod.fst ↔ ∃ e ∈ es, e.path.rewrite relativePath = path
  items : ∀ path item, (path, item) ∈ items → IsItem es path item

/-- Under a method of a path stands its operation. -/
theorem mem_pathJson_iff {operations : List (Method × Operation)} {m : Method} {v : Json} :
    (.plain m.lowerName, v) ∈ (pathJson operations).fields ↔
      ∃ o, (m, o) ∈ operations ∧ o.toJson = v := by
  rw [pathJson, Json.fields, List.mem_map]
  constructor
  · rintro ⟨⟨n, o⟩, ho, heq⟩
    obtain ⟨hname, rfl⟩ := Prod.mk.inj heq
    exact ⟨o, lowerName_injective (RawText.plain.inj hname) ▸ ho, rfl⟩
  · rintro ⟨o, ho, rfl⟩
    exact ⟨(m, o), ho, rfl⟩

theorem isItem_pathJson {operations : List (Method × Operation)}
    (hshort : ∀ e ∈ es, e.HasShortStatuses) (h : (path, operations) ∈ es.foldl enter []) :
    IsItem es path (pathJson operations) := by
  have hentered := entered_foldl es
  have hget : Table.get? path (es.foldl enter []) = some operations :=
    (Table.mem_iff_get? hentered.nodup).1 h
  have hmethods : operations.map Prod.fst =
      ((es.filter fun e => e.path.rewrite relativePath = path).map Endpoint.method).eraseDups := by
    rw [← keys_methods, hget, Option.getD_some]
  have hkeys : (pathJson operations).fields.map Prod.fst =
      (operations.map Prod.fst).map fun m => .plain m.lowerName := by
    simp [pathJson, Json.fields, Function.comp_def]
  have hinjective : Function.Injective fun m : Method => RawText.plain m.lowerName :=
    fun _ _ h => lowerName_injective (RawText.plain.inj h)
  constructor
  case object => rfl
  case order => rw [hkeys, hmethods]
  case once =>
    rw [hkeys]
    exact (hentered.nodup_methods _ h).map hinjective
  case occurs =>
    intro m
    rw [hkeys, hmethods, List.mem_map_of_injective hinjective, List.mem_eraseDups]
    simp [and_assoc]
  case last =>
    intro m v
    have hplace : (fun e : Endpoint => e.path.rewrite relativePath = path ∧ e.method = m) =
        fun e => e.place = (m, path) := by
      funext e
      simp [Endpoint.place, and_comm]
    have hfound (o : Operation) : (m, o) ∈ operations ↔
        ∃ e, IsLast (fun e => e.place = (m, path)) es e ∧ Operation.ofEndpoint e = o := by
      rw [Table.mem_iff_get? (hentered.nodup_methods _ h), ← hentered.found, hget,
        Option.bind_some]
    rw [hplace, mem_pathJson_iff]
    constructor
    · rintro ⟨o, ho, rfl⟩
      obtain ⟨e, he, heo⟩ := (hfound o).1 ho
      exact ⟨e, he, o, Operation.ofEndpoint?_eq_some.2 ⟨hshort e he.mem, heo⟩, rfl⟩
    · rintro ⟨e, he, o, ho, rfl⟩
      exact ⟨o, (hfound o).2 ⟨e, he, (Operation.ofEndpoint?_eq_some.1 ho).2⟩, rfl⟩

theorem arePaths_document {b : Backend} (hshort : b.HasShortStatuses) :
    ArePaths b.endpoints (pathItems (Document.ofBackend b).toJson) := by
  have hitems : pathItems (Document.ofBackend b).toJson =
      (b.endpoints.foldl enter []).map fun p => (p.1, pathJson p.2) := rfl
  have hkeys : (pathItems (Document.ofBackend b).toJson).map Prod.fst =
      (b.endpoints.foldl enter []).map Prod.fst := by
    rw [hitems, List.map_map]
    rfl
  constructor
  case order => rw [hkeys, keys_paths]
  case once =>
    rw [hkeys]
    exact (entered_foldl b.endpoints).nodup
  case occurs =>
    intro path
    rw [hkeys, keys_paths, List.mem_eraseDups, List.mem_map]
  case items =>
    intro path item h
    rw [hitems] at h
    obtain ⟨⟨path, operations⟩, hmem, heq⟩ := List.mem_map.1 h
    obtain ⟨rfl, rfl⟩ := Prod.mk.inj heq
    exact isItem_pathJson hshort hmem

/-- The path of an endpoint in a document: it begins with a slash, loses the base segment in front
and nothing else, and what is left of it stands there symbol by symbol, with a slash in front or
not. -/
structure IsRelative (path relative : RawText) : Prop where
  absolute : Path.isAbsolute relative.shown = true
  segments : components relative.shown =
    "" :: if Path.isAbsolute path.shown then withoutBase (below path.shown) else below path.shown
  kept : ∃ kept, kept <:+ path.symbols ∧
    (relative.symbols = kept ∨ relative.symbols = .char '/' :: kept)

theorem isRelative_relativePath (path : RawText) :
    IsRelative path (path.rewrite relativePath) where
  absolute := by rw [RawText.shown_rewrite, isAbsolute_relativePath]
  segments := by rw [RawText.shown_rewrite, components_relativePath]
  kept := by
    obtain ⟨cut, put, kept, hpath, hrelative, -, hput⟩ := symbols_relativePath path
    refine ⟨kept, hpath ▸ List.suffix_append _ _, ?_⟩
    rcases hput with rfl | rfl
    · exact .inl hrelative
    · exact .inr hrelative

/-- A backend has a complete document exactly if its statuses are short enough to be written. The
paths and their methods stand where they first occur among the endpoints, each with the operation of
the last endpoint that belongs there, and the path of an endpoint loses the base segment in front
and nothing else. -/
theorem project_paths (b : Backend) :
    ((∃ d, project b = .complete d ∧ ArePaths b.endpoints (pathItems d.toJson)) ↔
      b.HasShortStatuses) ∧
    ∀ path : RawText, IsRelative path (path.rewrite relativePath) := by
  refine ⟨⟨?_, fun h => ?_⟩, isRelative_relativePath⟩
  · rintro ⟨d, hd, -⟩
    exact (project_eq_complete.1 hd).1
  · exact ⟨_, project_eq_complete.2 ⟨h, rfl⟩, arePaths_document h⟩

/-- A backend whose only endpoint has a status that has no decimal text has the smallest document.
-/
theorem project_unwritable :
    project (Backend.ofEndpoints [unwritable]) = .minimal "s" Backend.defaultVersion :=
  project_eq_minimal fun h => not_hasShortStatuses_unwritable (h _ List.mem_cons_self)

end Nanoservice.OpenApi
