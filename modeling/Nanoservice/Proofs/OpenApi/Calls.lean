import Nanoservice.OpenApi.Document
import Nanoservice.Proofs.Backend.Writable
import Nanoservice.Proofs.Table

/-!
# The calls that a document describes

A client reads the calls of an OpenAPI document off its JSON value: below each path, each method is
a call, at the address of the server followed by the path. Entering endpoints one after another
leaves under each path and method the operation of the last endpoint that has them
(`OpenApi.entered_foldl`), so these are the calls of the document of a backend
(`OpenApi.mem_calls_iff`).
-/

namespace Nanoservice

namespace OpenApi

/-! ## Calls -/

/-- A call: its method in lower case, its address, and the summary of what it does. -/
structure Call where
  method : RawText
  url : RawText
  summary : RawText
  deriving DecidableEq, Repr

/-- The address of the first server of a document; empty if it has none. -/
def server (doc : Json) : RawText :=
  ((((doc.field? "servers").bind Json.items?).bind List.head?).bind fun s =>
    (s.field? "url").bind Json.rawText?).getD (.plain "")

/-- The calls of the operations below a path; a summary that is not there is empty. -/
def callsBelow (url : RawText) (operations : Json) : List Call :=
  operations.fields.map fun (method, operation) =>
    ⟨method, url, ((operation.field? "summary").bind Json.rawText?).getD (.plain "")⟩

/-- The calls that a document describes. -/
def calls (doc : Json) : List Call :=
  ((doc.field? "paths").getD .null).fields.flatMap fun (path, operations) =>
    callsBelow (server doc ++ path) operations

/-- The call of an operation under a path and method. -/
def Operation.call (path : RawText) (m : Method) (o : Operation) : Call :=
  ⟨.plain m.lowerName, .plain basePath ++ path, o.description⟩

theorem summary_toJson (o : Operation) :
    ((o.toJson.field? "summary").bind Json.rawText?).getD (.plain "") = o.description := by
  have hfield : o.toJson.field? "summary" = some (.ofText o.description) := rfl
  rw [hfield, Option.bind_some, Json.rawText?_ofText, Option.getD_some]

theorem callsBelow_pathJson (path : RawText) (operations : List (Method × Operation)) :
    callsBelow (.plain basePath ++ path) (pathJson operations) =
      operations.map fun (m, o) => o.call path m := by
  simp only [callsBelow, pathJson, Json.fields, List.map_map, Function.comp_def, summary_toJson]
  rfl

/-- The calls of a document are those of its operations. -/
theorem calls_toJson (d : Document) : calls d.toJson = d.paths.flatMap fun (path, operations) =>
    operations.map fun (m, o) => o.call path m := by
  have hserver : server d.toJson = .plain basePath := rfl
  have hpaths : ((d.toJson.field? "paths").getD .null).fields =
      d.paths.map fun (path, operations) => (path, pathJson operations) := rfl
  rw [calls, hserver, hpaths, List.flatMap_map]
  simp only [callsBelow_pathJson]

/-! ## Entering endpoints -/

end OpenApi

/-- The method and path under which a document has an endpoint. -/
def Endpoint.place (e : Endpoint) : Method × RawText :=
  (e.method, e.path.rewrite OpenApi.relativePath)

namespace OpenApi

/-- Paths in which endpoints were entered: each path and each of its methods is there once, and has
the operation of the last endpoint that belongs there. -/
structure Entered (es : List Endpoint) (paths : List (RawText × List (Method × Operation))) :
    Prop where
  nodup : (paths.map Prod.fst).Nodup
  nodup_methods : ∀ entry ∈ paths, (entry.2.map Prod.fst).Nodup
  found : ∀ path m o, (Table.get? path paths).bind (Table.get? m) = some o ↔
    ∃ e, IsLast (fun e => e.place = (m, path)) es e ∧ Operation.ofEndpoint e = o

variable {es : List Endpoint} {paths : List (RawText × List (Method × Operation))}

theorem entered_nil : Entered [] [] where
  nodup := List.nodup_nil
  nodup_methods entry hentry := by cases hentry
  found path m o := by
    constructor
    · intro h
      cases h
    · rintro ⟨e, h, -⟩
      cases h.mem

/-- What is found under a path and method after an endpoint was entered. -/
theorem get?_enter (e : Endpoint) (path : RawText) (m : Method) :
    (Table.get? path (enter paths e)).bind (Table.get? m) =
      if e.place = (m, path) then some (Operation.ofEndpoint e)
      else (Table.get? path paths).bind (Table.get? m) := by
  have hold : Table.get? m ((Table.get? (e.path.rewrite relativePath) paths).getD []) =
      (Table.get? (e.path.rewrite relativePath) paths).bind (Table.get? m) := by
    cases Table.get? (e.path.rewrite relativePath) paths <;> rfl
  rw [enter, Table.get?_put, Endpoint.place]
  by_cases hpath : e.path.rewrite relativePath = path
  · subst hpath
    rw [if_pos rfl, Option.bind_some, Table.get?_put, hold]
    simp
  · rw [if_neg hpath, if_neg (by simp [hpath])]

/-- Entering an endpoint puts its operation in its place. -/
theorem Entered.enter (h : Entered es paths) (e : Endpoint) :
    Entered (es ++ [e]) (enter paths e) where
  nodup := Table.nodup_keys_put h.nodup
  nodup_methods entry hentry := by
    have hold :
        (((Table.get? (e.path.rewrite relativePath) paths).getD []).map Prod.fst).Nodup := by
      cases hget : Table.get? (e.path.rewrite relativePath) paths with
      | none => exact List.nodup_nil
      | some operations => exact h.nodup_methods _ (Table.mem_of_get? hget)
    rcases Table.mem_put hentry with rfl | hmem
    · exact Table.nodup_keys_put hold
    · exact h.nodup_methods entry hmem
  found path m o := by
    rw [get?_enter]
    split
    · next hplace => simp [isLast_concat, hplace]
    · next hplace => simp [isLast_concat, hplace, h.found]

/-- The paths of a document in which all endpoints were entered. -/
theorem entered_foldl (es : List Endpoint) : Entered es (es.foldl enter []) := by
  induction es using List.reverseRecOn with
  | nil => exact entered_nil
  | append_singleton es e ih =>
    rw [List.foldl_append]
    exact ih.enter e

/-- The paths stand where they first occur among the endpoints. -/
theorem keys_paths (es : List Endpoint) : (es.foldl enter []).map Prod.fst =
    (es.map fun e => e.path.rewrite relativePath).eraseDups :=
  Table.keys_foldl (fun t e => by rw [enter, Table.keys_put]) es

/-- An operation is there under a path and method when it is found there. -/
theorem Entered.mem_iff (h : Entered es paths) {path : RawText} {m : Method} {o : Operation} :
    (∃ operations, (path, operations) ∈ paths ∧ (m, o) ∈ operations) ↔
      ∃ e, IsLast (fun e => e.place = (m, path)) es e ∧ Operation.ofEndpoint e = o := by
  rw [← h.found, Option.bind_eq_some_iff]
  refine exists_congr fun operations => ?_
  rw [Table.mem_iff_get? h.nodup]
  exact and_congr_right fun hget => Table.mem_iff_get? (h.nodup_methods _ (Table.mem_of_get? hget))

/-- The paths and operations of a document have properties when those of the endpoints have them
that are the last ones in their places. -/
theorem forall_mem_paths_iff {P : RawText → Prop} {Q : Operation → Prop} :
    (∀ entry ∈ es.foldl OpenApi.enter [], P entry.1 ∧ ∀ o ∈ entry.2, Q o.2) ↔
      ∀ e, IsLast (fun f => f.place = e.place) es e →
        P (e.path.rewrite relativePath) ∧ Q (Operation.ofEndpoint e) := by
  have hentered := entered_foldl es
  refine ⟨fun h e he => ?_, fun h entry hentry => ?_⟩
  · obtain ⟨operations, hpath, ho⟩ := hentered.mem_iff.2 ⟨e, he, rfl⟩
    exact ⟨(h _ hpath).1, (h _ hpath).2 _ ho⟩
  · -- below a path there is the operation of the endpoint for which the path was entered
    obtain ⟨e, he, hpath⟩ : ∃ e ∈ es, e.path.rewrite relativePath = entry.1 := by
      have hkey : entry.1 ∈ (es.foldl OpenApi.enter []).map Prod.fst := List.mem_map_of_mem hentry
      rw [keys_paths, List.mem_eraseDups] at hkey
      exact List.mem_map.1 hkey
    obtain ⟨last, hlast⟩ := exists_isLast he (p := fun f => f.place = e.place) rfl
    have hplace : last.place = e.place := hlast.1
    have hsame : last.path.rewrite relativePath = e.path.rewrite relativePath :=
      congrArg Prod.snd hplace
    refine ⟨?_, fun o ho => ?_⟩
    · rw [← hpath, ← hsame]
      exact (h last (hplace ▸ hlast)).1
    · obtain ⟨f, hf, hoperation⟩ := hentered.mem_iff.1 ⟨entry.2, hentry, ho⟩
      have hplace : f.place = (o.1, entry.1) := hf.1
      exact hoperation ▸ (h f (hplace ▸ hf)).2

end OpenApi

/-- The call of an endpoint in a document. -/
def Endpoint.call (e : Endpoint) : OpenApi.Call :=
  (OpenApi.Operation.ofEndpoint e).call (e.path.rewrite OpenApi.relativePath) e.method

namespace OpenApi

/-! ## The projection -/

theorem Operation.ofEndpoint?_eq_some {e : Endpoint} {o : Operation} :
    Operation.ofEndpoint? e = some o ↔ e.HasShortStatuses ∧ Operation.ofEndpoint e = o := by
  rw [Operation.ofEndpoint?, Option.ite_none_right_eq_some, Endpoint.hasShortStatuses_iff,
    Option.some.injEq]

theorem all_isSome_iff {b : Backend} :
    (b.endpoints.all fun e => (Operation.ofEndpoint? e).isSome) = true ↔ b.HasShortStatuses := by
  simp [List.all_eq_true, Option.isSome_iff_exists, Operation.ofEndpoint?_eq_some,
    Backend.HasShortStatuses]

/-- A backend with a status that is too long to be written has the smallest document. -/
theorem project_eq_minimal {b : Backend} (h : ¬ b.HasShortStatuses) :
    project b = .minimal b.name b.version :=
  if_neg (mt all_isSome_iff.1 h)

/-- A document is complete when every status is short enough to be written, and then it is the one
in which all endpoints were entered. -/
theorem project_eq_complete {b : Backend} {d : Document} :
    project b = .complete d ↔ b.HasShortStatuses ∧ Document.ofBackend b = d := by
  by_cases h : b.HasShortStatuses
  · simp [project, all_isSome_iff.2 h, h]
  · simp [project_eq_minimal h, h]

/-- A backend has a complete document with some property exactly if its statuses can be written,
where the document in which all its endpoints were entered has the property. -/
theorem exists_complete_iff {b : Backend} {P : Document → Prop} (h : P (Document.ofBackend b)) :
    (∃ d, project b = .complete d ∧ P d) ↔ b.HasShortStatuses := by
  constructor
  · rintro ⟨d, hd, -⟩
    exact (project_eq_complete.1 hd).1
  · exact fun hshort => ⟨_, project_eq_complete.2 ⟨hshort, rfl⟩, h⟩

/-- The calls of the complete document of a backend are those of the endpoints that are the last
ones in their places. -/
theorem mem_calls_iff {b : Backend} {c : Call} : c ∈ calls (Document.ofBackend b).toJson ↔
    ∃ e, IsLast (fun f => f.place = e.place) b.endpoints e ∧ e.call = c := by
  have hentered : Entered b.endpoints (Document.ofBackend b).paths := entered_foldl b.endpoints
  rw [calls_toJson]
  constructor
  · intro h
    obtain ⟨⟨path, operations⟩, hpath, hc⟩ := List.mem_flatMap.1 h
    obtain ⟨⟨m, o⟩, ho, rfl⟩ := List.mem_map.1 hc
    obtain ⟨e, hlast, rfl⟩ := hentered.mem_iff.1 ⟨operations, hpath, ho⟩
    have hplace : e.place = (m, path) := hlast.1
    refine ⟨e, hplace ▸ hlast, ?_⟩
    cases hplace
    rfl
  · rintro ⟨e, hlast, rfl⟩
    obtain ⟨operations, hpath, ho⟩ := hentered.mem_iff.2 ⟨e, hlast, rfl⟩
    exact List.mem_flatMap.2 ⟨_, hpath, List.mem_map_of_mem ho⟩

end OpenApi

end Nanoservice
