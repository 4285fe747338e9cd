import Nanoservice.Proofs.OpenApi.Operation

/-!
# The integers of a document

A document says statuses and everything else in texts, so its integers are those of the schemas that
it shows: those of the last response of each status in the last endpoint of each place. Only in them
can an integer be too long to be written (`OpenApi.hasShortIntegers_project`).
-/

namespace Nanoservice

open Json (fieldsHaveShortIntegers fieldsHaveShortIntegers_iff itemsHaveShortIntegers_iff)

/-- The integers of the schema of a response, if there is one, are short. -/
def Response.HasShortIntegers (r : Response) : Prop :=
  ∀ fs, r.schema = some fs → fieldsHaveShortIntegers fs = true

namespace OpenApi

/-- The integers of encoded fields are short when those of each of them are. -/
theorem fieldsHaveShortIntegers_map {α : Type} {encode : α → RawText × Json} {as : List α} :
    fieldsHaveShortIntegers (as.map encode) = true ↔
      ∀ a ∈ as, (encode a).2.hasShortIntegers = true := by
  rw [fieldsHaveShortIntegers_iff, List.forall_mem_map]

theorem hasShortIntegers_ofText (t : RawText) : (Json.ofText t).hasShortIntegers = true := by
  cases t <;> rfl

theorem hasShortIntegers_responseJson {r : Response} :
    (responseJson r).hasShortIntegers = true ↔ r.HasShortIntegers := by
  obtain ⟨status, description, schema⟩ := r
  rcases schema with _ | _ | ⟨f, fs⟩ <;>
    simp [responseJson, contentJson, Response.HasShortIntegers, Json.hasShortIntegers,
      fieldsHaveShortIntegers, hasShortIntegers_ofText]

/-- The integers of responses are short when those of the last one of each status are. -/
theorem hasShortIntegers_responses {rs : List Response} :
    (Responses.ofList rs).toJson.hasShortIntegers = true ↔
      ∀ r, IsLast (fun q => q.status = r.status) rs r → r.HasShortIntegers := by
  unfold Responses.ofList
  split
  · next hnil =>
    rw [List.isEmpty_iff.1 hnil]
    exact ⟨fun _ r hr => absurd hr.mem List.not_mem_nil, fun _ => rfl⟩
  · rw [Responses.toJson, Json.hasShortIntegers, fieldsHaveShortIntegers_map]
    simp only [hasShortIntegers_responseJson]
    exact ⟨fun h r hr => h (_, r) (mem_byStatus_iff.2 ⟨rfl, hr⟩),
      fun h p hp => h p.2 (mem_byStatus_iff.1 hp).2⟩

theorem hasShortIntegers_parameter (p : ParameterEntry) : p.toJson.hasShortIntegers = true := by
  simp [ParameterEntry.toJson, typeObject, Json.hasShortIntegers, fieldsHaveShortIntegers,
    hasShortIntegers_ofText]

theorem hasShortIntegers_body (r : RequestBody) : r.toJson.hasShortIntegers = true := by
  simp [RequestBody.toJson, contentJson, typeObject, Json.hasShortIntegers,
    fieldsHaveShortIntegers, fieldsHaveShortIntegers_map, hasShortIntegers_ofText]

/-- The integers of an operation are those of its responses. -/
theorem hasShortIntegers_operation (o : Operation) :
    o.toJson.hasShortIntegers = o.responses.toJson.hasShortIntegers := by
  obtain ⟨description, parameters, body, responses⟩ := o
  have hparameters :
      Json.itemsHaveShortIntegers (parameters.map ParameterEntry.toJson) = true :=
    itemsHaveShortIntegers_iff.2 (List.forall_mem_map.2 fun p _ => hasShortIntegers_parameter p)
  cases hempty : parameters.isEmpty <;> cases body <;>
    simp [Operation.toJson, Operation.headFields, hempty, Json.hasShortIntegers,
      fieldsHaveShortIntegers, hasShortIntegers_ofText, hasShortIntegers_body, hparameters]

/-- The integers of a document with complete operations are short when those of the endpoints are
that are the last ones in their places. -/
theorem hasShortIntegers_document {b : Backend} :
    (Document.ofBackend b).toJson.hasShortIntegers = true ↔
      ∀ e, IsLast (fun f => f.place = e.place) b.endpoints e →
        ∀ r, IsLast (fun q => q.status = r.status) e.responses r → r.HasShortIntegers := by
  have hpaths : (Document.ofBackend b).toJson.hasShortIntegers = true ↔
      ∀ entry ∈ b.endpoints.foldl enter [], True ∧
        ∀ o ∈ entry.2, o.2.toJson.hasShortIntegers = true := by
    simp [Document.toJson, Document.ofBackend, infoJson, serversJson, pathJson,
      Json.hasShortIntegers, fieldsHaveShortIntegers, Json.itemsHaveShortIntegers,
      fieldsHaveShortIntegers_map, hasShortIntegers_ofText]
  rw [hpaths, forall_mem_paths_iff (P := fun _ => True)
    (Q := fun o => o.toJson.hasShortIntegers = true)]
  refine forall₂_congr fun e _ => ?_
  rw [true_and, hasShortIntegers_operation, Operation.ofEndpoint, hasShortIntegers_responses]

/-- The integers of the smallest document are short. -/
theorem hasShortIntegers_minimalJson (title : String) (version : RawText) :
    (minimalJson (some (.str title)) (some (.ofText version))).hasShortIntegers = true := by
  cases htitle : (Json.str title).isFalsy <;> cases hfalsy : (Json.ofText version).isFalsy <;>
    simp [minimalJson, infoJson, serversJson, htitle, hfalsy, Json.hasShortIntegers,
      fieldsHaveShortIntegers, Json.itemsHaveShortIntegers, hasShortIntegers_ofText]

/-- The integers of the document of a model are short when those of the schemas are that it shows;
the smallest document shows none. -/
theorem hasShortIntegers_project {b : Backend} : (project b).toJson.hasShortIntegers = true ↔
    (b.HasShortStatuses → ∀ e, IsLast (fun f => f.place = e.place) b.endpoints e →
      ∀ r, IsLast (fun q => q.status = r.status) e.responses r → r.HasShortIntegers) := by
  by_cases hshort : b.HasShortStatuses
  · rw [project_eq_complete.2 ⟨hshort, rfl⟩, Projection.toJson, hasShortIntegers_document]
    exact ⟨fun h _ => h, fun h => h hshort⟩
  · rw [project_eq_minimal hshort]
    exact iff_of_true (hasShortIntegers_minimalJson b.name b.version) fun h => absurd h hshort

end OpenApi

end Nanoservice
