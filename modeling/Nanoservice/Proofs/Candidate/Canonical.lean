import Nanoservice.Proofs.Candidate.Accepted
import Nanoservice.Proofs.Candidate.Endpoints
import Nanoservice.Proofs.Generation.Assembly

/-!
# Candidates in canonical form

The JSON value of a model is a candidate too, one that lists the endpoints of the model at the top
level. It is accepted when the names of the model are different (`Backend.validate_toJson`), so the
model of an accepted candidate is that of its own JSON value as well: what validation does to a
candidate it does once (`Candidate.validate_isProjection`). Only the special numbers of schemas are
lost on the way, as they have no place in the value, and the fresh identity is that of the second
validation; the rules that read a model alone keep the identity. A key with half of a surrogate pair
comes back spelled (`Candidate.validate_halfKey`).
-/

namespace Nanoservice

open Reading

/-- The JSON value of a normal model whose names are different and whose schemas have whole keys is
a candidate of the model, up to the special numbers and the identity. -/
theorem Backend.validate_toJson {b : Backend} (hb : b.IsNormal)
    (hkeys : ∀ r ∈ b.responses, r.HasWholeKeys) (hnodes : (b.nodes.map Node.name).Nodup)
    (hflows : (b.workflows.map Workflow.name).Nodup) (freshId : String) :
    Candidate.validate freshId b.toJson = .ok (b.finite.withId freshId) := by
  have hes : list Endpoint.ofJson (.arr (b.endpoints.map Endpoint.toJson)) =
      .ok (b.endpoints.map Endpoint.finite) :=
    list_map_encode fun e he =>
      Endpoint.ofJson_toJson (hb.endpoints e he) ((forall_mem_responses.1 hkeys).1 e he)
  exact validate_of_describes ⟨rfl, rfl, rfl, rfl, rfl⟩ hb hkeys hnodes hflows hes

namespace Candidate

/-- The model of an accepted candidate is shown as a value when its schemas have whole keys, none
twice in an object, and are not nested too deep. The model, with null in place of every special
number in its schemas, is what this value is validated to, with a fresh identity, and what the value
is read as, with the identity that the model has. -/
theorem validate_isProjection {freshId : String} {raw : Json} {m : Backend}
    (h : validate freshId raw = .ok m) (hkeys : ∀ r ∈ m.responses, r.HasWholeKeys)
    (hdistinct : ∀ r ∈ m.responses, r.HasDistinctKeys)
    (hshallow : ∀ r ∈ m.responses, r.isShallow = true) (freshId' : String) :
    ∃ v, m.dump? = some v ∧ validate freshId' v = .ok (m.finite.withId freshId') ∧
      Backend.ofJson freshId' v = .ok m.finite := by
  have hnormal := isNormal_of_validate h
  obtain ⟨hnodes, hflows⟩ := nodup_names_of_validate h
  exact ⟨m.toJson, Backend.dump?_eq_toJson hkeys hdistinct hshallow,
    Backend.validate_toJson hnormal hkeys hnodes hflows freshId',
    Backend.ofJson_toJson hnormal hkeys freshId'⟩

/-- A candidate with blank margins around its name, whose only endpoint has a limit in a schema. -/
def limited (key : RawText) (limit : Json) : Fields :=
  [("name", .str " shop "), ("workflows", .arr []),
    ("endpoints", .arr [.obj [("path", .str "/x"), ("method", .str "get"),
      ("responses", .arr [.obj [("status", .int 200), ("schema", .obj [(key, limit)])]])]])]

/-- The model of a candidate whose only endpoint has a limit. -/
def limitedModel (key : RawText) (limit : Json) : Backend :=
  ⟨"0", "shop", "", Backend.defaultVersion, [], [],
    [⟨"/x", .get, "", [], [⟨200, "", some [(key, limit)]⟩]⟩]⟩

/-- A limit that is no number is lost when the model is validated once more, and nothing else. -/
theorem validate_isProjection_limited :
    validate "0" (.obj (limited "max" (.float .nan))) = .ok (limitedModel "max" (.float .nan)) ∧
      ∃ v, (limitedModel "max" (.float .nan)).dump? = some v ∧
        validate "1" v = .ok ((limitedModel "max" .null).withId "1") := by
  have hvalid : validate "0" (.obj (limited "max" (.float .nan))) =
      .ok (limitedModel "max" (.float .nan)) := by cbv
  have hschema {P : List (RawText × Json) → Prop} (h : P [("max", .float .nan)]) :
      ∀ r ∈ (limitedModel "max" (.float .nan)).responses, ∀ fs, r.schema = some fs → P fs :=
    List.forall_mem_singleton.2 fun fs hfs => Option.some.inj hfs ▸ h
  obtain ⟨v, hdump, hagain, -⟩ := validate_isProjection hvalid (hschema rfl) (hschema rfl)
    (List.forall_mem_singleton.2 rfl) "1"
  exact ⟨hvalid, v, hdump, hagain⟩

/-- A key with half of a surrogate pair is accepted in a schema. The value that shows the model
spells it, and is read as a model with another key. -/
theorem validate_halfKey :
    validate "0" (.obj (limited (.broken [.half ⟨0xD800, by decide⟩]) .null)) =
        .ok (limitedModel (.broken [.half ⟨0xD800, by decide⟩]) .null) ∧
      (limitedModel (.broken [.half ⟨0xD800, by decide⟩]) .null).dump?.map (Backend.ofJson "1") =
        some (.ok (limitedModel "\ufffd\ufffd\ufffd" .null)) ∧
      limitedModel "\ufffd\ufffd\ufffd" .null ≠
        (limitedModel (.broken [.half ⟨0xD800, by decide⟩]) .null).finite := by
  refine ⟨by cbv, by cbv, fun h => ?_⟩
  have hendpoints := congrArg Backend.endpoints h
  simp [limitedModel, Backend.finite, Endpoint.finite, Response.finite, Json.finiteFields]
    at hendpoints

end Candidate

end Nanoservice
