import Nanoservice.Backend.Encoding
import Nanoservice.Proofs.Json.Spelling

/-!
# Models without special numbers

A special number in a response schema has no place in a persisted text. The finite form of a model
has null in place of each (`Backend.finite`). It is the model itself when there are none
(`Backend.finite_of_isFinite`), and both have one JSON value (`Backend.toJson_finite`), which is
finite (`Backend.finite_toJson`), and are encoded alike (`Backend.encode_finite`).
-/

namespace Nanoservice

open Json (finiteItems_map)

/-! ## The finite form -/

/-- A response with null in place of every special number in its schema. -/
def Response.finite (r : Response) : Response :=
  { r with schema := r.schema.map Json.finiteFields }

/-- An endpoint whose response schemas are finite. -/
def Endpoint.finite (e : Endpoint) : Endpoint :=
  { e with responses := e.responses.map Response.finite }

/-- A workflow whose response schemas are finite. -/
def Workflow.finite (w : Workflow) : Workflow :=
  { w with endpoints := w.endpoints.map Endpoint.finite }

namespace Backend

/-- A model whose response schemas are finite. -/
def finite (b : Backend) : Backend :=
  { b with
    workflows := b.workflows.map Workflow.finite
    endpoints := b.endpoints.map Endpoint.finite }

theorem mem_responses_of_endpoint {m : Backend} {e : Endpoint} {r : Response}
    (he : e ∈ m.endpoints) (hr : r ∈ e.responses) : r ∈ m.responses :=
  List.mem_flatMap.2 ⟨e, List.mem_append_left _ he, hr⟩

theorem mem_responses_of_workflow {m : Backend} {w : Workflow} {e : Endpoint} {r : Response}
    (hw : w ∈ m.workflows) (he : e ∈ w.endpoints) (hr : r ∈ e.responses) : r ∈ m.responses :=
  List.mem_flatMap.2 ⟨e, List.mem_append_right _ (List.mem_flatMap.2 ⟨w, hw, he⟩), hr⟩

end Backend

/-! ## Finite models -/

/-- No special number occurs in the schema of a response. -/
def Response.IsFinite (r : Response) : Prop :=
  ∀ fs, r.schema = some fs → Json.isFiniteFields fs = true

theorem Response.finite_of_isFinite {r : Response} (h : r.IsFinite) : r.finite = r := by
  obtain ⟨status, description, schema⟩ := r
  cases schema with
  | none => rfl
  | some fs => simp only [finite, Option.map_some, Json.finiteFields_of_isFinite fs (h fs rfl)]

theorem Endpoint.finite_of_isFinite {e : Endpoint} (h : ∀ r ∈ e.responses, r.IsFinite) :
    e.finite = e := by
  have hresponses : e.responses.map Response.finite = e.responses.map id :=
    List.map_congr_left fun r hr => Response.finite_of_isFinite (h r hr)
  rw [finite, hresponses, List.map_id]

theorem Workflow.finite_of_isFinite {w : Workflow}
    (h : ∀ e ∈ w.endpoints, ∀ r ∈ e.responses, r.IsFinite) : w.finite = w := by
  have hendpoints : w.endpoints.map Endpoint.finite = w.endpoints.map id :=
    List.map_congr_left fun e he => Endpoint.finite_of_isFinite (h e he)
  rw [finite, hendpoints, List.map_id]

/-- A model without special numbers is its own finite form. -/
theorem Backend.finite_of_isFinite {m : Backend} (h : ∀ r ∈ m.responses, r.IsFinite) :
    m.finite = m := by
  have hworkflows : m.workflows.map Workflow.finite = m.workflows.map fun w => w :=
    List.map_congr_left fun w hw => Workflow.finite_of_isFinite fun e he r hr =>
      h r (mem_responses_of_workflow hw he hr)
  have hendpoints : m.endpoints.map Endpoint.finite = m.endpoints.map fun e => e :=
    List.map_congr_left fun e he => Endpoint.finite_of_isFinite fun r hr =>
      h r (mem_responses_of_endpoint he hr)
  rw [finite, hworkflows, hendpoints, List.map_id', List.map_id']

/-! ## The JSON value of a model -/

/-- The finite form of a response has the JSON value of the response. -/
theorem Response.toJson_finite (r : Response) : r.finite.toJson = r.toJson := by
  obtain ⟨status, description, schema⟩ := r
  cases schema with
  | none => rfl
  | some fs => simp only [toJson, finite, Option.map_some, Json.finiteFields_finiteFields]

theorem Endpoint.toJson_finite (e : Endpoint) : e.finite.toJson = e.toJson := by
  have hresponses : Response.toJson ∘ Response.finite = Response.toJson :=
    funext Response.toJson_finite
  simp only [toJson, finite, List.map_map, hresponses]

theorem Workflow.toJson_finite (w : Workflow) : w.finite.toJson = w.toJson := by
  have hendpoints : Endpoint.toJson ∘ Endpoint.finite = Endpoint.toJson :=
    funext Endpoint.toJson_finite
  simp only [toJson, finite, List.map_map, hendpoints]

/-- A model and its finite form have one JSON value. -/
theorem Backend.toJson_finite (m : Backend) : m.finite.toJson = m.toJson := by
  have hworkflows : Workflow.toJson ∘ Workflow.finite = Workflow.toJson :=
    funext Workflow.toJson_finite
  have hendpoints : Endpoint.toJson ∘ Endpoint.finite = Endpoint.toJson :=
    funext Endpoint.toJson_finite
  simp only [toJson, finite, List.map_map, hworkflows, hendpoints]

/-! ## What stops the writing -/

/-- The finite form of a response is stopped where the response is. -/
theorem Response.fault?_finite (r : Response) : r.finite.fault? = r.fault? := by
  obtain ⟨status, description, schema⟩ := r
  cases schema with
  | none => rfl
  | some fs =>
    simp only [fault?, finite, Option.map_some, Option.bind_some,
      Json.faultOfFields?_finite fun f _ => Json.fault?_finite _ f.2]

theorem Endpoint.fault?_finite (e : Endpoint) : e.finite.fault? = e.fault? := by
  have hresponses : Response.fault? ∘ Response.finite = Response.fault? :=
    funext Response.fault?_finite
  simp only [fault?, finite, List.findSome?_map, hresponses]

theorem Workflow.fault?_finite (w : Workflow) : w.finite.fault? = w.fault? := by
  have hendpoints : Endpoint.fault? ∘ Endpoint.finite = Endpoint.fault? :=
    funext Endpoint.fault?_finite
  simp only [fault?, finite, List.findSome?_map, hendpoints]

/-- A model and its finite form are encoded alike. -/
theorem Backend.encode_finite (m : Backend) (indent : Option Nat) :
    m.finite.encode indent = m.encode indent := by
  have hworkflows : Workflow.fault? ∘ Workflow.finite = Workflow.fault? :=
    funext Workflow.fault?_finite
  have hendpoints : Endpoint.fault? ∘ Endpoint.finite = Endpoint.fault? :=
    funext Endpoint.fault?_finite
  have hfault : m.finite.encodingFault? = m.encodingFault? := by
    simp only [encodingFault?, finite, List.findSome?_map, hworkflows, hendpoints]
  simp only [encode, hfault, toText, toJson_finite]

/-! ## The finite form of the JSON value -/

theorem Field.finite_toJson (f : Field) : f.toJson.finite = f.toJson := by
  simp only [toJson, Json.finite, Json.finiteFields, Json.finite_ofText]

theorem Node.finite_toJson (n : Node) : n.toJson.finite = n.toJson := by
  simp only [toJson, Json.finite, Json.finiteFields, Json.finite_ofText,
    finiteItems_map Field.finite_toJson]

theorem Parameter.finite_toJson (p : Parameter) : p.toJson.finite = p.toJson := by
  simp only [toJson, Json.finite, Json.finiteFields, Json.finite_ofText]

theorem Response.finite_toJson (r : Response) : r.toJson.finite = r.toJson := by
  obtain ⟨status, description, schema⟩ := r
  cases schema with
  | none => simp only [toJson, Json.finite, Json.finiteFields, Json.finite_ofText]
  | some fs =>
    simp only [toJson, Json.finite, Json.finiteFields, Json.finite_ofText,
      Json.finiteFields_spelledFields]

theorem Endpoint.finite_toJson (e : Endpoint) : e.toJson.finite = e.toJson := by
  simp only [toJson, Json.finite, Json.finiteFields, Json.finite_ofText,
    finiteItems_map Parameter.finite_toJson, finiteItems_map Response.finite_toJson]

theorem Workflow.finite_toJson (w : Workflow) : w.toJson.finite = w.toJson := by
  simp only [toJson, Json.finite, Json.finiteFields, Json.finite_ofText,
    finiteItems_map Json.finite_ofText, finiteItems_map Endpoint.finite_toJson]

/-- The JSON value of a model has no special number. -/
theorem Backend.finite_toJson (m : Backend) : m.toJson.finite = m.toJson := by
  simp only [toJson, Json.finite, Json.finiteFields, Json.finite_ofText,
    finiteItems_map Node.finite_toJson, finiteItems_map Workflow.finite_toJson,
    finiteItems_map Endpoint.finite_toJson]

end Nanoservice
