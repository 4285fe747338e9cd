import Nanoservice.Proofs.EndpointPath
import Nanoservice.Proofs.Reading

/-!
# Values that are read as a model

For the rules and for each part of a model, the values that are read and what they are read as: a
lemma `_eq_ok` for a reading function is an equivalence, and the later facts about a model that was
read are drawn from these.
-/

namespace Nanoservice

open Reading

/-! ## Rules for single values -/

namespace Rule

/-- A name is a text that is not empty. -/
theorem name_eq_ok {v : Json} {s : String} : name v = .ok s ↔ v = .str s ∧ s ≠ "" := by
  cases v with
  | str t =>
    by_cases ht : t = ""
    · subst ht
      simp [name, text, Reading.fail]
    · simp [name, text, ht]
      rintro rfl; exact ht
  | null | bool | int | float | broken | arr | obj => simp [name, text, Reading.fail]

/-- A title is a text that is not blank, without its margins. -/
theorem title_eq_ok {v : Json} {s : String} :
    title v = .ok s ↔ ∃ t, v = .str t ∧ Text.trim t = s ∧ s ≠ "" := by
  cases v with
  | str t => simp [title, name_eq_ok]
  | null | bool | int | float | broken | arr | obj => simp [title, name_eq_ok]

/-- A raw text is the text of any value that is one. -/
theorem rawText_eq_ok {v : Json} {t : RawText} : rawText v = .ok t ↔ v = .ofText t := by
  cases t <;> cases v <;> simp [rawText, Json.rawText?, Json.ofText, Reading.fail]

/-- What is read as a text is what is one. -/
theorem rawText_eq_ok_iff {v : Json} {t : RawText} : rawText v = .ok t ↔ v.rawText? = some t := by
  cases v <;> simp [rawText, Json.rawText?, Reading.fail]

@[simp] theorem rawText_ofText (t : RawText) : rawText (.ofText t) = .ok t :=
  rawText_eq_ok.2 rfl

/-- A version that was read is not blank. -/
theorem not_blank_of_version {v : Json} {t : RawText} (h : version v = .ok t) :
    t.isBlank = false := by
  unfold version at h
  split at h
  · cases h; decide
  · split at h
    · split at h
      · cases h; decide
      · next hs => cases h; exact Bool.eq_false_iff.2 hs
    · cases h

/-- A path is a text that is not blank, in normal form. -/
theorem path_eq_ok {v : Json} {t : RawText} :
    path v = .ok t ↔
      ∃ given, rawText v = .ok given ∧ given.isBlank = false ∧
        given.rewrite EndpointPath.normalize = t := by
  cases hv : rawText v with
  | ok given => cases hblank : given.isBlank <;> simp [path, hv, hblank, Reading.fail]
  | error issues => simp [path, hv]

theorem schema_eq_ok {v : Json} {s : Option (List (RawText × Json))} :
    schema v = .ok s ↔ (v = .null ∧ s = none) ∨ ∃ fs, v = .obj fs ∧ s = some fs := by
  cases v <;> simp [schema, Reading.fail, eq_comm]

end Rule

/-! ## Parts of a model -/

theorem Field.ofJson_eq_ok {v : Json} {f : Field} :
    Field.ofJson v = .ok f ↔ ∃ fs, v = .obj fs ∧ mandatory Rule.name "name" fs = .ok f.name ∧
      optional Rule.valueType .string "type" fs = .ok f.type ∧
      optional Rule.description "" "description" fs = .ok f.description := by
  simp only [Field.ofJson, part_eq_ok, both_eq_ok, map_record_eq_ok
    (g := fun f : Field => (f.name, f.type, f.description)), implies_true]

theorem Node.ofJson_eq_ok {v : Json} {n : Node} :
    Node.ofJson v = .ok n ↔ ∃ fs, v = .obj fs ∧ mandatory Rule.name "name" fs = .ok n.name ∧
      mandatory Rule.nodeKind "type" fs = .ok n.kind ∧
      optional Rule.description "" "description" fs = .ok n.description ∧
      optional (list Field.ofJson) [] "inputs" fs = .ok n.inputs ∧
      optional (list Field.ofJson) [] "outputs" fs = .ok n.outputs := by
  simp only [Node.ofJson, part_eq_ok, both_eq_ok, map_record_eq_ok
    (g := fun n : Node =>
      (n.name, n.kind, n.description, n.inputs, n.outputs)),
    implies_true]

theorem Parameter.ofJson_eq_ok {v : Json} {p : Parameter} :
    Parameter.ofJson v = .ok p ↔ ∃ fs, v = .obj fs ∧
      mandatory Rule.name "name" fs = .ok p.name ∧
      mandatory Rule.location (usedKey "in" "location" fs) fs = .ok p.location ∧
      optional Rule.switch false "required" fs = .ok p.required ∧
      optional Rule.valueType .string "type" fs = .ok p.type ∧
      optional Rule.description "" "description" fs = .ok p.description := by
  simp only [Parameter.ofJson, part_eq_ok, both_eq_ok, map_record_eq_ok
    (g := fun p : Parameter =>
      (p.name, p.location, p.required, p.type, p.description)),
    implies_true]

theorem Response.ofJson_eq_ok {v : Json} {r : Response} :
    Response.ofJson v = .ok r ↔ ∃ fs, v = .obj fs ∧
      mandatory Rule.integer "status" fs = .ok r.status ∧
      optional Rule.description "" "description" fs = .ok r.description ∧
      optional Rule.schema none (usedKey "schema" "schema_" fs) fs = .ok r.schema := by
  simp only [Response.ofJson, part_eq_ok, both_eq_ok, map_record_eq_ok
    (g := fun r : Response => (r.status, r.description, r.schema)), implies_true]

theorem Endpoint.ofJson_eq_ok {v : Json} {e : Endpoint} :
    Endpoint.ofJson v = .ok e ↔ ∃ fs, v = .obj fs ∧
      mandatory Rule.path "path" fs = .ok e.path ∧
      mandatory Rule.method "method" fs = .ok e.method ∧
      optional Rule.description "" "description" fs = .ok e.description ∧
      optional (list Parameter.ofJson) [] "parameters" fs = .ok e.parameters ∧
      optional (list Response.ofJson) [] "responses" fs = .ok e.responses := by
  simp only [Endpoint.ofJson, part_eq_ok, both_eq_ok, map_record_eq_ok
    (g := fun e : Endpoint =>
      (e.path, e.method, e.description, e.parameters, e.responses)),
    implies_true]

theorem Workflow.ofJson_eq_ok {v : Json} {w : Workflow} :
    Workflow.ofJson v = .ok w ↔ ∃ fs, v = .obj fs ∧
      mandatory Rule.name "name" fs = .ok w.name ∧
      optional Rule.description "" "description" fs = .ok w.description ∧
      optional (list Rule.rawText) [] "nodes" fs = .ok w.nodes ∧
      optional (list Endpoint.ofJson) [] "endpoints" fs = .ok w.endpoints := by
  simp only [Workflow.ofJson, part_eq_ok, both_eq_ok, map_record_eq_ok
    (g := fun w : Workflow =>
      (w.name, w.description, w.nodes, w.endpoints)),
    implies_true]

namespace Backend

theorem partsOfJson_eq_ok {freshId : String} {v : Json} {b : Backend} :
    partsOfJson freshId v = .ok b ↔ ∃ fs, v = .obj fs ∧
      optional Rule.rawText freshId "id" fs = .ok b.id ∧
      mandatory Rule.title "name" fs = .ok b.name ∧
      optional Rule.description "" "description" fs = .ok b.description ∧
      optional Rule.version defaultVersion "version" fs = .ok b.version ∧
      optional (list Node.ofJson) [] "nodes" fs = .ok b.nodes ∧
      optional (list Workflow.ofJson) [] "workflows" fs = .ok b.workflows ∧
      optional (list Endpoint.ofJson) [] "endpoints" fs = .ok b.endpoints := by
  simp only [partsOfJson, part_eq_ok, both_eq_ok, map_record_eq_ok
    (g := fun b : Backend =>
      (b.id, b.name, b.description, b.version, b.nodes, b.workflows, b.endpoints)),
    implies_true]

/-- No node is unknown when every node that a workflow names is one of the model. -/
theorem unknownNode?_eq_none {b : Backend} :
    b.unknownNode? = none ↔
      ∀ w ∈ b.workflows, ∀ n ∈ w.nodes, n ∈ b.nodes.map fun node => .plain node.name := by
  simp [unknownNode?]

/-- A model is read when its parts are and its references lead to its nodes. -/
theorem ofJson_eq_ok {freshId : String} {v : Json} {b : Backend} :
    ofJson freshId v = .ok b ↔ partsOfJson freshId v = .ok b ∧ b.unknownNode? = none := by
  unfold ofJson
  cases partsOfJson freshId v with
  | error is => simp
  | ok b' =>
    simp only [Except.ok.injEq]
    constructor
    · intro h
      split at h
      · simp [Reading.fail] at h
      · next hu => cases h; exact ⟨rfl, hu⟩
    · rintro ⟨rfl, hu⟩
      rw [hu]

end Backend

end Nanoservice
