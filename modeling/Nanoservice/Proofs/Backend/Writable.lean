import Nanoservice.Proofs.Backend.Finite

/-!
# Models that can be written and sent

Two kinds of writing take a model apart. Its text can be written when no text of it holds half of a
surrogate pair, those in schemas included, and no schema is nested too deep
(`Backend.isEncodable_iff`); keys are spelled, so they do not matter. Its JSON value can be sent
when those texts are whole and every integer has a decimal text (`Backend.isSendable_toJson`), and
there is such a value when no schema is nested too deep (`Backend.dump?_eq_some`). -/

namespace Nanoservice

/-! ## The texts of a model -/

/-- The texts of a node that are no names. -/
def Node.texts (n : Node) : List RawText :=
  n.description :: (n.inputs ++ n.outputs).map Field.description

/-- The texts of an endpoint that are no names, those in schemas aside. -/
def Endpoint.texts (e : Endpoint) : List RawText :=
  e.path :: e.description ::
    (e.parameters.map Parameter.description ++ e.responses.map Response.description)

/-- The texts of a workflow that are no names, those in schemas aside. -/
def Workflow.texts (w : Workflow) : List RawText :=
  w.description :: (w.nodes ++ w.endpoints.flatMap Endpoint.texts)

/-- The texts of a model that are no names, those in schemas aside. -/
def Backend.texts (b : Backend) : List RawText :=
  b.id :: b.description :: b.version :: (b.nodes.flatMap Node.texts ++
    b.workflows.flatMap Workflow.texts ++ b.endpoints.flatMap Endpoint.texts)

/-- The responses of a model have a property when those of its endpoints and workflows do. -/
theorem Backend.forall_mem_responses {b : Backend} {P : Response → Prop} :
    (∀ r ∈ b.responses, P r) ↔ (∀ e ∈ b.endpoints, ∀ r ∈ e.responses, P r) ∧
      ∀ w ∈ b.workflows, ∀ e ∈ w.endpoints, ∀ r ∈ e.responses, P r := by
  constructor
  · exact fun h => ⟨fun e he r hr => h r (mem_responses_of_endpoint he hr),
      fun w hw e he r hr => h r (mem_responses_of_workflow hw he hr)⟩
  · rintro ⟨htop, hnested⟩ r hr
    obtain ⟨e, he, hr⟩ := List.mem_flatMap.1 hr
    rcases List.mem_append.1 he with he | he
    · exact htop e he r hr
    · obtain ⟨w, hw, he⟩ := List.mem_flatMap.1 he
      exact hnested w hw e he r hr

/-! ## Models with a text -/

/-- The schema of a response can be written: its texts are whole, and it is not nested too deep. -/
def Response.IsWritable (r : Response) : Prop :=
  ∀ fs, r.schema = some fs →
    Json.fieldsHaveWholeTexts fs = true ∧ Json.heightOfFields fs ≤ Json.writableHeight

/-- The texts of a model are whole and its schemas can be written. -/
structure Backend.IsWritable (b : Backend) : Prop where
  texts : ∀ t ∈ b.texts, t.isWhole = true
  responses : ∀ r ∈ b.responses, r.IsWritable

theorem RawText.fault?_eq_none {t : RawText} : t.fault? = none ↔ t.isWhole = true := by
  cases t <;> simp [fault?, isWhole]

theorem Node.fault?_eq_none {n : Node} :
    n.fault? = none ↔ ∀ t ∈ n.texts, t.isWhole = true := by
  simp only [fault?, Field.fault?, texts, Option.or_eq_none_iff, List.findSome?_eq_none_iff,
    RawText.fault?_eq_none, List.forall_mem_cons, List.forall_mem_map]

theorem Response.fault?_eq_none {r : Response} :
    r.fault? = none ↔ r.description.isWhole = true ∧ r.IsWritable := by
  simp only [fault?, IsWritable, Option.or_eq_none_iff, RawText.fault?_eq_none,
    Option.bind_eq_none_iff, Json.faultOfFields?_eq_none_iff]

theorem Endpoint.fault?_eq_none {e : Endpoint} :
    e.fault? = none ↔
      (∀ t ∈ e.texts, t.isWhole = true) ∧ ∀ r ∈ e.responses, r.IsWritable := by
  simp only [fault?, Parameter.fault?, texts, Option.or_eq_none_iff, List.findSome?_eq_none_iff,
    RawText.fault?_eq_none, Response.fault?_eq_none, List.forall_mem_cons, List.forall_mem_append,
    List.forall_mem_map, List.not_mem_nil, false_imp_iff, implies_true, and_true, forall₂_and,
    and_assoc]

theorem Workflow.fault?_eq_none {w : Workflow} :
    w.fault? = none ↔
      (∀ t ∈ w.texts, t.isWhole = true) ∧ ∀ e ∈ w.endpoints, ∀ r ∈ e.responses, r.IsWritable := by
  simp only [fault?, texts, Option.or_eq_none_iff, List.findSome?_eq_none_iff,
    RawText.fault?_eq_none, Endpoint.fault?_eq_none, List.forall_mem_cons, List.forall_mem_append,
    List.forall_mem_flatMap, forall₂_and, and_assoc]

namespace Backend

/-- A model can be encoded when its texts are whole and its schemas can be written. -/
theorem isEncodable_iff {b : Backend} : b.isEncodable = true ↔ b.IsWritable := by
  have hparts : b.isEncodable = true ↔ (∀ t ∈ b.texts, t.isWhole = true) ∧
      (∀ e ∈ b.endpoints, ∀ r ∈ e.responses, r.IsWritable) ∧
      ∀ w ∈ b.workflows, ∀ e ∈ w.endpoints, ∀ r ∈ e.responses, r.IsWritable := by
    simp only [isEncodable, encodingFault?, texts, Option.isNone_iff_eq_none,
      Option.or_eq_none_iff, List.findSome?_eq_none_iff, RawText.fault?_eq_none,
      Node.fault?_eq_none, Workflow.fault?_eq_none, Endpoint.fault?_eq_none, List.forall_mem_cons,
      List.forall_mem_append, List.forall_mem_flatMap, List.not_mem_nil, false_imp_iff,
      implies_true, and_true, forall₂_and]
    tauto
  rw [hparts, ← forall_mem_responses]
  exact ⟨fun h => ⟨h.1, h.2⟩, fun h => ⟨h.texts, h.responses⟩⟩

theorem not_isWritable_of_fault {b : Backend} {f : EncodingFault} (h : b.encodingFault? = some f) :
    ¬ b.IsWritable := by
  rw [← isEncodable_iff, isEncodable, h]
  nofun

/-- A model that can be encoded has the text that is made of its JSON value. -/
theorem encode_eq_ok {b : Backend} (h : b.isEncodable = true) (indent : Option Nat) :
    b.encode indent = .ok (b.toText indent) := by
  rw [encode, Option.isNone_iff_eq_none.1 h]

end Backend

/-! ## Models that can be sent -/

/-- A response whose texts in the schema are whole and whose integers have a decimal text. -/
structure Response.IsPresentable (r : Response) : Prop where
  status : Text.isShortInteger r.status = true
  texts : ∀ fs, r.schema = some fs → Json.fieldsHaveWholeTexts fs = true
  integers : ∀ fs, r.schema = some fs → Json.fieldsHaveShortIntegers fs = true

theorem Node.isSendable_toJson {n : Node} :
    n.toJson.isSendable = true ↔ ∀ t ∈ n.texts, t.isWhole = true := by
  have hfields (fs : List Field) : Json.isSendableItems (fs.map Field.toJson) = true ↔
      ∀ f ∈ fs, f.description.isWhole = true := by
    simp [Json.isSendableItems_map, Field.toJson, RawText.isWhole]
  rw [toJson, Json.isSendable_obj, texts, List.map_append, List.forall_mem_cons,
    List.forall_mem_append, List.forall_mem_map, List.forall_mem_map, ← hfields, ← hfields]
  simp [RawText.isWhole]

theorem Response.isSendable_toJson {r : Response} :
    r.toJson.isSendable = true ↔ r.description.isWhole = true ∧ r.IsPresentable := by
  obtain ⟨status, description, schema⟩ := r
  have hparts : (Response.mk status description schema).IsPresentable ↔
      Text.isShortInteger status = true ∧ ∀ fs, schema = some fs →
        Json.fieldsHaveWholeTexts fs = true ∧ Json.fieldsHaveShortIntegers fs = true :=
    ⟨fun h => ⟨h.status, fun fs hfs => ⟨h.texts fs hfs, h.integers fs hfs⟩⟩,
      fun h => ⟨h.1, fun fs hfs => (h.2 fs hfs).1, fun fs hfs => (h.2 fs hfs).2⟩⟩
  rw [hparts, toJson, Json.isSendable_obj]
  cases schema with
  | none => simp [RawText.isWhole, and_comm]
  | some fs =>
    have hspelled := Json.isSendable_spelled_finite (.obj fs)
    rw [Json.finite, Json.spelled, Json.isSendable_obj, Json.hasWholeTexts,
      Json.hasShortIntegers] at hspelled
    simp [RawText.isWhole, hspelled, and_left_comm]

theorem Endpoint.isSendable_toJson {e : Endpoint} :
    e.toJson.isSendable = true ↔
      (∀ t ∈ e.texts, t.isWhole = true) ∧ ∀ r ∈ e.responses, r.IsPresentable := by
  have hparameters : Json.isSendableItems (e.parameters.map Parameter.toJson) = true ↔
      ∀ p ∈ e.parameters, p.description.isWhole = true := by
    simp [Json.isSendableItems_map, Parameter.toJson, RawText.isWhole]
  have hresponses : Json.isSendableItems (e.responses.map Response.toJson) = true ↔
      (∀ r ∈ e.responses, r.description.isWhole = true) ∧
        ∀ r ∈ e.responses, r.IsPresentable := by
    simp only [Json.isSendableItems_map, Response.isSendable_toJson, forall₂_and]
  simp only [texts, List.forall_mem_cons, List.forall_mem_append, List.forall_mem_map, and_assoc]
  rw [← hparameters, ← hresponses, toJson, Json.isSendable_obj]
  simp [RawText.isWhole]

theorem Workflow.isSendable_toJson {w : Workflow} :
    w.toJson.isSendable = true ↔ (∀ t ∈ w.texts, t.isWhole = true) ∧
      ∀ e ∈ w.endpoints, ∀ r ∈ e.responses, r.IsPresentable := by
  have hnodes : Json.isSendableItems (w.nodes.map Json.ofText) = true ↔
      ∀ t ∈ w.nodes, t.isWhole = true := by
    simp only [Json.isSendableItems_map, Json.isSendable_ofText]
  have hendpoints : Json.isSendableItems (w.endpoints.map Endpoint.toJson) = true ↔
      (∀ e ∈ w.endpoints, ∀ t ∈ e.texts, t.isWhole = true) ∧
        ∀ e ∈ w.endpoints, ∀ r ∈ e.responses, r.IsPresentable := by
    simp only [Json.isSendableItems_map, Endpoint.isSendable_toJson, forall₂_and]
  simp only [texts, List.forall_mem_cons, List.forall_mem_append, List.forall_mem_flatMap,
    and_assoc]
  rw [← hnodes, ← hendpoints, toJson, Json.isSendable_obj]
  simp [RawText.isWhole]

namespace Backend

/-- The JSON value of a model can be sent when the texts of the model are whole, those in schemas
included, and its integers have a decimal text. -/
theorem isSendable_toJson {b : Backend} :
    b.toJson.isSendable = true ↔
      (∀ t ∈ b.texts, t.isWhole = true) ∧ ∀ r ∈ b.responses, r.IsPresentable := by
  have hnodes : Json.isSendableItems (b.nodes.map Node.toJson) = true ↔
      ∀ n ∈ b.nodes, ∀ t ∈ n.texts, t.isWhole = true := by
    simp only [Json.isSendableItems_map, Node.isSendable_toJson]
  have hworkflows : Json.isSendableItems (b.workflows.map Workflow.toJson) = true ↔
      (∀ w ∈ b.workflows, ∀ t ∈ w.texts, t.isWhole = true) ∧
        ∀ w ∈ b.workflows, ∀ e ∈ w.endpoints, ∀ r ∈ e.responses, r.IsPresentable := by
    simp only [Json.isSendableItems_map, Workflow.isSendable_toJson, forall₂_and]
  have hendpoints : Json.isSendableItems (b.endpoints.map Endpoint.toJson) = true ↔
      (∀ e ∈ b.endpoints, ∀ t ∈ e.texts, t.isWhole = true) ∧
        ∀ e ∈ b.endpoints, ∀ r ∈ e.responses, r.IsPresentable := by
    simp only [Json.isSendableItems_map, Endpoint.isSendable_toJson, forall₂_and]
  have hjson : b.toJson.isSendable = true ↔ b.id.isWhole = true ∧ b.description.isWhole = true ∧
      b.version.isWhole = true ∧ Json.isSendableItems (b.nodes.map Node.toJson) = true ∧
      Json.isSendableItems (b.workflows.map Workflow.toJson) = true ∧
      Json.isSendableItems (b.endpoints.map Endpoint.toJson) = true := by
    rw [toJson, Json.isSendable_obj]
    simp [RawText.isWhole]
  rw [hjson, hnodes, hworkflows, hendpoints, forall_mem_responses]
  simp only [texts, List.forall_mem_cons, List.forall_mem_append, List.forall_mem_flatMap]
  tauto

/-- A model has a JSON value apart from its text when none of its schemas is nested too deep. -/
theorem dump?_eq_some {b : Backend} {v : Json} :
    b.dump? = some v ↔ (∀ r ∈ b.responses, r.isShallow = true) ∧ b.toJson.merged = v := by
  rw [dump?, ← List.all_eq_true]
  split
  · next h => simp [h]
  · next h => simp [h]

end Backend

/-! ## Models whose statuses are written -/

/-- Every status of the responses of an endpoint is short enough for a decimal text. -/
def Endpoint.HasShortStatuses (e : Endpoint) : Prop :=
  ∀ r ∈ e.responses, r.status.natAbs < 10 ^ Text.maxIntegerDigits

/-- Every status of the responses of a model's endpoints is short enough for a decimal text. -/
def Backend.HasShortStatuses (b : Backend) : Prop :=
  ∀ e ∈ b.endpoints, e.HasShortStatuses

theorem Endpoint.hasShortStatuses_iff {e : Endpoint} :
    e.hasShortStatuses = true ↔ e.HasShortStatuses := by
  simp [hasShortStatuses, HasShortStatuses, Text.isShortInteger_iff]

/-! ## Models that are shown as they are -/

/-- The keys of the schema of a response, if there is one, hold no half of a surrogate pair. -/
def Response.HasWholeKeys (r : Response) : Prop :=
  ∀ fs, r.schema = some fs → Json.fieldsHaveWholeKeys fs = true

/-- No object of the schema of a response, if there is one, has a key twice. -/
def Response.HasDistinctKeys (r : Response) : Prop :=
  ∀ fs, r.schema = some fs → (Json.obj fs).hasDistinctKeys = true

/-- A schema with whole keys is written as it is, with null in place of special numbers. -/
theorem Response.HasWholeKeys.spelledFields {r : Response} (h : r.HasWholeKeys)
    {fs : List (RawText × Json)} (hfs : r.schema = some fs) :
    Json.spelledFields (Json.finiteFields fs) = Json.finiteFields fs := by
  have hkeys := Json.hasWholeKeys_finite (.obj fs)
  rw [Json.finite, Json.hasWholeKeys, Json.hasWholeKeys, h fs hfs] at hkeys
  exact Json.spelledFields_eq_self hkeys

theorem Field.merged_toJson (f : Field) : f.toJson.merged = f.toJson :=
  Json.merged_obj (by simp) (by simp [Json.merged])

theorem Node.merged_toJson (n : Node) : n.toJson.merged = n.toJson := by
  refine Json.merged_obj (by simp) ?_
  simp only [List.forall_mem_cons, List.not_mem_nil, false_imp_iff, implies_true, and_true,
    Json.merged_ofText, Json.merged, true_and]
  exact ⟨Json.merged_arr_map fun f _ => f.merged_toJson,
    Json.merged_arr_map fun f _ => f.merged_toJson⟩

theorem Parameter.merged_toJson (p : Parameter) : p.toJson.merged = p.toJson :=
  Json.merged_obj (by simp) (by simp [Json.merged])

theorem Response.merged_toJson {r : Response} (hkeys : r.HasWholeKeys)
    (hdistinct : r.HasDistinctKeys) : r.toJson.merged = r.toJson := by
  have hschema : ∀ fs, r.schema = some fs →
      (Json.obj (Json.spelledFields (Json.finiteFields fs))).merged =
        .obj (Json.spelledFields (Json.finiteFields fs)) := by
    intro fs hfs
    rw [hkeys.spelledFields hfs, ← Json.finite]
    exact Json.merged_eq_self _ ((Json.hasDistinctKeys_finite _).trans (hdistinct fs hfs))
  obtain ⟨status, description, schema⟩ := r
  cases schema with
  | none => exact Json.merged_obj (by simp) (by simp [Json.merged])
  | some fs =>
    refine Json.merged_obj (by simp) ?_
    simp only [List.forall_mem_cons, List.not_mem_nil, false_imp_iff, implies_true, and_true,
      Json.merged_ofText]
    exact ⟨by simp only [Json.merged], trivial, hschema fs rfl⟩

theorem Endpoint.merged_toJson {e : Endpoint} (hkeys : ∀ r ∈ e.responses, r.HasWholeKeys)
    (hdistinct : ∀ r ∈ e.responses, r.HasDistinctKeys) : e.toJson.merged = e.toJson := by
  refine Json.merged_obj (by simp) ?_
  simp only [List.forall_mem_cons, List.not_mem_nil, false_imp_iff, implies_true, and_true,
    Json.merged_ofText, Json.merged, true_and]
  exact ⟨Json.merged_arr_map fun p _ => p.merged_toJson,
    Json.merged_arr_map fun r hr => Response.merged_toJson (hkeys r hr) (hdistinct r hr)⟩

theorem Workflow.merged_toJson {w : Workflow}
    (hkeys : ∀ e ∈ w.endpoints, ∀ r ∈ e.responses, r.HasWholeKeys)
    (hdistinct : ∀ e ∈ w.endpoints, ∀ r ∈ e.responses, r.HasDistinctKeys) :
    w.toJson.merged = w.toJson := by
  refine Json.merged_obj (by simp) ?_
  simp only [List.forall_mem_cons, List.not_mem_nil, false_imp_iff, implies_true, and_true,
    Json.merged_ofText, Json.merged, true_and]
  exact ⟨Json.merged_arr_map fun t _ => Json.merged_ofText t,
    Json.merged_arr_map fun e he => Endpoint.merged_toJson (hkeys e he) (hdistinct e he)⟩

namespace Backend

theorem merged_toJson {b : Backend} (hkeys : ∀ r ∈ b.responses, r.HasWholeKeys)
    (hdistinct : ∀ r ∈ b.responses, r.HasDistinctKeys) : b.toJson.merged = b.toJson := by
  obtain ⟨htop, hnested⟩ := forall_mem_responses.1 hkeys
  obtain ⟨htop', hnested'⟩ := forall_mem_responses.1 hdistinct
  refine Json.merged_obj (by simp) ?_
  simp only [List.forall_mem_cons, List.not_mem_nil, false_imp_iff, implies_true, and_true,
    Json.merged_ofText, Json.merged, true_and]
  exact ⟨Json.merged_arr_map fun n _ => n.merged_toJson,
    Json.merged_arr_map fun w hw => Workflow.merged_toJson (hnested w hw) (hnested' w hw),
    Json.merged_arr_map fun e he => Endpoint.merged_toJson (htop e he) (htop' e he)⟩

/-- A model whose schemas have whole keys, none of them twice in an object, and are not nested too
deep is shown as its JSON value. -/
theorem dump?_eq_toJson {b : Backend} (hkeys : ∀ r ∈ b.responses, r.HasWholeKeys)
    (hdistinct : ∀ r ∈ b.responses, r.HasDistinctKeys)
    (hshallow : ∀ r ∈ b.responses, r.isShallow = true) : b.dump? = some b.toJson :=
  dump?_eq_some.2 ⟨hshallow, merged_toJson hkeys hdistinct⟩

end Backend

end Nanoservice
