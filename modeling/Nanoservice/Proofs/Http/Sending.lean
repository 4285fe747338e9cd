import Nanoservice.Http.App
import Nanoservice.Proofs.Backend.Writable
import Nanoservice.Proofs.OpenApi.Operation
import Nanoservice.Proofs.Text.Digits

/-!
# What can be sent

A response is sent only if no special number, no half of a surrogate pair and no integer that is too
long occurs in its JSON value. The document of a model can be sent when the texts and schemas can
that it shows (`OpenApi.isSendable_project`), those of the last response of each status in the last
endpoint of each place. The record of a job can be sent when its texts are whole, those of its
request and those that its run left (`Http.isSendable_jobJson`).
-/

namespace Nanoservice

open Json (isSendableItems isSendableItems_map isSendableFields isSendableFields_iff
  isSendableFields_map)

/-! ## The document of a model -/

/-- A response can be sent as a document shows it: its description is whole, and its schema can be
sent as it is. -/
def Response.IsSendable (r : Response) : Prop :=
  r.description.isWhole = true ∧ ∀ fs, r.schema = some fs → isSendableFields fs = true

/-- A parameter that the operation of an endpoint shows: one that is not in the body, or the first
of its name in the body. -/
def Endpoint.Lists (e : Endpoint) (p : Parameter) : Prop :=
  (p ∈ e.parameters ∧ p.location ≠ .body) ∨
    IsFirst (fun q => q.name = p.name) (e.parameters.filter (·.location == .body)) p

/-- An endpoint can be sent as an operation: what the operation shows is whole, and can be sent. -/
structure Endpoint.IsSendable (e : Endpoint) : Prop where
  path : e.path.isWhole = true
  description : e.description.isWhole = true
  parameters : ∀ p, e.Lists p → p.description.isWhole = true
  responses : ∀ r, IsLast (fun q => q.status = r.status) e.responses r → r.IsSendable

namespace OpenApi

theorem isSendable_responseJson {r : Response} :
    (responseJson r).isSendable = true ↔ r.IsSendable := by
  obtain ⟨status, description, schema⟩ := r
  rcases schema with _ | _ | ⟨f, fs⟩ <;>
    simp [responseJson, contentJson, Response.IsSendable, and_assoc]

/-- The responses of an operation can be sent when the last one of each status can. -/
theorem isSendable_responses {rs : List Response} :
    (Responses.ofList rs).toJson.isSendable = true ↔
      ∀ r, IsLast (fun q => q.status = r.status) rs r → r.IsSendable := by
  unfold Responses.ofList
  split
  · next hnil =>
    rw [List.isEmpty_iff.1 hnil]
    refine ⟨fun _ r hr => absurd hr.mem List.not_mem_nil, fun _ => ?_⟩
    simp [Responses.toJson, standardResponse]
  · rw [Responses.toJson, Json.isSendable_obj, isSendableFields_map]
    simp only [RawText.isWhole_plain, true_and, isSendable_responseJson]
    exact ⟨fun h r hr => h (_, r) (mem_byStatus_iff.2 ⟨rfl, hr⟩),
      fun h p hp => h p.2 (mem_byStatus_iff.1 hp).2⟩

/-- The parameters of an operation can be sent when their descriptions are whole. -/
theorem isSendable_parameters {ps : List Parameter} :
    isSendableItems ((ps.map ParameterEntry.ofParameter).map ParameterEntry.toJson) = true ↔
      ∀ p ∈ ps, p.description.isWhole = true := by
  simp [isSendableItems_map, ParameterEntry.ofParameter, ParameterEntry.toJson, typeObject]

/-- The request body of parameters can be sent when the first description of each name is whole. -/
theorem isSendable_body {ps : List Parameter} :
    (∀ r, RequestBody.ofParameters? ps = some r → r.toJson.isSendable = true) ↔
      ∀ p, IsFirst (fun q => q.name = p.name) ps p → p.description.isWhole = true := by
  cases ps with
  | nil =>
    refine ⟨fun _ p hp => absurd hp.mem List.not_mem_nil, fun _ r hr => ?_⟩
    cases hr
  | cons first rest =>
    have hfirst : IsFirst (fun q => q.name = first.name) (first :: rest) first :=
      isFirst_iff_find?.2 (by simp)
    have hproperties : isSendableFields ((Table.ofFirst ((first :: rest).map fun p =>
        (p.name, p))).map fun p => (RawText.plain p.1, Json.obj (typeObject p.2.type ++
          [(RawText.plain "description", Json.ofText p.2.description)]))) = true ↔
        ∀ p, IsFirst (fun q => q.name = p.name) (first :: rest) p →
          p.description.isWhole = true := by
      simp only [isSendableFields_map, RawText.isWhole_plain, true_and]
      constructor
      · intro h p hp
        simpa [typeObject] using h (p.name, p) (Table.mem_ofFirst_map.2 hp)
      · rintro h ⟨name, p⟩ hp
        obtain ⟨hname, hp⟩ : p.name = name ∧ IsFirst (fun q => q.name = p.name) _ p := by
          have hfound := Table.mem_ofFirst_map.1 hp
          exact ⟨hfound.1, hfound.1 ▸ hfound⟩
        simpa [typeObject] using h p hp
    have hbody (properties : List (RawText × Json)) : (Json.obj
        [("description", .ofText first.description), ("required", .bool first.required),
          ("content", contentJson [("type", .str "object"), ("properties", .obj properties)])]
        ).isSendable = true ↔
          first.description.isWhole = true ∧ isSendableFields properties = true := by
      simp [contentJson]
    simp only [RequestBody.ofParameters?, Option.some.injEq, forall_eq', RequestBody.toJson]
    rw [hbody]
    exact (and_iff_right_of_imp fun h => hproperties.1 h first hfirst).trans hproperties

/-- The operation of an endpoint can be sent when what it shows can. -/
theorem isSendable_operation {e : Endpoint} :
    (Operation.ofEndpoint e).toJson.isSendable = true ↔ e.description.isWhole = true ∧
      (∀ p, e.Lists p → p.description.isWhole = true) ∧
      ∀ r, IsLast (fun q => q.status = r.status) e.responses r → r.IsSendable := by
  have hlists : (∀ p, e.Lists p → p.description.isWhole = true) ↔
      (∀ p ∈ e.parameters.filter (·.location != .body), p.description.isWhole = true) ∧
        ∀ p, IsFirst (fun q => q.name = p.name) (e.parameters.filter (·.location == .body)) p →
          p.description.isWhole = true := by
    simp only [Endpoint.Lists, List.mem_filter, bne_iff_ne]
    exact ⟨fun h => ⟨fun p hp => h p (.inl hp), fun p hp => h p (.inr hp)⟩,
      fun h p hp => hp.elim (h.1 p) (h.2 p)⟩
  have hhead (o : Operation) : isSendableFields o.headFields = true ↔
      o.description.isWhole = true ∧
        isSendableItems (o.parameters.map ParameterEntry.toJson) = true ∧
        ∀ r, o.body = some r → r.toJson.isSendable = true := by
    obtain ⟨description, parameters, body, responses⟩ := o
    cases parameters <;> cases body <;> simp [Operation.headFields]
  rw [hlists, ← isSendable_parameters, ← isSendable_body, ← isSendable_responses,
    Operation.toJson, Json.isSendable_obj, Json.isSendableFields_append, Bool.and_eq_true, hhead]
  simp [Operation.ofEndpoint, and_assoc]

/-- A document can be sent when its head, its paths and its operations can. -/
theorem isSendable_toJson {d : Document} : d.toJson.isSendable = true ↔
    d.description.isWhole = true ∧ d.version.isWhole = true ∧
      ∀ entry ∈ d.paths, entry.1.isWhole = true ∧
        ∀ o ∈ entry.2, o.2.toJson.isSendable = true := by
  have hpaths : isSendableFields (d.paths.map fun p => (p.1, pathJson p.2)) = true ↔
      ∀ entry ∈ d.paths, entry.1.isWhole = true ∧
        ∀ o ∈ entry.2, o.2.toJson.isSendable = true := by
    simp only [isSendableFields_map, pathJson, Json.isSendable_obj, RawText.isWhole_plain,
      true_and]
  rw [← hpaths]
  simp [Document.toJson, infoJson, serversJson, and_assoc]

/-- The complete document of a model can be sent when the texts of its head are whole and the
endpoints can be sent that are the last ones in their places. -/
theorem isSendable_document {b : Backend} :
    (Document.ofBackend b).toJson.isSendable = true ↔
      b.description.isWhole = true ∧ b.version.isWhole = true ∧
        ∀ e, IsLast (fun f => f.place = e.place) b.endpoints e → e.IsSendable := by
  rw [isSendable_toJson]
  refine and_congr Iff.rfl (and_congr Iff.rfl ?_)
  refine (forall_mem_paths_iff (P := fun t => t.isWhole = true)
    (Q := fun o => o.toJson.isSendable = true)).trans (forall₂_congr fun e _ => ?_)
  rw [isSendable_operation]
  constructor
  · rintro ⟨hpath, hdescription, hparameters, hresponses⟩
    exact ⟨(RawText.isWhole_rewrite relativePath e.path).symm.trans hpath, hdescription,
      hparameters, hresponses⟩
  · intro h
    exact ⟨(RawText.isWhole_rewrite relativePath e.path).trans h.path, h.description,
      h.parameters, h.responses⟩

/-- The document of a model with short statuses can be sent when the complete one can. -/
theorem isSendable_project {b : Backend} (h : b.HasShortStatuses) :
    (project b).toJson.isSendable = true ↔ b.description.isWhole = true ∧
      b.version.isWhole = true ∧
        ∀ e, IsLast (fun f => f.place = e.place) b.endpoints e → e.IsSendable := by
  rw [project_eq_complete.2 ⟨h, rfl⟩, Projection.toJson, isSendable_document]

/-- The smallest document can be sent when the version is whole. -/
theorem isSendable_minimalJson (title : String) {version : RawText} (h : version.isWhole = true) :
    (minimalJson (some (.str title)) (some (.ofText version))).isSendable = true := by
  have hversion : (Json.ofText version).isSendable = true := (Json.isSendable_ofText _).trans h
  cases htitle : (Json.str title).isFalsy <;>
    cases hfalsy : (Json.ofText version).isFalsy <;>
      simp [minimalJson, infoJson, serversJson, htitle, hfalsy, h]

end OpenApi

/-- The endpoints of a model can be sent when the texts of the model are whole and its schemas can
be sent as they are. -/
theorem Backend.isSendable_endpoint {b : Backend} (htexts : ∀ t ∈ b.texts, t.isWhole = true)
    (hschemas : ∀ r ∈ b.responses, ∀ fs, r.schema = some fs → isSendableFields fs = true)
    {e : Endpoint} (he : e ∈ b.endpoints) : e.IsSendable := by
  have hendpoint : ∀ t ∈ e.texts, t.isWhole = true := by
    refine fun t ht => htexts t ?_
    simp only [texts, List.mem_cons, List.mem_append, List.mem_flatMap]
    exact .inr (.inr (.inr (.inr ⟨e, he, ht⟩)))
  simp only [Endpoint.texts, List.forall_mem_cons, List.forall_mem_append, List.forall_mem_map]
    at hendpoint
  obtain ⟨hpath, hdescription, hparameters, hresponses⟩ := hendpoint
  refine ⟨hpath, hdescription, fun p hp => hparameters p ?_, fun r hr => ⟨hresponses r hr.mem,
    hschemas r (mem_responses_of_endpoint he hr.mem)⟩⟩
  rcases hp with hp | hp
  · exact hp.1
  · exact (List.mem_filter.1 hp.mem).1

/-- The document of a model can be sent when the texts of the model are whole and its schemas can be
sent as they are. -/
theorem Backend.isSendable_project {b : Backend} (htexts : ∀ t ∈ b.texts, t.isWhole = true)
    (hschemas : ∀ r ∈ b.responses, ∀ fs, r.schema = some fs → isSendableFields fs = true) :
    (OpenApi.project b).toJson.isSendable = true := by
  have hhead := htexts
  simp only [texts, List.forall_mem_cons] at hhead
  obtain ⟨-, hdescription, hversion, -⟩ := hhead
  by_cases hshort : b.HasShortStatuses
  · exact (OpenApi.isSendable_project hshort).2 ⟨hdescription, hversion,
      fun e he => isSendable_endpoint htexts hschemas he.mem⟩
  · rw [OpenApi.project_eq_minimal hshort]
    exact OpenApi.isSendable_minimalJson b.name hversion

/-! ## Models that can be shown -/

/-- Everything that shows a model can be sent: the texts of the model are whole, its statuses short,
and its schemas can be sent as they are and are not nested too deep. -/
structure Backend.IsShowable (b : Backend) : Prop where
  texts : ∀ t ∈ b.texts, t.isWhole = true
  statuses : ∀ r ∈ b.responses, Text.isShortInteger r.status = true
  schemas : ∀ r ∈ b.responses, ∀ fs, r.schema = some fs → isSendableFields fs = true
  shallow : ∀ r ∈ b.responses, r.isShallow = true

/-- The value of a model that can be shown can be sent. -/
theorem Backend.IsShowable.exists_dump {b : Backend} (h : b.IsShowable) :
    ∃ v, b.dump? = some v ∧ v.isSendable = true := by
  refine ⟨_, dump?_eq_some.2 ⟨h.shallow, rfl⟩, Json.isSendable_merged _ ?_⟩
  refine isSendable_toJson.2 ⟨h.texts, fun r hr => ?_⟩
  have hschema : ∀ fs, r.schema = some fs →
      Json.fieldsHaveWholeTexts fs = true ∧ Json.fieldsHaveShortIntegers fs = true := by
    intro fs hfs
    obtain ⟨htexts, -, -, hintegers⟩ := (Json.isSendable_iff (.obj fs)).1 (h.schemas r hr fs hfs)
    exact ⟨htexts, hintegers⟩
  exact ⟨h.statuses r hr, fun fs hfs => (hschema fs hfs).1, fun fs hfs => (hschema fs hfs).2⟩

/-! ## The record of a job -/

/-- No text of a request holds half of a surrogate pair. -/
structure JobRequest.IsWhole (q : JobRequest) : Prop where
  prompt : q.prompt.isWhole = true
  model : ∀ t ∈ q.model, t.isWhole = true
  identity : ∀ t ∈ q.identity, t.isWhole = true

/-- No text of a record holds half of a surrogate pair: none of its request, and neither the message
of a failure nor the identity of a model. -/
structure Job.IsWhole (j : Job) : Prop where
  request : j.request.IsWhole
  errorMessage : ∀ t ∈ j.errorMessage, t.isWhole = true
  backendId : ∀ t ∈ j.backendId, t.isWhole = true

namespace Http

theorem isSendable_orNull (s : Option String) : (App.orNull s).isSendable = true := by
  cases s <;> rfl

theorem isSendable_rawOrNull {t : Option RawText} :
    (App.rawOrNull t).isSendable = true ↔ ∀ u ∈ t, u.isWhole = true := by
  cases t <;> simp [App.rawOrNull]

/-- The record of a job can be sent when its texts are whole. -/
theorem isSendable_jobJson {j : Job} : (App.jobJson j).isSendable = true ↔ j.IsWhole := by
  have hparts : (App.jobJson j).isSendable = true ↔ j.request.prompt.isWhole = true ∧
      (∀ t ∈ j.request.model, t.isWhole = true) ∧ (∀ t ∈ j.request.identity, t.isWhole = true) ∧
      (∀ t ∈ j.errorMessage, t.isWhole = true) ∧ ∀ t ∈ j.backendId, t.isWhole = true := by
    simp only [App.jobJson, Json.isSendable_obj, Json.isSendableFields_cons,
      Json.isSendableFields_nil, RawText.isWhole_plain, Json.isSendable_str, Json.isSendable_ofText,
      isSendable_orNull, Bool.and_eq_true, isSendable_rawOrNull, true_and, and_true]
  rw [hparts]
  constructor
  · rintro ⟨hprompt, hmodel, hidentity, hmessage, hid⟩
    exact ⟨⟨hprompt, hmodel, hidentity⟩, hmessage, hid⟩
  · intro h
    exact ⟨h.request.prompt, h.request.model, h.request.identity, h.errorMessage, h.backendId⟩

/-- The record of a job that was just requested can be sent when its request is whole. -/
theorem isSendable_queued {id now : String} {q : JobRequest} :
    (App.jobJson (.queued id now q)).isSendable = true ↔ q.IsWhole := by
  rw [isSendable_jobJson]
  exact ⟨fun h => h.request, fun h => ⟨h, nofun, nofun⟩⟩

end Http

end Nanoservice
