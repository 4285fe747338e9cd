import Mathlib
import Nanoservice.Http.App
import Nanoservice.Proofs.Http.Sending
import Nanoservice.Proofs.Job.Record
import Nanoservice.Proofs.Page.Whole

/-!
# Sessions of the service

A session is what happens to the service one after the other: requests come in, runs of jobs begin,
and completions arrive for them. Nothing is asked of the order of these, so runs may overlap with
each other and with requests; what `App.handle` does, a request and the whole run of the job that it
leaves, is a session as well (`App.exists_run_eq_handle`).

Only a completion that leads to a model changes the current model (`App.current_step`), so the
current model is the newest one: that of the last such completion, or the one that was given at the
start (`App.current_run`). Everything else follows from that: when the readings of the model are
missing (`App.reads_run`), and which requests the service breaks down on (`App.breaks_run`): those
for something that is there but cannot be sent.
-/

namespace Nanoservice.Http

/-- A request asks for a resource: its path leads there, with the method of the resource. -/
structure Request.Asks (r : Request) (resource : Resource) : Prop where
  path : Resource.find? (pathOf r.target) = some resource
  method : r.method = resource.method

/-- The resource shows the current model. -/
def Resource.isReading : Resource → Bool
  | .preview | .documentation | .specification | .explorer => true
  | _ => false

/-- What a resource shows cannot be sent. A request for a generation shows the job that it created,
or what its body lacks. -/
def Resource.Breaks (ambient : Ambient) (body : Option String) (a : App) : Resource → Prop
  | .preview => ∃ b, a.current = some b ∧ ∀ v, b.dump? = some v → v.isSendable = false
  | .documentation => ∃ b, a.current = some b ∧
      ¬ Page.AreWhole (b.pagePieces a.templates ambient.date a.workshop.disk).2
  | .specification => ∃ b, a.current = some b ∧ (OpenApi.project b).toJson.isSendable = false
  | .generate =>
      (∃ q, readBody body = .ok q ∧
        Prompt.inputFailure? (some q.prompt) a.settings.apiKey = none ∧ ¬ q.IsWhole) ∨
      ∃ details, readBody body = .error (.flawed details) ∧
        ∃ d ∈ details, d.toJson.isSendable = false
  | .generation id => ∃ j, a.workshop.registry.find? id = some j ∧ ¬ j.IsWhole
  | .health | .index | .explorer => False

/-- What happens to the service. -/
inductive Event where
  | request (ambient : Ambient) (r : Request)
  /-- The run of a job begins. -/
  | start (now id : String)
  /-- What became of the completion request of a run. -/
  | finish (freshId now id : String) (c : Completion)

/-- The model that an event makes. -/
def Event.model? : Event → Option Backend
  | .finish freshId _ _ c => (RunOutcome.ofCompletion freshId c).model?
  | _ => none

/-- The newest model after events: that of the last one that made one, or the given one. -/
def newest? (given : Option Backend) (events : List Event) : Option Backend :=
  (events.filterMap Event.model?).getLast?.or given

theorem newest?_concat (given : Option Backend) (events : List Event) (e : Event) :
    newest? given (events ++ [e]) = e.model?.or (newest? given events) := by
  unfold newest?
  rw [List.filterMap_append]
  cases h : e.model? <;> simp [h]

/-- There is no newest model when none was given and none was made. -/
theorem newest?_eq_none {given : Option Backend} {events : List Event} :
    newest? given events = none ↔ given = none ∧ ∀ e ∈ events, e.model? = none := by
  rw [newest?, Option.or_eq_none_iff, List.getLast?_eq_none_iff, List.filterMap_eq_nil_iff,
    and_comm]

namespace App

/-! ## Steps of a session -/

/-- The service after an event. -/
def step (a : App) : Event → App
  | .request ambient r => (a.answer ambient r).app
  | .start now id =>
    match a.workshop.start a.settings now id with
    | (workshop, some (.ok r)) => { a with workshop, sent := a.sent ++ [r] }
    | (workshop, _) => { a with workshop }
  | .finish freshId now id c => { a with workshop := (a.workshop.finish freshId now id c).1 }

/-- The service after events. -/
def run (a : App) (events : List Event) : App :=
  events.foldl step a

theorem run_concat (a : App) (events : List Event) (e : Event) :
    a.run (events ++ [e]) = (a.run events).step e := by
  rw [run, List.foldl_append, List.foldl_cons, List.foldl_nil, run]

/-- A request and the whole run of the job that it leaves are a session. -/
theorem exists_run_eq_handle (ambient : Ambient) (respond : CompletionRequest → Completion)
    (r : Request) (a : App) :
    ∃ events, (a.handle ambient respond r).1 = a.run (.request ambient r :: events) := by
  cases hjob : (a.answer ambient r).left? with
  | none => exact ⟨[], by simp only [handle, hjob, run, List.foldl, step]⟩
  | some id =>
    cases hstart : (a.answer ambient r).app.workshop.start (a.answer ambient r).app.settings
        ambient.now id with
    | mk workshop begun =>
      rcases begun with _ | outcome | q
      · exact ⟨[.start ambient.now id], by
          simp only [handle, hjob, runJob, Workshop.run, hstart, run, List.foldl, step,
            List.append_nil]⟩
      · exact ⟨[.start ambient.now id], by
          simp only [handle, hjob, runJob, Workshop.run, hstart, run, List.foldl, step,
            List.append_nil]⟩
      · exact ⟨[.start ambient.now id, .finish ambient.modelId ambient.now id (respond q)], by
          simp only [handle, hjob, runJob, Workshop.run, hstart, run, List.foldl, step]⟩

/-- What a request leaves as it was: the current model, and that jobs can be created. -/
structure Keeps (a b : App) : Prop where
  current : b.current = a.current
  creationFault : b.creationFault = a.creationFault

theorem keeps_withModel {a : App} {f : Backend → App × Response}
    (hf : ∀ b, a.Keeps (f b).1) : a.Keeps (a.withModel f).app := by
  unfold withModel
  split
  · exact hf _
  · exact ⟨rfl, rfl⟩

theorem keeps_generate (ambient : Ambient) (body : Option String) (a : App) :
    a.Keeps (generate ambient body a).app := by
  unfold generate
  split
  · exact ⟨rfl, rfl⟩
  · exact ⟨rfl, rfl⟩
  · split
    · exact ⟨rfl, rfl⟩
    · split <;> exact ⟨rfl, rfl⟩

theorem keeps_answer (ambient : Ambient) (r : Request) (a : App) :
    a.Keeps (a.answer ambient r).app := by
  have hserve (resource : Resource) : a.Keeps (serve ambient r a resource).app := by
    cases resource with
    | health | index => exact ⟨rfl, rfl⟩
    | preview | documentation | specification | explorer =>
      exact keeps_withModel fun b => ⟨rfl, rfl⟩
    | generate => exact keeps_generate ambient r.body a
    | generation id =>
      rw [serve]
      split <;> exact ⟨rfl, rfl⟩
  unfold answer
  split
  · exact ⟨rfl, rfl⟩
  · split
    · exact hserve _
    · exact ⟨rfl, rfl⟩

/-- The beginning of a run makes no model. -/
theorem current_start (settings : Settings) (now id : String) (w : Workshop) :
    (w.start settings now id).1.store.current = w.store.current := by
  cases hq : w.request? id with
  | none => rw [Workshop.start_eq_none settings now hq, Workshop.begin]
  | some q =>
    rw [Workshop.start_eq settings now hq]
    split
    · rfl
    · exact (Workshop.current_conclude now id _ _).trans rfl

/-- An event that makes a model makes it current; any other leaves the current one. -/
theorem current_step (a : App) (e : Event) : (a.step e).current = e.model?.or a.current := by
  cases e with
  | request ambient r => exact (keeps_answer ambient r a).current
  | start now id =>
    have hcurrent := current_start a.settings now id a.workshop
    rw [step]
    split <;> next hstart => rwa [hstart] at hcurrent
  | finish freshId now id c =>
    simp only [step, current, Workshop.finish, Workshop.current_conclude,
      RunOutcome.model?_inStore, Event.model?]

theorem creationFault_step (a : App) (e : Event) :
    (a.step e).creationFault = a.creationFault := by
  cases e with
  | request ambient r =>
    rw [step]
    exact (keeps_answer ambient r a).creationFault
  | start now id =>
    rw [step]
    split <;> rfl
  | finish freshId now id c => rw [step]

/-! ## Sessions -/

/-- The current model is the newest one. -/
theorem current_run (a : App) (events : List Event) :
    (a.run events).current = newest? a.current events := by
  induction events using List.reverseRecOn with
  | nil => rfl
  | append_singleton events e ih => rw [run_concat, current_step, ih, newest?_concat]

theorem creationFault_run (a : App) (events : List Event) :
    (a.run events).creationFault = a.creationFault := by
  induction events using List.reverseRecOn with
  | nil => rfl
  | append_singleton events e ih => rw [run_concat, creationFault_step, ih]

/-- The model that the service has at its start: that of its store, or else the one that is kept in
the store's file. -/
def given? (freshId : String) (store : ModelStore) (disk : Disk) : Option Backend :=
  store.current.or (store.load freshId disk).1

variable {ambient ambient' : Ambient} {settings : Settings} {templates : Path} {store : ModelStore}
  {disk : Disk} {events : List Event} {a : App} {r : Request} {resource : Resource} {b : Backend}

theorem current_start_eq (ambient : Ambient) (settings : Settings) (templates : Path)
    (store : ModelStore) (disk : Disk) :
    (App.start ambient settings templates store disk).current =
      given? ambient.modelId store disk := by
  cases hcurrent : store.current with
  | some b => simp [App.start, given?, current, hcurrent]
  | none =>
    simp only [App.start, given?, current, hcurrent, Option.none_or, ModelStore.load]
    split <;> simp_all

/-- After any session from a start the current model is the newest one. -/
theorem current_run_start (ambient : Ambient) (settings : Settings) (templates : Path)
    (store : ModelStore) (disk : Disk) (events : List Event) :
    ((App.start ambient settings templates store disk).run events).current =
      newest? (given? ambient.modelId store disk) events := by
  rw [current_run, current_start_eq]

/-! ## Answers -/

theorem answer_of_asks (ambient : Ambient) (a : App) (h : r.Asks resource) :
    a.answer ambient r = serve ambient r a resource := by
  rw [answer, h.path]
  exact if_pos h.method

theorem status_sending (status : Nat) (v : Json) :
    (Response.sending status v).status = if v.isSendable then status else 500 := by
  unfold Response.sending
  split <;> rfl

/-- A response of a status other than that of a breakdown is sent, or the service breaks down. -/
theorem status_sending_ge_iff {status : Nat} (hstatus : status < 500) {v : Json} :
    500 ≤ (Response.sending status v).status ↔ v.isSendable = false := by
  rw [status_sending]
  cases v.isSendable <;> simp [hstatus]

/-- The answer to a reading when there is no model. -/
theorem response_of_missing (h : r.Asks resource) (hreading : resource.isReading = true)
    (ambient : Ambient) (hcurrent : a.current = none) :
    (a.answer ambient r).response = .refused 404 (.str "No backend generated yet") := by
  rw [answer_of_asks ambient a h]
  cases resource with
  | preview | documentation | specification | explorer => simp only [serve, withModel, hcurrent]
  | health | index | generate | generation => cases hreading

/-- The answer to a reading when there is a model. -/
theorem status_of_current (h : r.Asks resource) (hreading : resource.isReading = true)
    (ambient : Ambient) (hcurrent : a.current = some b) :
    (resource.Breaks ambient r.body a ∧ (a.answer ambient r).response.status = 500) ∨
      (¬ resource.Breaks ambient r.body a ∧ (a.answer ambient r).response.status = 200) := by
  rw [answer_of_asks ambient a h]
  cases resource with
  | preview =>
    simp only [serve, withModel, hcurrent, Resource.Breaks, Option.some.injEq, exists_eq_left']
    cases hdump : b.dump? with
    | none => exact .inl ⟨nofun, rfl⟩
    | some v => cases hv : v.isSendable <;> simp [status_sending, hv]
  | specification =>
    simp only [serve, withModel, hcurrent, Resource.Breaks, Option.some.injEq, exists_eq_left',
      status_sending]
    cases (OpenApi.project b).toJson.isSendable <;> simp
  | documentation =>
    have hpieces : (b.pagePieces a.templates ambient.date a.workshop.disk).2.all
        Page.Piece.isWhole = true ↔
          Page.AreWhole (b.pagePieces a.templates ambient.date a.workshop.disk).2 :=
      List.all_eq_true
    simp only [serve, withModel, hcurrent, documentation, Resource.Breaks, Option.some.injEq,
      exists_eq_left', hpieces]
    split <;> simp_all [Response.brokenDown]
  | explorer =>
    simp only [serve, withModel, hcurrent]
    exact .inr ⟨id, trivial⟩
  | health | index | generate | generation => cases hreading

/-- The service breaks down on a request for a generation when what it shows cannot be sent. -/
theorem status_generate_ge_iff (hfault : a.creationFault = none) (ambient : Ambient)
    (body : Option String) : 500 ≤ (generate ambient body a).response.status ↔
      Resource.generate.Breaks ambient body a := by
  cases hbody : readBody body with
  | error fault =>
    cases fault with
    | unconvertible => simp [generate, hbody, Resource.Breaks, Response.refused]
    | flawed details =>
      have hdetails : (Json.obj [("detail", .arr (details.map BodyDetail.toJson))]).isSendable =
          false ↔ ∃ d ∈ details, d.toJson.isSendable = false := by
        rw [← Bool.not_eq_true]
        simp [Json.isSendableItems_map]
      simp only [generate, hbody, Resource.Breaks, Except.error.injEq, BodyFault.flawed.injEq,
        reduceCtorEq, false_and, exists_false, false_or, exists_eq_left', ← hdetails]
      exact status_sending_ge_iff (by decide)
  | ok q =>
    cases hinput : Prompt.inputFailure? (some q.prompt) a.settings.apiKey with
    | some f => simp [generate, hbody, hinput, Resource.Breaks, Response.refused]
    | none =>
      have hbreaks : Resource.generate.Breaks ambient body a ↔ ¬ q.IsWhole := by
        simp [Resource.Breaks, hbody, hinput]
      have hqueued (id now : String) : (jobJson (.queued id now q)).isSendable = false ↔
          ¬ q.IsWhole := by
        rw [← Bool.not_eq_true, isSendable_queued]
      simp only [generate, hbody, hinput, hfault, schedule]
      rw [status_sending_ge_iff (by decide), hbreaks, hqueued]

/-- The service breaks down on a request for a resource when what the resource shows cannot be
sent. -/
theorem status_serve_ge_iff (hfault : a.creationFault = none) (ambient : Ambient)
    (h : r.Asks resource) : 500 ≤ (a.answer ambient r).response.status ↔
      resource.Breaks ambient r.body a := by
  cases hreading : resource.isReading with
  | true =>
    cases hcurrent : a.current with
    | none =>
      rw [response_of_missing h hreading ambient hcurrent]
      cases resource with
      | preview | documentation | specification | explorer =>
        simp [Resource.Breaks, hcurrent, Response.refused]
      | health | index | generate | generation => cases hreading
    | some b =>
      rcases status_of_current h hreading ambient hcurrent with ⟨hbreaks, hstatus⟩ | ⟨hnot, hstatus⟩
      · simp [hstatus, hbreaks]
      · simp [hstatus, hnot]
  | false =>
    rw [answer_of_asks ambient a h]
    cases resource with
    | preview | documentation | specification | explorer => cases hreading
    | health | index => simp [serve, Response.ok, Resource.Breaks]
    | generate => exact status_generate_ge_iff hfault ambient r.body
    | generation id =>
      rw [serve]
      split
      · next j hj =>
        rw [status_sending_ge_iff (by decide), ← Bool.not_eq_true, isSendable_jobJson]
        simp [Resource.Breaks, hj]
      · next hnone => simp [Resource.Breaks, hnone, Response.refused]

/-! ## Readings of a session -/

/-- What the readings of the model answer after a session, and after any that follows on it. -/
structure Reads (given : Option Backend) (a : App) (events : List Event) : Prop where
  /-- There is no answer exactly when no model was given and none was made. -/
  missing : ∀ ambient r resource, r.Asks resource → resource.isReading = true →
    (((a.run events).answer ambient r).response.status = 404 ↔
      given = none ∧ ∀ e ∈ events, e.model? = none)
  /-- Once a reading has an answer, every later one has. -/
  lasting : ∀ ambient r resource, r.Asks resource → resource.isReading = true →
    ((a.run events).answer ambient r).response.status ≠ 404 →
    ∀ later ambient r resource, r.Asks resource → resource.isReading = true →
      ((a.run (events ++ later)).answer ambient r).response.status ≠ 404
  /-- The preview shows the newest model, when the value of that can be sent. -/
  preview : ∀ ambient r b v, r.Asks .preview → newest? given events = some b →
    (((a.run events).answer ambient r).response = .ok v ↔ b.dump? = some v ∧ v.isSendable = true)
  /-- The value that the preview shows is that of the newest model, with its keys as they are. -/
  shown : ∀ ambient r b, r.Asks .preview → newest? given events = some b →
    (∀ q ∈ b.responses, q.HasWholeKeys ∧ q.HasDistinctKeys) →
    (((a.run events).answer ambient r).response = .ok b.toJson ↔
      (∀ t ∈ b.texts, t.isWhole = true) ∧
        ∀ q ∈ b.responses, q.IsPresentable ∧ q.isShallow = true)

/-- The preview shows the current model when the value of that can be sent. -/
theorem response_of_preview (ambient : Ambient) (hcurrent : a.current = some b)
    (h : r.Asks .preview) {v : Json} :
    (a.answer ambient r).response = .ok v ↔ b.dump? = some v ∧ v.isSendable = true := by
  rw [answer_of_asks ambient a h]
  simp only [serve, withModel, hcurrent]
  cases b.dump? with
  | none => simp [Response.ok, Response.brokenDown]
  | some w =>
    cases hw : w.isSendable with
    | true =>
      simp only [Response.sending, hw, if_true, Response.ok, Response.mk.injEq, Body.json.injEq,
        true_and, Option.some.injEq]
      exact ⟨fun hwv => ⟨hwv, hwv ▸ hw⟩, And.left⟩
    | false =>
      simp only [Response.sending, hw, Response.ok, Response.brokenDown, Option.some.injEq]
      refine ⟨nofun, fun hv => ?_⟩
      exact absurd (hv.1 ▸ hw) (by simp [hv.2])

/-- A reading has no answer exactly when there is no model. -/
theorem status_eq_missing_iff (h : r.Asks resource) (hreading : resource.isReading = true)
    (ambient : Ambient) (a : App) :
    (a.answer ambient r).response.status = 404 ↔ a.current = none := by
  cases hcurrent : a.current with
  | none => simp [response_of_missing h hreading ambient hcurrent, Response.refused]
  | some b =>
    rcases status_of_current h hreading ambient hcurrent with ⟨-, hstatus⟩ | ⟨-, hstatus⟩ <;>
      simp [hstatus]

/-- Whatever happens after a start, the readings have an answer from the first model on, and the
preview shows the newest one when it can be sent. -/
theorem reads_run (ambient : Ambient) (settings : Settings) (templates : Path)
    (store : ModelStore) (disk : Disk) (events : List Event) :
    Reads (given? ambient.modelId store disk)
      (App.start ambient settings templates store disk) events where
  missing ambient r resource h hreading := by
    rw [status_eq_missing_iff h hreading, current_run_start, newest?_eq_none]
  lasting ambient r resource h hreading hstatus later ambient' r' resource' h' hreading' := by
    rw [Ne, status_eq_missing_iff h hreading, current_run_start, newest?_eq_none] at hstatus
    rw [Ne, status_eq_missing_iff h' hreading', current_run_start, newest?_eq_none]
    rintro ⟨hgiven, hevents⟩
    exact hstatus ⟨hgiven, fun e he => hevents e (List.mem_append_left _ he)⟩
  preview ambient' r b v h hnewest :=
    response_of_preview ambient'
      ((current_run_start ambient settings templates store disk events).trans hnewest) h
  shown ambient' r b h hnewest hkeys := by
    rw [response_of_preview ambient'
        ((current_run_start ambient settings templates store disk events).trans hnewest) h,
      Backend.dump?_eq_some, Backend.isSendable_toJson,
      and_iff_left (Backend.merged_toJson (fun q hq => (hkeys q hq).1) fun q hq => (hkeys q hq).2),
      forall₂_and]
    tauto

/-- What the readings of the newest model answer, and which requests the service breaks down on,
after a session from a start. -/
structure BreaksDown (newest : Option Backend) (a : App) : Prop where
  current : a.current = newest
  /-- The service breaks down on a request exactly when what it shows cannot be sent. -/
  broken : ∀ ambient r, 500 ≤ (a.answer ambient r).response.status ↔
    ∃ resource, r.Asks resource ∧ resource.Breaks ambient r.body a
  /-- A reading that the service does not break down on succeeds. -/
  succeeds : ∀ ambient r resource, newest.isSome = true → r.Asks resource →
    resource.isReading = true → ¬ resource.Breaks ambient r.body a →
    (a.answer ambient r).response.status = 200
  /-- All readings of a model that can be shown succeed. -/
  showable : ∀ ambient r resource b, newest = some b → b.IsShowable → r.Asks resource →
    resource.isReading = true → (a.answer ambient r).response.status = 200

/-- The service breaks down on a request exactly when what it shows cannot be sent. -/
theorem status_ge_iff (hfault : a.creationFault = none) (ambient : Ambient) (r : Request) :
    500 ≤ (a.answer ambient r).response.status ↔
      ∃ resource, r.Asks resource ∧ resource.Breaks ambient r.body a := by
  constructor
  · intro hstatus
    by_cases hasks : ∃ resource, r.Asks resource
    · obtain ⟨resource, hasks⟩ := hasks
      exact ⟨resource, hasks, (status_serve_ge_iff hfault ambient hasks).1 hstatus⟩
    · -- a request for nothing is refused
      unfold answer at hstatus
      split at hstatus
      · cases Nat.lt_of_lt_of_le (by decide : (404 : Nat) < 500) hstatus |>.false
      · next resource hpath =>
        split at hstatus
        · next hmethod => exact absurd ⟨resource, hpath, hmethod⟩ hasks
        · cases Nat.lt_of_lt_of_le (by decide : (405 : Nat) < 500) hstatus |>.false
  · rintro ⟨resource, hasks, hbreaks⟩
    exact (status_serve_ge_iff hfault ambient hasks).2 hbreaks

/-- The service breaks down on no reading of a model that can be shown. -/
theorem not_breaks_of_isShowable (hcurrent : a.current = some b) (hb : b.IsShowable)
    (hreading : resource.isReading = true) (ambient : Ambient) (body : Option String) :
    ¬ resource.Breaks ambient body a := by
  cases resource with
  | preview =>
    rintro ⟨b', hb', hbreaks⟩
    cases hcurrent.symm.trans hb'
    obtain ⟨v, hdump, hv⟩ := hb.exists_dump
    exact Bool.false_ne_true ((hbreaks v hdump).symm.trans hv)
  | documentation =>
    rintro ⟨b', hb', hbreaks⟩
    cases hcurrent.symm.trans hb'
    exact hbreaks (Backend.areWhole_pagePieces hb.texts _ _ _)
  | specification =>
    rintro ⟨b', hb', hbreaks⟩
    cases hcurrent.symm.trans hb'
    exact Bool.false_ne_true
      (hbreaks.symm.trans (Backend.isSendable_project hb.texts hb.schemas))
  | explorer => exact id
  | health | index | generate | generation => cases hreading

/-- Whatever happens after a start, the service breaks down on a request exactly when what it shows
cannot be sent; the readings of the newest model succeed otherwise, and all of them when the model
can be shown. -/
theorem breaks_run (ambient : Ambient) (settings : Settings) (templates : Path)
    (store : ModelStore) (disk : Disk) (events : List Event) :
    BreaksDown (newest? (given? ambient.modelId store disk) events)
      ((App.start ambient settings templates store disk).run events) where
  current := current_run_start ambient settings templates store disk events
  broken := status_ge_iff (creationFault_run _ events)
  succeeds ambient' r resource hnewest hasks hreading hnot := by
    obtain ⟨b, hb⟩ := Option.isSome_iff_exists.1 hnewest
    have hcurrent := (current_run_start ambient settings templates store disk events).trans hb
    rcases status_of_current hasks hreading ambient' hcurrent with ⟨hbreaks, -⟩ | ⟨-, hstatus⟩
    · exact absurd hbreaks hnot
    · exact hstatus
  showable ambient' r resource b hnewest hb hasks hreading := by
    have hcurrent := (current_run_start ambient settings templates store disk events).trans hnewest
    rcases status_of_current hasks hreading ambient' hcurrent with ⟨hbreaks, -⟩ | ⟨-, hstatus⟩
    · exact absurd hbreaks (not_breaks_of_isShowable hcurrent hb hreading ambient' r.body)
    · exact hstatus

end App

/-! ## Schemas that cannot be sent -/

/-- A model with one response, whose schema has one field. -/
def capped (v : Json) : Backend :=
  .ofEndpoints [⟨"/x", .get, "", [], [⟨200, "", some [("max", v)]⟩]⟩]

theorem capped_hasShortStatuses (v : Json) : (capped v).HasShortStatuses := by
  have hword : (200 : Int).natAbs < 10 ^ Text.maxIntegerDigits :=
    Text.natAbs_lt_of_word (by decide)
  simpa [Backend.HasShortStatuses, Endpoint.HasShortStatuses, capped, Backend.ofEndpoints]
    using hword

/-- The candidate of such a model. -/
def cappedJson (v : Json) : Json :=
  .obj [("name", .str "s"), ("workflows", .arr [.obj [("name", .str "w"), ("endpoints", .arr
    [.obj [("path", .str "/x"), ("method", .str "GET"), ("responses", .arr
      [.obj [("status", .int 200), ("schema", .obj [("max", v)])]])]])]])]

/-- A generation comes to the model when the reply holds such a candidate. -/
theorem conclude_of_read {text : String} {v : Json} (h : Json.read text = .ok (cappedJson v)) :
    Generation.conclude "0" (.reply text) = .ok (.ok (capped v)) := by
  have hvalid : Candidate.validate "0" (cappedJson v) = .ok (capped v) := by cbv
  have hshape : Reply.hasShape (cappedJson v) = true := rfl
  simp [Generation.conclude, Generation.candidate, Reply.decode, h, hshape, Except.map,
    Generation.validated, hvalid]

theorem model?_of_read {text : String} {v : Json} (h : Json.read text = .ok (cappedJson v))
    (now id : String) : (Event.finish "0" now id (.reply text)).model? = some (capped v) := by
  simp [Event.model?, RunOutcome.ofCompletion, conclude_of_read h, RunOutcome.model?]

/-- A reply whose schema holds a special number. -/
def unlimitedReply : String :=
  "\x7b\"name\":\"s\",\"workflows\":[\x7b\"name\":\"w\",\"endpoints\":[" ++
    "\x7b\"path\":\"/x\",\"method\":\"GET\",\"responses\":[" ++
    "\x7b\"status\":200,\"schema\":\x7b\"max\":NaN\x7d\x7d]\x7d]\x7d]\x7d"

/-- A reply whose schema holds half of a surrogate pair. -/
def halvedReply : String :=
  "\x7b\"name\":\"s\",\"workflows\":[\x7b\"name\":\"w\",\"endpoints\":[" ++
    "\x7b\"path\":\"/x\",\"method\":\"GET\",\"responses\":[" ++
    "\x7b\"status\":200,\"schema\":\x7b\"max\":\"\\ud800\"\x7d\x7d]\x7d]\x7d]\x7d"

theorem read_unlimitedReply : Json.read unlimitedReply = .ok (cappedJson (.float .nan)) := by
  cbv

theorem read_halvedReply :
    Json.read halvedReply = .ok (cappedJson (.broken [.half ⟨0xD800, by decide⟩])) := by
  cbv

namespace App

/-- A service with nothing current at its start. -/
def unused : App :=
  .start ⟨"0", fun _ => "1", "", ""⟩ { apiKey := some "key" } [] ⟨none, none⟩ {}

/-- A generation is asked for and run, with a reply. -/
def generation (reply : String) : List Event :=
  [.request ⟨"0", fun _ => "1", "", ""⟩
      ⟨"http://testserver", "POST", "/v1/generate", some "\x7b\"prompt\":\"shop\"\x7d"⟩,
    .start "" "1", .finish "0" "" "1" (.reply reply)]

/-- The model of a reply is current after its generation. -/
theorem current_generation {text : String} {v : Json} (h : Json.read text = .ok (cappedJson v)) :
    (unused.run (generation text)).current = some (capped v) := by
  have hlast : generation text = (generation text).dropLast ++ [.finish "0" "" "1" (.reply text)] :=
    rfl
  rw [current_run, hlast, newest?_concat, model?_of_read h, Option.some_or]

/-- What is answered to a request by its path after a generation. -/
def readingAfter (reply path : String) : Response :=
  ((unused.run (generation reply)).answer ⟨"0", fun _ => "1", "", ""⟩
    ⟨"http://testserver", "GET", path, none⟩).response

/-- After a generation with a special number in a schema the document is no answer. -/
theorem specification_breaks :
    (unused.run (generation unlimitedReply)).current = some (capped (.float .nan)) ∧
      (readingAfter unlimitedReply "/v1/openapi.json").status = 500 := by
  have hcurrent := current_generation read_unlimitedReply
  have hasks : Request.Asks ⟨"http://testserver", "GET", "/v1/openapi.json", none⟩ .specification :=
    ⟨by decide +kernel, rfl⟩
  have hbreaks : (OpenApi.project (capped (.float .nan))).toJson.isSendable = false := by
    rw [OpenApi.project_eq_complete.2 ⟨capped_hasShortStatuses _, rfl⟩]
    rfl
  refine ⟨hcurrent, ?_⟩
  rw [readingAfter, answer_of_asks _ _ hasks]
  simp only [serve, withModel, hcurrent, status_sending, hbreaks]
  rfl

/-- After a generation with half of a surrogate pair in a schema the preview is no answer. -/
theorem preview_breaks :
    (unused.run (generation halvedReply)).current =
        some (capped (.broken [.half ⟨0xD800, by decide⟩])) ∧
      (readingAfter halvedReply "/v1/preview").status = 500 := by
  have hcurrent := current_generation read_halvedReply
  have hasks : Request.Asks ⟨"http://testserver", "GET", "/v1/preview", none⟩ .preview :=
    ⟨by decide +kernel, rfl⟩
  refine ⟨hcurrent, ?_⟩
  rcases status_of_current hasks rfl ⟨"0", fun _ => "1", "", ""⟩ hcurrent with
    ⟨-, hstatus⟩ | ⟨hnot, -⟩
  · exact hstatus
  · refine absurd ⟨_, hcurrent, fun v hv => ?_⟩ hnot
    obtain ⟨-, rfl⟩ := Backend.dump?_eq_some.1 hv
    have hmerged : (capped (.broken [.half ⟨0xD800, by decide⟩])).toJson.merged =
        (capped (.broken [.half ⟨0xD800, by decide⟩])).toJson := rfl
    rw [hmerged, ← Bool.not_eq_true, Backend.isSendable_toJson]
    rintro ⟨-, hresponses⟩
    cases (hresponses _ (List.mem_cons_self ..)).texts _ rfl

end App

end Nanoservice.Http
