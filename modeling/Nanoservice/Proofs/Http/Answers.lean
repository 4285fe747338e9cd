import Nanoservice.Proofs.Http.Session

/-!
# Answers and the jobs that they leave

A request for a generation that is accepted creates a job and leaves it to be run. Every other
request leaves the service as it was but for its disk (`App.answer_cases`), except for a request
with half of a surrogate pair, which is lost: its job is created, but the record of it cannot be
sent, so that the request is not accepted and the job never run. What was answered is put on record
as `Answered`, in one of these three forms (`Answered.IsFair`), and the accepted requests are as
many as the jobs that are left to be run (`Answered.length_left`).
-/

namespace Nanoservice.Http

open scoped List

instance (r : Request) (resource : Resource) : Decidable (r.Asks resource) :=
  decidable_of_iff (Resource.find? (pathOf r.target) = some resource ∧ r.method = resource.method)
    ⟨fun h => ⟨h.1, h.2⟩, fun h => ⟨h.path, h.method⟩⟩

/-! ## Answers on record -/

/-- What was answered to a request, and the job that was created for it. -/
structure Answered where
  request : Request
  response : Response
  job : Option String

namespace Answered

/-- A generation was asked for, and it was accepted. -/
def IsAccepted (x : Answered) : Prop :=
  x.request.Asks .generate ∧ x.response.status = 202

instance : DecidablePred IsAccepted := fun x =>
  inferInstanceAs (Decidable (x.request.Asks .generate ∧ x.response.status = 202))

/-- An accepted request has a job, whose record is shown; a request that holds half of a surrogate
pair has one that is not shown, and any other has none. -/
inductive IsFair : Answered → Prop where
  | accepted (r : Request) (id now : String) (q : JobRequest) (h : r.Asks .generate)
    (hbody : readBody r.body = .ok q) (hwhole : q.IsWhole) :
    IsFair ⟨r, ⟨202, .json (App.jobJson (.queued id now q))⟩, some id⟩
  | lost (r : Request) (id : String) (q : JobRequest) (h : r.Asks .generate)
    (hbody : readBody r.body = .ok q) (hbroken : ¬ q.IsWhole) :
    IsFair ⟨r, .brokenDown, some id⟩
  | other (r : Request) (response : Response) (h : response.status ≠ 202) :
    IsFair ⟨r, response, none⟩

/-- The job that is to be run for an answer on record. -/
def left? (x : Answered) : Option String :=
  if x.IsAccepted then x.job else none

theorem left?_of_isAccepted {x : Answered} (h : x.IsAccepted) : x.left? = x.job :=
  if_pos h

theorem left?_of_not_isAccepted {x : Answered} (h : ¬ x.IsAccepted) : x.left? = none :=
  if_neg h

theorem left?_mk {r : Request} {response : Response} (hasks : r.Asks .generate)
    (hstatus : response.status = 202) (job : Option String) :
    left? ⟨r, response, job⟩ = job :=
  left?_of_isAccepted ⟨hasks, hstatus⟩

theorem left?_mk_of_ne {response : Response} (hstatus : response.status ≠ 202) (r : Request)
    (job : Option String) : left? ⟨r, response, job⟩ = none :=
  left?_of_not_isAccepted fun haccepted => hstatus haccepted.2

theorem job_of_left? {x : Answered} {id : String} (h : x.left? = some id) : x.job = some id := by
  by_cases haccepted : x.IsAccepted
  · rwa [left?_of_isAccepted haccepted] at h
  · rw [left?_of_not_isAccepted haccepted] at h
    cases h

/-- An accepted request has a job to be run. -/
theorem IsFair.isSome_left? {x : Answered} (h : x.IsFair) : x.left?.isSome ↔ x.IsAccepted := by
  by_cases haccepted : x.IsAccepted
  · rw [left?_of_isAccepted haccepted]
    cases h with
    | accepted r id now q hasks => simp [haccepted]
    | lost r id q hasks => cases haccepted.2
    | other r response hstatus => exact absurd haccepted.2 hstatus
  · simp [left?_of_not_isAccepted haccepted, haccepted]

/-- The accepted requests are as many as the jobs that are to be run. -/
theorem length_left {xs : List Answered} (h : ∀ x ∈ xs, x.IsFair) :
    (xs.filterMap left?).length = xs.countP fun x => x.IsAccepted := by
  rw [List.length_filterMap_eq_countP]
  refine List.countP_congr fun x hx => ?_
  simp [(h x hx).isSome_left?]

/-- The jobs that are to be run were created. -/
theorem left_sublist_jobs (xs : List Answered) : xs.filterMap left? <+ xs.filterMap job := by
  induction xs with
  | nil => exact .slnil
  | cons x xs ih =>
    cases hleft : x.left? with
    | none =>
      rw [List.filterMap_cons_none hleft]
      cases hjob : x.job with
      | none => rwa [List.filterMap_cons_none hjob]
      | some id =>
        rw [List.filterMap_cons_some hjob]
        exact ih.cons id
    | some id =>
      rw [List.filterMap_cons_some hleft, List.filterMap_cons_some (job_of_left? hleft)]
      exact ih.cons_cons id

end Answered

namespace App

/-! ## What a request does -/

theorem status_sending_ne {status : Nat} (h : status ≠ 202) (v : Json) :
    (Response.sending status v).status ≠ 202 := by
  rw [status_sending]
  split
  · exact h
  · decide

/-- A job is created for a request for a generation, or it leaves the service as it was. -/
theorem generate_cases (ambient : Ambient) (body : Option String) (a : App) :
    (∃ q, readBody body = .ok q ∧
      Prompt.inputFailure? (some q.prompt) a.settings.apiKey = none ∧
      generate ambient body a = schedule ambient q a) ∨
    (generate ambient body a).app = a ∧ (generate ambient body a).job = none ∧
      (generate ambient body a).response.status ≠ 202 := by
  cases hbody : readBody body with
  | error fault =>
    cases fault with
    | unconvertible => exact .inr (by simp [generate, hbody, Response.refused])
    | flawed details =>
      rw [generate, hbody]
      exact .inr ⟨rfl, rfl, status_sending_ne (by decide) _⟩
  | ok q =>
    cases hinput : Prompt.inputFailure? (some q.prompt) a.settings.apiKey with
    | some f => exact .inr (by simp [generate, hbody, hinput, Response.refused])
    | none =>
      cases hfault : a.creationFault with
      | some m => exact .inr (by simp [generate, hbody, hinput, hfault, Response.refused])
      | none => exact .inl ⟨q, rfl, hinput, by simp [generate, hbody, hinput, hfault]⟩

/-- The response to a request with a new job shows the job, when the request is whole. -/
theorem response_schedule (ambient : Ambient) (q : JobRequest) (a : App) :
    q.IsWhole ∧ (schedule ambient q a).response = ⟨202, .json (jobJson
        (.queued (ambient.jobId a.workshop.registry.count) ambient.now q))⟩ ∨
      ¬ q.IsWhole ∧ (schedule ambient q a).response = .brokenDown := by
  have hsendable : (jobJson (.queued (ambient.jobId a.workshop.registry.count) ambient.now
      q)).isSendable = true ↔ q.IsWhole := isSendable_queued
  by_cases hwhole : q.IsWhole
  · exact .inl ⟨hwhole, if_pos (hsendable.2 hwhole)⟩
  · exact .inr ⟨hwhole, if_neg fun h => hwhole (hsendable.1 h)⟩

/-- The service is as it was but for its disk, and no job is created. -/
structure LeavesNoJob (a : App) (answer : Answer) : Prop where
  app : ∃ disk, answer.app = { a with workshop := { a.workshop with disk } }
  job : answer.job = none
  status : answer.response.status ≠ 202

theorem leavesNoJob_withModel {a : App} {f : Backend → App × Response}
    (happ : ∀ b, ∃ disk, (f b).1 = { a with workshop := { a.workshop with disk } })
    (hstatus : ∀ b, (f b).2.status ≠ 202) : a.LeavesNoJob (a.withModel f) := by
  unfold withModel
  split
  · exact ⟨happ _, rfl, hstatus _⟩
  · exact ⟨⟨a.workshop.disk, rfl⟩, rfl, by simp [Response.refused]⟩

/-- A job is created for a request for a generation, or it leaves everything but the disk as it
was. -/
theorem answer_cases (ambient : Ambient) (r : Request) (a : App) :
    (∃ q, r.Asks .generate ∧ readBody r.body = .ok q ∧
      Prompt.inputFailure? (some q.prompt) a.settings.apiKey = none ∧
      a.answer ambient r = schedule ambient q a) ∨ a.LeavesNoJob (a.answer ambient r) := by
  by_cases hasks : ∃ resource, r.Asks resource
  · obtain ⟨resource, hasks⟩ := hasks
    rw [answer_of_asks ambient a hasks]
    cases resource with
    | health | index => exact .inr ⟨⟨a.workshop.disk, rfl⟩, rfl, by simp [serve, Response.ok]⟩
    | preview =>
      refine .inr (leavesNoJob_withModel (fun _ => ⟨a.workshop.disk, rfl⟩) fun b => ?_)
      cases b.dump? with
      | some v => exact status_sending_ne (by decide) v
      | none => simp [Response.brokenDown]
    | specification =>
      exact .inr (leavesNoJob_withModel (fun _ => ⟨a.workshop.disk, rfl⟩)
        fun _ => status_sending_ne (by decide) _)
    | documentation =>
      refine .inr (leavesNoJob_withModel (fun _ => ⟨_, rfl⟩) fun b => ?_)
      simp only [documentation]
      split <;> simp [Response.brokenDown]
    | explorer =>
      exact .inr (leavesNoJob_withModel (fun _ => ⟨a.workshop.disk, rfl⟩) fun _ => by simp)
    | generate =>
      rcases generate_cases ambient r.body a with ⟨q, hbody, hinput, hanswer⟩ | hleaves
      · exact .inl ⟨q, hasks, hbody, hinput, hanswer⟩
      · obtain ⟨happ, hjob, hstatus⟩ := hleaves
        exact .inr ⟨⟨a.workshop.disk, happ⟩, hjob, hstatus⟩
    | generation id =>
      rw [serve]
      split
      · exact .inr ⟨⟨a.workshop.disk, rfl⟩, rfl, status_sending_ne (by decide) _⟩
      · exact .inr ⟨⟨a.workshop.disk, rfl⟩, rfl, by simp [Response.refused]⟩
  · have hnone : a.LeavesNoJob (a.answer ambient r) := by
      unfold answer
      split
      · exact ⟨⟨a.workshop.disk, rfl⟩, rfl, by simp [Response.refused]⟩
      · next resource hpath =>
        rw [if_neg fun hmethod => hasks ⟨resource, hpath, hmethod⟩]
        exact ⟨⟨a.workshop.disk, rfl⟩, rfl, by simp [Response.refused]⟩
    exact .inr hnone

/-! ## What the beginning of a run does -/

variable {a : App} {id : String} {q : JobRequest}

/-- A beginning makes a completion request. -/
theorem step_start {r : CompletionRequest} (hq : a.workshop.request? id = some q)
    (hr : Generation.request a.settings q.prompt q.model = .ok r) (now : String) :
    a.step (.start now id) =
      { a with workshop := a.workshop.begin now id, sent := a.sent ++ [r] } := by
  rw [step, Workshop.start_eq a.settings now hq, hr]

/-- A beginning that is refused is the end of the run. -/
theorem step_start_refused {f : Failure} (hq : a.workshop.request? id = some q)
    (hf : Generation.request a.settings q.prompt q.model = .error f) (now : String) :
    a.step (.start now id) = { a with workshop := a.workshop.ran now id (.ofRefusal f) } := by
  rw [step, Workshop.start_eq a.settings now hq, hf]

/-- The place for the model stays. -/
theorem file_step (a : App) (e : Event) :
    (a.step e).workshop.store.file = a.workshop.store.file := by
  have hconclude (now id : String) (outcome : RunOutcome) (w : Workshop) :
      (w.conclude now id outcome).store.file = w.store.file := by
    cases outcome <;> rfl
  cases e with
  | request ambient r =>
    rw [step]
    rcases answer_cases ambient r a with ⟨q, -, -, -, hanswer⟩ | ⟨⟨disk, happ⟩, -, -⟩
    · rw [hanswer]
      rfl
    · rw [happ]
  | start now id =>
    cases hq : a.workshop.request? id with
    | none => rw [step, Workshop.start_eq_none _ _ hq, Workshop.begin]
    | some q =>
      cases hrequest : Generation.request a.settings q.prompt q.model with
      | ok r => rw [step_start hq hrequest, Workshop.begin]
      | error f =>
        rw [step_start_refused hq hrequest]
        exact hconclude now id _ _
  | finish freshId now id c => exact hconclude now id _ a.workshop

end App

end Nanoservice.Http
