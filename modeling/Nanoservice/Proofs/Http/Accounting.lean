import Nanoservice.Proofs.Http.Answers
import Nanoservice.Proofs.Job.Coherence

/-!
# Accounts of a session

What the service answers is put on record along a session, in which the run of a job begins once,
after the request that it was created for, and goes on once. Every accepted request leaves one job
to be run, and the run of that job makes one completion request when it begins: its input was
checked when the request came in, and the same check passes it again (`Service.IsAccounted`). A
job whose request was lost is never run.

So the completion requests that were made are as many as the accepted requests whose runs have
begun, and the job that was created last can be looked up, however few records are kept
(`Service.accounts_run`). Handling a request with the run that it leads to is a session of this kind
as well (`Service.IsAccounted.exists_handles`).
-/

namespace Nanoservice.Http

open scoped List

/-! ## Sessions on record -/

/-- The service in a session: what it answered, the runs that wait for their completion, and those
that are over. -/
structure Service where
  app : App
  answered : List Answered := []
  waiting : List Waiting := []
  ended : List RunEnd := []

namespace Service

/-- The runs of the service, as they overlap. -/
def overlap (s : Service) : Overlap :=
  ⟨s.app.workshop, s.waiting, s.ended⟩

/-- The jobs that were created. -/
def jobs (s : Service) : List String :=
  s.answered.filterMap Answered.job

/-- The jobs that accepted requests left to be run. -/
def left (s : Service) : List String :=
  s.answered.filterMap Answered.left?

/-- The jobs that are still to be run. -/
def pending (s : Service) : List String :=
  s.left.filter fun id => id ∉ s.overlap.ids

/-- What is given to the half of a run. -/
def input (s : Service) (freshId : String) (c : Completion) : RunInput where
  settings := s.app.settings
  freshId := freshId
  respond := fun _ => c

/-- The service after an event; none if it is not the time of the event: each job has an identity of
its own, its run begins once, if an accepted request left it, and goes on once. -/
def step (s : Service) : Event → Option Service
  | .request ambient r =>
    let answer := s.app.answer ambient r
    if ∃ id ∈ answer.job, id ∈ s.app.workshop.registry.ids then none
    else some { s with
      app := answer.app, answered := s.answered ++ [⟨r, answer.response, answer.job⟩] }
  | .start now id =>
    if id ∈ s.left then
      (s.overlap.runHalf (fun _ => s.input "" (.failure "")) (.start id now)).map fun o =>
        { s with app := s.app.step (.start now id), waiting := o.waiting, ended := o.ended }
    else none
  | .finish freshId now id c =>
    (s.overlap.runHalf (fun _ => s.input freshId c) (.finish id now)).map fun o =>
      { s with app := s.app.step (.finish freshId now id c), waiting := o.waiting,
               ended := o.ended }

/-- The service after events. -/
def run (events : List Event) (s : Service) : Option Service :=
  events.foldlM step s

/-- The service at its start. -/
def start (ambient : Ambient) (settings : Settings) (templates : Path) (store : ModelStore)
    (disk : Disk) : Service where
  app := .start ambient settings templates store disk

/-- The accounts are right: each job was created for a request, whose input passes, each run that
has begun made one completion request, for a job that an accepted request left, and the last job can
be found. -/
structure IsAccounted (s : Service) : Prop where
  coherent : s.overlap.IsCoherent
  fair : ∀ x ∈ s.answered, x.IsFair
  created : s.app.workshop.registry.ids ~ s.jobs
  begun : ∀ id ∈ s.overlap.ids, id ∈ s.left
  requests : ∀ x ∈ s.answered, ∀ id ∈ x.job, ∃ j ∈ s.app.workshop.registry.records,
    j.id = id ∧ readBody x.request.body = .ok j.request
  inputs : ∀ j ∈ s.app.workshop.registry.records,
    Prompt.inputFailure? (some j.request.prompt) s.app.settings.apiKey = none
  sent : s.app.sent.length = s.overlap.ids.length
  last : ∀ id ∈ s.jobs.getLast?, id ∈ s.app.workshop.registry.heldIds

variable {s s' : Service} {id now : String}

theorem isAccounted_start (ambient : Ambient) (settings : Settings) (templates : Path)
    (store : ModelStore) (disk : Disk) :
    (start ambient settings templates store disk).IsAccounted where
  coherent := Overlap.isCoherent_initial settings.maxGenerations _ disk
  fair := fun x hx => by cases hx
  created := List.Perm.refl []
  begun := fun id hid => by cases hid
  requests := fun x hx => by cases hx
  inputs := fun j hj => by cases hj
  sent := rfl
  last := fun id hid => by cases hid

/-! ## Events on record -/

/-- A request goes through when the job that is created for it is a new one. -/
theorem step_request_eq_some {ambient : Ambient} {r : Request} :
    s.step (.request ambient r) = some s' ↔
      (∀ id ∈ (s.app.answer ambient r).job, id ∉ s.app.workshop.registry.ids) ∧
        s' = { s with
          app := (s.app.answer ambient r).app
          answered := s.answered ++
            [⟨r, (s.app.answer ambient r).response, (s.app.answer ambient r).job⟩] } := by
  rw [step]
  generalize s.app.answer ambient r = answer
  by_cases hfresh : ∀ id ∈ answer.job, id ∉ s.app.workshop.registry.ids
  · rw [if_neg (by simpa using hfresh), Option.some.injEq, eq_comm]
    exact ⟨fun h => ⟨hfresh, h⟩, fun h => h.2⟩
  · rw [if_pos (by simpa using hfresh)]
    exact ⟨fun h => (by cases h), fun h => absurd h.1 hfresh⟩

/-- A run begins when its job was left to be run and its first half goes through. -/
theorem step_start_eq_some : s.step (.start now id) = some s' ↔ id ∈ s.left ∧
    ∃ o, s.overlap.runHalf (fun _ => s.input "" (.failure "")) (.start id now) = some o ∧
      { s with app := s.app.step (.start now id), waiting := o.waiting, ended := o.ended } =
        s' := by
  by_cases hid : id ∈ s.left <;> simp [step, hid]

/-- The service goes on as it does in a session. -/
theorem app_step {e : Event} (hstep : s.step e = some s') : s'.app = s.app.step e := by
  cases e with
  | request ambient r =>
    obtain ⟨-, rfl⟩ := step_request_eq_some.1 hstep
    rw [App.step]
  | start now id =>
    obtain ⟨-, o, -, rfl⟩ := step_start_eq_some.1 hstep
    rfl
  | finish freshId now id c =>
    obtain ⟨o, -, rfl⟩ := Option.map_eq_some_iff.1 hstep
    rfl

theorem answered_start (hstep : s.step (.start now id) = some s') : s'.answered = s.answered := by
  obtain ⟨-, o, -, rfl⟩ := step_start_eq_some.1 hstep
  rfl

theorem answered_finish {freshId : String} {c : Completion}
    (hstep : s.step (.finish freshId now id c) = some s') : s'.answered = s.answered := by
  obtain ⟨o, -, rfl⟩ := Option.map_eq_some_iff.1 hstep
  rfl

/-- The runs of the service overlap as they do in its workshop. -/
theorem overlap_start (hstep : s.step (.start now id) = some s') :
    s.overlap.runHalf (fun _ => s.input "" (.failure "")) (.start id now) = some s'.overlap := by
  obtain ⟨-, o, hhalf, rfl⟩ := step_start_eq_some.1 hstep
  rw [hhalf]
  obtain ⟨-, q, hq, ⟨r, hr, rfl⟩ | ⟨f, hf, rfl⟩⟩ := Overlap.runHalf_start_eq_some.1 hhalf
  · rw [App.step_start hq hr]
    rfl
  · rw [App.step_start_refused hq hf]
    rfl

theorem overlap_finish {freshId : String} {c : Completion}
    (hstep : s.step (.finish freshId now id c) = some s') :
    s.overlap.runHalf (fun _ => s.input freshId c) (.finish id now) = some s'.overlap := by
  obtain ⟨o, hhalf, rfl⟩ := Option.map_eq_some_iff.1 hstep
  rw [hhalf]
  obtain ⟨p, outcome, -, rfl, rfl⟩ := Overlap.runHalf_finish_eq_some.1 hhalf
  rfl

/-- A new job is put on record with the request that it was created for. -/
theorem IsAccounted.create (h : s.IsAccounted) {q : JobRequest} {r : Request} {response : Response}
    (hfair : Answered.IsFair ⟨r, response, some id⟩) (hbody : readBody r.body = .ok q)
    (hinput : Prompt.inputFailure? (some q.prompt) s.app.settings.apiKey = none)
    (hfresh : id ∉ s.app.workshop.registry.ids)
    (hregistry : s'.app.workshop.registry = s.app.workshop.registry.add (.queued id now q))
    (hsettings : s'.app.settings = s.app.settings) (hsent : s'.app.sent = s.app.sent)
    (hwaiting : s'.waiting = s.waiting) (hended : s'.ended = s.ended)
    (hanswered : s'.answered = s.answered ++ [⟨r, response, some id⟩]) : s'.IsAccounted := by
  have hjobs : s'.jobs = s.jobs ++ [id] := by
    rw [jobs, hanswered, List.filterMap_append]
    rfl
  have hids : s'.overlap.ids = s.overlap.ids := Overlap.ids_congr hwaiting hended
  have hrecords {j : Job} : j ∈ s'.app.workshop.registry.records ↔
      j ∈ s.app.workshop.registry.records ∨ j = .queued id now q := by
    rw [hregistry, (Registry.records_add_perm _ _).mem_iff, List.mem_append, List.mem_singleton]
  constructor
  case coherent => exact h.coherent.create hfresh hregistry hwaiting hended
  case fair =>
    rw [hanswered]
    exact List.forall_mem_append.2 ⟨h.fair, List.forall_mem_singleton.2 hfair⟩
  case created =>
    rw [hjobs, hregistry]
    exact (Registry.ids_add_perm _ _).trans (h.created.append_right _)
  case begun =>
    intro i hi
    rw [left, hanswered, List.filterMap_append]
    exact List.mem_append_left _ (h.begun i (hids ▸ hi))
  case requests =>
    rw [hanswered]
    refine List.forall_mem_append.2 ⟨fun x hx i hi => ?_, List.forall_mem_singleton.2 ?_⟩
    · obtain ⟨j, hj, hrequest⟩ := h.requests x hx i hi
      exact ⟨j, hrecords.2 (.inl hj), hrequest⟩
    · rintro i ⟨⟩
      exact ⟨_, hrecords.2 (.inr rfl), rfl, hbody⟩
  case inputs =>
    intro j hj
    rw [hsettings]
    rcases hrecords.1 hj with hj | rfl
    · exact h.inputs j hj
    · exact hinput
  case sent => rw [hsent, h.sent, hids]
  case last =>
    intro i hi
    rw [hjobs, List.getLast?_concat] at hi
    obtain rfl := Option.some.inj hi
    rw [hregistry]
    exact List.mem_map.2 ⟨_, Registry.mem_held_add_self rfl, rfl⟩

/-- A request without a job is put on record. -/
theorem IsAccounted.leave (h : s.IsAccounted) {r : Request} {response : Response}
    (hstatus : response.status ≠ 202)
    (hregistry : s'.app.workshop.registry = s.app.workshop.registry)
    (hsettings : s'.app.settings = s.app.settings) (hsent : s'.app.sent = s.app.sent)
    (hwaiting : s'.waiting = s.waiting) (hended : s'.ended = s.ended)
    (hanswered : s'.answered = s.answered ++ [⟨r, response, none⟩]) : s'.IsAccounted := by
  have hjobs : s'.jobs = s.jobs := by
    rw [jobs, hanswered, List.filterMap_append]
    exact List.append_nil _
  have hids : s'.overlap.ids = s.overlap.ids := Overlap.ids_congr hwaiting hended
  constructor
  case coherent => exact h.coherent.congr hregistry hwaiting hended
  case fair =>
    rw [hanswered]
    exact List.forall_mem_append.2 ⟨h.fair, List.forall_mem_singleton.2 (.other r _ hstatus)⟩
  case created =>
    rw [hregistry, hjobs]
    exact h.created
  case begun =>
    intro i hi
    rw [left, hanswered, List.filterMap_append]
    exact List.mem_append_left _ (h.begun i (hids ▸ hi))
  case requests =>
    rw [hanswered, hregistry]
    exact List.forall_mem_append.2 ⟨h.requests, List.forall_mem_singleton.2 nofun⟩
  case inputs =>
    rw [hregistry, hsettings]
    exact h.inputs
  case sent => rw [hsent, h.sent, hids]
  case last =>
    rw [hregistry, hjobs]
    exact h.last

/-- A request keeps the accounts right. -/
theorem IsAccounted.request (h : s.IsAccounted) {ambient : Ambient} {r : Request}
    (hstep : s.step (.request ambient r) = some s') : s'.IsAccounted := by
  obtain ⟨hfresh, rfl⟩ := step_request_eq_some.1 hstep
  rcases App.answer_cases ambient r s.app with ⟨q, hasks, hbody, hinput, hanswer⟩ | hleaves
  · rw [hanswer] at hfresh ⊢
    have hfair : Answered.IsFair ⟨r, (App.schedule ambient q s.app).response,
        some (ambient.jobId s.app.workshop.registry.count)⟩ := by
      rcases App.response_schedule ambient q s.app with ⟨hwhole, hresponse⟩ | ⟨hbroken, hresponse⟩
      · exact hresponse ▸ .accepted r _ _ q hasks hbody hwhole
      · exact hresponse ▸ .lost r _ q hasks hbody hbroken
    exact h.create hfair hbody hinput (hfresh _ rfl) rfl rfl rfl rfl rfl rfl
  · obtain ⟨⟨disk, happ⟩, hjob, hstatus⟩ := hleaves
    rw [happ, hjob]
    exact h.leave hstatus rfl rfl rfl rfl rfl rfl

/-- A change of a record keeps what the accounts say of the records. -/
theorem IsAccounted.change {f : Job → Job} (h : s.IsAccounted)
    (hchange : Overlap.IsChange s.overlap id f s'.overlap)
    (hid : id ∈ s.left) (hanswered : s'.answered = s.answered)
    (hsettings : s'.app.settings = s.app.settings)
    (hsent : s'.app.sent.length = s'.overlap.ids.length) : s'.IsAccounted := by
  have hregistry : s'.app.workshop.registry = s.app.workshop.registry.change id f :=
    hchange.registry
  have hjobs : s'.jobs = s.jobs := by rw [jobs, jobs, hanswered]
  constructor
  case coherent => exact h.coherent.change hchange
  case fair => exact hanswered ▸ h.fair
  case created =>
    rw [hjobs, hregistry, Registry.ids_change _ _ hchange.id_apply]
    exact h.created
  case begun =>
    intro i hi
    rw [left, hanswered]
    rcases hchange.ids i hi with rfl | hi
    · exact hid
    · exact h.begun i hi
  case requests =>
    intro x hx i hi
    obtain ⟨j, hj, rfl, hrequest⟩ := h.requests x (hanswered ▸ hx) i hi
    refine ⟨if j.id = id then f j else j, ?_, ?_⟩
    · rw [hregistry, Registry.records_change]
      exact List.mem_map_of_mem hj
    · split
      · exact ⟨hchange.id_apply j, (hchange.request_apply j).symm ▸ hrequest⟩
      · exact ⟨rfl, hrequest⟩
  case inputs =>
    rw [hregistry, Registry.records_change, hsettings]
    intro _ hmem
    obtain ⟨j, hj, rfl⟩ := List.mem_map.1 hmem
    have hinput := h.inputs j hj
    split
    · rwa [hchange.request_apply]
    · exact hinput
  case sent => exact hsent
  case last =>
    rw [hjobs, hregistry, Registry.heldIds_change _ _ hchange.id_apply]
    exact h.last

/-- The input of a job passes again when its run begins. -/
theorem IsAccounted.exists_request (h : s.IsAccounted) {j : Job}
    (hj : j ∈ s.app.workshop.registry.records) :
    ∃ r, Generation.request s.app.settings j.request.prompt j.request.model = .ok r := by
  simp [Generation.request, h.inputs j hj]

/-- The beginning of a run makes one completion request: the input passed when the job was created,
so it is not refused now. -/
theorem IsAccounted.start (h : s.IsAccounted) (hstep : s.step (.start now id) = some s') :
    s'.IsAccounted := by
  have hhalf := overlap_start hstep
  obtain ⟨f, hchange⟩ := h.coherent.start hhalf
  obtain ⟨-, q, hq, hcases⟩ := Overlap.runHalf_start_eq_some.1 hhalf
  obtain ⟨j, hj, -, rfl⟩ := Overlap.exists_record_of_request? hq
  obtain ⟨r, hr⟩ := h.exists_request hj
  have happ := (app_step hstep).trans (App.step_start hq hr now)
  rcases hcases with ⟨r', -, hover⟩ | ⟨refusal, hrefused, -⟩
  · refine h.change hchange (step_start_eq_some.1 hstep).1 (answered_start hstep) (by rw [happ]) ?_
    rw [happ, List.length_append, h.sent, hover]
    exact (Overlap.ids_begin_perm s.overlap _ ⟨id, now, r'⟩).length_eq.symm
  · rw [input, hr] at hrefused
    cases hrefused

/-- The end of a run makes no completion request. -/
theorem IsAccounted.finish (h : s.IsAccounted) {freshId : String} {c : Completion}
    (hstep : s.step (.finish freshId now id c) = some s') : s'.IsAccounted := by
  have hhalf := overlap_finish hstep
  obtain ⟨f, hchange⟩ := h.coherent.finish hhalf
  obtain ⟨p, outcome, hfind, -, hover⟩ := Overlap.runHalf_finish_eq_some.1 hhalf
  have happ := app_step hstep
  have hid : id ∈ s.left := by
    refine h.begun id (List.mem_append_left _ ?_)
    have hp := List.find?_some hfind
    exact beq_iff_eq.1 hp ▸ List.mem_map_of_mem (List.mem_of_find?_eq_some hfind)
  refine h.change hchange hid (answered_finish hstep) (by rw [happ, App.step]) ?_
  rw [happ, hover]
  exact h.sent.trans (Overlap.ids_finish_perm h.coherent.run (e := ⟨id, now, outcome⟩) hfind
    _).length_eq.symm

/-- An event keeps the accounts right. -/
theorem IsAccounted.step (h : s.IsAccounted) {e : Event} (hstep : s.step e = some s') :
    s'.IsAccounted := by
  cases e with
  | request ambient r => exact h.request hstep
  | start now id => exact h.start hstep
  | finish freshId now id c => exact h.finish hstep

/-- Events keep the accounts right, however many there are. -/
theorem IsAccounted.run (h : s.IsAccounted) {events : List Event}
    (hrun : s.run events = some s') : s'.IsAccounted :=
  foldlM_invariant (fun h hstep => IsAccounted.step h hstep) h hrun

/-- What is on record is a session of the service. -/
theorem app_run {events : List Event} (hrun : s.run events = some s') :
    s'.app = s.app.run events := by
  induction events generalizing s with
  | nil =>
    cases hrun
    rfl
  | cons e events ih =>
    rw [Service.run, List.foldlM_cons] at hrun
    obtain ⟨s₁, hstep, hrest⟩ := Option.bind_eq_some_iff.1 hrun
    rw [ih hrest, app_step hstep, App.run, App.run, List.foldl_cons]

/-! ## Accounts -/

/-- The runs that have begun and the jobs that are still to be run are all that were left. -/
theorem IsAccounted.length_left (h : s.IsAccounted) :
    s.overlap.ids.length + s.pending.length = s.left.length := by
  have hleft : s.left.Nodup := (h.created.nodup_iff.1 h.coherent.created).sublist
    (Answered.left_sublist_jobs s.answered)
  have hbegun : s.left.filter (fun id => id ∈ s.overlap.ids) ~ s.overlap.ids := by
    refine (List.perm_ext_iff_of_nodup (hleft.filter _) h.coherent.run).2 fun id => ?_
    have hknown := h.begun id
    simpa [List.mem_filter] using hknown
  have hsplit := List.length_eq_countP_add_countP (fun id => decide (id ∈ s.overlap.ids))
    (l := s.left)
  rw [List.countP_eq_length_filter, List.countP_eq_length_filter, hbegun.length_eq] at hsplit
  rw [hsplit, pending]
  simp only [decide_eq_true_eq]

/-! ## Runs that broke off -/

/-- A run broke off only where a file is to keep the model and the model cannot be written. -/
def BreaksOnlyUnwritable (s : Service) : Prop :=
  ∀ e ∈ s.ended, ∀ b, e.outcome = .unkept b →
    s.app.workshop.store.file.isSome ∧ ¬ b.IsWritable

theorem ended_start (hstep : s.step (.start now id) = some s') :
    ∀ e ∈ s'.ended, e ∈ s.ended ∨ ∃ f, e.outcome = .ofRefusal f := by
  obtain ⟨-, q, -, ⟨r, -, hover⟩ | ⟨f, -, hover⟩⟩ :=
    Overlap.runHalf_start_eq_some.1 (overlap_start hstep)
  · have hended : s'.ended = s.ended := congrArg Overlap.ended hover
    exact fun e he => .inl (hended ▸ he)
  · have hended : s'.ended = s.ended ++ [⟨id, now, .ofRefusal f⟩] := congrArg Overlap.ended hover
    rw [hended]
    exact List.forall_mem_append.2 ⟨fun e he => .inl he,
      List.forall_mem_singleton.2 (.inr ⟨f, rfl⟩)⟩

theorem ended_finish {freshId : String} {c : Completion}
    (hstep : s.step (.finish freshId now id c) = some s') :
    s'.ended = s.ended ++ [⟨id, now, (RunOutcome.ofCompletion freshId c).inStore
      s.app.workshop.store s.app.workshop.disk⟩] := by
  obtain ⟨p, outcome, -, rfl, hover⟩ := Overlap.runHalf_finish_eq_some.1 (overlap_finish hstep)
  exact congrArg Overlap.ended hover

/-- An event keeps that runs break off on models only that cannot be written. -/
theorem BreaksOnlyUnwritable.step (h : s.BreaksOnlyUnwritable) {e : Event}
    (hstep : s.step e = some s') : s'.BreaksOnlyUnwritable := by
  have hfile := (congrArg (fun a => a.workshop.store.file) (app_step hstep)).trans
    (App.file_step s.app e)
  intro x hx b hb
  rw [hfile]
  cases e with
  | request ambient r =>
    obtain ⟨-, rfl⟩ := step_request_eq_some.1 hstep
    exact h x hx b hb
  | start now id =>
    rcases ended_start hstep x hx with hx | ⟨f, hf⟩
    · exact h x hx b hb
    · rw [hf] at hb
      cases hb
  | finish freshId now id c =>
    rw [ended_finish hstep] at hx
    rcases List.mem_append.1 hx with hx | hx
    · exact h x hx b hb
    · obtain rfl := List.mem_singleton.1 hx
      obtain ⟨-, hbreaks⟩ :=
        (RunOutcome.inStore_eq_unkept (RunOutcome.ofCompletion_ne_unkept freshId c b)).1 hb
      obtain ⟨p, hp, -, hbroken⟩ := ModelStore.breaksOff_iff.1 hbreaks
      exact ⟨Option.isSome_iff_exists.2 ⟨p, hp⟩, hbroken⟩

theorem BreaksOnlyUnwritable.run (h : s.BreaksOnlyUnwritable) {events : List Event}
    (hrun : s.run events = some s') : s'.BreaksOnlyUnwritable :=
  foldlM_invariant (fun h hstep => BreaksOnlyUnwritable.step h hstep) h hrun

/-! ## Requests with the runs that they lead to -/

/-- Handling a request, with the whole run of the job that it leaves, is put on record, and leaves
nothing to be run. -/
structure Handles (s : Service) (ambient : Ambient) (respond : CompletionRequest → Completion)
    (r : Request) (s' : Service) : Prop where
  app : s'.app = (s.app.handle ambient respond r).1
  answered : s'.answered = s.answered ++
    [⟨r, (s.app.handle ambient respond r).2, (s.app.answer ambient r).job⟩]
  pending : s'.pending = []

theorem exists_step_request (s : Service) (ambient : Ambient) (r : Request)
    (hfresh : ∀ id ∈ (s.app.answer ambient r).job, id ∉ s.app.workshop.registry.ids) :
    ∃ s', s.step (.request ambient r) = some s' ∧ s'.app = (s.app.answer ambient r).app ∧
      s'.answered = s.answered ++
        [⟨r, (s.app.answer ambient r).response, (s.app.answer ambient r).job⟩] ∧
      s'.waiting = s.waiting ∧ s'.ended = s.ended :=
  ⟨_, step_request_eq_some.2 ⟨hfresh, rfl⟩, by simp⟩

/-- The run of a job that was left can begin when it has not, and waits then for its completion. -/
theorem IsAccounted.exists_step_start (h : s.IsAccounted) (hleft : id ∈ s.left)
    (hfresh : id ∉ s.overlap.ids) (now : String) :
    ∃ s' q r, s.step (.start now id) = some s' ∧ s.app.workshop.request? id = some q ∧
      Generation.request s.app.settings q.prompt q.model = .ok r ∧
      id ∈ s'.waiting.map Waiting.id ∧ s'.ended = s.ended := by
  have hjob : id ∈ s.overlap.workshop.registry.ids :=
    h.created.mem_iff.2 ((Answered.left_sublist_jobs s.answered).mem hleft)
  obtain ⟨q, hq⟩ := Overlap.mem_ids_iff.1 hjob
  obtain ⟨o, ho⟩ : ∃ o, s.overlap.runHalf (fun _ => s.input "" (.failure "")) (.start id now) =
      some o :=
    Overlap.exists_runHalf_start.2 ⟨hfresh, q, hq⟩
  obtain ⟨s', hstep⟩ : ∃ s', s.step (.start now id) = some s' :=
    ⟨_, step_start_eq_some.2 ⟨hleft, o, ho, rfl⟩⟩
  obtain ⟨j, hj, -, rfl⟩ := Overlap.exists_record_of_request? hq
  obtain ⟨r, hr⟩ := h.exists_request hj
  obtain ⟨-, q, hq', ⟨r', -, hover⟩ | ⟨f, hrefused, -⟩⟩ :=
    Overlap.runHalf_start_eq_some.1 (overlap_start hstep)
  · have hwaiting : s'.waiting = s.waiting ++ [⟨id, now, r'⟩] := congrArg Overlap.waiting hover
    exact ⟨s', _, r, hstep, hq, hr, by simp [hwaiting], congrArg Overlap.ended hover⟩
  · obtain rfl := Option.some.inj (hq.symm.trans hq')
    rw [input, hr] at hrefused
    cases hrefused

/-- When all runs have begun, as many completion requests were made as jobs were left. -/
theorem IsAccounted.pending_eq_nil (h : s.IsAccounted) :
    s.pending = [] ↔ s.app.sent.length = s.left.length := by
  rw [← h.length_left, h.sent, ← List.length_eq_zero_iff]
  omega

/-- A request that leaves nothing to be run is handled at once. -/
theorem IsAccounted.exists_handles_leave (h : s.IsAccounted) (hpending : s.pending = [])
    {ambient : Ambient} {r : Request} (hstatus : (s.app.answer ambient r).response.status ≠ 202)
    (hsent : (s.app.answer ambient r).app.sent = s.app.sent)
    (hfresh : ∀ id ∈ (s.app.answer ambient r).job, id ∉ s.app.workshop.registry.ids)
    (respond : CompletionRequest → Completion) :
    ∃ events s', s.run events = some s' ∧ s.Handles ambient respond r s' := by
  obtain ⟨s', hstep, happ, hanswered, -⟩ := exists_step_request s ambient r hfresh
  have hhandle : s.app.handle ambient respond r =
      ((s.app.answer ambient r).app, (s.app.answer ambient r).response) := by
    rw [App.handle, App.Answer.left?, if_neg hstatus]
  refine ⟨[.request ambient r], s', ?_, ?_⟩
  · rw [Service.run, List.foldlM_cons, hstep]
    rfl
  · constructor
    case app => rw [happ, hhandle]
    case answered => rw [hanswered, hhandle]
    case pending =>
      have hleft : s'.left = s.left := by
        have hnone := Answered.left?_mk_of_ne hstatus r (s.app.answer ambient r).job
        rw [left, hanswered, List.filterMap_append, List.filterMap_cons_none hnone]
        exact List.append_nil _
      rw [(h.request hstep).pending_eq_nil, happ, hsent, hleft, ← h.pending_eq_nil]
      exact hpending

/-- The run of the job that an accepted request leaves can follow it at once. -/
theorem IsAccounted.exists_run_accept (h : s.IsAccounted) {ambient : Ambient} {r : Request}
    {q : JobRequest} (hasks : r.Asks .generate)
    (hanswer : s.app.answer ambient r = App.schedule ambient q s.app)
    (hstatus : (s.app.answer ambient r).response.status = 202)
    (hid : id = ambient.jobId s.app.workshop.registry.count)
    (hfresh : id ∉ s.app.workshop.registry.ids) (respond : CompletionRequest → Completion) :
    ∃ c s', s.run [.request ambient r, .start ambient.now id,
        .finish ambient.modelId ambient.now id (respond c)] = some s' ∧
      s'.app = (s.app.handle ambient respond r).1 ∧ s'.app.sent = s.app.sent ++ [c] ∧
      s'.answered = s.answered ++ [⟨r, (s.app.answer ambient r).response, some id⟩] ∧
      s'.ended = s.ended ++ [⟨id, ambient.now,
        (RunOutcome.ofCompletion ambient.modelId (respond c)).inStore s.app.workshop.store
          s.app.workshop.disk⟩] := by
  have hjob : (s.app.answer ambient r).job = some id := by
    rw [hanswer, hid]
    rfl
  obtain ⟨s₁, h₁, happ₁, hanswered₁, hwaiting₁, hended₁⟩ :=
    exists_step_request s ambient r (by simpa [hjob] using hfresh)
  have hleft₁ : id ∈ s₁.left := by
    have haccepted := Answered.left?_mk hasks hstatus (some id)
    rw [left, hanswered₁, List.filterMap_append, hjob, List.filterMap_cons_some haccepted]
    exact List.mem_append_right _ List.mem_cons_self
  have hnot : id ∉ s₁.overlap.ids := by
    have hids : s₁.overlap.ids = s.overlap.ids := Overlap.ids_congr hwaiting₁ hended₁
    rw [hids]
    exact fun hmem => hfresh (h.coherent.known id hmem)
  obtain ⟨s₂, q', c, h₂, hq, hc, hwaits, hended₂⟩ :=
    (h.request h₁).exists_step_start hleft₁ hnot ambient.now
  obtain ⟨o, ho⟩ : ∃ o, s₂.overlap.runHalf (fun _ => s₂.input ambient.modelId (respond c))
      (.finish id ambient.now) = some o :=
    Overlap.exists_runHalf_finish.2 hwaits
  obtain ⟨s₃, h₃⟩ : ∃ s₃, s₂.step (.finish ambient.modelId ambient.now id (respond c)) = some s₃ :=
    ⟨_, by rw [Service.step, ho, Option.map_some]⟩
  obtain ⟨p, outcome, -, houtcome, hover₃⟩ := Overlap.runHalf_finish_eq_some.1 (overlap_finish h₃)
  have happ₂ := (app_step h₂).trans (App.step_start hq hc ambient.now)
  have hschedule : s₁.app = (App.schedule ambient q s.app).app := happ₁.trans (by rw [hanswer])
  refine ⟨c, s₃, ?_, ?_, ?_, ?_, ?_⟩
  · simp only [Service.run, List.foldlM_cons, h₁, h₂, h₃, Option.bind_eq_bind, Option.bind_some,
      List.foldlM_nil, Option.pure_def]
  · rw [App.handle, App.Answer.left?, if_pos hstatus, hjob, ← happ₁, app_step h₃, happ₂]
    simp only [App.runJob, Workshop.run, Workshop.start_eq s₁.app.settings ambient.now hq, hc,
      App.step]
  · rw [app_step h₃, happ₂, App.step, hschedule]
    rfl
  · rw [answered_finish h₃, answered_start h₂, hanswered₁, hjob]
  · have hended₃ : s₃.ended = s₂.ended ++ [⟨id, ambient.now, outcome⟩] :=
      congrArg Overlap.ended hover₃
    rw [hended₃, hended₂, hended₁, houtcome, overlap, happ₂, hschedule]
    rfl

/-- A request that is accepted is handled with the run of its job. -/
theorem IsAccounted.exists_handles_accept (h : s.IsAccounted) (hpending : s.pending = [])
    {ambient : Ambient} {r : Request} {q : JobRequest} (hasks : r.Asks .generate)
    (hanswer : s.app.answer ambient r = App.schedule ambient q s.app)
    (hstatus : (s.app.answer ambient r).response.status = 202)
    (hfresh : ambient.jobId s.app.workshop.registry.count ∉ s.app.workshop.registry.ids)
    (respond : CompletionRequest → Completion) :
    ∃ events s', s.run events = some s' ∧ s.Handles ambient respond r s' := by
  obtain ⟨c, s', hrun, happ, hsent, hanswered, -⟩ :=
    h.exists_run_accept hasks hanswer hstatus rfl hfresh respond
  refine ⟨_, s', hrun, ?_⟩
  constructor
  case app => exact happ
  case answered =>
    rw [hanswered, App.handle, hanswer]
    rfl
  case pending =>
    have haccepted := Answered.left?_mk hasks hstatus
      (some (ambient.jobId s.app.workshop.registry.count))
    have hleft : s'.left = s.left ++ [ambient.jobId s.app.workshop.registry.count] := by
      rw [left, hanswered, List.filterMap_append, List.filterMap_cons_some haccepted]
      rfl
    rw [h.pending_eq_nil] at hpending
    rw [(h.run hrun).pending_eq_nil, hsent, hleft, List.length_append, List.length_append, hpending]
    rfl

/-- A request is handled, whatever it asks for. -/
theorem IsAccounted.exists_handles (h : s.IsAccounted) (hpending : s.pending = [])
    (ambient : Ambient) (respond : CompletionRequest → Completion) (r : Request)
    (hfresh : ∀ id ∈ (s.app.answer ambient r).job, id ∉ s.app.workshop.registry.ids) :
    ∃ events s', s.run events = some s' ∧ s.Handles ambient respond r s' := by
  rcases App.answer_cases ambient r s.app with ⟨q, hasks, -, -, hanswer⟩ | hleaves
  · by_cases hstatus : (s.app.answer ambient r).response.status = 202
    · rw [hanswer] at hfresh
      exact h.exists_handles_accept hpending hasks hanswer hstatus (hfresh _ rfl) respond
    · exact h.exists_handles_leave hpending hstatus (by rw [hanswer]; rfl) hfresh respond
  · obtain ⟨disk, happ⟩ := hleaves.app
    exact h.exists_handles_leave hpending hleaves.status (by rw [happ]) hfresh respond

/-- What is on record of a session. -/
structure Accounts (s : Service) : Prop where
  /-- The completion requests that were made, and the jobs that are still to be run, are as many as
  the accepted requests. -/
  calls : s.app.sent.length + s.pending.length = s.answered.countP fun x => x.IsAccepted
  /-- A request that is handled with the whole run of its job is on record in the same way, and
  leaves nothing to be run. -/
  handled : s.pending = [] → ∀ ambient respond r,
    (∀ id ∈ (s.app.answer ambient r).job, id ∉ s.app.workshop.registry.ids) →
    ∃ events s', s.run events = some s' ∧ s.Handles ambient respond r s'
  /-- A request for a generation that is refused changes nothing, and no job is created. -/
  refused : ∀ ambient r, r.Asks .generate → (s.app.answer ambient r).response.status ≠ 202 →
    (s.app.answer ambient r).response.status < 500 →
    (s.app.answer ambient r).app = s.app ∧ (s.app.answer ambient r).job = none
  /-- A job that was created is left to be run exactly when its request is whole. -/
  left : ∀ x ∈ s.answered, ∀ id ∈ x.job, ∃ q, readBody x.request.body = .ok q ∧
    (x.left? = some id ↔ q.IsWhole)
  /-- The job that was created last can be looked up, if its request was accepted, and once its run
  is over it is done or failed, unless the run broke off. -/
  last : ∀ x ∈ (s.answered.filter fun x => x.job.isSome).getLast?, x.IsAccepted →
    ∃ created found : Job, x.response = ⟨202, .json (App.jobJson created)⟩ ∧
    s.app.workshop.registry.find? created.id = some found ∧ found.request = created.request ∧
    (∀ ambient r, r.Asks (.generation created.id) →
      ((s.app.answer ambient r).response = .ok (App.jobJson found) ↔
        (∀ t ∈ found.errorMessage, t.isWhole = true) ∧ ∀ t ∈ found.backendId, t.isWhole = true)) ∧
    ∀ e ∈ s.ended, e.id = created.id →
      ((found.status = .done ∨ found.status = .failed) ↔ ∀ b, e.outcome ≠ .unkept b)

/-- The last job can be looked up, and its record reports how far its run has come. -/
theorem IsAccounted.exists_found (h : s.IsAccounted) (hlast : s.jobs.getLast? = some id) :
    ∃ found, s.app.workshop.registry.find? id = some found ∧
      found.report = (s.overlap.progress id).report := by
  obtain ⟨found, hfound, hheld, rfl⟩ := exists_find?_of_mem (h.last id hlast)
  exact ⟨found, hfound, h.coherent.reports found (List.mem_append_left _ hheld)⟩

theorem finished_iff (outcome : RunOutcome) :
    ((Progress.over outcome).report.status = .done ∨
      (Progress.over outcome).report.status = .failed) ↔ ∀ b, outcome ≠ .unkept b := by
  cases outcome <;> simp [Progress.report]

/-- The record of a generation is shown when its texts are whole. -/
theorem response_of_generation {a : App} {ambient : Ambient} {r : Request} {j : Job}
    (hasks : r.Asks (.generation id)) (hfound : a.workshop.registry.find? id = some j)
    (hwhole : j.request.IsWhole) :
    (a.answer ambient r).response = .ok (App.jobJson j) ↔
      (∀ t ∈ j.errorMessage, t.isWhole = true) ∧ ∀ t ∈ j.backendId, t.isWhole = true := by
  have hsendable : (App.jobJson j).isSendable = true ↔
      (∀ t ∈ j.errorMessage, t.isWhole = true) ∧ ∀ t ∈ j.backendId, t.isWhole = true :=
    isSendable_jobJson.trans
      ⟨fun h => ⟨h.errorMessage, h.backendId⟩, fun h => ⟨hwhole, h.1, h.2⟩⟩
  rw [App.answer_of_asks ambient a hasks, ← hsendable]
  simp only [App.serve, hfound]
  by_cases hsent : (App.jobJson j).isSendable = true
  · simp [Response.sending, hsent, Response.ok]
  · simp [Response.sending, hsent, Response.ok, Response.brokenDown]

/-- The jobs that were created are those of the requests that have one. -/
theorem getLast?_jobs {x : Answered} (hid : x.job = some id)
    (h : x ∈ (s.answered.filter fun x => x.job.isSome).getLast?) : s.jobs.getLast? = some id := by
  have hjobs : s.jobs = (s.answered.filter fun x => x.job.isSome).filterMap Answered.job := by
    rw [jobs, List.filterMap_filter]
    refine List.filterMap_congr fun x _ => ?_
    cases x.job <;> rfl
  obtain ⟨xs, hsplit⟩ := List.getLast?_eq_some_iff.1 h
  rw [hjobs, hsplit, List.filterMap_append, List.filterMap_cons_some hid]
  exact List.getLast?_concat

theorem IsAccounted.accounts (h : s.IsAccounted) : s.Accounts where
  calls := by
    rw [h.sent, h.length_left, left, Answered.length_left h.fair]
  handled hpending ambient respond r hfresh := h.exists_handles hpending ambient respond r hfresh
  refused ambient r hasks hstatus hlt := by
    rw [App.answer_of_asks ambient s.app hasks] at hstatus hlt ⊢
    rcases App.generate_cases ambient r.body s.app with ⟨q, -, -, hanswer⟩ | ⟨happ, hjob, -⟩
    · rw [App.serve, hanswer] at hstatus hlt
      rcases App.response_schedule ambient q s.app with ⟨-, hresponse⟩ | ⟨-, hresponse⟩
      · exact absurd (congrArg Response.status hresponse) hstatus
      · exact absurd (congrArg Response.status hresponse) hlt.ne
    · exact ⟨happ, hjob⟩
  left x hx id hid := by
    cases h.fair x hx with
    | accepted r id now q hasks hbody hwhole =>
      obtain rfl := Option.some.inj hid
      refine ⟨q, hbody, fun _ => hwhole, fun _ => ?_⟩
      exact Answered.left?_of_isAccepted ⟨hasks, rfl⟩
    | lost r id q hasks hbody hbroken =>
      refine ⟨q, hbody, fun hleft => ?_, fun hwhole => absurd hwhole hbroken⟩
      rw [Answered.left?_of_not_isAccepted fun haccepted => by cases haccepted.2] at hleft
      cases hleft
    | other => cases hid
  last x hx haccepted := by
    have hmem := (List.mem_filter.1 (List.mem_of_getLast? hx)).1
    have hrequests := h.requests x hmem
    cases h.fair x hmem with
    | lost => cases haccepted.2
    | other r response hstatus => exact absurd haccepted.2 hstatus
    | accepted r id now q hasks hbody hwhole =>
      obtain ⟨found, hfound, hreport⟩ := h.exists_found (getLast?_jobs rfl hx)
      obtain ⟨j, hj, hjid, hjbody⟩ := hrequests id rfl
      have hrecord : found ∈ s.app.workshop.registry.records :=
        List.mem_append_left _ (List.mem_of_find?_eq_some hfound)
      have hid : found.id = id := Registry.id_of_record? (by rw [Registry.record?, hfound]; rfl)
      obtain rfl : j = found :=
        List.inj_on_of_nodup_map h.coherent.created hj hrecord (hjid.trans hid.symm)
      have hrequest : j.request = q := Except.ok.inj (hjbody.symm.trans hbody)
      refine ⟨.queued id now q, j, rfl, hfound, hrequest, fun ambient r hasks => ?_,
        fun e he heid => ?_⟩
      · exact response_of_generation hasks hfound (hrequest ▸ hwhole)
      · rw [Job.id_queued] at heid
        rw [← heid, Overlap.progress_of_ended h.coherent.run he] at hreport
        rw [← finished_iff, ← hreport]
        rfl

/-- Whatever happens after a start, what is on record is what the service did, the accounts are
right, and runs break off only where a model that cannot be written is to be kept in a file. -/
theorem accounts_run {ambient : Ambient} {settings : Settings} {templates : Path}
    {store : ModelStore} {disk : Disk} {events : List Event}
    (hrun : (start ambient settings templates store disk).run events = some s) :
    s.app = (App.start ambient settings templates store disk).run events ∧ s.Accounts ∧
      s.BreaksOnlyUnwritable := by
  have hnone : (start ambient settings templates store disk).BreaksOnlyUnwritable :=
    fun e he => by cases he
  have haccounted := (isAccounted_start ambient settings templates store disk).run hrun
  exact ⟨app_run hrun, haccounted.accounts, hnone.run hrun⟩

/-- The service with a place for its model, at its start. -/
def opened (file : Option Path) : Service :=
  start ⟨"0", fun _ => "1", "", ""⟩ { apiKey := some "key" } [] ⟨file, none⟩ {}

/-- The body of a request for a generation. -/
def shopBody : String :=
  "\x7b\"prompt\":\"shop\"\x7d"

theorem readBody_shop : readBody (some shopBody) = .ok ⟨"shop", none, none⟩ := by
  have hread : Json.read shopBody = .ok (.obj [("prompt", .str "shop")]) := by cbv
  have hempty : shopBody.isEmpty = false := by decide
  have hmark : ChatAnswer.withoutMark shopBody = shopBody := rfl
  simp only [readBody, Option.getD_some, hempty, Bool.false_eq_true, if_false, hmark, hread]
  rfl

/-- The request for a generation, as it is answered. -/
def shopAnswered : Answered where
  request := ⟨"http://testserver", "POST", "/v1/generate", some shopBody⟩
  response := ⟨202, .json (App.jobJson (.queued "1" "" ⟨"shop", none, none⟩))⟩
  job := some "1"

theorem answer_shop (file : Option Path) :
    (opened file).app.answer ⟨"0", fun _ => "1", "", ""⟩ shopAnswered.request =
      App.schedule ⟨"0", fun _ => "1", "", ""⟩ ⟨"shop", none, none⟩ (opened file).app := by
  have hasks : shopAnswered.request.Asks .generate := ⟨by decide +kernel, rfl⟩
  have hpasses : Prompt.inputFailure? (some "shop") (some "key") = none := by decide
  have hinput : Prompt.inputFailure? (some "shop") (opened file).app.settings.apiKey = none :=
    hpasses
  rw [App.answer_of_asks _ _ hasks, App.serve, shopAnswered, App.generate, readBody_shop]
  simp only [hinput]
  rfl

/-- A generation is asked for and run. -/
theorem run_generation (file : Option Path) (reply : String)
    (hempty : file.bind (fun p => ModelStore.kept? "0" p {}) = none) :
    ∃ s, (opened file).run (App.generation reply) = some s ∧ s.answered = [shopAnswered] ∧
      s.ended =
        [⟨"1", "", (RunOutcome.ofCompletion "0" (.reply reply)).inStore ⟨file, none⟩ {}⟩] := by
  have h : (opened file).IsAccounted := isAccounted_start _ _ _ _ _
  have hfresh : "1" ∉ (opened file).app.workshop.registry.ids := fun hid => by cases hid
  have hasks : shopAnswered.request.Asks .generate := ⟨by decide +kernel, rfl⟩
  have hstatus : ((opened file).app.answer ⟨"0", fun _ => "1", "", ""⟩
      shopAnswered.request).response.status = 202 := by
    rw [answer_shop]
    rfl
  obtain ⟨c, s, hrun, -, -, hanswered, hended⟩ :=
    h.exists_run_accept hasks (answer_shop file) hstatus rfl hfresh fun _ => .reply reply
  have hstore : (opened file).app.workshop.store = ⟨file, none⟩ := by
    simp only [opened, start, App.start, ModelStore.load, hempty]
  refine ⟨s, hrun, ?_, ?_⟩
  · rw [hanswered, answer_shop]
    rfl
  · rw [hended, hstore]
    rfl

/-- After the generation of a model the accounts count one accepted request, and its job can be
looked up. -/
theorem accounts_run_generation :
    ∃ s, (opened none).run (App.generation unlimitedReply) = some s ∧
      s.app.sent.length + s.pending.length = 1 ∧
      ∃ created found, shopAnswered.response = ⟨202, .json (App.jobJson created)⟩ ∧
        s.app.workshop.registry.find? created.id = some found := by
  obtain ⟨s, hrun, hanswered, -⟩ := run_generation none unlimitedReply rfl
  have haccepted : shopAnswered.IsAccepted := ⟨⟨by decide +kernel, rfl⟩, rfl⟩
  obtain ⟨-, haccounts, -⟩ := accounts_run hrun
  refine ⟨s, hrun, ?_, ?_⟩
  · rw [haccounts.calls, hanswered]
    simp [haccepted]
  · obtain ⟨created, found, hresponse, hfound, -⟩ :=
      haccounts.last shopAnswered (by simp [hanswered, shopAnswered]) haccepted
    exact ⟨created, found, hresponse, hfound⟩

/-- After a generation whose model cannot be kept in the store's file the run is over, and its job
is left running. -/
theorem last_isRunning :
    ∃ s found, (opened (some ["state.json"])).run (App.generation halvedReply) = some s ∧
      s.answered = [shopAnswered] ∧ (∃ e ∈ s.ended, e.id = "1") ∧
      s.app.workshop.registry.find? "1" = some found ∧ found.status = .running := by
  obtain ⟨s, hrun, hanswered, hended⟩ := run_generation (some ["state.json"]) halvedReply (by cbv)
  rw [Overlap.inStore_halvedReply] at hended
  have h := (isAccounted_start _ _ _ _ _).run hrun
  have hlast : s.jobs.getLast? = some "1" := by simp [jobs, hanswered, shopAnswered]
  obtain ⟨found, hfound, hreport⟩ := h.exists_found hlast
  have he : (⟨"1", "", .unkept (capped (.broken [.half ⟨0xD800, by decide⟩]))⟩ : RunEnd) ∈
      s.ended := by
    rw [hended]
    exact List.mem_cons_self
  rw [Overlap.progress_of_ended h.coherent.run he] at hreport
  exact ⟨s, found, hrun, hanswered, ⟨_, he, rfl⟩, hfound, congrArg JobReport.status hreport⟩

end Service

end Nanoservice.Http
