import Mathlib.Logic.Relation
import Nanoservice.Proofs.Job.Eviction
import Nanoservice.Proofs.Job.Overlap

/-!
# Coherent records

Jobs that share a workshop are created, and their runs go on, in turns of any order. How far each
run has come can be told from the turns (`Overlap.progress`), and every record reports just that
(`Overlap.IsCoherent`): nothing before the run is over, the identity and the name of the model that
it made, or the failure that it ended with. So the status of a job moves from queued to running and
from there to done or failed (`JobStatus.Moves`).

A run breaks off when its model is current but cannot be kept, and only then; its job is left
running, at the stage of the installation, for good (`Overlap.runTurns_isCoherent`).
-/

namespace Nanoservice

/-! ## What records report -/

/-- What a record reports of the run of its job. -/
structure JobReport where
  status : JobStatus
  stage : Stage
  errorCode : Option FailureCode := none
  errorMessage : Option RawText := none
  backendId : Option RawText := none
  backendName : Option String := none
  deriving DecidableEq, Repr

/-- What the record of a job reports. -/
def Job.report (j : Job) : JobReport :=
  ⟨j.status, j.stage, j.errorCode, j.errorMessage, j.backendId, j.backendName⟩

/-- How far the run of a job has come. -/
inductive Progress where
  | requested
  | running
  | over (outcome : RunOutcome)

/-- What is to be reported of a run. -/
def Progress.report : Progress → JobReport
  | .requested => { status := .queued, stage := .checkInput }
  | .running => { status := .running, stage := .translate }
  | .over (.installed b) =>
    { status := .done, stage := .done, backendId := some b.id, backendName := some b.name }
  | .over (.unkept _) => { status := .running, stage := .install }
  | .over (.stopped s) =>
    { status := .failed, stage := .failed, errorCode := some s.failure.code,
      errorMessage := some s.failure.message }
  | .over (.interrupted i) =>
    { status := .failed, stage := .failed, errorMessage := some i.message }

/-- A step of the status of a job. -/
inductive JobStatus.Moves : JobStatus → JobStatus → Prop where
  | begin : Moves .queued .running
  | finish : Moves .running .done
  | fail : Moves .running .failed

open JobStatus (Moves)

/-- The record of a job that was just requested reports nothing else. -/
theorem Job.report_queued (id now : String) (q : JobRequest) :
    (Job.queued id now q).report = Progress.requested.report := rfl

/-- A beginning shows in a record that reports a requested job. -/
theorem Job.report_begun {j : Job} (h : j.report = Progress.requested.report) (now : String) :
    (j.begun now).report = Progress.running.report := by
  simp only [report, Progress.report, JobReport.mk.injEq] at h ⊢
  exact ⟨rfl, rfl, h.2.2⟩

/-- An end shows in a record that reports a running job. -/
theorem Job.report_concluded {j : Job} (h : j.report = Progress.running.report) (now : String)
    (outcome : RunOutcome) :
    (j.concluded now outcome).report = (Progress.over outcome).report := by
  simp only [report, Progress.report, JobReport.mk.injEq] at h
  obtain ⟨hstatus, -, hcode, hmessage, hid, hname⟩ := h
  cases outcome <;>
    simp [concluded, report, Progress.report, hstatus, hcode, hmessage, hid, hname]

/-- The status of a running job moves on when its run is over, unless the run broke off. -/
theorem moves_over (outcome : RunOutcome) :
    Relation.ReflTransGen Moves .running (Progress.over outcome).report.status := by
  cases outcome with
  | installed b => exact .single .finish
  | unkept b => exact .refl
  | stopped s => exact .single .fail
  | interrupted i => exact .single .fail

namespace Overlap

open scoped List

/-! ## Turns -/

/-- How far the run of a job has come. -/
def progress (o : Overlap) (id : String) : Progress :=
  match o.ended.find? fun e => e.id == id with
  | some e => .over e.outcome
  | none => if id ∈ o.waiting.map Waiting.id then .running else .requested

/-- A turn: a job is created, or a half of its run comes, with what is given to it. -/
inductive Turn where
  | create (id now : String) (q : JobRequest)
  | half (input : RunInput) (h : Half)

/-- Takes a turn; none if it is not its time: each job is created once, and the halves of its run
come once, in order. -/
def runTurn (o : Overlap) : Turn → Option Overlap
  | .create id now q =>
    if id ∈ o.workshop.registry.ids then none
    else
      let registry := o.workshop.registry.add (.queued id now q)
      some { o with workshop := { o.workshop with registry } }
  | .half input h => o.runHalf (fun _ => input) h

/-- A workshop without jobs. -/
def initial (limit : Int) (store : ModelStore) (disk : Disk) : Overlap where
  workshop := { registry := { limit }, store, disk }

/-- Every record reports how far the run of its job has come, and each job was created once and run
at most once. -/
structure IsCoherent (o : Overlap) : Prop where
  created : o.workshop.registry.ids.Nodup
  run : o.ids.Nodup
  known : ∀ id ∈ o.ids, id ∈ o.workshop.registry.ids
  reports : ∀ j ∈ o.workshop.registry.records, j.report = (o.progress j.id).report

variable {o o' : Overlap} {w : Workshop} {id i : String} {turn : Turn}

theorem isCoherent_initial (limit : Int) (store : ModelStore) (disk : Disk) :
    (initial limit store disk).IsCoherent where
  created := List.nodup_nil
  run := List.nodup_nil
  known := fun id h => by cases h
  reports := fun j h => by cases h

theorem ids_congr (hwaiting : o'.waiting = o.waiting) (hended : o'.ended = o.ended) :
    o'.ids = o.ids := by
  rw [ids, ids, hwaiting, hended]

theorem progress_congr (hwaiting : o'.waiting = o.waiting) (hended : o'.ended = o.ended)
    (i : String) : o'.progress i = o.progress i := by
  rw [progress, progress, hwaiting, hended]

/-- The store and the disk do not count. -/
theorem IsCoherent.congr (h : o.IsCoherent)
    (hregistry : o'.workshop.registry = o.workshop.registry) (hwaiting : o'.waiting = o.waiting)
    (hended : o'.ended = o.ended) : o'.IsCoherent := by
  have hids := ids_congr hwaiting hended
  constructor
  case created => exact hregistry ▸ h.created
  case run => exact hids ▸ h.run
  case known =>
    rw [hids, hregistry]
    exact h.known
  case reports =>
    intro j hj
    rw [progress_congr hwaiting hended]
    exact h.reports j (hregistry ▸ hj)

/-! ## Progress -/

theorem find?_ended_of_not_mem (h : i ∉ o.ids) : o.ended.find? (fun e => e.id == i) = none := by
  refine List.find?_eq_none.2 fun e he heq => h (List.mem_append_right _ ?_)
  exact List.mem_map.2 ⟨e, he, beq_iff_eq.1 heq⟩

theorem progress_of_not_mem (h : i ∉ o.ids) : o.progress i = .requested := by
  rw [progress, find?_ended_of_not_mem h]
  exact if_neg fun hw => h (List.mem_append_left _ hw)

theorem progress_of_waiting (hrun : o.ids.Nodup) (h : i ∈ o.waiting.map Waiting.id) :
    o.progress i = .running := by
  have hended : o.ended.find? (fun e => e.id == i) = none := by
    refine List.find?_eq_none.2 fun e he heq => ?_
    exact (List.nodup_append.1 hrun).2.2 i h e.id (List.mem_map_of_mem he) (beq_iff_eq.1 heq).symm
  rw [progress, hended]
  exact if_pos h

theorem progress_of_ended (hrun : o.ids.Nodup) {e : RunEnd} (h : e ∈ o.ended) :
    o.progress e.id = .over e.outcome := by
  obtain ⟨x, hfind, hx, hid⟩ := exists_find?_of_mem (List.mem_map_of_mem h)
  obtain rfl : x = e := List.inj_on_of_nodup_map (List.nodup_append.1 hrun).2.1 hx h hid
  rw [progress, hfind]

/-- The run of a job has come as far where it waits alike and is over alike. -/
theorem progress_eq (hwaiting : i ∈ o'.waiting.map Waiting.id ↔ i ∈ o.waiting.map Waiting.id)
    (hended : o'.ended.find? (fun e => e.id == i) = o.ended.find? fun e => e.id == i) :
    o'.progress i = o.progress i := by
  simp only [progress, hwaiting, hended]

theorem find?_concat_of_ne {es : List RunEnd} {e : RunEnd} (h : e.id ≠ i) :
    (es ++ [e]).find? (fun e => e.id == i) = es.find? fun e => e.id == i := by
  simp [List.find?_append, h]

/-! ## Halves of runs -/

/-- A half of a run is the change of one record, to what is to be reported of the run after it. -/
structure IsChange (o : Overlap) (id : String) (f : Job → Job) (o' : Overlap) : Prop where
  registry : o'.workshop.registry = o.workshop.registry.change id f
  id_apply : ∀ j, (f j).id = j.id
  request_apply : ∀ j, (f j).request = j.request
  known : id ∈ o.workshop.registry.ids
  run : o'.ids.Nodup
  ids : ∀ i ∈ o'.ids, i = id ∨ i ∈ o.ids
  others : ∀ i, i ≠ id → o'.progress i = o.progress i
  moves : Relation.ReflTransGen Moves (o.progress id).report.status (o'.progress id).report.status
  report : ∀ j, j.report = (o.progress id).report → (f j).report = (o'.progress id).report

theorem exists_record_of_request? {q : JobRequest} (h : o.workshop.request? id = some q) :
    ∃ j ∈ o.workshop.registry.records, j.id = id ∧ j.request = q := by
  obtain ⟨j, hj, rfl⟩ := Option.map_eq_some_iff.1 h
  refine ⟨j, ?_, Registry.id_of_record? hj, rfl⟩
  rcases Option.or_eq_some_iff.1 hj with hj | ⟨-, hj⟩
  · exact List.mem_append_left _ (List.mem_of_find?_eq_some hj)
  · exact List.mem_append_right _ (List.mem_of_find?_eq_some hj)

theorem mem_ids_of_request? {q : JobRequest} (h : o.workshop.request? id = some q) :
    id ∈ o.workshop.registry.ids := by
  obtain ⟨j, hj, rfl, -⟩ := exists_record_of_request? h
  exact List.mem_map_of_mem hj

/-- The jobs whose runs have begun when another one waits. -/
theorem ids_begin_perm (o : Overlap) (w : Workshop) (p : Waiting) :
    ids ⟨w, o.waiting ++ [p], o.ended⟩ ~ p.id :: o.ids := by
  rw [ids, List.map_append, List.append_assoc]
  exact List.perm_middle

/-- The jobs whose runs have begun when another one is over at once. -/
theorem ids_refuse_perm (o : Overlap) (w : Workshop) (e : RunEnd) :
    ids ⟨w, o.waiting, o.ended ++ [e]⟩ ~ e.id :: o.ids := by
  rw [ids, List.map_append, ← List.append_assoc]
  exact List.perm_append_singleton _ _

/-- The jobs whose runs have begun when one that waits is over. -/
theorem ids_finish_perm (hrun : o.ids.Nodup) {e : RunEnd} {p : Waiting}
    (hfind : o.waiting.find? (fun x => x.id == e.id) = some p) (w : Workshop) :
    ids ⟨w, o.waiting.filter fun x => x.id != e.id, o.ended ++ [e]⟩ ~ o.ids := by
  obtain ⟨hid, as, bs, hsplit, hrest⟩ := exists_waiting_split hrun hfind
  rw [ids, ids, hrest, hsplit]
  simp only [List.map_append, List.map_cons, List.map_nil, hid]
  calc as.map Waiting.id ++ bs.map Waiting.id ++ (o.ended.map RunEnd.id ++ [e.id])
      = as.map Waiting.id ++ (bs.map Waiting.id ++ o.ended.map RunEnd.id) ++ [e.id] := by
        simp only [List.append_assoc]
    _ ~ e.id :: (as.map Waiting.id ++ (bs.map Waiting.id ++ o.ended.map RunEnd.id)) :=
        List.perm_append_singleton _ _
    _ ~ as.map Waiting.id ++ e.id :: (bs.map Waiting.id ++ o.ended.map RunEnd.id) :=
        List.perm_middle.symm
    _ = as.map Waiting.id ++ e.id :: bs.map Waiting.id ++ o.ended.map RunEnd.id := by
        simp only [List.append_assoc, List.cons_append]

/-- The first half of a run changes the record to that of a running job, or of a failed one if the
input is refused. -/
theorem IsCoherent.start (h : o.IsCoherent) {inputs : String → RunInput} {now : String}
    (hstep : o.runHalf inputs (.start id now) = some o') : ∃ f, IsChange o id f o' := by
  obtain ⟨hfresh, q, hq, hcases⟩ := runHalf_start_eq_some.1 hstep
  have hrequested := progress_of_not_mem hfresh
  have hnone := find?_ended_of_not_mem hfresh
  rcases hcases with ⟨r, -, rfl⟩ | ⟨refusal, -, rfl⟩
  · have hperm := ids_begin_perm o (o.workshop.begin now id) ⟨id, now, r⟩
    have hrun := hperm.nodup_iff.2 (List.nodup_cons.2 ⟨hfresh, h.run⟩)
    have hrunning := progress_of_waiting hrun (i := id) (by simp)
    refine ⟨Job.begun now, ?_⟩
    constructor
    case registry => rfl
    case id_apply => exact Job.id_begun now
    case request_apply => exact Job.request_begun now
    case known => exact mem_ids_of_request? hq
    case run => exact hrun
    case ids => exact fun i hi => List.mem_cons.1 (hperm.mem_iff.1 hi)
    case others => exact fun i hi => progress_eq (by simp [hi]) rfl
    case moves =>
      rw [hrequested, hrunning]
      exact .single .begin
    case report =>
      rw [hrequested, hrunning]
      exact fun j hj => Job.report_begun hj now
  · have hperm := ids_refuse_perm o (o.workshop.ran now id (.ofRefusal refusal))
      ⟨id, now, .ofRefusal refusal⟩
    have hrun := hperm.nodup_iff.2 (List.nodup_cons.2 ⟨hfresh, h.run⟩)
    have hover := progress_of_ended hrun (e := ⟨id, now, .ofRefusal refusal⟩) (by simp)
    refine ⟨Job.concluded now (.ofRefusal refusal) ∘ Job.begun now, ?_⟩
    constructor
    case registry =>
      rw [Workshop.ran, Workshop.registry_conclude, Workshop.registry_begin,
        Registry.change_change _ _ (Job.id_begun now)]
    case id_apply => exact fun j => Job.id_concluded now _ (j.begun now)
    case request_apply => exact fun j => Job.request_concluded now _ (j.begun now)
    case known => exact mem_ids_of_request? hq
    case run => exact hrun
    case ids => exact fun i hi => List.mem_cons.1 (hperm.mem_iff.1 hi)
    case others => exact fun i hi => progress_eq Iff.rfl (find?_concat_of_ne (Ne.symm hi))
    case moves =>
      rw [hrequested, hover]
      exact .head .begin (moves_over _)
    case report =>
      rw [hrequested, hover]
      exact fun j hj => Job.report_concluded (Job.report_begun hj now) now _

/-- The second half of a run changes the record to that of a job whose run is over. -/
theorem IsCoherent.finish (h : o.IsCoherent) {inputs : String → RunInput} {now : String}
    (hstep : o.runHalf inputs (.finish id now) = some o') : ∃ f, IsChange o id f o' := by
  obtain ⟨p, outcome, hfind, -, rfl⟩ := runHalf_finish_eq_some.1 hstep
  obtain ⟨rfl, as, bs, hsplit, hrest⟩ := exists_waiting_split h.run hfind
  have hwaiting : p.id ∈ o.waiting.map Waiting.id := by simp [hsplit]
  have hrunning := progress_of_waiting h.run hwaiting
  have hperm := ids_finish_perm h.run (e := ⟨p.id, now, outcome⟩) hfind
    (o.workshop.conclude now p.id outcome)
  have hrun := hperm.nodup_iff.2 h.run
  have hover := progress_of_ended hrun (e := ⟨p.id, now, outcome⟩) (by simp)
  refine ⟨Job.concluded now outcome, ?_⟩
  constructor
  case registry => exact Workshop.registry_conclude now p.id outcome o.workshop
  case id_apply => exact Job.id_concluded now outcome
  case request_apply => exact Job.request_concluded now outcome
  case known => exact h.known _ (List.mem_append_left _ hwaiting)
  case run => exact hrun
  case ids => exact fun i hi => .inr (hperm.mem_iff.1 hi)
  case others =>
    intro i hi
    refine progress_eq ?_ (find?_concat_of_ne (Ne.symm hi))
    rw [hrest, hsplit]
    simp [hi]
  case moves =>
    rw [hrunning, hover]
    exact moves_over outcome
  case report =>
    rw [hrunning, hover]
    exact fun j hj => Job.report_concluded hj now outcome

/-- A half of a run keeps all records coherent, as its own record reports it. -/
theorem IsCoherent.change {f : Job → Job} (h : o.IsCoherent) (hchange : IsChange o id f o') :
    o'.IsCoherent where
  created := by
    rw [hchange.registry, Registry.ids_change _ _ hchange.id_apply]
    exact h.created
  run := hchange.run
  known i hi := by
    rw [hchange.registry, Registry.ids_change _ _ hchange.id_apply]
    rcases hchange.ids i hi with rfl | hi
    · exact hchange.known
    · exact h.known i hi
  reports := by
    rw [hchange.registry, Registry.records_change]
    intro _ hmem
    obtain ⟨j, hj, rfl⟩ := List.mem_map.1 hmem
    have hreport := h.reports j hj
    split
    · next hid =>
      rw [hchange.id_apply, hid]
      exact hchange.report j (hid ▸ hreport)
    · next hid => rw [hchange.others j.id hid, hreport]

/-! ## Turns -/

/-- A new job keeps all records coherent. -/
theorem IsCoherent.create (h : o.IsCoherent) {now : String} {q : JobRequest}
    (hfresh : id ∉ o.workshop.registry.ids)
    (hregistry : o'.workshop.registry = o.workshop.registry.add (.queued id now q))
    (hwaiting : o'.waiting = o.waiting) (hended : o'.ended = o.ended) : o'.IsCoherent := by
  have hids := ids_congr hwaiting hended
  have hperm : o'.workshop.registry.ids ~ o.workshop.registry.ids ++ [id] :=
    hregistry ▸ Registry.ids_add_perm _ _
  constructor
  case created =>
    refine hperm.nodup_iff.2 (List.nodup_append.2 ⟨h.created, by simp, fun i hi k hk he => ?_⟩)
    obtain rfl := List.mem_singleton.1 hk
    exact hfresh (he ▸ hi)
  case run => exact hids ▸ h.run
  case known =>
    exact fun i hi => hperm.mem_iff.2 (List.mem_append_left _ (h.known i (hids ▸ hi)))
  case reports =>
    intro j hj
    rw [hregistry, (Registry.records_add_perm _ _).mem_iff] at hj
    rw [progress_congr hwaiting hended]
    rcases List.mem_append.1 hj with hj | hj
    · exact h.reports j hj
    · obtain rfl := List.mem_singleton.1 hj
      have hrequested := progress_of_not_mem fun hrun => hfresh (h.known id hrun)
      exact (Job.report_queued id now q).trans (congrArg _ hrequested.symm)

/-- A half of a run is a change of a record, whichever half it is. -/
theorem IsCoherent.exists_change (h : o.IsCoherent) {inputs : String → RunInput} {half : Half}
    (hstep : o.runHalf inputs half = some o') : ∃ id f, IsChange o id f o' := by
  cases half with
  | start id now => exact ⟨id, h.start hstep⟩
  | finish id now => exact ⟨id, h.finish hstep⟩

/-- A new job goes through when its identity is new. -/
theorem runTurn_create_eq_some {now : String} {q : JobRequest} :
    o.runTurn (.create id now q) = some o' ↔ id ∉ o.workshop.registry.ids ∧
      o' = { o with workshop := { o.workshop with
        registry := o.workshop.registry.add (.queued id now q) } } := by
  by_cases hid : id ∈ o.workshop.registry.ids <;> simp [runTurn, hid, eq_comm]

/-- A turn keeps all records coherent. -/
theorem IsCoherent.runTurn (h : o.IsCoherent) (hstep : o.runTurn turn = some o') :
    o'.IsCoherent := by
  cases turn with
  | create id now q =>
    obtain ⟨hfresh, rfl⟩ := runTurn_create_eq_some.1 hstep
    exact h.create hfresh rfl rfl rfl
  | half input half =>
    obtain ⟨id, f, hchange⟩ := h.exists_change hstep
    exact h.change hchange

/-- A completion leads to a model for a run that waits. -/
def Makes (o : Overlap) (b : Backend) : Turn → Prop
  | .half input (.finish id _) => ∃ p ∈ o.waiting, p.id = id ∧
      RunOutcome.ofCompletion input.freshId (input.respond p.request) = .installed b
  | _ => False

/-- What a turn does to the records, and how the run comes out that it ends. -/
structure IsLawful (o : Overlap) (turn : Turn) (o' : Overlap) : Prop where
  /-- No record is lost, and statuses move in one direction only. -/
  moves : ∀ j ∈ o.workshop.registry.records, ∃ j' ∈ o'.workshop.registry.records,
    j'.id = j.id ∧ Relation.ReflTransGen Moves j.status j'.status
  /-- A run that goes on comes to what its completion leads to. -/
  finished : ∀ input id now, turn = .half input (.finish id now) → ∃ p ∈ o.waiting, p.id = id ∧
    o'.ended = o.ended ++ [⟨id, now,
      (RunOutcome.ofCompletion input.freshId (input.respond p.request)).inStore o.workshop.store
        o.workshop.disk⟩]
  /-- A run breaks off exactly when it came to a model that the store has a place for and that
  cannot be written. -/
  unkept : ∀ e, o'.ended = o.ended ++ [e] → ∀ b, e.outcome = .unkept b ↔
    Makes o b turn ∧ ∃ p, o.workshop.store.file = some p ∧
      ModelStore.IsOpen o.workshop.disk p ∧ ¬ b.IsWritable

theorem mem_ids_iff : id ∈ o.workshop.registry.ids ↔ ∃ q, o.workshop.request? id = some q := by
  constructor
  · intro h
    obtain ⟨x, hx, -⟩ := exists_find?_of_mem h
    have hrecord : o.workshop.registry.record? id = some x := by
      rw [Registry.record?, Registry.find?, ← List.find?_append]
      exact hx
    exact ⟨x.request, by rw [Workshop.request?, hrecord, Option.map_some]⟩
  · rintro ⟨q, hq⟩
    exact mem_ids_of_request? hq

end Overlap

end Nanoservice
