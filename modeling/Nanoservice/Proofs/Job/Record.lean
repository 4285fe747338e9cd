import Nanoservice.Job.Run
import Nanoservice.Proofs.Store.Keeping

/-!
# Records and runs of jobs

A change of one record leaves the others as they are (`Registry.record?_change`), so changes of
different records commute (`Registry.change_comm`). A run changes its own record twice, when it
begins and when it is over (`Workshop.ran`), and steps of the runs of different jobs commute
(`Workshop.begin_comm`, `Workshop.ran_begin`). What a run comes to depends on the request in its
record alone (`Workshop.run_eq`), which no run changes.
-/

namespace Nanoservice

/-- An element with an identity that occurs is found by it. -/
theorem exists_find?_of_mem {α : Type} {f : α → String} {as : List α} {id : String}
    (h : id ∈ as.map f) : ∃ a, as.find? (fun a => f a == id) = some a ∧ a ∈ as ∧ f a = id := by
  obtain ⟨a, ha, rfl⟩ := List.mem_map.1 h
  have hsome : (as.find? fun x => f x == f a).isSome :=
    List.find?_isSome.2 ⟨a, ha, beq_self_eq_true (f a)⟩
  obtain ⟨x, hx⟩ := Option.isSome_iff_exists.1 hsome
  have hid := List.find?_some hx
  exact ⟨x, hx, List.mem_of_find?_eq_some hx, beq_iff_eq.1 hid⟩

namespace Registry

variable {r : Registry} {a b id : String} {f g : Job → Job}

/-- Changes of different records commute. -/
theorem change_comm (r : Registry) (h : a ≠ b) (hf : ∀ j, (f j).id = j.id)
    (hg : ∀ j, (g j).id = j.id) : (r.change a f).change b g = (r.change b g).change a f := by
  have hcomm : (fun j => if j.id = b then g j else j) ∘ (fun j => if j.id = a then f j else j) =
      (fun j => if j.id = a then f j else j) ∘ (fun j => if j.id = b then g j else j) := by
    funext j
    simp only [Function.comp_apply]
    by_cases ha : j.id = a
    · have hb : j.id ≠ b := fun hb => h (ha.symm.trans hb)
      simp [ha, hf, h]
    · by_cases hb : j.id = b
      · simp [hb, hg, Ne.symm h]
      · simp [ha, hb]
  simp only [change, List.map_map, hcomm]

/-- Two changes of one record are one. -/
theorem change_change (r : Registry) (id : String) (hf : ∀ j, (f j).id = j.id) :
    (r.change id f).change id g = r.change id (g ∘ f) := by
  have hcomp : (fun j => if j.id = id then g j else j) ∘ (fun j => if j.id = id then f j else j) =
      fun j => if j.id = id then (g ∘ f) j else j := by
    funext j
    by_cases hj : j.id = id <;> simp [hj, hf]
  simp only [change, List.map_map, hcomp]

/-- A change shows in its own record only. -/
theorem record?_change (r : Registry) (id i : String) (hf : ∀ j, (f j).id = j.id) :
    (r.change id f).record? i = (r.record? i).map fun j => if j.id = id then f j else j := by
  have hid : (fun j : Job => j.id == i) ∘ (fun j => if j.id = id then f j else j) =
      fun j => j.id == i := by
    funext j
    by_cases hj : j.id = id <;> simp [hj, hf]
  simp only [record?, find?, change, List.find?_map, hid, Option.map_or]

/-- A record that is found has the identity it was looked for by. -/
theorem id_of_record? {j : Job} (h : r.record? id = some j) : j.id = id := by
  rcases Option.or_eq_some_iff.1 h with h | ⟨-, h⟩
  · have hfound := List.find?_some h
    exact beq_iff_eq.1 hfound
  · have hfound := List.find?_some h
    exact beq_iff_eq.1 hfound

theorem record?_change_self (r : Registry) (id : String) (hf : ∀ j, (f j).id = j.id) :
    (r.change id f).record? id = (r.record? id).map f := by
  rw [record?_change r id id hf]
  refine Option.map_congr fun j hj => ?_
  rw [if_pos (id_of_record? hj)]

theorem record?_change_of_ne (r : Registry) (h : a ≠ b) (hf : ∀ j, (f j).id = j.id) :
    (r.change a f).record? b = r.record? b := by
  rw [record?_change r a b hf]
  refine (Option.map_congr fun j hj => ?_).trans Option.map_id'
  rw [if_neg (by rw [id_of_record? hj]; exact h.symm)]

end Registry

namespace RunOutcome

/-- The model that a run made. -/
def model? : RunOutcome → Option Backend
  | .installed b | .unkept b => some b
  | _ => none

/-- The model that a run installed. -/
def installed? : RunOutcome → Option Backend
  | .installed b => some b
  | _ => none

theorem model?_eq_some {o : RunOutcome} {b : Backend} :
    o.model? = some b ↔ o = .installed b ∨ o = .unkept b := by
  cases o <;> simp [model?]

/-- A run that did not break off installed the model that it made. -/
theorem installed?_eq_model? {o : RunOutcome} (h : ∀ b, o ≠ .unkept b) :
    o.installed? = o.model? := by
  cases o with
  | unkept b => exact absurd rfl (h b)
  | installed | stopped | interrupted => rfl

/-- Making a model current in a store does not change which model a run made. -/
@[simp] theorem model?_inStore (s : ModelStore) (d : Disk) (o : RunOutcome) :
    (o.inStore s d).model? = o.model? := by
  cases o with
  | installed b =>
    rw [inStore]
    split <;> rfl
  | unkept | stopped | interrupted => rfl

/-- A completion by itself breaks no run off. -/
theorem ofCompletion_ne_unkept (freshId : String) (c : Completion) (b : Backend) :
    ofCompletion freshId c ≠ .unkept b := by
  unfold ofCompletion
  split <;> simp

/-- A run breaks off when its model cannot be kept in the store. -/
theorem inStore_eq_unkept {s : ModelStore} {d : Disk} {o : RunOutcome} {b : Backend}
    (h : o ≠ .unkept b) :
    o.inStore s d = .unkept b ↔ o = .installed b ∧ s.breaksOff b d = true := by
  cases o with
  | installed b' =>
    rw [inStore]
    split
    · next hbreaks =>
      have hsame : b' = b → s.breaksOff b d = true := fun hb => hb ▸ hbreaks
      simpa using hsame
    · next hbreaks =>
      have hne : ¬ (b' = b ∧ s.breaksOff b d = true) := fun h => hbreaks (h.1 ▸ h.2)
      simpa using hne
  | unkept b' => simpa [inStore] using h
  | stopped | interrupted => simp [inStore]

/-- What a run comes to is the same before and after another model was made current. -/
theorem inStore_replace (s : ModelStore) (b : Backend) (persist : Bool) (d : Disk)
    (o : RunOutcome) :
    o.inStore (s.replace b persist d).1 (s.replace b persist d).2 = o.inStore s d := by
  cases o with
  | installed b' => simp only [inStore, ModelStore.breaksOff_replace]
  | unkept | stopped | interrupted => rfl

end RunOutcome

namespace Job

@[simp] theorem id_queued (id now : String) (q : JobRequest) : (queued id now q).id = id := rfl

@[simp] theorem id_begun (now : String) (j : Job) : (begun now j).id = j.id := rfl

@[simp] theorem request_begun (now : String) (j : Job) : (begun now j).request = j.request := rfl

@[simp] theorem id_concluded (now : String) (o : RunOutcome) (j : Job) :
    (concluded now o j).id = j.id := by
  cases o <;> rfl

@[simp] theorem request_concluded (now : String) (o : RunOutcome) (j : Job) :
    (concluded now o j).request = j.request := by
  cases o <;> rfl

/-- The record of a run that is over does not tell when the run began. -/
theorem concluded_begun (now t u : String) (o : RunOutcome) (j : Job) :
    concluded now o (begun t j) = concluded now o (begun u j) := by
  cases o <;> rfl

end Job

/-- What is given to a run: its settings, the identity for its model, and what becomes of its
completion request. -/
structure RunInput where
  settings : Settings
  freshId : String
  respond : CompletionRequest → Completion

/-- What a run in a workshop comes to if this was asked for. -/
def RunInput.outcome (i : RunInput) (w : Workshop) (q : JobRequest) : RunOutcome :=
  match Generation.request i.settings q.prompt q.model with
  | .error f => .ofRefusal f
  | .ok r => (RunOutcome.ofCompletion i.freshId (i.respond r)).inStore w.store w.disk

namespace Workshop

variable {w : Workshop} {id : String} {q : JobRequest}

/-- What the job of an identity was requested for. -/
def request? (w : Workshop) (id : String) : Option JobRequest :=
  (w.registry.record? id).map Job.request

/-- A run has begun. -/
def begin (now id : String) (w : Workshop) : Workshop :=
  { w with registry := w.registry.change id (Job.begun now) }

/-- A run has begun and is over, with what it came to. -/
def ran (now id : String) (outcome : RunOutcome) (w : Workshop) : Workshop :=
  (w.begin now id).conclude now id outcome

@[simp] theorem registry_begin (now id : String) (w : Workshop) :
    (w.begin now id).registry = w.registry.change id (Job.begun now) := rfl

@[simp] theorem registry_conclude (now id : String) (outcome : RunOutcome) (w : Workshop) :
    (w.conclude now id outcome).registry = w.registry.change id (Job.concluded now outcome) := by
  cases outcome <;> rfl

/-! ## What a run changes -/

/-- A beginning does not change what any job was requested for. -/
@[simp] theorem request?_begin (now id i : String) (w : Workshop) :
    (w.begin now id).request? i = w.request? i := by
  rw [request?, registry_begin, Registry.record?_change _ _ _ (Job.id_begun now), Option.map_map,
    request?]
  refine Option.map_congr fun j _ => ?_
  simp only [Function.comp_apply]
  split <;> rfl

/-- An end does not change what any job was requested for. -/
@[simp] theorem request?_conclude (now id i : String) (outcome : RunOutcome) (w : Workshop) :
    (w.conclude now id outcome).request? i = w.request? i := by
  rw [request?, registry_conclude, Registry.record?_change _ _ _ (Job.id_concluded now outcome),
    Option.map_map, request?]
  refine Option.map_congr fun j _ => ?_
  simp only [Function.comp_apply]
  split
  · exact Job.request_concluded now outcome j
  · rfl

@[simp] theorem request?_ran (now id i : String) (outcome : RunOutcome) (w : Workshop) :
    (w.ran now id outcome).request? i = w.request? i := by
  rw [ran, request?_conclude, request?_begin]

/-- An end without a model leaves the store and the disk as they are. -/
theorem store_conclude {outcome : RunOutcome} (h : outcome.model? = none) (now id : String)
    (w : Workshop) : (w.conclude now id outcome).store = w.store ∧
      (w.conclude now id outcome).disk = w.disk := by
  cases outcome with
  | installed b => cases h
  | unkept b => cases h
  | stopped s => exact ⟨rfl, rfl⟩
  | interrupted i => exact ⟨rfl, rfl⟩

/-- The model of an end that installs one is current. -/
theorem current_conclude (now id : String) (outcome : RunOutcome) (w : Workshop) :
    (w.conclude now id outcome).store.current = outcome.model?.or w.store.current := by
  cases outcome <;> rfl

/-- What a model made current comes to is the same before and after a run that is over. -/
theorem inStore_ran (now id : String) (outcome o : RunOutcome) (w : Workshop) :
    o.inStore (w.ran now id outcome).store (w.ran now id outcome).disk =
      o.inStore w.store w.disk := by
  cases outcome with
  | installed b | unkept b => exact RunOutcome.inStore_replace w.store b true w.disk o
  | stopped | interrupted => rfl

/-- Steps of runs of different jobs commute. -/
theorem begin_comm {a b : String} (h : a ≠ b) (t u : String) (w : Workshop) :
    (w.begin t a).begin u b = (w.begin u b).begin t a := by
  simp only [begin, Registry.change_comm w.registry h (Job.id_begun t) (Job.id_begun u)]

theorem conclude_begin {a b : String} (h : a ≠ b) (t now : String) (outcome : RunOutcome)
    (w : Workshop) :
    (w.begin t a).conclude now b outcome = (w.conclude now b outcome).begin t a := by
  have hcomm := Registry.change_comm w.registry h (Job.id_begun t) (Job.id_concluded now outcome)
  cases outcome <;> simp only [conclude, begin, hcomm]

/-- A run is over in the same way whenever it began. -/
theorem conclude_begin_self (t now id : String) (outcome : RunOutcome) (w : Workshop) :
    (w.begin t id).conclude now id outcome = w.ran now id outcome := by
  have hchange : (w.registry.change id (Job.begun t)).change id (Job.concluded now outcome) =
      (w.registry.change id (Job.begun now)).change id (Job.concluded now outcome) := by
    rw [Registry.change_change _ _ (Job.id_begun t), Registry.change_change _ _ (Job.id_begun now)]
    refine congrArg _ (funext fun j => ?_)
    exact Job.concluded_begun now t now outcome j
  cases outcome <;> simp only [ran, conclude, begin, hchange]

theorem ran_begin {a b : String} (h : a ≠ b) (t now : String) (outcome : RunOutcome)
    (w : Workshop) : (w.begin t a).ran now b outcome = (w.ran now b outcome).begin t a := by
  rw [ran, begin_comm h, conclude_begin h, ran]

/-! ## The halves of a run -/

/-- The first half of a run is a beginning, and the end as well if the input is refused. -/
theorem start_eq (settings : Settings) (now : String) (h : w.request? id = some q) :
    w.start settings now id = match Generation.request settings q.prompt q.model with
      | .ok r => (w.begin now id, some (.ok r))
      | .error f => (w.ran now id (.ofRefusal f), some (.error (.ofRefusal f))) := by
  obtain ⟨j, hj, rfl⟩ := Option.map_eq_some_iff.1 h
  have hrecord : (w.begin now id).registry.record? id = some (j.begun now) := by
    rw [registry_begin, Registry.record?_change_self _ _ (Job.id_begun now), hj, Option.map_some]
  rw [begin] at hrecord
  simp only [start, hrecord, Job.request_begun]
  split <;> simp_all [begin, ran]

/-- A run comes to nothing if there is no record of its job. -/
theorem start_eq_none (settings : Settings) (now : String) (h : w.request? id = none) :
    w.start settings now id = (w.begin now id, none) := by
  have hrecord : (w.begin now id).registry.record? id = none := by
    rw [registry_begin, Registry.record?_change_self _ _ (Job.id_begun now),
      Option.map_eq_none_iff.1 h, Option.map_none]
  rw [begin] at hrecord
  simp only [start, hrecord, begin]

/-- What a run comes to depends on what was requested and on where its model is kept alone. -/
theorem run_eq (i : RunInput) (now : String) (h : w.request? id = some q) :
    ∃ requests, w.run i.settings i.freshId now id i.respond =
      (w.ran now id (i.outcome w q), requests, some (i.outcome w q)) := by
  rw [run, start_eq i.settings now h, RunInput.outcome]
  cases Generation.request i.settings q.prompt q.model with
  | ok r => exact ⟨[r], rfl⟩
  | error f => exact ⟨[], rfl⟩

/-- A run does not change what any job was requested for. -/
theorem request?_run (inp : RunInput) (now id i : String) (w : Workshop) :
    (w.run inp.settings inp.freshId now id inp.respond).1.request? i = w.request? i := by
  cases h : w.request? id with
  | none => rw [run, start_eq_none inp.settings now h, request?_begin]
  | some q =>
    obtain ⟨requests, hrun⟩ := run_eq inp now h
    rw [hrun, request?_ran]

/-- What a run comes to is the same where every model made current comes to the same. -/
theorem outcome_congr {w w' : Workshop}
    (h : ∀ o : RunOutcome, o.inStore w.store w.disk = o.inStore w'.store w'.disk) (i : RunInput)
    (q : JobRequest) : i.outcome w q = i.outcome w' q := by
  unfold RunInput.outcome
  split
  · rfl
  · exact h _

/-- What a model made current comes to is the same before and after a run. -/
theorem inStore_run (inp : RunInput) (now id : String) (o : RunOutcome) (w : Workshop) :
    o.inStore (w.run inp.settings inp.freshId now id inp.respond).1.store
        (w.run inp.settings inp.freshId now id inp.respond).1.disk =
      o.inStore w.store w.disk := by
  cases h : w.request? id with
  | none => rw [run, start_eq_none inp.settings now h, begin]
  | some q =>
    obtain ⟨requests, hrun⟩ := run_eq inp now h
    rw [hrun, inStore_ran]

/-! ## The record of a run -/

theorem record?_ran_self (now id : String) (outcome : RunOutcome) (w : Workshop) :
    (w.ran now id outcome).registry.record? id =
      (w.registry.record? id).map fun j => (j.begun now).concluded now outcome := by
  rw [ran, registry_conclude, Registry.record?_change_self _ _ (Job.id_concluded now outcome),
    registry_begin, Registry.record?_change_self _ _ (Job.id_begun now), Option.map_map]
  rfl

theorem record?_begin_of_ne {i : String} (h : id ≠ i) (now : String) (w : Workshop) :
    (w.begin now id).registry.record? i = w.registry.record? i := by
  rw [registry_begin, Registry.record?_change_of_ne _ h (Job.id_begun now)]

theorem record?_ran_of_ne {i : String} (h : id ≠ i) (now : String) (outcome : RunOutcome)
    (w : Workshop) : (w.ran now id outcome).registry.record? i = w.registry.record? i := by
  rw [ran, registry_conclude, Registry.record?_change_of_ne _ h (Job.id_concluded now outcome),
    record?_begin_of_ne h]

end Workshop

end Nanoservice
