import Nanoservice.Generation.Assembly
import Nanoservice.Job.Registry
import Nanoservice.ModelStore

/-!
# Running jobs

A run has two halves around its completion. The first marks the job as running and comes to a
completion request, unless the input is refused. The second records on the job what the completion
led to and, if that is a model, makes the model current. An interruption is recorded as well,
without a failure code. A run breaks off itself only when keeping its model does; the job is then
left where it was, still running.

Runs of several jobs may overlap in any way, as a run touches no more than its own record and the
current model.
-/

namespace Nanoservice

/-- What a run came to. -/
inductive RunOutcome where
  | installed (b : Backend)
  /-- The model is current, but keeping it broke off, and the run with it. -/
  | unkept (b : Backend)
  | stopped (s : Stop)
  | interrupted (i : Interruption)

namespace RunOutcome

/-- A run ended with its model installed. -/
def ok : RunOutcome → Bool
  | .installed _ => true
  | _ => false

/-- The wording of what a run came to. -/
def message : RunOutcome → RawText
  | .installed b | .unkept b => Generation.successMessage b
  | .stopped s => s.failure.message
  | .interrupted i => .plain "Generation failed: " ++ i.message

/-- What a completion leads to. -/
def ofCompletion (freshId : String) (c : Completion) : RunOutcome :=
  match Generation.conclude freshId c with
  | .error i => .interrupted i
  | .ok (.error s) => .stopped s
  | .ok (.ok b) => .installed b

/-- What a run comes to when its model is made current in a store. -/
def inStore (s : ModelStore) (d : Disk) : RunOutcome → RunOutcome
  | .installed b => if s.breaksOff b d then .unkept b else .installed b
  | o => o

/-- What refused input leads to. -/
def ofRefusal (f : Failure) : RunOutcome :=
  .stopped ⟨f, .translate⟩

end RunOutcome

namespace Job

/-- The record of a job whose run has begun. -/
def begun (now : String) (j : Job) : Job :=
  { j with stage := .translate, status := .running, updatedAt := now }

/-- The record of a job whose run is over. -/
def concluded (now : String) (outcome : RunOutcome) (j : Job) : Job :=
  match outcome with
  | .installed b =>
    { j with stage := .done, status := .done, backendId := some b.id, backendName := some b.name,
             updatedAt := now }
  | .unkept _ => { j with stage := .install, updatedAt := now }
  | .stopped s =>
    { j with stage := .failed, status := .failed, errorCode := some s.failure.code,
             errorMessage := some s.failure.message, updatedAt := now }
  | .interrupted i =>
    { j with stage := .failed, status := .failed, errorMessage := some i.message,
             updatedAt := now }

end Job

/-- The records of jobs, the current model, and the disk that keeps it. -/
structure Workshop where
  registry : Registry
  store : ModelStore
  disk : Disk := {}

namespace Workshop

/-- Records the end of a run and makes its model current. -/
def conclude (now id : String) (outcome : RunOutcome) (w : Workshop) : Workshop :=
  let registry := w.registry.change id (Job.concluded now outcome)
  match outcome with
  | .installed b | .unkept b =>
    let (store, disk) := w.store.replace b true w.disk
    ⟨registry, store, disk⟩
  | _ => ⟨registry, w.store, w.disk⟩

/-- The first half of a run: the completion request, or what the run came to without one. -/
def start (settings : Settings) (now id : String) (w : Workshop) :
    Workshop × Option (Except RunOutcome CompletionRequest) :=
  let w := { w with registry := w.registry.change id (Job.begun now) }
  match w.registry.record? id with
  | none => (w, none)
  | some j =>
    match Generation.request settings j.request.prompt j.request.model with
    | .ok r => (w, some (.ok r))
    | .error f =>
      let outcome := RunOutcome.ofRefusal f
      (w.conclude now id outcome, some (.error outcome))

/-- The second half of a run. -/
def finish (freshId now id : String) (c : Completion) (w : Workshop) : Workshop × RunOutcome :=
  let outcome := (RunOutcome.ofCompletion freshId c).inStore w.store w.disk
  (w.conclude now id outcome, outcome)

/-- A whole run, with the completion request that it made. -/
def run (settings : Settings) (freshId now id : String)
    (respond : CompletionRequest → Completion) (w : Workshop) :
    Workshop × List CompletionRequest × Option RunOutcome :=
  match w.start settings now id with
  | (w, none) => (w, [], none)
  | (w, some (.error outcome)) => (w, [], some outcome)
  | (w, some (.ok r)) =>
    let (w, outcome) := w.finish freshId now id (respond r)
    (w, [r], some outcome)

end Workshop

end Nanoservice
