import Nanoservice.Backend.Basic
import Nanoservice.Generation.Failure

/-!
# Generation jobs

The record of a requested generation: what was asked for, how far it has come and what it led to. A
status can also be set from outside, to any name.
-/

namespace Nanoservice

/-- The status of a job. -/
inductive JobStatus where
  | queued
  | running
  | done
  | failed
  /-- A status of another name. -/
  | other (name : String)
  deriving DecidableEq, Repr

namespace JobStatus

/-- The name of a status. -/
def name : JobStatus → String
  | .queued => "QUEUED"
  | .running => "RUNNING"
  | .done => "DONE"
  | .failed => "FAILED"
  | .other s => s

/-- The status of a name. -/
def ofName (s : String) : JobStatus :=
  match s with
  | "QUEUED" => .queued
  | "RUNNING" => .running
  | "DONE" => .done
  | "FAILED" => .failed
  | _ => .other s

/-- A job of this status is over. -/
def isFinished : JobStatus → Bool
  | .done | .failed => true
  | _ => false

end JobStatus

/-- What a generation is asked for. -/
structure JobRequest where
  prompt : RawText
  model : Option RawText := none
  identity : Option RawText := none
  deriving DecidableEq, Repr

/-- The record of a generation. -/
structure Job where
  id : String
  request : JobRequest
  createdAt : String
  updatedAt : String
  stage : Stage := .checkInput
  status : JobStatus := .queued
  errorCode : Option FailureCode := none
  errorMessage : Option RawText := none
  backendId : Option RawText := none
  backendName : Option String := none
  deriving DecidableEq, Repr

namespace Job

/-- The record of a generation that was just requested. -/
def queued (id now : String) (request : JobRequest) : Job :=
  { id, request, createdAt := now, updatedAt := now }

/-- The job is over. -/
def isFinished (j : Job) : Bool :=
  j.status.isFinished

end Job

end Nanoservice
