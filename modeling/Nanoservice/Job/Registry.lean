import Nanoservice.Job.Basic

/-!
# The registry of jobs

The registry keeps the records of jobs in order of their creation, up to a limit. When a new record
exceeds the limit, the oldest records of finished jobs are dropped, as many as there are too many
or as there are finished ones; jobs that are not finished always stay. A dropped record is found no
more, but whoever still works on its job goes on writing to it.
-/

namespace Nanoservice

/-- The records of jobs: those that can be found, and those that were dropped. -/
structure Registry where
  limit : Int
  held : List Job := []
  dropped : List Job := []

namespace Registry

/-- Splits off the first `n` finished jobs of a list: those that stay, and those split off. -/
def splitFinished : (n : Nat) → List Job → List Job × List Job
  | 0, js => (js, [])
  | _, [] => ([], [])
  | n + 1, j :: js =>
    if j.isFinished then
      let (stay, off) := splitFinished n js
      (stay, j :: off)
    else
      let (stay, off) := splitFinished (n + 1) js
      (j :: stay, off)

/-- The number of records above the limit. -/
def excess (limit : Int) (held : List Job) : Nat :=
  (held.length - limit).toNat

/-- The registry with a new record at the end. -/
def add (r : Registry) (j : Job) : Registry :=
  let held := r.held ++ [j]
  let (stay, off) := splitFinished (excess r.limit held) held
  ⟨r.limit, stay, r.dropped ++ off⟩

/-- The number of records that were ever added. -/
def count (r : Registry) : Nat :=
  r.held.length + r.dropped.length

/-- The record of an identity that can be found. -/
def find? (r : Registry) (id : String) : Option Job :=
  r.held.find? fun j => j.id == id

/-- The record of an identity, a dropped one too. -/
def record? (r : Registry) (id : String) : Option Job :=
  (r.find? id).or (r.dropped.find? fun j => j.id == id)

/-- Changes the record of an identity. -/
def change (r : Registry) (id : String) (f : Job → Job) : Registry :=
  let g := fun j => if j.id = id then f j else j
  ⟨r.limit, r.held.map g, r.dropped.map g⟩

end Registry

end Nanoservice
