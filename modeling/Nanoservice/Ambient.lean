/-!
# What comes from outside

A run takes a few texts from its surroundings: fresh identities and what the clock shows.
-/

namespace Nanoservice

/-- Fresh identities and the time. -/
structure Ambient where
  /-- The identity of a model that states none. -/
  modelId : String
  /-- The identity of the job that is created after so many others. -/
  jobId : Nat → String
  /-- The moment, as records show it. -/
  now : String
  /-- The day, as pages show it. -/
  date : String

end Nanoservice
