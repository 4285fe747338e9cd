import Nanoservice.Generation.Assembly

/-!
# Reports of a generation

What a translation and a whole generation report to their caller: whether they came to something,
a wording of it, and fields for what they came to or for what went wrong. The fields are set one by
one where a generation ends, and that they belong together is not part of their type. A generation
reads nothing of a translation but its report.
-/

namespace Nanoservice

/-- What a translation reports. -/
structure TranslationReport where
  ok : Bool
  message : RawText
  raw : Option Json := none
  failure : Option Failure := none

namespace TranslationReport

/-- The report of a candidate or of a failure. -/
def ofResult : Except Failure Json → TranslationReport
  | .ok raw => { ok := true, message := "Successfully parsed prompt", raw := some raw }
  | .error f => { ok := false, message := f.message, failure := some f }

end TranslationReport

/-- What a generation reports; a failure keeps the stage where it arose, and `failedStage` is the
stage at which the generation stopped. -/
structure Report where
  ok : Bool
  message : RawText
  model : Option Backend := none
  failure : Option Failure := none
  failedStage : Option Stage := none

namespace Report

/-- The report of a generation whose translation is over. -/
def ofTranslation (freshId : String) (t : TranslationReport) : Report :=
  if t.ok then
    match Candidate.validate freshId (t.raw.getD .null) with
    | .ok b => { ok := true, message := Generation.successMessage b, model := some b }
    | .error r =>
      { ok := false
        message := r.reason
        failure := some ⟨r.code, r.reason, .validate⟩
        failedStage := some .validate }
  else
    { ok := false
      message := t.message
      failure := t.failure
      failedStage := some .translate }

end Report

namespace Generation

/-- The report of a translation, with the requests made on the way. -/
def translationReport (settings : Settings) (prompt : RawText) (override : Option RawText)
    (respond : CompletionRequest → Completion) :
    List CompletionRequest × Except Interruption TranslationReport :=
  let (requests, outcome) := translate settings prompt override respond
  (requests, outcome.map .ofResult)

/-- The report of a generation, with the requests made on the way. -/
def report (freshId : String) (settings : Settings) (prompt : RawText) (override : Option RawText)
    (respond : CompletionRequest → Completion) :
    List CompletionRequest × Except Interruption Report :=
  let (requests, outcome) := translationReport settings prompt override respond
  (requests, outcome.map (.ofTranslation freshId))

end Generation

end Nanoservice
