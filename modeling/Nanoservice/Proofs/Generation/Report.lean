import Nanoservice.Generation.Report
import Nanoservice.Proofs.Generation.Assembly

/-!
# Coherence of reports

A report of a generation is put together from what arises in four places: on checking the input, at
the completion service, on decoding the reply and on validating the candidate. `report_coherent`
says that its fields belong together all the same, whatever the generation was given and whatever
became of its request, and when the service is asked at all. It rests on one fact for the failures
of each place: those in front of the validation never tell of it, and they tell of the input exactly
when the input is to blame (`Failure.IsOfTranslation`). The report says neither more nor less than
the result that a generation comes to (`report_eq`).
-/

namespace Nanoservice

variable {settings : Settings} {prompt : RawText} {freshId : String} {override : Option RawText}
  {respond : CompletionRequest → Completion} {f : Failure}

/-! ## Where failures arise -/

/-- A failure arose on checking the input, and the input is to blame, or it arose behind that check
and in front of the validation, and the input is not to blame. -/
def Failure.IsOfTranslation (f : Failure) : Prop :=
  f.stage = .checkInput ∧ f.kind = .input ∨ f.stage = .translate ∧ f.kind ≠ .input

namespace Failure.IsOfTranslation

theorem stage_ne (h : f.IsOfTranslation) : f.stage ≠ .validate := by
  rcases h with ⟨hstage, -⟩ | ⟨hstage, -⟩ <;> rw [hstage] <;> exact Stage.noConfusion

theorem stage_eq_checkInput_iff (h : f.IsOfTranslation) :
    f.stage = .checkInput ↔ f.kind = .input := by
  rcases h with ⟨hstage, hkind⟩ | ⟨hstage, hkind⟩
  · exact ⟨fun _ => hkind, fun _ => hstage⟩
  · rw [hstage]
    exact ⟨fun h => Stage.noConfusion h, fun h => absurd h hkind⟩

end Failure.IsOfTranslation

theorem Prompt.isOfTranslation_inputFailure {given : Option RawText} {apiKey : Option String}
    (h : Prompt.inputFailure? given apiKey = some f) : f.IsOfTranslation := by
  unfold Prompt.inputFailure? at h
  split at h
  · cases h
    exact .inl ⟨rfl, rfl⟩
  · split at h
    · cases h
      exact .inl ⟨rfl, rfl⟩
    · cases h

theorem Reply.isOfTranslation_decode {text : String} (h : Reply.decode text = .ok (.error f)) :
    f.IsOfTranslation := by
  unfold Reply.decode at h
  split at h
  · cases h
    exact .inr ⟨rfl, FailureKind.noConfusion⟩
  · cases h
  · split at h
    · cases h
    · cases h
      exact .inr ⟨rfl, FailureKind.noConfusion⟩

namespace Generation

theorem isOfTranslation_candidate {c : Completion} (h : candidate c = .ok (.error f)) :
    f.IsOfTranslation := by
  cases c with
  | reply text => exact Reply.isOfTranslation_decode h
  | failure m =>
    cases h
    exact .inr ⟨rfl, FailureKind.noConfusion⟩
  | crash m => cases h

theorem isOfTranslation_request (h : request settings prompt override = .error f) :
    f.IsOfTranslation := by
  unfold request at h
  split at h
  · next g hg =>
    cases h
    exact Prompt.isOfTranslation_inputFailure hg
  · cases h

theorem isOfTranslation_translate
    (h : (translate settings prompt override respond).2 = .ok (.error f)) :
    f.IsOfTranslation := by
  unfold translate at h
  split at h
  · next g hg =>
    cases h
    exact isOfTranslation_request hg
  · exact isOfTranslation_candidate h

end Generation

/-- The codes of failures that arise on validating a candidate. -/
def Refusal.codes : List FailureCode :=
  [.invalidShape, .duplicateName, .danglingNodeReference, .invalidEndpoint, .invalidModel]

theorem Refusal.code_mem_codes (r : Refusal) : r.code ∈ codes := by
  cases r <;> simp [code, codes]

/-! ## Coherence -/

namespace Report

/-- The fields of a generation's report belong together, given the identity of its model and the
report of its translation. -/
structure IsCoherent (freshId : String) (t : TranslationReport) (r : Report) : Prop where
  /-- A success comes with a model and with nothing that tells of a failure. -/
  success : r.ok = true → (∃ b, r.model = some b) ∧ r.failure = none ∧ r.failedStage = none
  /-- A failure comes without a model; its wording is the report's, and a stage is stated. -/
  failed : r.ok = false → r.model = none ∧
    (∃ f, r.failure = some f ∧ f.message = r.message) ∧ ∃ s, r.failedStage = some s
  /-- A generation stops at the validation exactly when its failure arose there. -/
  validated : ∀ f, r.failure = some f → (r.failedStage = some .validate ↔ f.stage = .validate)
  /-- The failures of the validation have five codes. -/
  codes : ∀ f, r.failure = some f → r.failedStage = some .validate → f.code ∈ Refusal.codes
  /-- Any other failure is that of the translation, and arose on checking the input exactly when
  the input is to blame. -/
  forwarded : ∀ f, r.failure = some f → r.failedStage ≠ some .validate →
    r.failedStage = some .translate ∧ t.failure = some f ∧
      (f.stage = .checkInput ↔ f.kind = .input)
  /-- A candidate that the translation came to is validated, and the outcome is reported. -/
  checked : ∀ raw, t.raw = some raw →
    (∀ b, Candidate.validate freshId raw = .ok b → r.model = some b) ∧
    ∀ e, Candidate.validate freshId raw = .error e →
      r.failure = some ⟨e.code, e.reason, .validate⟩

variable {t : TranslationReport} {raw : Json}

theorem isCoherent_made (message : String) {b : Backend} (hraw : t.raw = some raw)
    (hvalid : Candidate.validate freshId raw = .ok b) :
    IsCoherent freshId t { ok := true, message, model := some b } := by
  constructor
  case success =>
    intro _
    exact ⟨⟨b, rfl⟩, rfl, rfl⟩
  case failed =>
    intro h
    cases h
  case validated | codes | forwarded =>
    intro f hf
    cases hf
  case checked =>
    intro raw' hraw'
    obtain rfl := Option.some.inj (hraw.symm.trans hraw')
    rw [hvalid]
    constructor
    · intro b' hb
      rw [Except.ok.inj hb]
    · intro e he
      cases he

theorem isCoherent_refused {e : Refusal} (hraw : t.raw = some raw)
    (hvalid : Candidate.validate freshId raw = .error e) :
    IsCoherent freshId t
      { ok := false
        message := e.reason
        failure := some ⟨e.code, e.reason, .validate⟩
        failedStage := some .validate } := by
  constructor
  case success =>
    intro h
    cases h
  case failed =>
    intro _
    exact ⟨rfl, ⟨_, rfl, rfl⟩, _, rfl⟩
  case validated =>
    intro f hf
    cases hf
    exact ⟨fun _ => rfl, fun _ => rfl⟩
  case codes =>
    intro f hf _
    cases hf
    exact e.code_mem_codes
  case forwarded =>
    intro f _ hstage
    exact absurd rfl hstage
  case checked =>
    intro raw' hraw'
    obtain rfl := Option.some.inj (hraw.symm.trans hraw')
    rw [hvalid]
    constructor
    · intro b hb
      cases hb
    · intro e' he
      rw [Except.error.inj he]

theorem isCoherent_forwarded (hf : f.IsOfTranslation) :
    IsCoherent freshId (.ofResult (.error f))
      { ok := false, message := f.message, failure := some f, failedStage := some .translate } := by
  constructor
  case success =>
    intro h
    cases h
  case failed =>
    intro _
    exact ⟨rfl, ⟨f, rfl, rfl⟩, _, rfl⟩
  case validated =>
    intro g hg
    cases hg
    exact ⟨fun h => (by cases h), fun h => absurd h hf.stage_ne⟩
  case codes =>
    intro g _ hstage
    cases hstage
  case forwarded =>
    intro g hg _
    cases hg
    exact ⟨rfl, rfl, hf.stage_eq_checkInput_iff⟩
  case checked =>
    intro raw hraw
    cases hraw

/-- The report of a generation is coherent if the failure that its translation reports, if any, is
one that arises there. -/
theorem isCoherent_ofTranslation (freshId : String) {x : Except Failure Json}
    (hx : ∀ f, x = .error f → f.IsOfTranslation) :
    IsCoherent freshId (.ofResult x) (ofTranslation freshId (.ofResult x)) := by
  cases x with
  | error f => exact isCoherent_forwarded (hx f rfl)
  | ok raw =>
    simp only [ofTranslation, TranslationReport.ofResult, if_true, Option.getD_some]
    cases hvalid : Candidate.validate freshId raw with
    | ok b => exact isCoherent_made _ rfl hvalid
    | error e => exact isCoherent_refused rfl hvalid

/-- The report of a generation's result. -/
def ofResult : Except Stop Backend → Report
  | .ok b => { ok := true, message := Generation.successMessage b, model := some b }
  | .error s =>
    { ok := false
      message := s.failure.message
      failure := some s.failure
      failedStage := some s.stage }

end Report

namespace Generation

/-- A generation reports its result. -/
theorem report_eq (freshId : String) (settings : Settings) (prompt : RawText)
    (override : Option RawText) (respond : CompletionRequest → Completion) :
    report freshId settings prompt override respond =
      ((assemble freshId settings prompt override respond).1,
        (assemble freshId settings prompt override respond).2.map .ofResult) := by
  have hmap (x : Except Failure Json) :
      Report.ofTranslation freshId (.ofResult x) = .ofResult (validated freshId x) := by
    cases x with
    | error f => rfl
    | ok raw =>
      rw [validated, Report.ofTranslation, TranslationReport.ofResult, Option.getD_some]
      cases Candidate.validate freshId raw <;> rfl
  rw [report, translationReport, assemble]
  obtain ⟨requests, outcome⟩ := translate settings prompt override respond
  cases outcome with
  | error i => rfl
  | ok x => simp only [Except.map, hmap]

/-! ## Asking -/

/-- There is a prompt and a credential, and neither is blank. -/
def IsPosed (settings : Settings) (prompt : RawText) : Prop :=
  prompt.isBlank = false ∧
    ∃ key, settings.apiKey = some key ∧ Text.isBlankText key = false

theorem inputFailure?_eq_none_iff :
    Prompt.inputFailure? (some prompt) settings.apiKey = none ↔ IsPosed settings prompt := by
  cases hprompt : prompt.isBlank with
  | true => simp [Prompt.inputFailure?, IsPosed, hprompt]
  | false =>
    cases hkey : settings.apiKey with
    | none =>
      have hnone : Text.isBlankText "" = true := rfl
      simp [Prompt.inputFailure?, IsPosed, hprompt, hkey, hnone]
    | some key => simp [Prompt.inputFailure?, IsPosed, hprompt, hkey]

/-- The service is asked once if there is a prompt and a credential, for the prompt without its
blank margins and for the model of the settings unless there is another, and else never. -/
structure Asks (settings : Settings) (prompt : RawText) (override : Option RawText)
    (requests : List CompletionRequest) : Prop where
  once : IsPosed settings prompt → ∃ r, requests = [r] ∧
    r.messages = [⟨"system", Prompt.instructions⟩, ⟨"user", prompt.trim⟩] ∧
    (∀ m, override = some m → m.isEmpty = false → r.model = m) ∧
    ((∀ m, override = some m → m.isEmpty = true) → r.model = settings.model)
  never : ¬ IsPosed settings prompt → requests = []

theorem asks_translate :
    Asks settings prompt override (translate settings prompt override respond).1 := by
  cases hinput : Prompt.inputFailure? (some prompt) settings.apiKey with
  | none =>
    have hposed := inputFailure?_eq_none_iff.1 hinput
    have hmodel : (∀ m, override = some m → m.isEmpty = false → modelName settings override = m) ∧
        ((∀ m, override = some m → m.isEmpty = true) →
          modelName settings override = settings.model) := by
      constructor
      · rintro m rfl hm
        simp [modelName, hm]
      · intro hempty
        cases override with
        | none => rfl
        | some m => simp [modelName, hempty m rfl]
    constructor
    case once =>
      intro _
      simp only [translate, request, hinput]
      exact ⟨_, rfl, rfl, hmodel⟩
    case never => exact fun h => absurd hposed h
  | some f =>
    constructor
    case once =>
      intro hposed
      rw [inputFailure?_eq_none_iff.2 hposed] at hinput
      cases hinput
    case never =>
      intro _
      simp only [translate, request, hinput]

/-! ## The law of a report -/

/-- Every report of a generation is coherent, whatever became of its request, and the service is
asked once or never. -/
theorem report_coherent (freshId : String) (settings : Settings) (prompt : RawText)
    (override : Option RawText) (respond : CompletionRequest → Completion) :
    Asks settings prompt override (report freshId settings prompt override respond).1 ∧
      ∀ r, (report freshId settings prompt override respond).2 = .ok r →
        ∃ t, (translationReport settings prompt override respond).2 = .ok t ∧
          Report.IsCoherent freshId t r := by
  refine ⟨asks_translate, fun r hr => ?_⟩
  have hstage := @isOfTranslation_translate settings prompt override respond
  rw [report, translationReport] at hr
  rw [translationReport]
  generalize translate settings prompt override respond = translated at hr hstage ⊢
  obtain ⟨requests, outcome⟩ := translated
  cases outcome with
  | error i => cases hr
  | ok x =>
    cases hr
    have hx : ∀ f, x = .error f → f.IsOfTranslation := by
      rintro f rfl
      exact hstage rfl
    exact ⟨_, rfl, Report.isCoherent_ofTranslation freshId hx⟩

/-- A reply whose name is a number is decoded and then refused by the validation. -/
theorem report_coherent_numeral :
    ∃ r t, (report "0" { apiKey := some "key" } " shop " (some "") fun _ =>
        .reply "\x7b\"name\":7,\"workflows\":[]\x7d").2 = .ok r ∧
      r.failedStage = some .validate ∧ t.failure = none ∧ Report.IsCoherent "0" t r := by
  have hposed : Prompt.inputFailure? (some " shop ") (some "key") = none := by decide
  obtain ⟨requests, htranslate⟩ : ∃ requests,
      translate { apiKey := some "key" } " shop " (some "")
        (fun _ => .reply "\x7b\"name\":7,\"workflows\":[]\x7d") =
      (requests, .ok (.ok (.obj [("name", .int 7), ("workflows", .arr [])]))) := by
    simp only [translate, request, hposed, candidate, Reply.decode, Reply.read_numeral]
    exact ⟨_, rfl⟩
  have hreport : (report "0" { apiKey := some "key" } " shop " (some "") fun _ =>
      .reply "\x7b\"name\":7,\"workflows\":[]\x7d").2 =
        .ok (.ofTranslation "0"
          (.ofResult (.ok (.obj [("name", .int 7), ("workflows", .arr [])])))) := by
    rw [report, translationReport, htranslate]
    rfl
  obtain ⟨t, ht, hcoherent⟩ := (report_coherent "0" { apiKey := some "key" } " shop " (some "")
    fun _ => .reply "\x7b\"name\":7,\"workflows\":[]\x7d").2 _ hreport
  rw [translationReport, htranslate] at ht
  obtain rfl := Except.ok.inj ht
  exact ⟨_, _, hreport, rfl, rfl, hcoherent⟩

end Generation

end Nanoservice
