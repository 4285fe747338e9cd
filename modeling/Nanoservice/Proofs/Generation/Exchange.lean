import Nanoservice.Proofs.Generation.Completion

/-!
# Exchanges with the chat service

A completion request is one POST to the resource below the base of the service, and what becomes of
it is up to the answer (`ChatClient.isExchange_complete`). A text is returned exactly for an answer
of success whose envelope has a content at the end of four subscripts (`ChatAnswer.value_eq_ok`).
Whatever else the envelope is, the subscript that finds nothing ends in a failure, as any other
answer does (`ChatAnswer.completion_eq_error`). A header carries ASCII only, and a body no special
number and no half of a surrogate pair, so a request with any of these is not sent, which is a
failure too.
-/

namespace Nanoservice

open Text (isBlank isBlankText Trimmed)

/-! ## Fences -/

namespace Fence

/-- No margins are left of a text without margins before its closing fence. -/
theorem trimmed_beforeClosing {cs : List Char} (h : Trimmed isBlank cs) :
    Trimmed isBlank (beforeClosing cs) := by
  unfold beforeClosing
  split
  · refine ⟨fun c hc => h.1 c ?_, fun c hc => Text.getLast?_dropEndWhile hc⟩
    have hhead := Text.head?_dropEndWhile hc
    rw [← List.take_append_drop (cs.length - 3) cs, List.head?_append, Option.mem_def.1 hhead]
    rfl
  · exact h

/-- A text without its fence has no margins. -/
theorem trimmed_strip (s : String) : Trimmed isBlank (strip s).toList := by
  rw [strip, String.toList_ofList]
  exact trimmed_beforeClosing (Text.trimChars_trimmed isBlank _)

end Fence

/-! ## Subscripts -/

namespace Json

variable {v w : Json} {key : String} {fields : List (RawText × Json)}

/-- A text finds the values of objects only. -/
theorem atKey_eq_ok :
    v.atKey key = .ok w ↔ ∃ fields, v = .obj fields ∧ fields.lookup (.plain key) = some w := by
  cases v
  case obj fields =>
    rw [atKey]
    cases hlookup : fields.lookup (.plain key) <;> simp [hlookup]
  all_goals simp [atKey]

/-- A text is no object. -/
theorem ofText_ne_obj (t : RawText) : ofText t ≠ .obj fields := by
  cases t <;> exact nofun

/-- Zero finds an object in an array only. -/
theorem atZero_eq_ok_obj :
    v.atZero = .ok (.obj fields) ↔ ∃ rest, v = .arr (.obj fields :: rest) := by
  cases v
  case arr items => cases items <;> simp [atZero]
  case str s =>
    rw [atZero]
    cases s.toList <;> simp
  case broken symbols => cases symbols <;> simp [atZero, ofText_ne_obj]
  all_goals simp [atZero]

end Json

/-! ## Envelopes -/

/-- A value that is a text. -/
inductive Json.IsText : Json → RawText → Prop
  | str (s : String) : IsText (.str s) (.plain s)
  | broken (symbols : List Symbol) : IsText (.broken symbols) (.broken symbols)

theorem Json.rawText?_eq_some {v : Json} {t : RawText} : v.rawText? = some t ↔ v.IsText t := by
  constructor
  · intro h
    cases v with
    | str s => exact Option.some.inj h ▸ .str s
    | broken symbols => exact Option.some.inj h ▸ .broken symbols
    | null | bool | int | float | arr | obj => cases h
  · intro h
    cases h <;> rfl

namespace ChatAnswer

/-- An envelope with a value where a completion stands: an object whose choices are an array that is
not empty, and whose first choice is an object whose message is an object with the value for its
content. -/
def IsEnvelope (envelope v : Json) : Prop :=
  ∃ fields first choices message, envelope = .obj fields ∧
    fields.lookup (.plain "choices") = some (.arr (.obj first :: choices)) ∧
    first.lookup (.plain "message") = some (.obj message) ∧
    message.lookup (.plain "content") = some v

variable {envelope v : Json} {content : RawText}

/-- The four subscripts find the value of an envelope, and nothing in any other JSON. -/
theorem value_eq_ok : value envelope = .ok v ↔ IsEnvelope envelope v := by
  simp only [value, bind_eq_ok, Json.atKey_eq_ok]
  constructor
  · rintro ⟨_, ⟨fields, rfl, hchoices⟩, _, hfirst, _, ⟨first, rfl, hmessage⟩, message, rfl,
      hcontent⟩
    obtain ⟨choices, rfl⟩ := Json.atZero_eq_ok_obj.1 hfirst
    exact ⟨fields, first, choices, message, rfl, hchoices, hmessage, hcontent⟩
  · rintro ⟨fields, first, choices, message, rfl, hchoices, hmessage, hcontent⟩
    exact ⟨_, ⟨fields, rfl, hchoices⟩, _, Json.atZero_eq_ok_obj.2 ⟨choices, rfl⟩, _,
      ⟨first, rfl, hmessage⟩, message, rfl, hcontent⟩

/-- The content of an envelope is a value that is a text. -/
theorem content?_eq_some :
    content? envelope = some content ↔ ∃ v, IsEnvelope envelope v ∧ v.IsText content := by
  simp only [← value_eq_ok, ← Json.rawText?_eq_some, content?]
  cases value envelope <;> simp

/-! ## Outcomes -/

/-- A status of success. -/
def IsSuccess (status : Int) : Prop :=
  200 ≤ status ∧ status < 300

/-- An answer of success, by a body that is JSON and an envelope whose content is a text that is not
blank, gives that text without its fence. -/
def Gives (a : ChatAnswer) (t : RawText) : Prop :=
  ∃ status text envelope v content, a = .response status text ∧ IsSuccess status ∧
    Json.read (withoutMark text) = .ok envelope ∧ IsEnvelope envelope v ∧ v.IsText content ∧
    content.isBlank = false ∧ t = content.withoutFence

/-- What is wrong with an answer that gives no text: there is none, its status is not one of
success, its body is no JSON, or its envelope has no content that is a text and not blank. -/
inductive Lacks : ChatAnswer → ChatFailure → Prop
  | unreachable (m : String) : Lacks (.unreachable m) (.unreachable m)
  | status {status : Int} {text : String} (h : ¬ IsSuccess status) :
    Lacks (.response status text) (.status status)
  | garbledStatus {status : Int} (h : ¬ IsSuccess status) : Lacks (.garbled status) (.status status)
  | garbled {status : Int} (h : IsSuccess status) : Lacks (.garbled status) .notJson
  | notJson {status : Int} {text : String} {fault : Json.Fault} (h : IsSuccess status)
    (hread : Json.read (withoutMark text) = .error fault) : Lacks (.response status text) .notJson
  | noContent {status : Int} {text : String} {envelope : Json} (h : IsSuccess status)
    (hread : Json.read (withoutMark text) = .ok envelope)
    (hcontent : ∀ v content, IsEnvelope envelope v → v.IsText content → content.isBlank = true) :
    Lacks (.response status text) .noContent

theorem isFailure_iff {status : Int} :
    (status < 200 ∨ 300 ≤ status) ↔ ¬ IsSuccess status := by
  unfold IsSuccess
  omega

theorem isSuccess_iff {status : Int} :
    ¬ (status < 200 ∨ 300 ≤ status) ↔ IsSuccess status := by
  rw [isFailure_iff, not_not]

theorem gives_iff {a : ChatAnswer} {t : RawText} :
    a.completion = .ok t ↔ a.Gives t := by
  rw [completion_eq_ok]
  constructor
  · rintro ⟨content, ⟨status, text, envelope, ha, hstatus, hread, hcontent⟩, hblank, ht⟩
    obtain ⟨v, henvelope, htext⟩ := content?_eq_some.1 hcontent
    exact ⟨status, text, envelope, v, content, ha, isSuccess_iff.1 hstatus, hread,
      henvelope, htext, hblank, ht⟩
  · rintro ⟨status, text, envelope, v, content, ha, hstatus, hread, henvelope, htext, hblank, ht⟩
    exact ⟨content, ⟨status, text, envelope, ha, isSuccess_iff.2 hstatus, hread,
      content?_eq_some.2 ⟨v, henvelope, htext⟩⟩, hblank, ht⟩

/-- A content that is not there, or is blank, is no completion. -/
theorem forall_isBlank_iff {envelope : Json} :
    (∀ v content, IsEnvelope envelope v → v.IsText content → content.isBlank = true) ↔
      ∀ content, content? envelope = some content → content.isBlank = true := by
  simp only [content?_eq_some]
  exact ⟨fun h content ⟨v, henvelope, htext⟩ => h v content henvelope htext,
    fun h v content henvelope htext => h content ⟨v, henvelope, htext⟩⟩

/-- An envelope of success fails only for want of content, and when no content of it has text. -/
theorem completion_eq_error_of_read {status : Int} {text : String} {envelope : Json}
    {f : ChatFailure} (hstatus : IsSuccess status)
    (hread : Json.read (withoutMark text) = .ok envelope) :
    (response status text).completion = .error f ↔
      f = .noContent ∧ ∀ content, content? envelope = some content → content.isBlank = true := by
  have hpassed : ¬ (status < 200 ∨ 300 ≤ status) := isSuccess_iff.2 hstatus
  rw [eq_comm (a := f)]
  cases hfound : content? envelope with
  | none => simp [completion, hpassed, hread, hfound]
  | some content =>
    cases hblank : content.isBlank <;> simp [completion, hpassed, hread, hfound, hblank]

/-- An answer without a completion fails by what it lacks. -/
theorem completion_eq_error {a : ChatAnswer} {f : ChatFailure} :
    a.completion = .error f ↔ a.Lacks f := by
  constructor
  · intro h
    cases a with
    | unreachable m =>
      cases h
      exact .unreachable m
    | garbled status =>
      simp only [completion] at h
      split at h
      · next hstatus =>
        cases h
        exact .garbledStatus (isFailure_iff.1 hstatus)
      · next hstatus =>
        cases h
        exact .garbled (isSuccess_iff.1 hstatus)
    | response status text =>
      by_cases hstatus : IsSuccess status
      · cases hread : Json.read (withoutMark text) with
        | error fault =>
          obtain rfl : f = .notJson := by
            simpa [completion, isFailure_iff, hstatus, hread, eq_comm] using h
          exact .notJson hstatus hread
        | ok envelope =>
          obtain ⟨rfl, hcontent⟩ := (completion_eq_error_of_read hstatus hread).1 h
          exact .noContent hstatus hread (forall_isBlank_iff.2 hcontent)
      · obtain rfl : f = .status status := by
          simpa [completion, isFailure_iff, hstatus, eq_comm] using h
        exact .status hstatus
  · intro h
    cases h with
    | unreachable m => rfl
    | status hstatus | garbledStatus hstatus => simp [completion, isFailure_iff, hstatus]
    | garbled hstatus => simp [completion, isFailure_iff, hstatus]
    | notJson hstatus hread => simp [completion, isFailure_iff, hstatus, hread]
    | noContent hstatus hread hcontent =>
      exact (completion_eq_error_of_read hstatus hread).2 ⟨rfl, forall_isBlank_iff.1 hcontent⟩

end ChatAnswer

/-! ## Addresses -/

namespace ChatClient

variable {c : ChatClient} {r : CompletionRequest}

/-- The address of the resource for completions below a base, whose trailing slashes do not
count. -/
def IsAddress (base url : String) : Prop :=
  ∃ stem slashes : List Char, base.toList = stem ++ slashes ∧ (∀ ch ∈ slashes, ch = '/') ∧
    stem.getLast? ≠ some '/' ∧ url = String.ofList stem ++ "/chat/completions"

theorem isAddress_url (c : ChatClient) : IsAddress c.apiBase c.url := by
  obtain ⟨slashes, hsplit, hslashes⟩ :=
    Text.exists_dropEndWhile_append (· == '/') c.apiBase.toList
  refine ⟨_, slashes, hsplit, fun ch hch => eq_of_beq (hslashes ch hch), fun hlast => ?_, rfl⟩
  exact absurd (Text.getLast?_dropEndWhile (p := (· == '/')) hlast) (by decide)

/-! ## Exchanges -/

/-- What a client sends over a transport for a completion request, and what becomes of that. -/
structure IsExchange (c : ChatClient) (send : ChatCall → ChatAnswer) (r : CompletionRequest)
    (calls : List ChatCall) (completion : Except ChatFailure RawText) : Prop where
  /-- A request that HTTP carries is sent once, as a POST to the resource for completions. -/
  sent : c.Carries r →
    ∃ call, calls = [call] ∧ call.method = "POST" ∧ IsAddress c.apiBase call.url
  /-- Any other request is not sent. -/
  unsent : ¬ c.Carries r → calls = []
  /-- A text is returned exactly when the request is sent and its answer gives the text. -/
  returned : ∀ t, completion = .ok t ↔ ∃ call ∈ calls, (send call).Gives t
  /-- In every other case the request fails, by what its answer lacks; one that is not sent fails as
  if its answer were no JSON. -/
  failed : ∀ f, completion = .error f ↔
    (calls = [] ∧ f = .notJson) ∨ ∃ call ∈ calls, (send call).Lacks f
  /-- The text that is returned has no margins. -/
  trimmed : ∀ t, completion = .ok t → Trimmed isBlank t.shown.toList

/-- A completion request is one exchange with the chat service, whatever comes back. -/
theorem isExchange_complete (c : ChatClient) (send : ChatCall → ChatAnswer)
    (r : CompletionRequest) :
    IsExchange c send r (c.complete send r).1 (c.complete send r).2 := by
  by_cases hcarries : c.Carries r
  · rw [complete_of_carries hcarries]
    constructor
    case sent => exact fun _ => ⟨c.call r, rfl, rfl, isAddress_url c⟩
    case unsent => exact fun h => absurd hcarries h
    case returned =>
      intro t
      rw [ChatAnswer.gives_iff]
      simp only [List.mem_singleton, exists_eq_left]
    case failed =>
      intro f
      rw [ChatAnswer.completion_eq_error]
      simp
    case trimmed =>
      intro t ht
      obtain ⟨_, _, _, _, content, -, -, -, -, -, -, rfl⟩ := ChatAnswer.gives_iff.1 ht
      rw [RawText.withoutFence, RawText.shown_rewrite]
      exact Fence.trimmed_strip content.shown
  · rw [complete_of_not_carries hcarries]
    constructor
    case sent => exact fun h => absurd h hcarries
    case unsent => exact fun _ => rfl
    case returned => simp
    case failed => simp [eq_comm]
    case trimmed => exact fun t ht => by cases ht

/-- An answer that would give a text does not help a request with a key beyond ASCII: nothing is
sent, and the request fails like one whose envelope is no JSON. -/
theorem complete_umlaut :
    let c : ChatClient := ⟨"schl\u00fcssel", "https://api.openai.com/v1", .zero⟩
    let r : CompletionRequest := ⟨[], "m", .int 0, .int 10, true⟩
    let answer : ChatAnswer := .response 200
      "\x7b\"choices\":[\x7b\"message\":\x7b\"content\":\"x\"\x7d\x7d]\x7d"
    answer.Gives "x" ∧ c.complete (fun _ => answer) r = ([], .error .notJson) := by
  have hread : Json.read "\x7b\"choices\":[\x7b\"message\":\x7b\"content\":\"x\"\x7d\x7d]\x7d" =
      .ok (.obj [("choices", .arr [.obj [("message", .obj [("content", .str "x")])]])]) := by cbv
  refine ⟨⟨200, _, _, _, "x", rfl, ⟨by decide, by decide⟩, hread, ?_, .str "x", by decide, ?_⟩, rfl⟩
  · exact ChatAnswer.value_eq_ok.1 rfl
  · decide

end ChatClient

end Nanoservice
