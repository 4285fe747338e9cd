import Mathlib.Tactic.FinCases
import Nanoservice.Proofs.Generation.Decoding
import Nanoservice.Proofs.Json.Sendable
import Nanoservice.Proofs.Text.Trim

/-!
# Answers of the chat service

The content of an answer is refused when it is blank, and only then freed of a fence. So a content
that is nothing but a fence is not refused, and no text is left of it; of any other content a text
is left that is not blank (`Fence.isBlankText_strip`). Where a translation goes is up to the answer
(`Generation.follows_answer`): without a completion the service is unavailable, a bare fence is a
malformed response, and what is decoded else is not blank.
-/

namespace Nanoservice

open Text (isBlank isBlankText trimChars Trimmed)

/-! ## Empty texts -/

/-- A text is empty when nothing of it is shown. -/
theorem RawText.isEmpty_iff {t : RawText} : t.isEmpty = true ↔ t.shown = "" := by
  cases t with
  | plain s => simp [isEmpty, shown]
  | broken symbols => simp [isEmpty, shown, String.ofList_eq_empty_iff]

/-- An empty text is spelled as one. -/
theorem Reply.spell_of_isEmpty {t : RawText} (h : t.isEmpty = true) : spell t = "" := by
  cases t with
  | plain s => exact RawText.isEmpty_iff.1 h
  | broken symbols =>
    obtain rfl := List.isEmpty_iff.1 h
    rfl

namespace Fence

/-! ## Bare fences -/

/-- Three backticks. -/
def mark : List Char := "```".toList

/-- The openings of a fence. -/
def openings : List (List Char) := [mark, "```json".toList]

/-- A text that is a fence around nothing: an opening, or an opening and a closing with blanks in
between, inside blank margins. -/
def IsBare (s : String) : Prop :=
  ∃ left opening blanks closing right : List Char,
    (∀ c ∈ left, isBlank c = true) ∧ (∀ c ∈ blanks, isBlank c = true) ∧
      (∀ c ∈ right, isBlank c = true) ∧ opening ∈ openings ∧ closing ∈ [[], mark] ∧
      s.toList = left ++ (opening ++ blanks ++ closing) ++ right

variable {cs opening blanks tail : List Char} {s : String}

/-- Blanks are left of a text without margins before its closing fence only if there is nothing
else to it; then nothing is left at all. -/
theorem beforeClosing_of_trimmed (h : Trimmed isBlank cs) :
    ((∀ c ∈ beforeClosing cs, isBlank c = true) ↔ cs ∈ [[], mark]) ∧
      (cs ∈ [[], mark] → beforeClosing cs = []) := by
  have hself := Text.trimChars_eq_self_iff.2 h
  have hnothing : cs ∈ [[], mark] → beforeClosing cs = [] := by
    intro hmem
    fin_cases hmem <;> rfl
  refine ⟨⟨fun hblank => ?_, fun hmem => by simp [hnothing hmem]⟩, hnothing⟩
  unfold beforeClosing at hblank
  split at hblank
  · next hclosed =>
    -- what stands before the closing fence is blank, so it is a margin, and there is none
    obtain ⟨dropped, hsplit, hdropped⟩ :=
      Text.exists_dropEndWhile_append isBlank (cs.take (cs.length - 3))
    have hmargin : ∀ c ∈ cs.take (cs.length - 3), isBlank c = true := by
      rw [hsplit]
      exact List.forall_mem_append.2 ⟨hblank, hdropped⟩
    have hend : cs.drop (cs.length - 3) = mark := eq_of_beq hclosed
    have hmark : trimChars isBlank cs = mark := by
      rw [← List.take_append_drop (cs.length - 3) cs, hend, ← List.append_nil (_ ++ mark)]
      exact Text.trimChars_margins hmargin (Text.trimChars_eq_self_iff.1 (by decide)) (by simp)
    rw [hself] at hmark
    simp [hmark]
  · rw [(Text.trimChars_eq_nil_iff isBlank cs).2 hblank] at hself
    simp [← hself]

/-- A text that begins with no opening is left as it is. -/
theorem afterOpening_eq_self (h : ∀ tail, cs ≠ mark ++ tail) : afterOpening cs = cs :=
  afterOpening.eq_3 cs (fun tail => h ("json".toList ++ tail)) h

/-- What is left of a text behind an opening, unless more of an opening follows. -/
theorem afterOpening_append (hopening : opening ∈ openings)
    (h : ∀ rest, tail ≠ "json".toList ++ rest) :
    afterOpening (opening ++ tail) = tail.dropWhile isBlank := by
  fin_cases hopening
  · exact afterOpening.eq_2 tail h
  · rfl

/-- A text that begins with three backticks begins with an opening, and what follows that is left
without the blanks in front. -/
theorem exists_opening (tail : List Char) :
    ∃ opening ∈ openings, ∃ rest, mark ++ tail = opening ++ rest ∧
      afterOpening (mark ++ tail) = rest.dropWhile isBlank := by
  by_cases hjson : ∃ rest, tail = "json".toList ++ rest
  · obtain ⟨rest, rfl⟩ := hjson
    exact ⟨_, .tail _ (.head _), rest, rfl, rfl⟩
  · exact ⟨mark, .head _, tail, rfl,
      afterOpening_append (.head _) fun rest hrest => hjson ⟨rest, hrest⟩⟩

/-- An opening has no margins, and neither has a fence that is closed. -/
theorem trimmed_of_mem_openings (h : opening ∈ openings) :
    Trimmed isBlank opening ∧ ∀ blanks, Trimmed isBlank (opening ++ blanks ++ mark) := by
  have hlast (blanks : List Char) : (opening ++ blanks ++ mark).getLast? = some '\x60' := by
    simp [List.getLast?_append, mark]
  have hhead : ∀ c ∈ opening.head?, c = '\x60' := by
    fin_cases h <;> simp [mark]
  refine ⟨?_, fun blanks => ⟨fun c hc => ?_, fun c hc => ?_⟩⟩
  · fin_cases h <;> exact Text.trimChars_eq_self_iff.1 (by decide)
  · have hc' : c ∈ opening.head? := by
      fin_cases h <;> exact hc
    rw [hhead c hc']
    decide
  · rw [hlast] at hc
    obtain rfl := Option.some.inj hc
    decide

/-- Blanks and a closing are no more of an opening. -/
theorem blanks_ne_json (h : ∀ c ∈ blanks, isBlank c = true) (rest : List Char) :
    blanks ++ mark ≠ "json".toList ++ rest := by
  intro heq
  cases blanks with
  | nil => cases heq
  | cons c blanks =>
    obtain rfl : c = 'j' := (List.cons.inj heq).1
    exact absurd (h 'j' List.mem_cons_self) (by decide)

/-- Nothing or the closing is left of a bare fence behind its opening. -/
theorem closing_of_isBare (h : IsBare s) :
    trimChars isBlank (afterOpening (trimChars isBlank s.toList)) ∈ [[], mark] := by
  obtain ⟨left, opening, blanks, closing, right, hleft, hblanks, hright, hopening, hclosing, hs⟩ :=
    h
  obtain ⟨htrimmed, hclosed⟩ := trimmed_of_mem_openings hopening
  rcases List.mem_pair.1 hclosing with rfl | rfl
  · have hmargin : ∀ c ∈ blanks ++ right, isBlank c = true :=
      List.forall_mem_append.2 ⟨hblanks, hright⟩
    have hcore : trimChars isBlank s.toList = opening ++ [] := by
      rw [hs, List.append_nil, List.append_nil, ← List.append_assoc left, List.append_assoc]
      exact Text.trimChars_margins hleft htrimmed hmargin
    rw [hcore, afterOpening_append hopening (by simp)]
    exact .head _
  · rw [hs, Text.trimChars_margins hleft (hclosed blanks) hright, List.append_assoc,
      afterOpening_append hopening (blanks_ne_json hblanks), List.dropWhile_append_of_pos hblanks]
    exact .tail _ (.head _)

/-- A text that is not blank and has nothing or the closing left behind an opening is a bare
fence. -/
theorem isBare_of_closing (hs : isBlankText s = false)
    (h : trimChars isBlank (afterOpening (trimChars isBlank s.toList)) ∈ [[], mark]) :
    IsBare s := by
  obtain ⟨left, right, hleft, hright, hmargins⟩ := Text.exists_margins isBlank s.toList
  by_cases hmark : ∃ tail, trimChars isBlank s.toList = mark ++ tail
  · obtain ⟨tail, htail⟩ := hmark
    obtain ⟨opening, hopening, rest, hrest, hafter⟩ := exists_opening tail
    obtain ⟨before, behind, hbefore, hbehind, hsplit⟩ :=
      Text.exists_margins isBlank (rest.dropWhile isBlank)
    rw [htail, hafter] at h
    refine ⟨left, opening, rest.takeWhile isBlank ++ before, _, behind ++ right, hleft,
      List.forall_mem_append.2 ⟨fun c => List.mem_takeWhile_imp, hbefore⟩,
      List.forall_mem_append.2 ⟨hbehind, hright⟩, hopening, h, ?_⟩
    calc s.toList
        = left ++ (opening ++ (rest.takeWhile isBlank ++ rest.dropWhile isBlank)) ++ right := by
          rw [List.takeWhile_append_dropWhile, ← hrest, ← htail, ← hmargins]
      _ = _ := by
          conv_lhs => rw [hsplit]
          simp only [List.append_assoc]
  · rw [afterOpening_eq_self fun tail htail => hmark ⟨tail, htail⟩,
      Text.trimChars_eq_self_iff.2 (Text.trimChars_trimmed isBlank s.toList)] at h
    rcases List.mem_pair.1 h with hnil | hclosing
    · have hblank := (Text.trimChars_eq_nil_iff isBlank s.toList).1 hnil
      rw [isBlankText, List.all_eq_true.2 hblank] at hs
      cases hs
    · exact absurd ⟨[], hclosing⟩ hmark

/-- A bare fence is not blank. -/
theorem IsBare.not_blank (h : IsBare s) : isBlankText s = false := by
  obtain ⟨left, opening, blanks, closing, right, -, -, -, hopening, -, hs⟩ := h
  have hmem : '\x60' ∈ s.toList := by
    have hfirst : '\x60' ∈ opening := by
      fin_cases hopening <;> decide
    simp [hs, hfirst]
  rw [isBlankText, List.all_eq_false]
  exact ⟨_, hmem, by decide⟩

/-- Blank text is left of a text that is not blank exactly when it is a bare fence, and then no text
is left. -/
theorem isBlankText_strip (hs : isBlankText s = false) :
    (isBlankText (strip s) = true ↔ IsBare s) ∧ (IsBare s → strip s = "") := by
  obtain ⟨hblank, hnothing⟩ := beforeClosing_of_trimmed
    (Text.trimChars_trimmed isBlank (afterOpening (trimChars isBlank s.toList)))
  have hbare : trimChars isBlank (afterOpening (trimChars isBlank s.toList)) ∈ [[], mark] ↔
      IsBare s := ⟨isBare_of_closing hs, closing_of_isBare⟩
  constructor
  · rw [← hbare, ← hblank, isBlankText, strip, String.toList_ofList, List.all_eq_true]
  · intro h
    rw [strip, hnothing (hbare.2 h), String.ofList_nil]

end Fence

/-! ## Answers -/

namespace ChatAnswer

/-- An answer of success whose envelope holds a content. -/
def Holds (a : ChatAnswer) (content : RawText) : Prop :=
  ∃ status text envelope, a = .response status text ∧ ¬ (status < 200 ∨ 300 ≤ status) ∧
    Json.read (withoutMark text) = .ok envelope ∧ content? envelope = some content

variable {a : ChatAnswer} {content t : RawText}

/-- The completion of an answer that holds a content. -/
theorem completion_of_holds (h : a.Holds content) :
    a.completion =
      if content.isBlank then .error .noContent else .ok content.withoutFence := by
  obtain ⟨status, text, envelope, rfl, hstatus, hread, hcontent⟩ := h
  simp only [completion, if_neg hstatus, hread, hcontent]

/-- A completion is what is left of a content that is not blank. -/
theorem completion_eq_ok :
    a.completion = .ok t ↔
      ∃ content, a.Holds content ∧ content.isBlank = false ∧ t = content.withoutFence := by
  constructor
  · intro h
    cases a with
    | unreachable m => cases h
    | garbled status =>
      unfold completion at h
      dsimp only at h
      split at h <;> cases h
    | response status text =>
      unfold completion at h
      dsimp only at h
      split at h
      · cases h
      · next hstatus =>
        split at h
        · cases h
        · next envelope hread =>
          split at h
          · cases h
          · next content hcontent =>
            split at h
            · cases h
            · next hblank =>
              exact ⟨content, ⟨status, text, envelope, rfl, hstatus, hread, hcontent⟩,
                by simpa using hblank, (Except.ok.inj h).symm⟩
  · rintro ⟨content, hholds, hblank, rfl⟩
    simp [completion_of_holds hholds, hblank]

end ChatAnswer

/-! ## Requests -/

namespace ChatClient

variable {c : ChatClient} {r : CompletionRequest}

/-- HTTP carries a request: the key is ASCII, the name of the model and the messages hold no half of
a surrogate pair, and the numbers are none of the special ones. -/
structure Carries (c : ChatClient) (r : CompletionRequest) : Prop where
  ascii : ∀ ch ∈ c.apiKey.toList, ch.toNat < 128
  model : r.model.isWhole = true
  messages : ∀ m ∈ r.messages, m.content.isWhole = true
  temperature : r.temperature.isSendable = true
  maxTokens : r.maxTokens.isSendable = true

theorem isSendable_body : (body r).isSendable = true ↔ r.model.isWhole = true ∧
    (∀ m ∈ r.messages, m.content.isWhole = true) ∧ r.temperature.isSendable = true ∧
      r.maxTokens.isSendable = true := by
  have hmessages : Json.isSendableItems (r.messages.map fun m =>
      Json.obj [("role", .str m.role), ("content", .ofText m.content)]) = true ↔
      ∀ m ∈ r.messages, m.content.isWhole = true := by
    simp [Json.isSendableItems_map, RawText.isWhole]
  cases hmode : r.jsonMode <;> simp [body, hmode, hmessages, RawText.isWhole]

theorem isSendable_call : (c.call r).isSendable = true ↔ c.Carries r := by
  have hkey : (c.call r).authorization.toList.all (·.toNat < 128) = true ↔
      ∀ ch ∈ c.apiKey.toList, ch.toNat < 128 := by
    simp [call]
  have hbody : (c.call r).body.isSendable = true ↔ _ := isSendable_body
  rw [ChatCall.isSendable, Bool.and_eq_true, hkey, hbody]
  constructor
  · rintro ⟨hascii, hmodel, hmessages, htemperature, htokens⟩
    exact ⟨hascii, hmodel, hmessages, htemperature, htokens⟩
  · intro h
    exact ⟨h.ascii, h.model, h.messages, h.temperature, h.maxTokens⟩

/-- A request that HTTP carries is completed by the answer to its one call. -/
theorem complete_of_carries (h : c.Carries r) (send : ChatCall → ChatAnswer) :
    c.complete send r = ([c.call r], (send (c.call r)).completion) :=
  if_pos (isSendable_call.2 h)

/-- Any other request is not sent, and fails. -/
theorem complete_of_not_carries (h : ¬ c.Carries r) (send : ChatCall → ChatAnswer) :
    c.complete send r = ([], .error .notJson) :=
  if_neg (mt isSendable_call.1 h)

end ChatClient

namespace Generation

/-- What a translation makes of an answer of the chat service. -/
structure Follows (a : ChatAnswer) (translated : Except Interruption (Except Failure Json)) :
    Prop where
  /-- Without a completion the service is unavailable. -/
  unavailable : ∀ f, a.completion = .error f →
    translated = .ok (.error ⟨.serviceUnavailable, f.message, .translate⟩)
  /-- A blank content is no completion. -/
  blank : ∀ content, a.Holds content → content.isBlank = true →
    a.completion = .error .noContent
  /-- A bare fence is an empty completion, which is a malformed response. -/
  bare : ∀ content, a.Holds content → Fence.IsBare content.shown →
    (∃ t, a.completion = .ok t ∧ t.isEmpty = true) ∧ translated = .ok (.error Reply.malformed)
  /-- Any other completion is a text that is not blank, and is decoded. -/
  decoded : ∀ t, a.completion = .ok t →
    (¬ ∃ content, a.Holds content ∧ Fence.IsBare content.shown) →
      t.isBlank = false ∧ translated = Reply.decode (Reply.spell t)

/-- HTTP carries the request of a generation when the key is ASCII, the model and the prompt hold no
half of a surrogate pair, the temperature is finite and the number of tokens short. -/
theorem carries_iff {settings : Settings} {prompt : RawText} {override : Option RawText}
    {r : CompletionRequest} (hr : request settings prompt override = .ok r) (c : ChatClient) :
    c.Carries r ↔ (∀ ch ∈ c.apiKey.toList, ch.toNat < 128) ∧
      (modelName settings override).isWhole = true ∧ prompt.isWhole = true ∧
      settings.temperature.isFinite = true ∧ Text.isShortInteger settings.maxTokens = true := by
  obtain rfl : _ = r := by
    unfold request at hr
    split at hr
    · cases hr
    · exact Except.ok.inj hr
  have hmessages : (∀ m ∈ Prompt.messages prompt, m.content.isWhole = true) ↔
      prompt.isWhole = true := by
    have hinstructions : (RawText.plain Prompt.instructions).isWhole = true := rfl
    simp [Prompt.messages, RawText.trim, hinstructions]
  rw [← hmessages]
  constructor
  · intro h
    exact ⟨h.ascii, h.model, h.messages, h.temperature, h.maxTokens⟩
  · rintro ⟨hascii, hmodel, hcontents, htemperature, htokens⟩
    exact ⟨hascii, hmodel, hcontents, htemperature, htokens⟩

/-- The candidate of an answer of the chat service follows the answer. -/
theorem follows_candidate (a : ChatAnswer) : Follows a (candidate (.ofChat a.completion)) := by
  constructor
  case unavailable =>
    intro f hf
    rw [hf, Completion.ofChat, candidate]
  case blank =>
    intro content hholds hblank
    rw [ChatAnswer.completion_of_holds hholds, if_pos hblank]
  case bare =>
    intro content hholds hbare
    have hblank := hbare.not_blank
    have hempty : content.withoutFence.isEmpty = true := by
      rw [RawText.isEmpty_iff, RawText.withoutFence, RawText.shown_rewrite]
      exact (Fence.isBlankText_strip hblank).2 hbare
    have hcompletion := ChatAnswer.completion_eq_ok.2 ⟨content, hholds, hblank, rfl⟩
    refine ⟨⟨_, hcompletion, hempty⟩, ?_⟩
    rw [hcompletion, Completion.ofChat, candidate, Reply.spell_of_isEmpty hempty]
    rfl
  case decoded =>
    intro t ht hnot
    obtain ⟨content, hholds, hblank, rfl⟩ := ChatAnswer.completion_eq_ok.1 ht
    refine ⟨?_, by rw [ht, Completion.ofChat, candidate]⟩
    by_contra hleft
    rw [RawText.withoutFence, RawText.isBlank, RawText.shown_rewrite, Bool.not_eq_false] at hleft
    exact hnot ⟨content, hholds, (Fence.isBlankText_strip hblank).1.1 hleft⟩

/-- Where the translation of an accepted input goes is up to the answer of the chat service to its
one request, whatever the client and the transport; if HTTP cannot carry that request, the service
is unavailable. -/
theorem follows_answer (settings : Settings) (prompt : RawText) (override : Option RawText)
    (hinput : Prompt.inputFailure? (some prompt) settings.apiKey = none) (client : ChatClient)
    (send : ChatCall → ChatAnswer) :
    ∃ r, request settings prompt override = .ok r ∧
      (client.Carries r → Follows (send (client.call r))
        (translate settings prompt override (client.respond send)).2) ∧
      (¬ client.Carries r →
        (translate settings prompt override (client.respond send)).2 =
          .ok (.error ⟨.serviceUnavailable, ChatFailure.notJson.message, .translate⟩)) := by
  obtain ⟨r, hr⟩ : ∃ r, request settings prompt override = .ok r := by
    simp [request, hinput]
  have htranslate : (translate settings prompt override (client.respond send)).2 =
      candidate (.ofChat (client.complete send r).2) := by
    simp [translate, hr, ChatClient.respond]
  refine ⟨r, hr, fun hcarries => ?_, fun hlost => ?_⟩
  · rw [htranslate, ChatClient.complete_of_carries hcarries]
    exact follows_candidate _
  · rw [htranslate, ChatClient.complete_of_not_carries hlost]
    rfl

theorem carries_shop {r : CompletionRequest}
    (hr : request { apiKey := some "key" } "shop" none = .ok r) :
    ChatClient.Carries ⟨"key", "", .zero⟩ r := by
  have htokens : Text.isShortInteger 2500 = true :=
    Text.isShortInteger_iff.2 (Text.natAbs_lt_of_word (by decide))
  exact (carries_iff hr _).2 ⟨by simp, rfl, rfl, rfl, htokens⟩

/-- A service that cannot be reached is unavailable. -/
theorem follows_answer_unreachable :
    (translate { apiKey := some "key" } "shop" none
        (ChatClient.respond ⟨"key", "", .zero⟩ fun _ => .unreachable "refused")).2 =
      .ok (.error ⟨.serviceUnavailable, "text-generation service unreachable: refused",
        .translate⟩) := by
  have hinput : Prompt.inputFailure? (some "shop") (some "key") = none := by decide
  obtain ⟨r, hr, hfollows, -⟩ := follows_answer { apiKey := some "key" } "shop" none hinput
    ⟨"key", "", .zero⟩ fun _ => .unreachable "refused"
  exact (hfollows (carries_shop hr)).unavailable _ rfl

/-- An answer whose content is a fence around a line end. -/
def fencedAnswer : ChatAnswer :=
  .response 200
    "\x7b\"choices\":[\x7b\"message\":\x7b\"content\":\"```json\\n```\"\x7d\x7d]\x7d"

theorem completion_fencedAnswer : fencedAnswer.completion = .ok (.plain "") := by
  have hread : Json.read
      "\x7b\"choices\":[\x7b\"message\":\x7b\"content\":\"```json\\n```\"\x7d\x7d]\x7d" =
      .ok (.obj [("choices", .arr [.obj [("message",
        .obj [("content", .str "```json\n```")])]])]) := by cbv
  have hbare : Fence.IsBare "```json\n```" :=
    ⟨[], _, ['\n'], _, [], by simp, List.forall_mem_singleton.2 (by decide), by simp,
      .tail _ (.head _), .tail _ (.head _), rfl⟩
  have hblank := hbare.not_blank
  have hempty := (Fence.isBlankText_strip hblank).2 hbare
  exact ChatAnswer.completion_eq_ok.2 ⟨_, ⟨200, _, _, rfl, by decide, hread, rfl⟩, hblank,
    congrArg RawText.plain hempty.symm⟩

/-- A fence around nothing is a completion without text, and is reported as a malformed response and
not as a service that is unavailable. -/
theorem fence_isNotRefused :
    fencedAnswer.completion = .ok (.plain "") ∧ isBlankText "" = true ∧
      (translate { apiKey := some "key" } "shop" none
          (ChatClient.respond ⟨"key", "", .zero⟩ fun _ => fencedAnswer)).2 =
        .ok (.error Reply.malformed) ∧
      Reply.malformed.code ≠ .serviceUnavailable := by
  refine ⟨completion_fencedAnswer, rfl, ?_, by decide⟩
  have hinput : Prompt.inputFailure? (some "shop") (some "key") = none := by decide
  rw [translate_of_reply hinput (t := "") fun r hr => ?_]
  · rfl
  · rw [ChatClient.respond, ChatClient.complete_of_carries (carries_shop hr),
      completion_fencedAnswer]
    rfl

end Generation

end Nanoservice
