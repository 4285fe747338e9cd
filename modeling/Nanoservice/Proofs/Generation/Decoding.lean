import Nanoservice.Proofs.Generation.Assembly
import Nanoservice.Proofs.Json.RoundTrip

/-!
# Decoding replies

A generation whose input is accepted and whose completion is a text gives a result, or else a
failure with its code, and a text that is no JSON is a malformed response. One thing is in the way
of that: an integer of more than 4300 digits, which interrupts the generation as soon as the reader
meets it (`decodes_reply`). So a reply of nothing but digits can be too long for any result
(`Json.read_long`).
-/

namespace Nanoservice

namespace Json

open Nanoservice.Text (maxIntegerDigits)

variable {ds rest : List Char}

/-- An integer of more than 4300 digits is a fault, whatever stands behind it. -/
theorem readNumber_long (left : List Char) (negative : Bool) (hds : IsWhole ds)
    (hlong : maxIntegerDigits < ds.length) (hrest : Stops rest) :
    readNumber left negative (ds ++ rest) = .error (.longInteger ds.length) := by
  unfold readNumber
  rw [takeWhole_append hds hrest.stopsDigits]
  simp [takeFraction_none fun c hc => (hrest c hc).2.1,
    takeExponent_none fun c hc => (hrest c hc).2.2, hlong]

/-- A text that begins with an integer of more than 4300 digits is not read. -/
theorem read_long (hds : IsWhole ds) (hlong : maxIntegerDigits < ds.length) (hrest : Stops rest) :
    read (String.ofList (ds ++ rest)) = .error (.longInteger ds.length) := by
  obtain ⟨c, tail, hdigits, hc⟩ := startsWithDigit_of_isWhole hds rest
  have hblank : skipBlank (ds ++ rest) = ds ++ rest := by
    obtain ⟨d, cs, hstart, hd, -⟩ := startsValue_of_digit ⟨c, tail, hdigits, hc⟩
    rw [hstart, skipBlank_cons hd]
  have hvalue (fuel : Nat) :
      readValue false (fuel + 1) (ds ++ rest) = .error (.longInteger ds.length) := by
    have hdigit : StartsWithDigit ds := by simpa using startsWithDigit_of_isWhole hds []
    rw [readValue_digit fuel hdigit, ← readNumber_long (ds ++ rest) false hds hlong hrest, hdigits,
      readScalar_digit hc]
  rw [read, readChars, String.toList_ofList, hblank, readFuel, hvalue]

end Json

namespace Generation

variable {settings : Settings} {prompt : RawText} {t : String} {override : Option RawText}
  {respond : CompletionRequest → Completion}

/-- Where the translation of an accepted input goes is up to the decoding of the reply. -/
theorem translate_of_reply (hinput : Prompt.inputFailure? (some prompt) settings.apiKey = none)
    (hreply : ∀ r, request settings prompt override = .ok r → respond r = .reply t) :
    (translate settings prompt override respond).2 = Reply.decode t := by
  obtain ⟨r, hr⟩ : ∃ r, request settings prompt override = .ok r := by
    simp [request, hinput]
  simp [translate, hr, candidate, hreply r hr]

/-- There is a result, a success or a failure, and nothing has interrupted it. -/
def IsTagged {α : Type} (outcome : Except Interruption α) : Prop :=
  ∃ result, outcome = .ok result

/-- What a translation and a whole generation make of the text of a reply. -/
structure Decodes (t : String)
    (translated : Except Interruption (Except Failure Json))
    (assembled : Except Interruption (Except Stop Backend)) : Prop where
  /-- Both have a result exactly when no integer of the text is found too long. -/
  tagged : (IsTagged translated ↔ ∀ n, Json.read t ≠ .error (.longInteger n)) ∧
    (IsTagged assembled ↔ ∀ n, Json.read t ≠ .error (.longInteger n))
  /-- A text that is no JSON is a malformed response. -/
  malformed : ∀ left, Json.read t = .error (.malformed left) →
    translated = .ok (.error Reply.malformed) ∧
      assembled = .ok (.error ⟨Reply.malformed, .translate⟩)
  /-- A text that is JSON never is. -/
  value : ∀ v, Json.read t = .ok v →
    (∀ f, translated = .ok (.error f) → f.code ≠ .malformedResponse) ∧
      ∀ s, assembled = .ok (.error s) → s.failure.code ≠ .malformedResponse
  /-- An interruption tells of a run of more than 4300 digits in the text. -/
  interrupted : ∀ n, Json.read t = .error (.longInteger n) →
    translated = .error (.longInteger n) ∧ assembled = .error (.longInteger n) ∧
      Json.HasLongInteger n t.toList

/-- The refusal of a candidate is not one of a malformed response. -/
theorem code_refusal_ne (r : Refusal) : r.code ≠ .malformedResponse := by
  cases r <;> simp [Refusal.code]

/-- A candidate or a failure other than a malformed response is followed by no malformed
response. -/
theorem code_validated_ne {freshId : String} {x : Except Failure Json} {s : Stop}
    (hx : ∀ f, x = .error f → f.code ≠ .malformedResponse) (h : validated freshId x = .error s) :
    s.failure.code ≠ .malformedResponse := by
  cases x with
  | error f =>
    cases h
    exact hx f rfl
  | ok raw =>
    simp only [validated] at h
    split at h
    · cases h
    · next r hr =>
      cases h
      exact code_refusal_ne r

/-- The decoding of a text goes through unless an integer in it is too long. -/
theorem decodes_decode (freshId t : String) :
    Decodes t (Reply.decode t) ((Reply.decode t).map (validated freshId)) := by
  unfold Reply.decode
  cases hread : Json.read t with
  | error e =>
    cases e with
    | malformed left =>
      constructor
      case tagged => simp [IsTagged, Except.map, hread]
      case malformed => exact fun _ _ => ⟨rfl, rfl⟩
      case value => simp [hread]
      case interrupted => simp [hread]
    | longInteger n =>
      constructor
      case tagged => simp [IsTagged, Except.map, hread]
      case malformed => simp [hread]
      case value => simp [hread]
      case interrupted =>
        intro m hm
        rw [hread] at hm
        cases hm
        exact ⟨rfl, rfl, Json.hasLongInteger_of_readChars hread⟩
  | ok v =>
    have hshape : ∀ f, (if Reply.hasShape v then .ok v else .error Reply.misshapen :
        Except Failure Json) = .error f → f.code ≠ .malformedResponse := by
      intro f hf
      split at hf
      · cases hf
      · cases hf
        decide
    constructor
    case tagged => simp [IsTagged, Except.map, hread]
    case malformed => simp [hread]
    case value =>
      exact fun w _ => ⟨fun f hf => hshape f (Except.ok.inj hf),
        fun s hs => code_validated_ne hshape (Except.ok.inj hs)⟩
    case interrupted => simp [hread]

/-- A generation whose input is accepted and whose completion is a text has a result exactly when
no integer of the text is found too long, and a text that is no JSON, and no other, is a malformed
response. -/
theorem decodes_reply (hinput : Prompt.inputFailure? (some prompt) settings.apiKey = none)
    (hreply : ∀ r, request settings prompt override = .ok r → respond r = .reply t)
    (freshId : String) :
    Decodes t (translate settings prompt override respond).2
      (assemble freshId settings prompt override respond).2 := by
  rw [translate_of_reply hinput hreply, assemble_of_reply hinput hreply]
  exact decodes_decode freshId t

/-- A reply that is torn off is a malformed response. -/
theorem decodes_reply_torn :
    (assemble "0" { apiKey := some "key" } "shop" none fun _ => .reply "\x7b").2 =
      .ok (.error ⟨Reply.malformed, .translate⟩) :=
  ((decodes_reply (by decide) (fun _ _ => rfl) "0").malformed [] (by cbv)).2

/-- A reply of nothing but ones. -/
def ones (n : Nat) : String :=
  String.ofList (List.replicate n '1')

/-- More than 4300 ones are no JSON that can be read. -/
theorem decode_ones {n : Nat} (hn : Text.maxIntegerDigits < n) :
    Reply.decode (ones n) = .error (.longInteger n) := by
  have hwhole : Json.IsWhole (List.replicate n '1') := by
    constructor
    case nonempty => simpa using Nat.ne_zero_of_lt hn
    case digits => exact fun d hd => by rw [List.eq_of_mem_replicate hd]; decide
    case zero =>
      intro hzero
      exact absurd (List.eq_of_mem_replicate (List.mem_of_mem_head? hzero)) (by decide)
  have hstops : Json.Stops [] := fun c hc => by cases hc
  have hread := Json.read_long hwhole (by rwa [List.length_replicate]) hstops
  rw [List.append_nil, List.length_replicate] at hread
  rw [ones, Reply.decode, hread]

/-- A reply of 4301 ones leaves a generation with an accepted input without a result. -/
theorem ones_isNotTagged :
    Prompt.inputFailure? (some "shop") (some "key") = none ∧
      ¬ IsTagged (translate { apiKey := some "key" } "shop" none fun _ => .reply (ones 4301)).2 ∧
      ¬ IsTagged
        (assemble "0" { apiKey := some "key" } "shop" none fun _ => .reply (ones 4301)).2 := by
  have hdecode : Reply.decode (ones 4301) = .error (.longInteger 4301) := decode_ones (by decide)
  refine ⟨by decide, ?_, ?_⟩
  · rw [translate_of_reply (by decide) (fun _ _ => rfl), hdecode]
    exact fun ⟨_, h⟩ => by cases h
  · rw [assemble_of_reply (by decide) (fun _ _ => rfl), hdecode]
    exact fun ⟨_, h⟩ => by cases h

end Generation

end Nanoservice
