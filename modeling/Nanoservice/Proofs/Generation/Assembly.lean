import Nanoservice.Generation.Assembly
import Nanoservice.Proofs.Candidate.Checks
import Nanoservice.Proofs.Json.Read

/-!
# Assembling and validating

A reply goes through two checks of its shape, one when it is decoded and one when its candidate is
validated, and these ask for different things: a name that does not count as absent, and a name
that is a text and not blank. `assemble_agrees` says that the first check changes nothing that can
be told from outside: from a reply that is JSON a generation comes to the model that validating the
reply comes to, or to a failure of the same code. A reply that the first check refuses is one that
the second refuses for its shape (`invalidShape_of_not_hasShape`).
-/

namespace Nanoservice

/-! ## The identity of a model -/

namespace Backend

/-- A model under another identity. -/
def withId (i : String) (b : Backend) : Backend := { b with id := i }

/-- Models are the same when they are so but for their identities, and these are the same. -/
theorem eq_iff_withId {i j : String} {a b : Backend} (ha : a.id = i) :
    a = b ↔ b.id = i ∧ a.withId j = b.withId j := by
  cases a
  cases b
  simp only [withId, mk.injEq, true_and] at ha ⊢
  subst ha
  constructor
  · rintro ⟨rfl, h⟩
    exact ⟨rfl, h⟩
  · rintro ⟨rfl, h⟩
    exact ⟨rfl, h⟩

/-- Where no identity is stated, a fresh one ends up in the model and nowhere else. -/
theorem partsOfJson_fresh (i j : String) {fs : List (RawText × Json)}
    (h : fs.lookup (.plain "id") = none) :
    partsOfJson j (.obj fs) = (partsOfJson i (.obj fs)).map (withId j) := by
  have hid (k : String) : Reading.optional Rule.rawText k "id" fs = .ok (.plain k) := by
    simp only [Reading.optional, h]
  simp only [partsOfJson, Reading.part, hid]
  generalize Reading.both (Reading.mandatory Rule.title "name" fs) _ = rest
  cases rest <;> rfl

theorem ofJson_prepared_fresh (i j : String) (fs : Candidate.Fields) :
    ofJson j (Candidate.prepared fs) = (ofJson i (Candidate.prepared fs)).map (withId j) := by
  unfold ofJson
  rw [Candidate.prepared, partsOfJson_fresh i j rfl]
  generalize partsOfJson i _ = parts
  cases parts with
  | error is => rfl
  | ok b =>
    have hunknown : (b.withId j).unknownNode? = b.unknownNode? := rfl
    simp only [Except.map, hunknown]
    cases b.unknownNode? <;> rfl

end Backend

namespace Candidate

/-- Validating a candidate with another fresh identity comes to the same, but for the identity. -/
theorem validate_fresh (i j : String) (raw : Json) :
    validate j raw = (validate i raw).map (Backend.withId j) := by
  cases raw with
  | obj fs =>
    simp only [validate, Backend.ofJson_prepared_fresh i j]
    cases hasName fs <;> cases hasWorkflows fs <;> cases fault? fs <;>
      cases Backend.ofJson i (prepared fs) <;> rfl
  | null | bool | int | float | str | broken | arr => rfl

/-- The model of an accepted candidate has the fresh identity. -/
theorem id_of_validate {i : String} {raw : Json} {m : Backend} (h : validate i raw = .ok m) :
    m.id = i := by
  obtain ⟨fs, -, -, -, -, hread⟩ := validate_eq_ok.1 h
  exact (partsOfJson_prepared_eq_ok.1 (Backend.ofJson_eq_ok.1 hread).1).1

end Candidate

namespace Generation

open Candidate

/-! ## The two checks of a shape -/

/-- A name that was read and is not blank does not count as absent. -/
theorem isFalsy_of_hasName {fs : Fields} (hread : Json.IsRead false (.obj fs))
    (h : hasName fs = true) : ((fs.lookup (.plain "name")).getD .null).isFalsy = false := by
  cases hlookup : fs.lookup (.plain "name") with
  | none => simp [hasName, hlookup] at h
  | some v =>
    cases hread.lookup hlookup with
    | str s =>
      rw [Option.getD_some, Json.isFalsy]
      by_contra hempty
      obtain rfl : s = "" := by simpa using hempty
      simp [hasName, hlookup, Json.rawText?, RawText.isBlank, RawText.shown, Text.isBlankText] at h
    | broken hp hhalf =>
      obtain ⟨unit, hunit⟩ := hhalf
      exact List.isEmpty_eq_false_iff.2 (List.ne_nil_of_mem hunit)
    | null | bool | int | float | arr | obj => simp [hasName, hlookup, Json.rawText?] at h

/-- A reply of the wrong shape is refused for its shape when it is validated. -/
theorem invalidShape_of_not_hasShape {v : Json} (hread : Json.IsRead false v)
    (h : Reply.hasShape v = false) (freshId : String) :
    ∃ r, validate freshId v = .error r ∧ r.code = .invalidShape := by
  cases v with
  | obj fs =>
    cases hname : hasName fs with
    | false => exact ⟨.noName, by simp [validate, hname], rfl⟩
    | true =>
      have hflows : hasWorkflows fs = false := by
        simpa [Reply.hasShape, isFalsy_of_hasName hread hname, hasWorkflows] using h
      exact ⟨.noWorkflows, by simp [validate, hname, hflows], rfl⟩
  | null | bool | int | float | str | broken | arr => exact ⟨.notObject, rfl, rfl⟩

/-! ## Agreement -/

/-- Where a generation with an accepted input goes is up to the decoding of the reply. -/
theorem assemble_of_reply {freshId t : String} {prompt : RawText} {settings : Settings}
    {override : Option RawText} {respond : CompletionRequest → Completion}
    (hinput : Prompt.inputFailure? (some prompt) settings.apiKey = none)
    (hreply : ∀ r, request settings prompt override = .ok r → respond r = .reply t) :
    (assemble freshId settings prompt override respond).2 =
      (Reply.decode t).map (validated freshId) := by
  obtain ⟨r, hr⟩ : ∃ r, request settings prompt override = .ok r := by
    simp [request, hinput]
  simp [assemble, translate, hr, candidate, hreply r hr]

/-- A candidate from a reply leads to the model that validating it leads to, or to a failure of the
same code. -/
theorem validated_agrees {v : Json} (hread : Json.IsRead false v) (freshId : String) :
    match validate freshId v with
    | .ok m => validated freshId
        (if Reply.hasShape v then .ok v else .error Reply.misshapen) = .ok m
    | .error r => ∃ s, validated freshId
        (if Reply.hasShape v then .ok v else .error Reply.misshapen) = .error s ∧
        s.failure.code = r.code := by
  cases hshape : Reply.hasShape v with
  | true =>
    simp only [if_true, validated]
    cases validate freshId v with
    | ok m => rfl
    | error r => exact ⟨_, rfl, rfl⟩
  | false =>
    obtain ⟨r, hr, hcode⟩ := invalidShape_of_not_hasShape hread hshape freshId
    rw [hr]
    exact ⟨_, rfl, hcode.symm⟩

/-- A generation whose input is accepted and whose reply has no integer of more than 4300 digits
agrees with the validation of the reply. If the reply is no JSON, the generation fails for that. If
it is, the generation comes to a model exactly when validating the reply comes to it, the fresh
identities aside, and else to a failure with the code of the refusal. -/
theorem assemble_agrees {prompt : RawText} {t : String} {settings : Settings}
    {override : Option RawText} {respond : CompletionRequest → Completion}
    (hinput : Prompt.inputFailure? (some prompt) settings.apiKey = none)
    (hreply : ∀ r, request settings prompt override = .ok r → respond r = .reply t)
    (hshort : ∀ n, Text.maxIntegerDigits < n → Json.read t ≠ .error (.longInteger n))
    (i j : String) :
    ((¬ ∃ v, Json.read t = .ok v) →
      ∃ s, (assemble i settings prompt override respond).2 = .ok (.error s) ∧
        s.failure.code = .malformedResponse) ∧
    ∀ v, Json.read t = .ok v →
      (∀ m, (assemble i settings prompt override respond).2 = .ok (.ok m) ↔
        m.id = i ∧ validate j v = .ok (m.withId j)) ∧
      ∀ r, validate j v = .error r →
        ∃ s, (assemble i settings prompt override respond).2 = .ok (.error s) ∧
          s.failure.code = r.code := by
  rw [assemble_of_reply hinput hreply]
  constructor
  · intro hnot
    cases hread : Json.read t with
    | ok v => exact absurd ⟨v, hread⟩ hnot
    | error e =>
      cases e with
      | malformed left =>
        exact ⟨⟨Reply.malformed, .translate⟩,
          by simp [Reply.decode, hread, Except.map, validated], rfl⟩
      | longInteger n =>
        exact absurd hread (hshort n (Json.hasLongInteger_of_readChars hread).1)
  · intro v hv
    have hagrees := validated_agrees (Json.isRead_of_readChars hv) i
    rw [validate_fresh i j]
    simp only [Reply.decode, hv, Except.map]
    cases hvalid : validate i v with
    | ok m' =>
      rw [hvalid] at hagrees
      rw [hagrees]
      refine ⟨fun m => ?_, fun r hr => by cases hr⟩
      rw [Except.ok.injEq, Except.ok.injEq, Except.ok.injEq]
      exact Backend.eq_iff_withId (id_of_validate hvalid)
    | error r =>
      rw [hvalid] at hagrees
      obtain ⟨s, hs, hcode⟩ := hagrees
      rw [hs]
      refine ⟨fun m => ?_, fun r' hr' => ⟨s, rfl, ?_⟩⟩
      · simp
      · rw [hcode, Except.error.inj hr']

/-- A reply whose name is a number. -/
theorem Reply.read_numeral : Json.read "\x7b\"name\":7,\"workflows\":[]\x7d" =
    .ok (.obj [("name", .int 7), ("workflows", .arr [])]) := by
  cbv

/-- A name that is a number passes the first check of the shape and not the second, and the reply
is refused for its shape all the same. -/
theorem assemble_agrees_numeral :
    ∃ s, (assemble "0" { apiKey := some "key" } "shop" none fun _ =>
        .reply "\x7b\"name\":7,\"workflows\":[]\x7d").2 = .ok (.error s) ∧
      s.failure.code = .invalidShape := by
  have hinput : Prompt.inputFailure? (some (.plain "shop")) (some "key") = none := by decide
  have hrefused : validate "0" (.obj [("name", .int 7), ("workflows", .arr [])]) =
      .error .noName := rfl
  have hagrees := @assemble_agrees (.plain "shop") _ { apiKey := some "key" } none
    (fun _ => .reply "\x7b\"name\":7,\"workflows\":[]\x7d") hinput (fun _ _ => rfl)
    (fun n _ h => by rw [Reply.read_numeral] at h; cases h) "0" "0"
  exact (hagrees.2 _ Reply.read_numeral).2 .noName hrefused

end Generation

end Nanoservice
