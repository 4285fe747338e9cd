import Nanoservice.Page.Template
import Nanoservice.Proofs.Candidate.Endpoints
import Nanoservice.Proofs.Page.Marks
import Nanoservice.Proofs.Page.Sections

/-!
# Faithful pages

The page of a model by the built-in template has one section for each endpoint, node and workflow,
and a note for an empty collection, if every status of the endpoints can be written; else it is the
page that reports the fault, which has no section (`page_isFaithful`). The note of a collection that
is not empty is found as well where a description of the model is the sentence of the note, since
descriptions are paragraphs like it (`note_beside_section`). No text changes the marks of the page.
-/

namespace Nanoservice.Page

variable {k : Landmark}

/-! ## What a page shows -/

/-- How often a landmark is found in the page of a model. -/
def Landmark.inModel (b : Backend) : Landmark → Nat
  | .opening c => c.size b
  | .note c => (if c.size b = 0 then 1 else 0) + b.descriptions.count c.sentence

/-- A page shows the paragraph of the model's description and its collections. -/
theorem inModel_eq (k : Landmark) (b : Backend) : k.inModel b =
    k.inParagraph b.description.shown +
      k.inCollection .endpoints (b.endpoints.map Endpoint.description) +
      k.inCollection .nodes (b.nodes.map Node.description) +
      k.inCollection .workflows (b.workflows.map Workflow.description) := by
  cases k with
  | opening c =>
    cases c <;> simp [Landmark.inModel, Landmark.inParagraph, Landmark.inCollection,
      Landmark.inSections, Collection.size]
  | note c =>
    cases c <;> simp [Landmark.inModel, Landmark.inParagraph, Landmark.inCollection,
      Landmark.inSections, Collection.size, Backend.descriptions, List.count_cons] <;> omega

theorem shows_documentationPieces (b : Backend) (date : String) :
    Shows k (documentationPieces b date) (k.inModel b) := by
  rw [inModel_eq]
  unfold documentationPieces
  refine (((((((Shows.append_quiet ?_ ?_).append ?_).append_quiet ?_).append ?_).append_quiet
    ?_).append ?_).append_quiet ?_)
  · exact shows_headPieces b date
  · exact .line (.literal rfl) .nil
  · exact shows_orNote (c := .endpoints) shows_endpointSection b.endpoints
  · exact .line (.literal rfl) (.line (.literal rfl) .nil)
  · exact shows_orNote (c := .nodes) shows_nodeSection b.nodes
  · exact .line (.literal rfl) (.line (.literal rfl) .nil)
  · exact shows_orNote (c := .workflows) shows_workflowSection b.workflows
  · exact .line (.literal rfl) (.line (.literal rfl) (.line (.literal rfl) (.line (.literal rfl)
      (.line (.literal rfl) (.line (.literal rfl) (.markup (.literal rfl) .nil))))))

/-- A landmark stands in a page as often as the pieces of the page show it. -/
theorem Shows.occurrences_eq {xs : List Piece} {n : Nat} (h : Shows k xs n) :
    occurrences k.text (ofPieces xs) = n := by
  have hshows := h []
  rw [List.append_nil] at hshows
  rw [occurrences, ofPieces, String.toList_ofList, hshows]
  rfl

/-- A note stands in a page where its collection is empty or its sentence a description. -/
theorem note_infix_iff (c : Collection) (b : Backend) (date : String) :
    (Landmark.note c).text.toList <:+: (ofPieces (documentationPieces b date)).toList ↔
      c.size b = 0 ∨ c.sentence ∈ b.descriptions := by
  have hne : (Landmark.note c).text.toList ≠ [] := by
    simp [Landmark.toList_note]
  rw [← count_pos_iff hne, ← occurrences, (shows_documentationPieces b date).occurrences_eq,
    Landmark.inModel]
  split
  · next h => simp [h, Nat.add_comm 1]
  · next h => simp [h, List.count_pos_iff]

/-! ## Faithful pages -/

/-- A page that says what a model has. -/
structure IsFaithful (b : Backend) (page : String) : Prop where
  /-- Each part of a collection has a section. -/
  sections : ∀ c, occurrences (Landmark.opening c).text page = c.size b
  /-- The note of a collection is there if the collection is empty, or a description is the sentence
  of the note. -/
  notes : ∀ c, (Landmark.note c).text.toList <:+: page.toList ↔
    c.size b = 0 ∨ c.sentence ∈ b.descriptions
  /-- A model that differs only in texts has a page with the same marks, on whatever day. -/
  marks : ∀ b' date, b'.withoutTexts = b.withoutTexts →
    marks (ofPieces (pieces b' date builtInTemplate)) = Page.marks page

/-- The page of a model by the built-in template, if the statuses of the model can be written. -/
theorem pieces_builtIn {b : Backend} (h : b.HasShortStatuses) (date : String) :
    pieces b date builtInTemplate = documentationPieces b date := by
  have hall : b.endpoints.all Endpoint.hasShortStatuses = true :=
    List.all_eq_true.2 fun e he => Endpoint.hasShortStatuses_iff.2 (h e he)
  rw [pieces, if_pos rfl, fillBuiltIn, if_pos hall]

/-- The page of a model with a status that cannot be written reports that. -/
theorem pieces_builtIn_unwritable {b : Backend} (h : ¬ b.HasShortStatuses) (date : String) :
    pieces b date builtInTemplate = errorPieces TemplateFault.longInteger.message := by
  have hall : ¬ b.endpoints.all Endpoint.hasShortStatuses = true := fun hall =>
    h fun e he => Endpoint.hasShortStatuses_iff.1 (List.all_eq_true.1 hall e he)
  rw [pieces, if_pos rfl, fillBuiltIn, if_neg hall]

/-- Models that differ only in texts have the same statuses. -/
theorem hasShortStatuses_withoutTexts {b : Backend} :
    b.withoutTexts.HasShortStatuses ↔ b.HasShortStatuses := by
  simp [Backend.HasShortStatuses, Endpoint.HasShortStatuses, Backend.withoutTexts,
    Endpoint.withoutTexts, Response.withoutTexts]

/-- The page of a model by the built-in template is faithful to the model exactly if every status of
its endpoints can be written. -/
theorem page_isFaithful (b : Backend) (date : String) :
    IsFaithful b (ofPieces (pieces b date builtInTemplate)) ↔ b.HasShortStatuses := by
  constructor
  · intro h
    by_contra hlong
    -- The page that reports the fault has no section, so there would be no endpoint at all.
    have hsections := h.sections .endpoints
    rw [pieces_builtIn_unwritable hlong, (shows_errorPieces _).occurrences_eq] at hsections
    have hnone : b.endpoints = [] := List.eq_nil_of_length_eq_zero hsections.symm
    exact hlong fun e he => by simp [hnone] at he
  · intro hshort
    rw [pieces_builtIn hshort]
    refine ⟨fun c => (shows_documentationPieces b date).occurrences_eq,
      fun c => note_infix_iff c b date, fun b' date' h => ?_⟩
    have hshort' : b'.HasShortStatuses := by
      rwa [← hasShortStatuses_withoutTexts, h, hasShortStatuses_withoutTexts]
    rw [pieces_builtIn hshort']
    exact marks_documentationPieces_congr h date' date

/-- A model with an endpoint, which is described by the sentence in place of endpoints. -/
def described : Backend :=
  .ofListings Collection.endpoints.sentence [("w", "")]

/-- The note in place of endpoints stands in the page of a model with an endpoint, beside the
section of the endpoint. -/
theorem note_beside_section : (∃ raw, Candidate.validate "0" raw = .ok described) ∧
    described.endpoints ≠ [] ∧ (Landmark.note .endpoints).text.toList <:+:
      (ofPieces (pieces described "2024-01-02" builtInTemplate)).toList := by
  have hshort : described.HasShortStatuses := fun e he => by
    obtain rfl := List.mem_singleton.1 he
    exact fun r hr => absurd hr List.not_mem_nil
  refine ⟨⟨_, Backend.validate_ofListings _ (by simp) (by simp)⟩, List.cons_ne_nil _ _, ?_⟩
  rw [pieces_builtIn hshort, note_infix_iff]
  exact .inr List.mem_cons_self

end Nanoservice.Page
