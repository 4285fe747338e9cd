import Nanoservice.Proofs.Page.Landmarks
import Nanoservice.Proofs.Text.Digits

/-!
# What the sections of a page show

Tables, headings and lists of references are quiet. So a section shows the tag that opens it and
whatever note its description is the sentence of, and a page shows the tags of all parts, and a note
for each empty collection and for each description that is its sentence.
-/

namespace Nanoservice

/-- The descriptions in a model that a page shows as paragraphs, in the order of the page. -/
def Backend.descriptions (b : Backend) : List String :=
  (b.description :: (b.endpoints.map Endpoint.description ++ b.nodes.map Node.description ++
    b.workflows.map Workflow.description)).map RawText.shown

namespace Page

open Piece (line)

variable {k : Landmark}

/-! ## Keywords and numbers -/

theorem isQuiet_location (l : Location) : IsQuiet l.keyword := by
  cases l <;> exact .literal rfl

theorem isQuiet_type (t : ValueType) : IsQuiet t.keyword := by
  cases t <;> exact .literal rfl

theorem isQuiet_kind (t : NodeKind) : IsQuiet t.keyword := by
  cases t <;> exact .literal rfl

theorem isQuiet_method (m : Method) : IsQuiet m.keyword := by
  cases m <;> exact .literal rfl

theorem isQuiet_lowerName (m : Method) : IsQuiet m.lowerName := by
  cases m <;> exact .literal rfl

theorem isQuiet_statusClass (status : Int) : IsQuiet (statusClass status) := by
  simp only [statusClass]
  split
  · exact .literal rfl
  split
  · exact .literal rfl
  split <;> exact .literal rfl

theorem isQuiet_intChars (n : Int) : IsQuiet (String.ofList (Text.intChars n)) := by
  have hdigits : '<' ∉ Nat.toDigits 10 n.natAbs := fun h => by
    cases Text.isAsciiDigit_of_mem_toDigits h
  refine .literal (quiet_of_not_mem ?_)
  unfold Text.intChars
  split
  · simpa using hdigits
  · exact hdigits

/-- Fixed markup around a keyword or number is quiet. -/
theorem IsQuiet.between {s : String} (h : IsQuiet s) {cs ds : List Char} (hc : quiet cs = true)
    (hd : quiet ds = true) : IsQuiet (String.ofList cs ++ s ++ String.ofList ds) :=
  ((IsQuiet.literal hc).append h).append (.literal hd)

/-! ## Tables and lists of references -/

/-- A table of quiet rows is quiet. -/
theorem areQuiet_table {head : String} {rows : List Piece} (hhead : IsQuiet head)
    (hrows : AreQuiet rows) : AreQuiet (table head rows) := by
  unfold table
  refine (AreQuiet.append ?_ hrows).append ?_
  · exact .line (.literal rfl) (.line (.literal rfl) (.line (hhead.between rfl rfl)
      (.line (.literal rfl) (.line (.literal rfl) .nil))))
  · exact .line (.literal rfl) (.line (.literal rfl) .nil)

theorem areQuiet_parameterRow (p : Parameter) : AreQuiet (parameterRow p) := by
  have hrequired : IsQuiet (if p.required then "Yes" else "No") := by
    cases p.required <;> exact .literal rfl
  unfold parameterRow
  refine (((AreQuiet.append ?_ ?_).append ?_).append ?_).append ?_
  · exact .line (.literal rfl) .nil
  · exact .around (.literal rfl) (.literal rfl) p.name
  · exact .line ((isQuiet_location _).between rfl rfl) (.line ((isQuiet_type _).between rfl rfl)
      (.line (hrequired.between rfl rfl) .nil))
  · exact .around (.literal rfl) (.literal rfl) p.description
  · exact .line (.literal rfl) .nil

theorem areQuiet_responseRow (r : Response) : AreQuiet (responseRow r) := by
  unfold responseRow
  refine (AreQuiet.append ?_ ?_).append ?_
  · exact .line (.literal rfl) (.line ((((isQuiet_statusClass _).between rfl rfl).append
      (isQuiet_intChars _)).append (.literal rfl)) .nil)
  · exact .around (.literal rfl) (.literal rfl) r.description
  · exact .line (.literal rfl) .nil

theorem areQuiet_fieldRow {direction : String} (h : IsQuiet direction) (f : Field) :
    AreQuiet (fieldRow direction f) :=
  .markup (h.between rfl rfl) (.text _ (.markup ((isQuiet_type _).between rfl rfl)
    (.text _ (.line (.literal rfl) .nil))))

theorem areQuiet_arrows (ts : List RawText) : AreQuiet (arrows ts) := by
  induction ts using arrows.induct with
  | case1 => exact .nil
  | case2 t => exact .text t .nil
  | case3 t ts hne ih =>
    rw [arrows]
    · exact .text t (.markup (.literal rfl) ih)
    · exact hne

theorem areQuiet_served (es : List Endpoint) : AreQuiet (served es) := by
  induction es using served.induct with
  | case1 => exact .nil
  | case2 e =>
    exact .markup ((isQuiet_method _).between rfl rfl) (.text _ (.markup (.literal rfl) .nil))
  | case3 e es hne ih =>
    rw [served]
    · exact .markup ((isQuiet_method _).between rfl rfl) (.text _ (.markup (.literal rfl) ih))
    · exact hne

/-! ## Sections -/

/-- A section shows the tag that opens it, and the note whose sentence its description is. -/
def Landmark.inSection (c : Collection) (description : RawText) (k : Landmark) : Nat :=
  (if k = .opening c then 1 else 0) + k.inParagraph description.shown

theorem shows_endpointSection (e : Endpoint) :
    Shows k (endpointSection e) (k.inSection .endpoints e.description) := by
  unfold endpointSection
  refine (((((Shows.append_quiet ?_ ?_).append_quiet ?_).append ?_).append_quiet ?_).append_quiet
    ?_).append_quiet ?_
  · refine (shows_opening (c := .endpoints) rfl).append_quiet ?_
    exact .line (.literal rfl) (.line ((((isQuiet_lowerName _).between rfl rfl).append
      (isQuiet_method _)).append (.literal rfl)) .nil)
  · exact .around (.literal rfl) (.literal rfl) e.path
  · exact .line (.literal rfl) .nil
  · exact shows_paragraph "      " rfl (.literal rfl) e.description
  · exact .ite (.line (.literal rfl) (areQuiet_table ((IsQuiet.literal rfl).append (.literal rfl))
      (.flatMap areQuiet_parameterRow _)))
  · exact .ite (.line (.literal rfl) (areQuiet_table (.literal rfl)
      (.flatMap areQuiet_responseRow _)))
  · exact .line (.literal rfl) .nil

theorem shows_nodeSection (n : Node) :
    Shows k (nodeSection n) (k.inSection .nodes n.description) := by
  have hinputs : AreQuiet (n.inputs.flatMap (fieldRow "input")) :=
    .flatMap (areQuiet_fieldRow (.literal rfl)) _
  have houtputs : AreQuiet (n.outputs.flatMap (fieldRow "output")) :=
    .flatMap (areQuiet_fieldRow (.literal rfl)) _
  unfold nodeSection
  refine ((Shows.append ?_ ?_).append_quiet ?_).append_quiet ?_
  · refine (shows_opening (c := .nodes) rfl).append_quiet ?_
    exact .markup (.literal rfl) (.text _ (.line ((isQuiet_kind _).between rfl rfl) .nil))
  · exact shows_paragraph "      " rfl (.literal rfl) n.description
  · exact .ite (areQuiet_table (.literal rfl) (hinputs.append houtputs))
  · exact .line (.literal rfl) .nil

theorem shows_workflowSection (w : Workflow) :
    Shows k (workflowSection w) (k.inSection .workflows w.description) := by
  unfold workflowSection
  refine ((((Shows.append_quiet ?_ ?_).append ?_).append_quiet ?_).append_quiet ?_).append_quiet ?_
  · exact shows_opening (c := .workflows) rfl
  · exact .around (.literal rfl) (.literal rfl) w.name
  · exact shows_paragraph "      " rfl (.literal rfl) w.description
  · exact .ite (.markup (.literal rfl) ((areQuiet_arrows _).append (.line (.literal rfl) .nil)))
  · exact .ite (.line (.literal rfl) ((areQuiet_served _).append (.line (.literal rfl) .nil)))
  · exact .line (.literal rfl) .nil

/-! ## Collections -/

/-- What the sections of parts with these descriptions show: the tags that open them, and the notes
whose sentences the descriptions are. -/
def Landmark.inSections (c : Collection) (descriptions : List RawText) : Landmark → Nat
  | .opening d => if d = c then descriptions.length else 0
  | .note d => (descriptions.map RawText.shown).count d.sentence

theorem inSections_cons (k : Landmark) (c : Collection) (t : RawText) (ts : List RawText) :
    k.inSections c (t :: ts) = k.inSection c t + k.inSections c ts := by
  cases k with
  | opening d =>
    by_cases hd : d = c
    · simp [Landmark.inSections, Landmark.inSection, Landmark.inParagraph, hd, Nat.add_comm]
    · simp [Landmark.inSections, Landmark.inSection, Landmark.inParagraph, hd]
  | note d =>
    simp [Landmark.inSections, Landmark.inSection, Landmark.inParagraph, List.count_cons,
      Nat.add_comm]

/-- The sections of parts show what each section does. -/
theorem shows_flatMap {α : Type} {pieces : α → List Piece} {description : α → RawText}
    {c : Collection} (h : ∀ a, Shows k (pieces a) (k.inSection c (description a))) (as : List α) :
    Shows k (as.flatMap pieces) (k.inSections c (as.map description)) := by
  induction as with
  | nil =>
    have hzero : k.inSections c [] = 0 := by
      cases k <;> simp [Landmark.inSections]
    rw [List.map_nil, hzero]
    exact AreQuiet.nil.shows
  | cons a as ih =>
    rw [List.map_cons, inSections_cons]
    exact (h a).append ih

/-- What a collection shows: its sections, or its note if it is empty. -/
def Landmark.inCollection (c : Collection) (descriptions : List RawText) (k : Landmark) : Nat :=
  (if k = .note c ∧ descriptions = [] then 1 else 0) + k.inSections c descriptions

theorem shows_orNote {α : Type} {pieces : α → List Piece} {description : α → RawText}
    {c : Collection} (h : ∀ a, Shows k (pieces a) (k.inSection c (description a))) (as : List α) :
    Shows k (orNote c.sentence pieces as) (k.inCollection c (as.map description)) := by
  cases as with
  | nil =>
    -- The note of an empty collection is a paragraph that holds its sentence.
    have hchars : (orNote c.sentence pieces []).flatMap Piece.chars =
        (around "    <p>" c.sentence "</p>").flatMap Piece.chars := by
      simp [orNote, around, Piece.line, Piece.chars, (sentence_plain c).2.2]
    have hnote : k.inCollection c (List.map description []) = k.inParagraph c.sentence := by
      cases k with
      | opening d => simp [Landmark.inCollection, Landmark.inSections, Landmark.inParagraph]
      | note d =>
        have hsentence : c.sentence = d.sentence ↔ d = c := by
          cases c <;> cases d <;> simp [Collection.sentence]
        simp [Landmark.inCollection, Landmark.inSections, Landmark.inParagraph, hsentence]
    rw [hnote]
    exact .congr hchars (shows_paragraph "    " rfl (.literal rfl) c.sentence)
  | cons a as =>
    have hsections : k.inCollection c (List.map description (a :: as)) =
        k.inSections c (List.map description (a :: as)) := by
      simp [Landmark.inCollection]
    rw [hsections]
    exact shows_flatMap h (a :: as)

/-! ## Pages -/

set_option maxRecDepth 2000 in
theorem areQuiet_styles : AreQuiet (styleLines.map line) := by
  have hlines : ∀ s ∈ styleLines, IsQuiet s := by
    simp only [styleLines, List.forall_mem_cons, List.not_mem_nil, false_imp_iff, implies_true,
      and_true]
    and_intros <;> exact .literal (by decide +kernel)
  generalize styleLines = ss at hlines
  induction ss with
  | nil => exact .nil
  | cons s ss ih =>
    exact .line (hlines s List.mem_cons_self) (ih fun t ht => hlines t (List.mem_cons_of_mem s ht))

/-- The head of a page shows the paragraph of the model's description. -/
theorem shows_headPieces (b : Backend) (date : String) :
    Shows k (headPieces b date) (k.inParagraph b.description.shown) := by
  rw [← Nat.zero_add (k.inParagraph b.description.shown)]
  unfold headPieces
  refine ((Shows.append (AreQuiet.shows ?_) ?_).append_quiet ?_).append_quiet ?_
  · refine (((AreQuiet.append ?_ ?_).append areQuiet_styles).append ?_).append ?_
    · exact .line (.literal rfl) (.line (.literal rfl) (.line (.literal rfl) (.line (.literal rfl)
        (.line (.literal rfl) .nil))))
    · exact .around (.literal rfl) (.literal rfl) (pageTitle b)
    · exact .line (.literal rfl) (.line (.literal rfl) (.line (.literal rfl) .nil))
    · exact .around (.literal rfl) (.literal rfl) b.name
  · exact shows_paragraph "    " rfl (.literal rfl) b.description
  · exact .markup (.literal rfl) (.text _ (.markup (.literal rfl) (.text _
      (.line (.literal rfl) .nil))))
  · exact .line (.literal rfl) (.line (.literal rfl) (.line (.literal rfl) .nil))

/-! ## Pages that report a fault -/

/-- The box around the message opens no section. -/
theorem shows_errorBox : Shows k [line "    <div class=\"error\">"] 0 := by
  intro rest
  have hchars : [line "    <div class=\"error\">"].flatMap Piece.chars ++ rest =
      [' ', ' ', ' ', ' '] ++ ('<' :: "div class=\"error\">\n".toList ++ rest) := by
    simp [Piece.line, Piece.chars]
  have hnone : ¬ k.text.toList <+: '<' :: "div class=\"error\">\n".toList ++ rest := by
    cases k with
    | opening c =>
      cases c <;> simp [Landmark.toList_opening, Collection.className, List.cons_prefix_cons]
    | note c => simp [Landmark.toList_note, List.cons_prefix_cons]
  rw [hchars, count_quiet_append k rfl, count_bracket k (by simp), if_neg hnone]

/-- A page that reports a fault shows the paragraph of the message only. -/
theorem shows_errorPieces (message : String) :
    Shows k (errorPieces message) (k.inParagraph message) := by
  rw [← Nat.zero_add (k.inParagraph message)]
  unfold errorPieces
  refine (Shows.append ?_ ?_).append_quiet ?_
  · refine .line (.literal rfl) (.line (.literal rfl) (.line (.literal rfl) (.line (.literal rfl)
      (.line (.literal rfl) (.line ?_ (.line ?_ (.line (.literal rfl) (.line (.literal rfl)
      (.line (.literal rfl) (.line (.literal rfl) ?_))))))))))
    · exact (IsQuiet.literal rfl).append (.literal rfl)
    · exact (IsQuiet.literal rfl).append (.literal rfl)
    · exact shows_errorBox.append_quiet (.line (.literal rfl) .nil)
  · exact shows_paragraph "      " rfl (.literal rfl) message
  · exact .line (.literal rfl) (.line (.literal rfl) (.line (.literal rfl) (.line (.literal rfl)
      .nil)))

end Page
end Nanoservice
