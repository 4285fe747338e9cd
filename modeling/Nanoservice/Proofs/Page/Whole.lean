import Nanoservice.Page.Store
import Nanoservice.Proofs.Backend.Writable
import Nanoservice.Proofs.Reading

/-!
# Pages that can be sent

A page can be sent when none of its pieces holds half of a surrogate pair. Markup never does, and of
a model the page shows texts only, so the page by the built-in template can be sent when the texts
can that it shows (`Page.areWhole_documentationPieces_iff`). Other templates show texts of the
model, or parts of it as literals, in which halves are escaped. So no template keeps the page of a
model with whole texts from being sent (`Backend.areWhole_pagePieces`). -/

namespace Nanoservice

/-- The texts of a workflow that a page shows, names aside. -/
def Workflow.pageTexts (w : Workflow) : List RawText :=
  w.description :: (w.nodes ++ w.endpoints.map Endpoint.path)

/-- The texts of a model that a page shows, names aside. -/
def Backend.pageTexts (b : Backend) : List RawText :=
  b.description :: b.version :: (b.endpoints.flatMap Endpoint.texts ++
    b.nodes.flatMap Node.texts ++ b.workflows.flatMap Workflow.pageTexts)

/-- What a page shows of a model are texts of the model. -/
theorem Backend.mem_texts_of_page {b : Backend} {t : RawText} (h : t ∈ b.pageTexts) :
    t ∈ b.texts := by
  have hworkflow (w : Workflow) : ∀ u ∈ w.pageTexts, u ∈ w.texts := by
    intro u hu
    simp only [Workflow.pageTexts, Workflow.texts, List.mem_cons, List.mem_append, List.mem_map,
      List.mem_flatMap] at hu ⊢
    rcases hu with hu | hu | ⟨e, he, rfl⟩
    · exact .inl hu
    · exact .inr (.inl hu)
    · exact .inr (.inr ⟨e, he, List.mem_cons_self⟩)
  simp only [pageTexts, texts, List.mem_cons, List.mem_append, List.mem_flatMap] at h ⊢
  rcases h with h | h | (⟨e, he, h⟩ | ⟨n, hn, h⟩) | ⟨w, hw, h⟩
  · exact .inr (.inl h)
  · exact .inr (.inr (.inl h))
  · exact .inr (.inr (.inr (.inr ⟨e, he, h⟩)))
  · exact .inr (.inr (.inr (.inl (.inl ⟨n, hn, h⟩))))
  · exact .inr (.inr (.inr (.inl (.inr ⟨w, hw, hworkflow w t h⟩))))

namespace Page

/-- No piece holds half of a surrogate pair. -/
def AreWhole (xs : List Piece) : Prop :=
  ∀ x ∈ xs, x.isWhole = true

variable {xs ys : List Piece}

@[simp] theorem areWhole_nil : AreWhole [] :=
  List.forall_mem_nil _

@[simp] theorem areWhole_cons {x : Piece} : AreWhole (x :: xs) ↔ x.isWhole = true ∧ AreWhole xs :=
  List.forall_mem_cons

@[simp] theorem areWhole_append : AreWhole (xs ++ ys) ↔ AreWhole xs ∧ AreWhole ys :=
  List.forall_mem_append

@[simp] theorem areWhole_flatMap {α : Type} {f : α → List Piece} {as : List α} :
    AreWhole (as.flatMap f) ↔ ∀ a ∈ as, AreWhole (f a) :=
  List.forall_mem_flatMap

@[simp] theorem isWhole_markup (s : String) : (Piece.markup s).isWhole = true := rfl

@[simp] theorem isWhole_line (s : String) : (Piece.line s).isWhole = true := rfl

@[simp] theorem isWhole_text (t : RawText) : (Piece.text t).isWhole = t.isWhole := rfl

@[simp] theorem areWhole_around (before : String) (t : RawText) (after : String) :
    AreWhole (around before t after) ↔ t.isWhole = true := by
  simp [around]

@[simp] theorem areWhole_table (head : String) : AreWhole (table head xs) ↔ AreWhole xs := by
  simp [table]

/-- What is shown only if there is something is whole when that is. -/
theorem areWhole_ite {p : Bool} (h : p = true → AreWhole xs) :
    AreWhole (if p then [] else xs) ↔ AreWhole xs := by
  cases p
  · exact Iff.rfl
  · exact ⟨fun _ => h rfl, fun _ => areWhole_nil⟩

/-- Parts in order, or the note in their place, are whole when the parts are. -/
@[simp] theorem areWhole_orNote {α : Type} (note : String) (pieces : α → List Piece)
    (as : List α) : AreWhole (orNote note pieces as) ↔ ∀ a ∈ as, AreWhole (pieces a) := by
  cases as with
  | nil => simp [orNote]
  | cons a as => simp [orNote]

/-! ## The parts of a page -/

theorem areWhole_endpointSection {e : Endpoint} :
    AreWhole (endpointSection e) ↔ ∀ t ∈ e.texts, t.isWhole = true := by
  have hparameters : AreWhole (e.parameters.flatMap parameterRow) ↔
      ∀ p ∈ e.parameters, p.description.isWhole = true := by
    simp [parameterRow]
  have hresponses : AreWhole (e.responses.flatMap responseRow) ↔
      ∀ r ∈ e.responses, r.description.isWhole = true := by
    simp [responseRow]
  simp only [Endpoint.texts, List.forall_mem_cons, List.forall_mem_append, List.forall_mem_map]
  rw [← hparameters, ← hresponses, endpointSection]
  simp only [areWhole_append, areWhole_cons, areWhole_around, areWhole_nil, isWhole_line]
  rw [areWhole_ite fun h => by simp [List.isEmpty_iff.1 h],
    areWhole_ite fun h => by simp [List.isEmpty_iff.1 h]]
  simp [and_assoc]

theorem areWhole_nodeSection {n : Node} :
    AreWhole (nodeSection n) ↔ ∀ t ∈ n.texts, t.isWhole = true := by
  have hfields (direction : String) (fs : List Field) :
      AreWhole (fs.flatMap (fieldRow direction)) ↔ ∀ f ∈ fs, f.description.isWhole = true := by
    simp [fieldRow]
  simp only [Node.texts, List.map_append, List.forall_mem_cons, List.forall_mem_append,
    List.forall_mem_map]
  rw [← hfields "input", ← hfields "output", nodeSection]
  simp only [areWhole_append, areWhole_cons, areWhole_around, areWhole_nil, isWhole_line]
  rw [areWhole_ite fun h => by
    rw [Bool.and_eq_true, List.isEmpty_iff, List.isEmpty_iff] at h
    simp [h.1, h.2]]
  simp

theorem areWhole_arrows {ts : List RawText} :
    AreWhole (arrows ts) ↔ ∀ t ∈ ts, t.isWhole = true := by
  induction ts using arrows.induct with
  | case1 => simp [arrows]
  | case2 t => simp [arrows]
  | case3 t ts hne ih =>
    rw [arrows, areWhole_cons, areWhole_cons, ih, List.forall_mem_cons, isWhole_text]
    · simp
    · exact hne

theorem areWhole_served {es : List Endpoint} :
    AreWhole (served es) ↔ ∀ e ∈ es, e.path.isWhole = true := by
  induction es using served.induct with
  | case1 => simp [served]
  | case2 e => simp [served]
  | case3 e es hne ih =>
    rw [served, areWhole_append, ih, List.forall_mem_cons]
    · simp
    · exact hne

theorem areWhole_workflowSection {w : Workflow} :
    AreWhole (workflowSection w) ↔ ∀ t ∈ w.pageTexts, t.isWhole = true := by
  simp only [Workflow.pageTexts, List.forall_mem_cons, List.forall_mem_append, List.forall_mem_map]
  rw [← areWhole_arrows, ← areWhole_served, workflowSection]
  simp only [areWhole_append, areWhole_cons, areWhole_around, areWhole_nil, isWhole_line]
  rw [areWhole_ite fun h => by simp [List.isEmpty_iff.1 h, arrows],
    areWhole_ite fun h => by simp [List.isEmpty_iff.1 h, served]]
  simp [and_assoc]

/-! ## Pages -/

theorem areWhole_headPieces {b : Backend} {date : String} :
    AreWhole (headPieces b date) ↔ b.description.isWhole = true ∧ b.version.isWhole = true := by
  have hstyles : AreWhole (styleLines.map Piece.line) :=
    List.forall_mem_map.2 fun s _ => isWhole_line s
  simp [headPieces, hstyles]

/-- The page of a model by the built-in template can be sent when the texts can that it shows. -/
theorem areWhole_documentationPieces_iff {b : Backend} {date : String} :
    AreWhole (documentationPieces b date) ↔ ∀ t ∈ b.pageTexts, t.isWhole = true := by
  simp only [documentationPieces, Backend.pageTexts, areWhole_append, areWhole_orNote,
    areWhole_headPieces, areWhole_endpointSection, areWhole_nodeSection, areWhole_workflowSection,
    areWhole_cons, areWhole_nil, isWhole_line, isWhole_markup, List.forall_mem_cons,
    List.forall_mem_append, List.forall_mem_flatMap]
  tauto

theorem areWhole_errorPieces (message : String) : AreWhole (errorPieces message) := by
  simp [errorPieces]

/-! ## Pages by other templates -/

/-- A text that is whole, or a model whose texts are; what else a place can show is always whole. -/
def Value.IsWhole : Value → Prop
  | .text t => t.isWhole = true
  | .model b => ∀ t ∈ b.texts, t.isWhole = true
  | _ => True

theorem Value.isWhole_of_modelAttribute? {b : Backend} (h : ∀ t ∈ b.texts, t.isWhole = true)
    {name : String} {v : Value} (hv : modelAttribute? b name = some v) : v.IsWhole := by
  simp only [Backend.texts, List.forall_mem_cons] at h
  unfold modelAttribute? at hv
  split at hv <;> cases hv
  case h_1 => exact h.1
  case h_2 => exact RawText.isWhole_plain _
  case h_3 => exact h.2.1
  case h_4 => exact h.2.2.1
  all_goals trivial

theorem Value.isWhole_of_member {v w : Value} (h : v.IsWhole) {name : String}
    (hw : v.member name = .ok w) : w.IsWhole := by
  cases v with
  | model b =>
    simp only [member] at hw
    split at hw
    · next hfound =>
      cases hw
      exact isWhole_of_modelAttribute? h hfound
    · cases hw
  | text | count | sequence => cases hw

theorem Value.isWhole_of_ofName {b : Backend} (h : ∀ t ∈ b.texts, t.isWhole = true)
    {date name : String} {v : Value} (hv : ofName b date name = .ok v) : v.IsWhole := by
  have htexts := h
  simp only [Backend.texts, List.forall_mem_cons] at htexts
  unfold ofName at hv
  split at hv <;> cases hv
  case h_1 => exact h
  case h_3 => exact htexts.2.1
  case h_4 => exact htexts.2.2.1
  all_goals exact RawText.isWhole_plain _

theorem Value.isWhole_of_foldlM {v w : Value} (h : v.IsWhole) {attributes : List String}
    (hw : attributes.foldlM member v = .ok w) : w.IsWhole := by
  induction attributes generalizing v with
  | nil =>
    cases hw
    exact h
  | cons name attributes ih =>
    rw [List.foldlM_cons] at hw
    obtain ⟨u, hu, hw⟩ := bind_eq_ok.1 hw
    exact ih (isWhole_of_member h hu) hw

/-- A whole value is shown as a whole text; a model is shown with its texts as literals. -/
theorem Value.isWhole_of_shown? {v : Value} (h : v.IsWhole) {t : RawText}
    (ht : v.shown? = some t) : t.isWhole = true := by
  cases v with
  | text u =>
    cases ht
    exact h
  | count n =>
    cases ht
    rfl
  | sequence s =>
    obtain ⟨u, -, rfl⟩ := Option.map_eq_some_iff.1 ht
    rfl
  | model b =>
    rw [shown?, Option.ite_none_right_eq_some] at ht
    obtain rfl := Option.some.inj ht.2
    rfl

theorem isWhole_pieceOf {b : Backend} (h : ∀ t ∈ b.texts, t.isWhole = true) {date : String}
    {part : TemplatePart} {x : Piece} (hx : pieceOf b date part = .ok x) : x.isWhole = true := by
  cases part with
  | plain cs =>
    cases hx
    rfl
  | place name attributes =>
    rw [pieceOf] at hx
    obtain ⟨v, hv, hx⟩ := bind_eq_ok.1 hx
    obtain ⟨w, hw, hx⟩ := bind_eq_ok.1 hx
    have hwhole := Value.isWhole_of_foldlM (Value.isWhole_of_ofName h hv) hw
    split at hx
    · next t ht =>
      cases hx
      exact Value.isWhole_of_shown? hwhole ht
    · cases hx

theorem areWhole_of_mapM {b : Backend} (h : ∀ t ∈ b.texts, t.isWhole = true) {date : String}
    {parts : List TemplatePart} {xs : List Piece} (hxs : parts.mapM (pieceOf b date) = .ok xs) :
    AreWhole xs := by
  induction parts generalizing xs with
  | nil =>
    cases hxs
    exact areWhole_nil
  | cons part parts ih =>
    rw [List.mapM_cons] at hxs
    obtain ⟨x, hx, hxs⟩ := bind_eq_ok.1 hxs
    obtain ⟨rest, hrest, hxs⟩ := bind_eq_ok.1 hxs
    cases hxs
    exact areWhole_cons.2 ⟨isWhole_pieceOf h hx, ih hrest⟩

/-- The page by a template, or the one that says why there is none, can be sent when the texts of
the model are whole. -/
theorem areWhole_pieces {b : Backend} (h : ∀ t ∈ b.texts, t.isWhole = true)
    (date source : String) : AreWhole (pieces b date source) := by
  unfold pieces
  split
  · next ps hps =>
    split at hps
    · rw [fillBuiltIn] at hps
      split at hps
      · cases hps
        exact areWhole_documentationPieces_iff.2 fun t ht => h t (Backend.mem_texts_of_page ht)
      · cases hps
    · obtain ⟨parts, -, hps⟩ := bind_eq_ok.1 hps
      exact areWhole_of_mapM h hps
  · exact areWhole_errorPieces _

end Page

/-- The page of a model by the stored template can be sent when the texts of the model are whole. -/
theorem Backend.areWhole_pagePieces {b : Backend} (h : ∀ t ∈ b.texts, t.isWhole = true)
    (folder : Path) (date : String) (d : Disk) : Page.AreWhole (b.pagePieces folder date d).2 := by
  unfold pagePieces
  split
  · exact Page.areWhole_pieces h date _
  · exact Page.areWhole_errorPieces _

end Nanoservice
