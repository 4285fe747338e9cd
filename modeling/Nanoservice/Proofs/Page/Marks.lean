import Nanoservice.Page.Documentation

/-!
# The marks of a page

The marks of a page are its angle brackets and quotes, the characters that open and close tags and
attributes. A text adds none to a page (`Piece.marks_text`), so the marks of every part of a page
are those of the part with all texts left blank (the `marks_` lemmas), and two models that differ
only in texts have pages with the same marks (`marks_documentationPieces_congr`).
-/

namespace Nanoservice

/-! ## Models without their texts

The texts of a model are its names, descriptions, paths, version and references. Identities and
schemas, which no page shows, are left blank with them.
-/

/-- An input or output with blank texts. -/
def Field.withoutTexts (f : Field) : Field :=
  { f with name := "", description := .plain "" }

/-- A node with blank texts. -/
def Node.withoutTexts (n : Node) : Node :=
  { n with
    name := ""
    description := .plain ""
    inputs := n.inputs.map Field.withoutTexts
    outputs := n.outputs.map Field.withoutTexts }

/-- A parameter with blank texts. -/
def Parameter.withoutTexts (p : Parameter) : Parameter :=
  { p with name := "", description := .plain "" }

/-- A response with a blank description and no schema. -/
def Response.withoutTexts (r : Response) : Response :=
  { r with description := .plain "", schema := none }

/-- An endpoint with blank texts. -/
def Endpoint.withoutTexts (e : Endpoint) : Endpoint :=
  { e with
    path := .plain ""
    description := .plain ""
    parameters := e.parameters.map Parameter.withoutTexts
    responses := e.responses.map Response.withoutTexts }

/-- A workflow with blank texts, as many references among them as before. -/
def Workflow.withoutTexts (w : Workflow) : Workflow :=
  { name := ""
    description := .plain ""
    nodes := w.nodes.map fun _ => .plain ""
    endpoints := w.endpoints.map Endpoint.withoutTexts }

/-- A model with blank texts. -/
def Backend.withoutTexts (b : Backend) : Backend :=
  { id := .plain ""
    name := ""
    description := .plain ""
    version := .plain ""
    nodes := b.nodes.map Node.withoutTexts
    workflows := b.workflows.map Workflow.withoutTexts
    endpoints := b.endpoints.map Endpoint.withoutTexts }

namespace Page

/-! ## Marks of pieces -/

/-- The characters of a page that open and close tags and attributes, in order. -/
def marks (page : String) : List Char :=
  page.toList.filter isStructural

/-- The marks of a piece. -/
def Piece.marks (x : Piece) : List Char :=
  x.chars.filter isStructural

/-- A text adds no marks to a page. -/
@[simp] theorem Piece.marks_text (t : RawText) : (Piece.text t).marks = [] := by
  refine List.filter_eq_nil_iff.2 fun c hc => ?_
  obtain ⟨d, -, hd⟩ := List.mem_flatMap.1 hc
  simp [isStructural_of_mem_escapeChar hd]

/-- The marks of pieces are those of each piece in order. -/
def marksOf (pieces : List Piece) : List Char :=
  pieces.flatMap Piece.marks

theorem marks_ofPieces (pieces : List Piece) : marks (ofPieces pieces) = marksOf pieces := by
  rw [marks, ofPieces, String.toList_ofList, List.filter_flatMap]
  rfl

@[simp] theorem marksOf_nil : marksOf [] = [] := rfl

@[simp] theorem marksOf_cons (x : Piece) (xs : List Piece) :
    marksOf (x :: xs) = x.marks ++ marksOf xs := rfl

@[simp] theorem marksOf_append (xs ys : List Piece) :
    marksOf (xs ++ ys) = marksOf xs ++ marksOf ys :=
  List.flatMap_append

/-- A line of markup around a text has the marks of the markup. -/
@[simp] theorem marksOf_around (before : String) (t : RawText) (after : String) :
    marksOf (around before t after) = (Piece.markup before).marks ++ (Piece.line after).marks := by
  simp [around]

/-- Parts whose pieces have the same marks one by one have the same marks together. -/
theorem marksOf_flatMap_map {α β : Type} {f : α → List Piece} {g : β → List Piece} {h : α → β}
    (hmarks : ∀ a, marksOf (g (h a)) = marksOf (f a)) (as : List α) :
    marksOf ((as.map h).flatMap g) = marksOf (as.flatMap f) := by
  induction as with
  | nil => rfl
  | cons a as ih => simp [hmarks, ih]

/-- What is shown only sometimes has its marks only then. -/
theorem marksOf_ite (p : Bool) (xs : List Piece) :
    marksOf (if p then [] else xs) = if p then [] else marksOf xs := by
  cases p <;> rfl

/-- Tables whose rows have the same marks have the same marks. -/
theorem marksOf_table_congr {rows rows' : List Piece} (h : marksOf rows = marksOf rows')
    (head : String) : marksOf (table head rows) = marksOf (table head rows') := by
  simp only [table, marksOf_append, h]

/-! ## Marks of the parts of a page

Each part has the marks of the part without texts: its keywords and numbers are kept there, and so
are the lengths of its lists, on which it depends which tables and notes are shown.
-/

theorem marksOf_parameterRow (p : Parameter) :
    marksOf (parameterRow p.withoutTexts) = marksOf (parameterRow p) := by
  simp only [parameterRow, marksOf_append, marksOf_around]
  rfl

theorem marksOf_responseRow (r : Response) :
    marksOf (responseRow r.withoutTexts) = marksOf (responseRow r) := by
  simp only [responseRow, marksOf_append, marksOf_around]
  rfl

theorem marksOf_endpointSection (e : Endpoint) :
    marksOf (endpointSection e.withoutTexts) = marksOf (endpointSection e) := by
  have hparameters : marksOf (e.withoutTexts.parameters.flatMap parameterRow) =
      marksOf (e.parameters.flatMap parameterRow) :=
    marksOf_flatMap_map marksOf_parameterRow e.parameters
  have hresponses : marksOf (e.withoutTexts.responses.flatMap responseRow) =
      marksOf (e.responses.flatMap responseRow) :=
    marksOf_flatMap_map marksOf_responseRow e.responses
  have hnone : e.withoutTexts.parameters.isEmpty = e.parameters.isEmpty := List.isEmpty_map
  have hnone' : e.withoutTexts.responses.isEmpty = e.responses.isEmpty := List.isEmpty_map
  simp only [endpointSection, marksOf_append, marksOf_ite, marksOf_cons, marksOf_around,
    marksOf_table_congr hparameters, marksOf_table_congr hresponses, hnone, hnone']
  rfl

theorem marksOf_fieldRow (direction : String) (f : Field) :
    marksOf (fieldRow direction f.withoutTexts) = marksOf (fieldRow direction f) := by
  simp only [fieldRow, marksOf_cons, Piece.marks_text]
  rfl

theorem marksOf_nodeSection (n : Node) :
    marksOf (nodeSection n.withoutTexts) = marksOf (nodeSection n) := by
  have hinputs : marksOf (n.withoutTexts.inputs.flatMap (fieldRow "input")) =
      marksOf (n.inputs.flatMap (fieldRow "input")) :=
    marksOf_flatMap_map (marksOf_fieldRow "input") n.inputs
  have houtputs : marksOf (n.withoutTexts.outputs.flatMap (fieldRow "output")) =
      marksOf (n.outputs.flatMap (fieldRow "output")) :=
    marksOf_flatMap_map (marksOf_fieldRow "output") n.outputs
  have hnone : n.withoutTexts.inputs.isEmpty = n.inputs.isEmpty := List.isEmpty_map
  have hnone' : n.withoutTexts.outputs.isEmpty = n.outputs.isEmpty := List.isEmpty_map
  simp only [nodeSection, table, marksOf_append, marksOf_ite, marksOf_cons, marksOf_around,
    Piece.marks_text, hinputs, houtputs, hnone, hnone']
  rfl

/-- The marks of texts with arrows between them are those of as many blank texts. -/
theorem marksOf_arrows (ts : List RawText) :
    marksOf (arrows (ts.map fun _ => .plain "")) = marksOf (arrows ts) := by
  induction ts using arrows.induct with
  | case1 => rfl
  | case2 t => simp [arrows]
  | case3 t ts hne ih =>
    cases ts with
    | nil => exact absurd rfl hne
    | cons u us => simpa [arrows] using ih

theorem marksOf_served (es : List Endpoint) :
    marksOf (served (es.map Endpoint.withoutTexts)) = marksOf (served es) := by
  induction es using served.induct with
  | case1 => rfl
  | case2 e =>
    simp only [List.map_cons, List.map_nil, served, marksOf_cons, Piece.marks_text]
    rfl
  | case3 e es hne ih =>
    cases es with
    | nil => exact absurd rfl hne
    | cons f fs =>
      simp only [List.map_cons, served, marksOf_append, marksOf_cons, Piece.marks_text] at ih ⊢
      rw [ih]
      rfl

theorem marksOf_workflowSection (w : Workflow) :
    marksOf (workflowSection w.withoutTexts) = marksOf (workflowSection w) := by
  have hnodes : marksOf (arrows w.withoutTexts.nodes) = marksOf (arrows w.nodes) :=
    marksOf_arrows w.nodes
  have hserved : marksOf (served w.withoutTexts.endpoints) = marksOf (served w.endpoints) :=
    marksOf_served w.endpoints
  have hnone : w.withoutTexts.nodes.isEmpty = w.nodes.isEmpty := List.isEmpty_map
  have hnone' : w.withoutTexts.endpoints.isEmpty = w.endpoints.isEmpty := List.isEmpty_map
  simp only [workflowSection, marksOf_append, marksOf_ite, marksOf_cons, marksOf_around, hnodes,
    hserved, hnone, hnone']

/-- Parts in order, or the note in their place, have the marks of the parts without texts. -/
theorem marksOf_orNote {α : Type} {pieces : α → List Piece} {blank : α → α}
    (h : ∀ a, marksOf (pieces (blank a)) = marksOf (pieces a)) (note : String) (as : List α) :
    marksOf (orNote note pieces (as.map blank)) = marksOf (orNote note pieces as) := by
  cases as with
  | nil => rfl
  | cons a as => exact marksOf_flatMap_map h (a :: as)

/-! ## Marks of the page -/

theorem marksOf_headPieces (b : Backend) (date date' : String) :
    marksOf (headPieces b date) = marksOf (headPieces b.withoutTexts date') := by
  simp only [headPieces, marksOf_append, marksOf_around, marksOf_cons, Piece.marks_text]

/-- A page has the marks of the page of the model without texts, on whatever day it is made. -/
theorem marks_documentationPieces (b : Backend) (date date' : String) :
    marks (ofPieces (documentationPieces b date)) =
      marks (ofPieces (documentationPieces b.withoutTexts date')) := by
  simp only [marks_ofPieces, documentationPieces, marksOf_append, marksOf_headPieces b date date']
  simp only [Backend.withoutTexts, marksOf_orNote marksOf_endpointSection,
    marksOf_orNote marksOf_nodeSection, marksOf_orNote marksOf_workflowSection]

/-- Models that differ only in texts have pages with the same marks. -/
theorem marks_documentationPieces_congr {b b' : Backend} (h : b.withoutTexts = b'.withoutTexts)
    (date date' : String) : marks (ofPieces (documentationPieces b date)) =
      marks (ofPieces (documentationPieces b' date')) := by
  rw [marks_documentationPieces b date "", h, ← marks_documentationPieces b' date' ""]

end Page

end Nanoservice
