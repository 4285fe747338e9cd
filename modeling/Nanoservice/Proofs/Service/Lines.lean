import Nanoservice.Proofs.Json.Number
import Nanoservice.Proofs.Service.Closed

/-!
# The lines of generated sources

No text of a model adds a line to generated code or ends a literal early
(`Backend.serviceFiles_keepLines`). The module of the routes has the lines of its header and four
more for each route; what a route's lines give as path, status, summary and workflow is read back
from them as literals (`Source.isRoute_routeLines`). The number of lines of every other module, but
for the docstring of the package, depends on the numbers of nodes and workflows only.

Both parts come from the lines that the sources are made of: none of them holds a line feed, so they
are the lines of the text.
-/

namespace Nanoservice

open Text (valueOfDigits asciiValue?)

namespace Statement

/-! ## Reading the lines of a route -/

/-- Takes a decimal numeral, in which no zero stands in front of other digits. -/
def numeral : Reader Int :=
  fun cs => (Json.takeWhole cs).map fun p => (valueOfDigits (p.1.filterMap asciiValue?), p.2)

/-- A handler is bound to a method and a path, with a status and a summary. -/
def binding : Reader (String × RawText × Int × RawText) := do
  word "@router."
  let method ← name
  word "("
  let path ← rawText
  word ", status_code="
  let status ← numeral
  word ", summary="
  let summary ← rawText
  word ")"
  return (method, path, status, summary)

/-- The line that answers requests when no workflow does. -/
def unserved : String :=
  "    return JSONResponse(status_code=501, content=\x7b\"detail\": " ++
    "\"No workflow serves this endpoint\"\x7d)"

/-- A line passes requests to a workflow, or says that there is none. -/
def Answers (line : String) : Option String → Prop
  | some workflow => read? served line = some workflow
  | none => line = unserved

/-- Four lines are those of a route: a blank one, the one that binds its handler, the head of the
handler and its answer. -/
def IsRoute (r : Route) (ls : List String) : Prop :=
  ∃ decorator head answer, ls = ["", decorator, head, answer] ∧
    read? binding decorator = some (r.method.lowerName, .ofSymbols r.path.symbols, r.status,
      .ofSymbols r.description.symbols) ∧
    read? handler head = some r.handler ∧ Answers answer r.workflow

theorem numeral_append {n : Int} (hn : 0 ≤ n) {rest : List Char} (h : Json.StopsDigits rest) :
    numeral (Text.intChars n ++ rest) = some (n, rest) := by
  have hvalue := Text.valueOfDigits_toDigits n.natAbs
  rw [numeral, Text.intChars, if_neg (Int.not_lt.2 hn),
    Json.takeWhole_append (Json.isWhole_toDigits _) h, Option.map_some]
  simp only [hvalue, Int.natAbs_of_nonneg hn]

theorem isName_lowerName (m : Method) : IsName m.lowerName := by
  have hchars : m.lowerName.toList.all Name.isNameChar = true := by cases m <;> rfl
  refine ⟨?_, List.all_eq_true.1 hchars⟩
  cases m <;> simp [Method.lowerName]

/-- The line that binds a route says what the route is. -/
theorem read?_binding {r : Route} (hstatus : 0 ≤ r.status) :
    read? binding (Source.routeBinding r) =
      some (r.method.lowerName, .ofSymbols r.path.symbols, r.status,
        .ofSymbols r.description.symbols) := by
  have hmethod (rest : List Char) : name (r.method.lowerName.toList ++ ("(".toList ++ rest)) =
      some (r.method.lowerName, "(".toList ++ rest) :=
    name_append (isName_lowerName _) fun c hc => by cases hc; rfl
  have hpath (rest : List Char) :
      rawText ((Literal.quoteRaw r.path).toList ++ (", status_code=".toList ++ rest)) =
        some (.ofSymbols r.path.symbols, ", status_code=".toList ++ rest) :=
    rawText_append r.path fun q hq => by cases hq; decide
  have hnumber (rest : List Char) :
      numeral ((String.ofList (Text.intChars r.status)).toList ++ (", summary=".toList ++ rest)) =
        some (r.status, ", summary=".toList ++ rest) := by
    rw [String.toList_ofList]
    exact numeral_append hstatus fun c hc => by cases hc; rfl
  have hsummary : rawText ((Literal.quoteRaw r.description).toList ++ ")".toList) =
      some (.ofSymbols r.description.symbols, ")".toList) :=
    rawText_append r.description fun q hq => by cases hq; decide
  apply read?_of_eq
  delta Source.routeBinding
  simp only [String.toList_append, List.append_assoc]
  rw [binding, bind_of_eq (word_append _ _), bind_of_eq (hmethod _), bind_of_eq (word_append _ _),
    bind_of_eq (hpath _), bind_of_eq (word_append _ _), bind_of_eq (hnumber _),
    bind_of_eq (word_append _ _), bind_of_eq hsummary, bind_of_eq (word_toList _)]
  rfl

/-- The line that answers requests to a route says which workflow does. -/
theorem answers_routeAnswer (r : Route) : Answers (Source.routeAnswer r) r.workflow := by
  rw [Source.routeAnswer]
  cases r.workflow with
  | none => exact rfl
  | some w => exact read?_served w

/-- The lines of a text made of lines are as many as these. -/
theorem length_lines_ofLines {ls : List String} (hne : ls ≠ []) (h : ∀ l ∈ ls, IsLine l) :
    (lines (OutputFile.ofLines ls)).length = ls.length := by
  rw [lines_ofLines hne h]

end Statement

namespace Source

open Statement

/-! ## The lines of modules -/

theorem isRoute_routeLines {r : Route} (hstatus : 0 ≤ r.status) (hhandler : IsName r.handler) :
    IsRoute r (routeLines r) :=
  ⟨_, _, _, rfl, read?_binding hstatus, read?_handler hhandler, answers_routeAnswer r⟩

theorem isLine_application (b : Backend) : ∀ l ∈ application b, IsLine l := by
  simp only [application, List.mem_cons, List.not_mem_nil, or_false, forall_eq_or_imp, forall_eq,
    isLine_append, isLine_quote, isLine_quoteRaw, and_true]
  and_intros <;> exact isLine_literal rfl rfl

/-- A module that holds a docstring is put together from it and an empty line. -/
theorem docstring_eq_ofLines (doc : String) :
    docstring doc = OutputFile.ofLines ["\"\"\"" ++ doc ++ "\"\"\"", ""] := by
  apply String.toList_injective
  simp [docstring, OutputFile.ofLines]

theorem length_lines_application (b : Backend) :
    (lines (OutputFile.ofLines (application b))).length = 11 :=
  length_lines_ofLines (List.cons_ne_nil _ _) (isLine_application b)

theorem length_lines_docstring {doc : String} (h : IsLine doc) :
    (lines (docstring doc)).length = 2 := by
  rw [docstring_eq_ofLines, length_lines_ofLines (List.cons_ne_nil _ _)]
  · rfl
  · simp only [List.forall_mem_cons, isLine_append, h, List.not_mem_nil, false_imp_iff,
      implies_true, and_true]
    and_intros <;> exact isLine_literal rfl rfl

end Source

namespace Backend

open OutputFile Statement Source

/-- The status of a route is one of success. -/
theorem status_of_mem_routes {b : Backend} {r : Route} (h : r ∈ b.routes) :
    200 ≤ r.status ∧ r.status < 300 := by
  obtain ⟨⟨e, handler⟩, -, rfl⟩ := List.mem_map.1 h
  cases hfind : (e.responses.map Response.status).find? fun s => 200 ≤ s && s < 300 with
  | none => simp [Endpoint.successStatus, hfind]
  | some s =>
    have hs := List.find?_some hfind
    simpa [Endpoint.successStatus, hfind] using hs

/-- The module at a path counts among those whose lines the numbers of nodes and workflows fix: it
is neither the docstring of the package nor the module of the routes. -/
def isCounted (path : String) : Bool :=
  ".py".toList.isSuffixOf path.toList && path != "app/__init__.py" && path != "app/api/routes.py"

/-- Modules of nodes and workflows count. -/
theorem isCounted_modulePath {folder module : String}
    (hfolder : Path.components folder = ["app", "nodes"] ∨
      Path.components folder = ["app", "workflows"])
    (h : Name.IsModuleName module) : isCounted (modulePath folder module) = true := by
  have hnot := modulePath_not_mem_sharedPaths hfolder h
  simp only [sharedPaths, List.mem_cons, List.not_mem_nil, or_false, not_or] at hnot
  have hsuffix : ".py".toList <:+ (modulePath folder module).toList := by
    rw [modulePath, ← String.append_assoc, String.toList_append]
    exact List.suffix_append _ _
  simp only [isCounted, Bool.and_eq_true, bne_iff_ne, List.isSuffixOf_iff_suffix]
  exact ⟨⟨hsuffix, hnot.1⟩, hnot.2.2.2.1⟩

/-- Files at paths that count, each with as many lines, are all counted. -/
theorem countedLines_map {α : Type} {parts : List α} {path content : α → String} {n : Nat}
    (hpath : ∀ a ∈ parts, isCounted (path a) = true)
    (hlines : ∀ a ∈ parts, (lines (content a)).length = n) :
    (((parts.map fun a => OutputFile.mk (path a) (content a)).filter fun f =>
      isCounted f.path).map fun f => (f.path, (lines f.content).length)) =
      parts.map fun a => (path a, n) := by
  rw [List.filter_eq_self.2, List.map_map]
  · exact List.map_congr_left fun a ha => congrArg (Prod.mk (path a)) (hlines a ha)
  · intro f hf
    obtain ⟨a, ha, rfl⟩ := List.mem_map.1 hf
    exact hpath a ha

variable (b : Backend)

theorem length_lines_nodeRegistry :
    (lines (ofLines (nodeRegistry b.nodeSources))).length = 2 * b.nodes.length + 5 := by
  rw [length_lines_ofLines (by simp [nodeRegistry])
    (isLine_nodeRegistry b.isName_of_mem_nodeSources), ← b.nodeSources_spec.1]
  simp [nodeRegistry]
  omega

theorem length_lines_workflowRegistry :
    (lines (ofLines (workflowRegistry b.workflowSources))).length =
      2 * b.workflows.length + 5 := by
  rw [length_lines_ofLines (by simp [workflowRegistry])
    (isLine_workflowRegistry b.isName_of_mem_workflowSources), ← b.workflowSources_spec.1]
  simp [workflowRegistry]
  omega

/-- The module of the routes has the lines of its header, four for each route and an empty one. -/
theorem lines_routesModule :
    lines (ofLines (routesModule b.routes)) =
      routesHeader ++ (b.routes.map routeLines).flatten ++ [""] := by
  have hne : routesModule b.routes ≠ [] := List.append_ne_nil_of_right_ne_nil _ (by decide)
  rw [lines_ofLines hne (isLine_routesModule b.isName_handler), routesModule, List.flatMap_def]

/-- The counted modules with the numbers of their lines, in order. -/
theorem countedLines_serviceFiles :
    ((b.serviceFiles.filter fun f => isCounted f.path).map fun f =>
        (f.path, (lines f.content).length)) =
      [("app/main.py", 11), ("app/api/__init__.py", 2),
        ("app/nodes/__init__.py", 2 * b.nodes.length + 5),
        ("app/workflows/__init__.py", 2 * b.workflows.length + 5)] ++
        b.nodeSources.map (fun s => (nodePath s, 18)) ++
        b.workflowSources.map fun s => (workflowPath s, 15) := by
  rw [serviceFiles, List.filter_append, List.filter_append, List.map_append, List.map_append]
  congr 1
  · congr 1
    · have hskipped : isCounted "app/__init__.py" = false ∧
          isCounted "app/api/routes.py" = false ∧ isCounted "requirements.txt" = false ∧
          isCounted "README.md" = false := by decide
      have hcounted : isCounted "app/main.py" = true ∧ isCounted "app/api/__init__.py" = true ∧
          isCounted "app/nodes/__init__.py" = true ∧
          isCounted "app/workflows/__init__.py" = true := by decide
      have hdoc : IsLine "API routes package." := isLine_literal rfl rfl
      simp only [List.filter_cons, List.filter_nil, hskipped, hcounted, if_true, if_false,
        Bool.false_eq_true, List.map_cons, List.map_nil, length_lines_application,
        length_lines_docstring hdoc, length_lines_nodeRegistry, length_lines_workflowRegistry]
    · simp only [← nodePath_eq]
      refine countedLines_map (fun s hs => ?_) (fun s hs => ?_)
      · exact isCounted_modulePath (.inl (by decide)) (b.isModuleName_of_mem_nodeSources hs)
      · exact length_lines_ofLines (by simp [nodeModule])
          (isLine_nodeModule (b.isName_of_mem_nodeSources s hs).2)
  · simp only [← workflowPath_eq]
    refine countedLines_map (fun s hs => ?_) (fun s hs => ?_)
    · exact isCounted_modulePath (.inr (by decide)) (b.isModuleName_of_mem_workflowSources hs)
    · exact length_lines_ofLines (by simp [workflowModule]) (isLine_workflowModule s.workflow)

/-- Texts of a model stay inside the literals of generated code, whatever characters they hold. The
module of the routes has the lines of its header, then four lines for each route in order, from
which the route is read back, then an empty line. Every other module but the docstring of the
package has as many lines as the numbers of nodes and workflows ask for. -/
theorem serviceFiles_keepLines :
    (∃ source blocks, textsAt b.serviceFiles "app/api/routes.py" = [source] ∧
      lines source = routesHeader ++ blocks.flatten ++ [""] ∧
      List.Forall₂ IsRoute b.routes blocks) ∧
    ((b.serviceFiles.filter fun f => isCounted f.path).map fun f =>
        (f.path, (lines f.content).length)) =
      [("app/main.py", 11), ("app/api/__init__.py", 2),
        ("app/nodes/__init__.py", 2 * b.nodes.length + 5),
        ("app/workflows/__init__.py", 2 * b.workflows.length + 5)] ++
        b.nodeSources.map (fun s => (nodePath s, 18)) ++
        b.workflowSources.map fun s => (workflowPath s, 15) := by
  refine ⟨⟨_, b.routes.map routeLines, b.textsAt_routesModule, b.lines_routesModule, ?_⟩,
    b.countedLines_serviceFiles⟩
  rw [List.forall₂_map_right_iff, List.forall₂_same]
  intro r hr
  have hstatus := (status_of_mem_routes hr).1
  exact isRoute_routeLines (by omega) (b.isName_handler r hr)

end Backend

end Nanoservice
