import Nanoservice.Proofs.Service.Layout
import Nanoservice.Proofs.Service.Statement
import Nanoservice.Proofs.Table

/-!
# What generated sources say

The lines of the generated modules, and the statements that are read from them: a registry imports
and enters every part in order (`Source.all_nodeImport`, `Source.all_nodeEntry` and so on), a module
of a node or a workflow gives the name and the steps that it was generated from, and the module of
the routes binds its own names and the handlers (`Source.boundNames_routesModule`). Nothing is asked
of the texts that a model holds, as they stand in literals; the names of modules, classes and
handlers are made of characters of names.
-/

namespace Nanoservice

open Statement

theorem Name.IsModuleName.isName {s : String} (h : Name.IsModuleName s) : IsName s where
  nonempty := by
    rintro rfl
    obtain ⟨c, hc, -⟩ := h.start
    cases hc
  chars _ hc := h.isNameChar hc

namespace Statement

variable {α : Type} {statement : Reader α}

/-- What the statements of a kind say in a text made of lines. -/
theorem all_ofLines {ls : List String} (hne : ls ≠ []) (h : ∀ l ∈ ls, IsLine l) :
    all statement (OutputFile.ofLines ls) = ls.filterMap (read? statement) := by
  rw [all, lines_ofLines hne h]

/-- Lines of one form that are read as statements. -/
theorem filterMap_map_some {β : Type} {line : β → String} {said : β → α} {bs : List β}
    (h : ∀ b ∈ bs, read? statement (line b) = some (said b)) :
    (bs.map line).filterMap (read? statement) = bs.map said := by
  rw [List.filterMap_map, ← List.filterMap_eq_map]
  exact List.filterMap_congr h

/-- Lines of one form that are no statements of a kind. -/
theorem filterMap_map_none {β : Type} {line : β → String} {bs : List β}
    (h : ∀ b, read? statement (line b) = none) :
    (bs.map line).filterMap (read? statement) = [] := by
  rw [List.filterMap_map]
  exact List.filterMap_eq_nil_iff.2 fun b _ => h b

/-- A single line among others that is a statement of a kind. -/
theorem filterMap_of_split (before : List String) {after : List String} {line : String} {a : α}
    (hbefore : ∀ l ∈ before, read? statement l = none) (hline : read? statement line = some a)
    (hafter : ∀ l ∈ after, read? statement l = none) :
    (before ++ line :: after).filterMap (read? statement) = [a] := by
  rw [List.filterMap_append, List.filterMap_eq_nil_iff.2 hbefore,
    List.filterMap_cons_some hline, List.filterMap_eq_nil_iff.2 hafter, List.nil_append]

/-- What a registry says is said by its imports and its entries. -/
theorem filterMap_registry {doc head : String} {imports entries : List String}
    (hdoc : read? statement doc = none) (hhead : read? statement head = none)
    (hblank : read? statement "" = none) (hbrace : read? statement "\x7d" = none) :
    ([doc] ++ imports ++ ["", head] ++ entries ++ ["\x7d", ""]).filterMap (read? statement) =
      imports.filterMap (read? statement) ++ entries.filterMap (read? statement) := by
  simp [List.filterMap_append, hdoc, hhead, hblank, hbrace]

/-- The lines of a registry are lines. -/
theorem isLine_registry {doc head : String} {imports entries : List String} (hdoc : IsLine doc)
    (hhead : IsLine head) (himports : ∀ l ∈ imports, IsLine l)
    (hentries : ∀ l ∈ entries, IsLine l) :
    ∀ l ∈ [doc] ++ imports ++ ["", head] ++ entries ++ ["\x7d", ""], IsLine l := by
  have hblank : IsLine "" := isLine_literal rfl rfl
  have hbrace : IsLine "\x7d" := isLine_literal rfl rfl
  intro l hl
  simp only [List.mem_append, List.mem_cons, List.not_mem_nil, or_false] at hl
  rcases hl with (((rfl | hl) | rfl | rfl) | hl) | rfl | rfl
  · exact hdoc
  · exact himports l hl
  · exact hblank
  · exact hhead
  · exact hentries l hl
  · exact hbrace
  · exact hblank

end Statement

namespace Source

open Statement

/-! ## The registry of the nodes -/

section
variable {ss : List NodeSource} (h : ∀ s ∈ ss, IsName s.module ∧ IsName s.className)
include h

theorem isLine_nodeRegistry : ∀ l ∈ nodeRegistry ss, IsLine l := by
  refine isLine_registry (isLine_literal rfl rfl) (isLine_literal rfl rfl) ?_ ?_
  · intro l hl
    obtain ⟨s, hs, rfl⟩ := List.mem_map.1 hl
    simp only [isLine_append]
    exact ⟨⟨⟨isLine_literal rfl rfl, (h s hs).1.isLine⟩, isLine_literal rfl rfl⟩,
      (h s hs).2.isLine⟩
  · intro l hl
    obtain ⟨s, hs, rfl⟩ := List.mem_map.1 hl
    simp only [isLine_append]
    exact ⟨⟨⟨⟨isLine_literal rfl rfl, isLine_quote _⟩, isLine_literal rfl rfl⟩,
      (h s hs).2.isLine⟩, isLine_literal rfl rfl⟩

/-- The registry of the nodes imports their classes in order. -/
theorem all_nodeImport :
    all nodeImport (OutputFile.ofLines (nodeRegistry ss)) =
      ss.map fun s => (s.module, s.className) := by
  rw [all_ofLines (by simp [nodeRegistry]) (isLine_nodeRegistry h), nodeRegistry,
    filterMap_registry (read?_literal_none rfl rfl) (read?_literal_none rfl rfl)
      (read?_literal_none rfl rfl) (read?_literal_none rfl rfl)]
  refine (congrArg₂ (· ++ ·) (filterMap_map_some fun s hs => ?_)
    (filterMap_map_none fun s => ?_)).trans (List.append_nil _)
  · exact read?_nodeImport (h s hs).1 (h s hs).2
  · exact read?_begins_none (((((begins_literal rfl).append _).append _).append _).append _)
      fun _ => rfl

/-- The registry of the nodes enters them in order, each with its class. -/
theorem all_nodeEntry :
    all nodeEntry (OutputFile.ofLines (nodeRegistry ss)) =
      ss.map fun s => (s.node.name, s.className) := by
  rw [all_ofLines (by simp [nodeRegistry]) (isLine_nodeRegistry h), nodeRegistry,
    filterMap_registry (read?_literal_none rfl rfl) (read?_literal_none rfl rfl)
      (read?_literal_none rfl rfl) (read?_literal_none rfl rfl)]
  refine (congrArg₂ (· ++ ·) (filterMap_map_none fun s => ?_)
    (filterMap_map_some fun s hs => ?_)).trans (List.nil_append _)
  · exact read?_begins_none ((((begins_literal rfl).append _).append _).append _) fun _ => rfl
  · exact read?_entry s.node.name (h s hs).2 fun c hc => by cases hc; rfl

end

/-! ## The registry of the workflows -/

section
variable {ss : List WorkflowSource} (h : ∀ s ∈ ss, IsName s.module)
include h

theorem isLine_workflowRegistry : ∀ l ∈ workflowRegistry ss, IsLine l := by
  refine isLine_registry (isLine_literal rfl rfl) (isLine_literal rfl rfl) ?_ ?_
  · intro l hl
    obtain ⟨s, hs, rfl⟩ := List.mem_map.1 hl
    rw [isLine_append]
    exact ⟨isLine_literal rfl rfl, (h s hs).isLine⟩
  · intro l hl
    obtain ⟨s, hs, rfl⟩ := List.mem_map.1 hl
    simp only [isLine_append]
    exact ⟨⟨⟨⟨isLine_literal rfl rfl, isLine_quote _⟩, isLine_literal rfl rfl⟩,
      (h s hs).isLine⟩, isLine_literal rfl rfl⟩

/-- The registry of the workflows imports their modules in order. -/
theorem all_workflowImport :
    all workflowImport (OutputFile.ofLines (workflowRegistry ss)) =
      ss.map WorkflowSource.module := by
  rw [all_ofLines (by simp [workflowRegistry]) (isLine_workflowRegistry h), workflowRegistry,
    filterMap_registry (read?_literal_none rfl rfl) (read?_literal_none rfl rfl)
      (read?_literal_none rfl rfl) (read?_literal_none rfl rfl)]
  refine (congrArg₂ (· ++ ·) (filterMap_map_some fun s hs => ?_)
    (filterMap_map_none fun s => ?_)).trans (List.append_nil _)
  · exact read?_workflowImport (h s hs)
  · exact read?_begins_none (((((begins_literal rfl).append _).append _).append _).append _)
      fun _ => rfl

/-- The registry of the workflows enters them in order, each with its module. -/
theorem all_workflowEntry :
    all workflowEntry (OutputFile.ofLines (workflowRegistry ss)) =
      ss.map fun s => (s.workflow.name, s.module) := by
  rw [all_ofLines (by simp [workflowRegistry]) (isLine_workflowRegistry h), workflowRegistry,
    filterMap_registry (read?_literal_none rfl rfl) (read?_literal_none rfl rfl)
      (read?_literal_none rfl rfl) (read?_literal_none rfl rfl)]
  refine (congrArg₂ (· ++ ·) (filterMap_map_none fun s => ?_)
    (filterMap_map_some fun s hs => ?_)).trans (List.nil_append _)
  · exact read?_begins_none ((begins_literal rfl).append _) fun _ => rfl
  · exact read?_entry s.workflow.name (h s hs) fun c hc => by cases hc; rfl

end

/-! ## Modules of nodes and workflows -/

/-- The literal of a placeholder holds no line feed. -/
theorem newline_not_mem_placeholder (t : ValueType) :
    '\n' ∉ Literal.valueChars (placeholder t) := by
  cases t with
  | string => exact Literal.newline_not_mem_rawChars (.plain _)
  | number => decide
  | boolean => decide
  | object => decide

/-- The literal of a list of texts is a line. -/
theorem isLine_texts (ts : List RawText) : IsLine (texts ts) := by
  rw [IsLine, texts, Literal.ofJson, String.toList_ofList]
  refine Literal.newline_not_mem_arr fun v hv => ?_
  obtain ⟨t, -, rfl⟩ := List.mem_map.1 hv
  rw [Literal.valueChars_ofText]
  exact Literal.newline_not_mem_rawChars t

/-- The literal of the outputs of a node is a line. -/
theorem isLine_outputs (fields : List Field) :
    IsLine (Literal.ofJson (.obj
      (Table.ofLast (fields.map fun f => (RawText.plain f.name, placeholder f.type))))) := by
  rw [IsLine, Literal.ofJson, String.toList_ofList]
  refine Literal.newline_not_mem_obj fun f hf => ?_
  obtain ⟨g, -, rfl⟩ := List.mem_map.1 (Table.mem_ofLast hf)
  exact newline_not_mem_placeholder g.type

theorem isLine_nodeModule {s : NodeSource} (h : IsName s.className) :
    ∀ l ∈ nodeModule s, IsLine l := by
  simp only [nodeModule, List.mem_cons, List.not_mem_nil, or_false, forall_eq_or_imp, forall_eq,
    isLine_append, isLine_quote, isLine_quoteRaw, isLine_texts, isLine_outputs, h.isLine, and_true]
  and_intros <;> exact isLine_literal rfl rfl

/-- The module of a node defines its class. -/
theorem all_classHead {s : NodeSource} (h : IsName s.className) :
    all classHead (OutputFile.ofLines (nodeModule s)) = [s.className] := by
  rw [all_ofLines (by simp [nodeModule]) (isLine_nodeModule h)]
  refine filterMap_of_split ["import copy", "from typing import Any, Dict", "", ""] ?_
    (read?_classHead h) ?_
  · simp only [List.mem_cons, List.not_mem_nil, or_false, forall_eq_or_imp, forall_eq]
    and_intros <;> exact read?_literal_none rfl rfl
  · intro l hl
    simp only [List.mem_cons, List.not_mem_nil, or_false] at hl
    rcases hl with rfl | rfl | rfl | rfl | rfl | hl
    iterate 5 exact read?_begins_none ((begins_literal rfl).append _) fun _ => rfl
    rcases hl with rfl | rfl | rfl | rfl | rfl | rfl | rfl | rfl <;>
      exact read?_literal_none rfl rfl

/-- The module of a node gives its class the name of the node. -/
theorem all_className {s : NodeSource} (h : IsName s.className) :
    all className (OutputFile.ofLines (nodeModule s)) = [s.node.name] := by
  rw [all_ofLines (by simp [nodeModule]) (isLine_nodeModule h)]
  refine filterMap_of_split ["import copy", "from typing import Any, Dict", "", "",
    "class " ++ s.className ++ ":"] ?_ (read?_constant _ _) ?_
  · intro l hl
    simp only [List.mem_cons, List.not_mem_nil, or_false] at hl
    rcases hl with rfl | rfl | rfl | rfl | rfl
    iterate 4 exact read?_literal_none rfl rfl
    exact read?_begins_none (((begins_literal rfl).append _).append _) fun _ => rfl
  · intro l hl
    simp only [List.mem_cons, List.not_mem_nil, or_false] at hl
    rcases hl with rfl | rfl | rfl | rfl | hl
    iterate 4 exact read?_begins_none ((begins_literal rfl).append _) fun _ => rfl
    rcases hl with rfl | rfl | rfl | rfl | rfl | rfl | rfl | rfl <;>
      exact read?_literal_none rfl rfl

theorem isLine_workflowModule (w : Workflow) : ∀ l ∈ workflowModule w, IsLine l := by
  simp only [workflowModule, List.mem_cons, List.not_mem_nil, or_false, forall_eq_or_imp, forall_eq,
    isLine_append, isLine_quote, isLine_quoteRaw, isLine_texts, and_true]
  and_intros <;> exact isLine_literal rfl rfl

/-- The module of a workflow gives the name of the workflow. -/
theorem all_moduleName (w : Workflow) :
    all moduleName (OutputFile.ofLines (workflowModule w)) = [w.name] := by
  rw [all_ofLines (by simp [workflowModule]) (isLine_workflowModule w)]
  refine filterMap_of_split ["from typing import Any, Dict", "from app.nodes import NODE_REGISTRY",
    ""] ?_ (read?_constant _ _) ?_
  · simp only [List.mem_cons, List.not_mem_nil, or_false, forall_eq_or_imp, forall_eq]
    and_intros <;> exact read?_literal_none rfl rfl
  · intro l hl
    simp only [List.mem_cons, List.not_mem_nil, or_false] at hl
    rcases hl with rfl | rfl | hl
    iterate 2 exact read?_begins_none ((begins_literal rfl).append _) fun _ => rfl
    rcases hl with rfl | rfl | rfl | rfl | rfl | rfl | rfl | rfl | rfl <;>
      exact read?_literal_none rfl rfl

/-- The module of a workflow lists its steps. -/
theorem all_steps (w : Workflow) :
    all steps (OutputFile.ofLines (workflowModule w)) =
      [w.nodes.map fun t => .ofSymbols t.symbols] := by
  rw [all_ofLines (by simp [workflowModule]) (isLine_workflowModule w)]
  refine filterMap_of_split ["from typing import Any, Dict", "from app.nodes import NODE_REGISTRY",
    "", "NAME = " ++ Literal.quote w.name, "DESCRIPTION = " ++ Literal.quoteRaw w.description] ?_
    (read?_steps _) ?_
  · intro l hl
    simp only [List.mem_cons, List.not_mem_nil, or_false] at hl
    rcases hl with rfl | rfl | rfl | rfl | rfl
    iterate 3 exact read?_literal_none rfl rfl
    iterate 2 exact read?_begins_none ((begins_literal rfl).append _) fun _ => rfl
  · simp only [List.mem_cons, List.not_mem_nil, or_false, forall_eq_or_imp, forall_eq]
    and_intros <;> exact read?_literal_none rfl rfl

/-! ## The routes -/

theorem isLine_intChars (n : Int) : IsLine (String.ofList (Text.intChars n)) := by
  have hdigits (k : Nat) : '\n' ∉ Nat.toDigits 10 k := by
    intro hmem
    cases Text.isAsciiDigit_of_mem_toDigits hmem
  rw [IsLine, String.toList_ofList, Text.intChars]
  split
  · simp [hdigits]
  · exact hdigits _

theorem isLine_lowerName (m : Method) : IsLine m.lowerName := by
  cases m <;> exact isLine_literal rfl rfl

theorem isLine_routesHeader : ∀ l ∈ routesHeader, IsLine l := by
  simp only [routesHeader, List.mem_cons, List.not_mem_nil, or_false, forall_eq_or_imp, forall_eq]
  and_intros <;> exact isLine_literal rfl rfl

theorem isLine_routeAnswer (r : Route) : IsLine (routeAnswer r) := by
  rw [routeAnswer]
  split
  · rw [isLine_append]
    exact ⟨isLine_literal rfl rfl, isLine_literal rfl rfl⟩
  · simp only [isLine_append, isLine_quote, and_true]
    exact ⟨isLine_literal rfl rfl, isLine_literal rfl rfl⟩

theorem isLine_routeBinding (r : Route) : IsLine (routeBinding r) := by
  delta routeBinding
  simp only [isLine_append, isLine_quoteRaw, isLine_lowerName, isLine_intChars, and_true]
  and_intros <;> exact isLine_literal rfl rfl

theorem isLine_routeLines {r : Route} (h : IsName r.handler) : ∀ l ∈ routeLines r, IsLine l := by
  simp only [routeLines, List.mem_cons, List.not_mem_nil, or_false, forall_eq_or_imp, forall_eq,
    isLine_append, isLine_routeBinding, isLine_routeAnswer, h.isLine, and_true, true_and]
  and_intros <;> exact isLine_literal rfl rfl

theorem isLine_routesModule {routes : List Route} (h : ∀ r ∈ routes, IsName r.handler) :
    ∀ l ∈ routesModule routes, IsLine l := by
  intro l hl
  simp only [routesModule, List.mem_append, List.mem_flatMap, List.mem_singleton] at hl
  rcases hl with (hl | ⟨r, hr, hl⟩) | rfl
  · exact isLine_routesHeader l hl
  · exact isLine_routeLines (h r hr) l hl
  · exact isLine_literal rfl rfl

/-- What the module of the routes says is said by its header and by each route. -/
theorem all_routesModule {α : Type} (statement : Reader α) {routes : List Route}
    (h : ∀ r ∈ routes, IsName r.handler) (hblank : read? statement "" = none) :
    all statement (OutputFile.ofLines (routesModule routes)) =
      routesHeader.filterMap (read? statement) ++
        routes.flatMap fun r => (routeLines r).filterMap (read? statement) := by
  have hne : routesModule routes ≠ [] := List.append_ne_nil_of_right_ne_nil _ (by decide)
  rw [all_ofLines hne (isLine_routesModule h), routesModule,
    List.filterMap_append, List.filterMap_append, List.filterMap_flatMap,
    List.filterMap_cons_none hblank, List.filterMap_nil, List.append_nil]

/-- The line that binds a route begins with the mark of a decorator. -/
theorem begins_routeBinding (r : Route) : Begins ['@'] (routeBinding r) := by
  have hmark : Begins ['@'] "@router." := begins_head rfl
  exact (((((((hmark.append _).append _).append _).append _).append _).append _).append _).append _

/-- The line that answers a request is indented. -/
theorem begins_routeAnswer (r : Route) : Begins [' '] (routeAnswer r) := by
  rw [routeAnswer]
  split
  · exact (begins_head rfl).append _
  · exact ((begins_head rfl).append _).append _

/-- The module of the routes defines the handlers in order. -/
theorem all_handler {routes : List Route} (h : ∀ r ∈ routes, IsName r.handler) :
    all handler (OutputFile.ofLines (routesModule routes)) = routes.map Route.handler := by
  have hheader : routesHeader.filterMap (read? handler) = [] := by
    rw [List.filterMap_eq_nil_iff]
    simp only [routesHeader, List.mem_cons, List.not_mem_nil, or_false, forall_eq_or_imp, forall_eq]
    and_intros <;> exact read?_literal_none rfl rfl
  have hroute : ∀ r ∈ routes, (routeLines r).filterMap (read? handler) = [r.handler] := by
    intro r hr
    refine filterMap_of_split ["", routeBinding r] ?_ (read?_handler (h r hr)) ?_
    · intro l hl
      simp only [List.mem_cons, List.not_mem_nil, or_false] at hl
      rcases hl with rfl | rfl
      · exact read?_literal_none rfl rfl
      · exact read?_begins_none (begins_routeBinding r) fun _ => rfl
    · intro l hl
      obtain rfl := List.mem_singleton.1 hl
      exact read?_begins_none (begins_routeAnswer r) fun _ => rfl
  rw [all_routesModule handler h (read?_literal_none rfl rfl), hheader, List.nil_append,
    List.flatMap_congr hroute, List.map_eq_flatMap]

/-- The module of the routes passes requests to the workflows of the routes that have one. -/
theorem all_served {routes : List Route} (h : ∀ r ∈ routes, IsName r.handler) :
    all served (OutputFile.ofLines (routesModule routes)) = routes.filterMap Route.workflow := by
  have hheader : routesHeader.filterMap (read? served) = [] := by
    rw [List.filterMap_eq_nil_iff]
    simp only [routesHeader, List.mem_cons, List.not_mem_nil, or_false, forall_eq_or_imp, forall_eq]
    and_intros <;> exact read?_literal_none rfl rfl
  have hroute : ∀ r : Route, (routeLines r).filterMap (read? served) = r.workflow.toList := by
    intro r
    have hblank : read? served "" = none := read?_literal_none rfl rfl
    have hbinding : read? served (routeBinding r) = none :=
      read?_begins_none (begins_routeBinding r) fun _ => rfl
    have hdef : read? served ("async def " ++ r.handler ++ "(request: Request):") = none :=
      read?_begins_none (((begins_literal rfl).append _).append _) fun _ => rfl
    rw [routeLines, List.filterMap_cons_none hblank, List.filterMap_cons_none hbinding,
      List.filterMap_cons_none hdef, routeAnswer]
    cases r.workflow with
    | none =>
      have hanswer : read? served
          ("    return JSONResponse(status_code=501, content=\x7b\"detail\": " ++
            "\"No workflow serves this endpoint\"\x7d)") = none :=
        read?_begins_none ((begins_literal rfl).append _) fun _ => rfl
      exact List.filterMap_cons_none hanswer
    | some w => exact List.filterMap_cons_some (read?_served w)
  rw [all_routesModule served h (read?_literal_none rfl rfl), hheader, List.nil_append,
    List.flatMap_congr fun r _ => hroute r, List.filterMap_eq_flatMap_toList]

/-- The names that the module of the routes binds for itself. -/
def routesNames : List String :=
  ["Any", "Dict", "APIRouter", "Request", "JSONResponse", "WORKFLOWS", "router", "_context"]

/-- The header of the module of the routes binds its own names. -/
theorem bound_routesHeader :
    (routesHeader.filterMap (read? bound)).flatten = routesNames := by
  have hlines : routesHeader.map (read? bound) =
      [some ["Any", "Dict"], some ["APIRouter", "Request"], some ["JSONResponse"],
        some ["WORKFLOWS"], none, some ["router"], none, none, some ["_context"], none, none, none,
        none, none, none, none, none, none, none, none, none] := by
    simp only [routesHeader, List.map_cons, List.map_nil, List.cons.injEq, and_true]
    and_intros
    iterate 4 exact read?_literal_some rfl rfl
    · exact read?_literal_none rfl rfl
    · exact read?_literal_some rfl rfl
    iterate 2 exact read?_literal_none rfl rfl
    · exact read?_literal_some rfl rfl
    all_goals exact read?_literal_none rfl rfl
  have hread : routesHeader.filterMap (read? bound) =
      (routesHeader.map (read? bound)).filterMap id := by
    rw [List.filterMap_map, Function.id_comp]
  rw [hread, hlines]
  rfl

/-- The module of the routes binds its own names and the handlers. -/
theorem boundNames_routesModule {routes : List Route} (h : ∀ r ∈ routes, IsName r.handler) :
    boundNames (OutputFile.ofLines (routesModule routes)) =
      routesNames ++ routes.map Route.handler := by
  have hblank : read? bound "" = none := read?_literal_none rfl rfl
  have hroute : ∀ r ∈ routes, (routeLines r).filterMap (read? bound) = [[r.handler]] := by
    intro r hr
    refine filterMap_of_split ["", routeBinding r] ?_ (read?_bound_handler (h r hr)) ?_
    · intro l hl
      simp only [List.mem_cons, List.not_mem_nil, or_false] at hl
      rcases hl with rfl | rfl
      · exact hblank
      · exact read?_bound_of_begins (begins_routeBinding r) rfl
    · intro l hl
      obtain rfl := List.mem_singleton.1 hl
      exact read?_bound_of_begins (begins_routeAnswer r) rfl
  rw [boundNames, all_routesModule bound h hblank, List.flatten_append, bound_routesHeader,
    List.flatMap_congr hroute, ← List.map_eq_flatMap, ← List.flatMap_def, ← List.map_eq_flatMap]

/-- The module of the routes holds no statements that bind no names. -/
theorem onlyBinds_routesModule {routes : List Route} (h : ∀ r ∈ routes, IsName r.handler) :
    OnlyBinds (OutputFile.ofLines (routesModule routes)) := by
  have hheader : ∀ l ∈ routesHeader, BindsOrNot l := by
    simp only [routesHeader, List.mem_cons, List.not_mem_nil, or_false, forall_eq_or_imp, forall_eq]
    and_intros
    iterate 4 exact bindsOrNot_literal rfl rfl
    · exact bindsOrNot_empty
    · exact bindsOrNot_literal rfl rfl
    iterate 2 exact bindsOrNot_empty
    · exact bindsOrNot_literal rfl rfl
    iterate 11 exact bindsOrNot_begins (begins_head rfl) rfl
    · exact bindsOrNot_empty
  have hroute : ∀ r ∈ routes, ∀ l ∈ routeLines r, BindsOrNot l := by
    intro r hr l hl
    simp only [routeLines, List.mem_cons, List.not_mem_nil, or_false] at hl
    rcases hl with rfl | rfl | rfl | rfl
    · exact bindsOrNot_empty
    · exact bindsOrNot_begins (begins_routeBinding r) rfl
    · exact .inl (by rw [read?_bound_handler (h r hr), Option.isSome_some])
    · exact bindsOrNot_begins (begins_routeAnswer r) rfl
  have hne : routesModule routes ≠ [] := List.append_ne_nil_of_right_ne_nil _ (by decide)
  rw [OnlyBinds, lines_ofLines hne (isLine_routesModule h)]
  intro l hl
  simp only [routesModule, List.mem_append, List.mem_flatMap, List.mem_singleton] at hl
  rcases hl with (hl | ⟨r, hr, hl⟩) | rfl
  · exact hheader l hl
  · exact hroute r hr l hl
  · exact bindsOrNot_empty

end Source

end Nanoservice
