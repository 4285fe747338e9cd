import Mathlib.Data.List.Forall2
import Nanoservice.Proofs.Candidate.Accepted
import Nanoservice.Proofs.Service.Route
import Nanoservice.Proofs.Service.Source

/-!
# Generated services are closed

`Backend.IsClosed` says of the texts of files that they make a service whose parts find each other:
what a registry imports is defined in a module of its own, the steps of workflows are entered in the
registry of the nodes, the workflows of routes in that of the workflows, and no name is bound twice
in the module of the routes. The files that are generated for the model of an accepted candidate are
such a service (`Candidate.serviceFiles_isClosed`). The checks of candidates are needed for the keys
of the registries and for the steps (`Backend.isClosed_serviceFiles`); all other names are told
apart by the generator, whatever names the model has.
-/

namespace Nanoservice

open Statement

namespace OutputFile

/-- The texts of the files at a path. -/
def textsAt (files : List OutputFile) (path : String) : List String :=
  (files.filter fun f => f.path == path).map content

/-- At the path of a file among files with distinct paths, there is its text and no other. -/
theorem textsAt_of_mem {files : List OutputFile} (h : (files.map OutputFile.path).Nodup)
    {f : OutputFile} (hf : f ∈ files) : textsAt files f.path = [f.content] := by
  induction files with
  | nil => cases hf
  | cons g files ih =>
    rw [List.map_cons, List.nodup_cons] at h
    obtain ⟨hfresh, hnodup⟩ := h
    rcases List.mem_cons.1 hf with rfl | hf
    · have hnone : files.filter (fun g => g.path == f.path) = [] := by
        rw [List.filter_eq_nil_iff]
        intro g hg he
        exact hfresh (List.mem_map.2 ⟨g, hg, beq_iff_eq.1 he⟩)
      rw [textsAt, List.filter_cons_of_pos (by simp), hnone]
      rfl
    · have hne : (g.path == f.path) = false := by
        rw [beq_eq_false_iff_ne]
        exact fun he => hfresh (he ▸ List.mem_map_of_mem hf)
      rw [textsAt, List.filter_cons_of_neg (by simp [hne])]
      exact ih hnodup hf

end OutputFile

namespace Backend

open OutputFile Source

/-- Files make a closed service for a model, where `nodes`, `workflows` and `routes` are the texts
of the two registries and of the module of the routes. -/
structure IsClosed (b : Backend) (files : List OutputFile) (nodes workflows routes : String) :
    Prop where
  nodeRegistry : textsAt files "app/nodes/__init__.py" = [nodes]
  workflowRegistry : textsAt files "app/workflows/__init__.py" = [workflows]
  routesModule : textsAt files "app/api/routes.py" = [routes]
  /-- Nodes have modules and classes of their own. -/
  nodeImports : ((all nodeImport nodes).map Prod.fst).Nodup ∧
    ((all nodeImport nodes).map Prod.snd).Nodup
  /-- Each node in order has its class imported from the one file that defines it, with the name of
  the node. -/
  nodeFiles : List.Forall₂ (fun n i => ∃ source,
    textsAt files (modulePath "app/nodes" i.1) = [source] ∧
      all classHead source = [i.2] ∧ all className source = [n.name])
    b.nodes (all nodeImport nodes)
  /-- The registry of the nodes enters each of them once, with its class. -/
  nodeEntries : all nodeEntry nodes =
    (b.nodes.map Node.name).zip ((all nodeImport nodes).map Prod.snd)
  nodeKeys : ((all nodeEntry nodes).map Prod.fst).Nodup
  /-- Workflows have modules of their own. -/
  workflowImports : (all workflowImport workflows).Nodup
  /-- Each workflow in order has one file, which has its name and its steps. -/
  workflowFiles : List.Forall₂ (fun w i => ∃ source,
    textsAt files (modulePath "app/workflows" i) = [source] ∧
      all moduleName source = [w.name] ∧ all steps source = [w.nodes])
    b.workflows (all workflowImport workflows)
  /-- The registry of the workflows enters each of them once, with its module. -/
  workflowEntries : all workflowEntry workflows =
    (b.workflows.map Workflow.name).zip (all workflowImport workflows)
  workflowKeys : ((all workflowEntry workflows).map Prod.fst).Nodup
  /-- Every step is entered in the registry of the nodes. -/
  entered : ∀ w ∈ b.workflows, ∀ step ∈ w.nodes,
    step ∈ (all nodeEntry nodes).map fun entry => .plain entry.1
  /-- The routes pass requests to the workflows that serve them, which are entered in the registry
  of the workflows. -/
  served : all Statement.served routes = b.routes.filterMap Route.workflow ∧
    ∀ w ∈ all Statement.served routes, w ∈ (all workflowEntry workflows).map Prod.fst
  /-- The module of the routes defines a handler for each of them, with a valid name. -/
  handlers : all Statement.handler routes = b.routes.map Route.handler ∧
    ∀ h ∈ all Statement.handler routes, Name.IsIdentifier h
  /-- The module of the routes binds no name twice, neither its own nor those of handlers. -/
  bound : boundNames routes = routesNames ++ all Statement.handler routes ∧
    (boundNames routes).Nodup ∧ OnlyBinds routes

variable (b : Backend)

/-! ## The names of the parts -/

/-- The module and the class of a node have names. -/
theorem isName_of_mem_nodeSources :
    ∀ s ∈ b.nodeSources, IsName s.module ∧ IsName s.className := by
  intro s hs
  refine ⟨(b.isModuleName_of_mem_nodeSources hs).isName, ?_⟩
  have hmem := List.mem_map_of_mem (f := NodeSource.className) hs
  rw [b.nodeSources_spec.2.2] at hmem
  refine Name.forall_mem_uniqueAll (P := IsName) (fun s n h => ?_) (fun base hbase => ?_) _ hmem
  · refine ⟨?_, Name.isNameChar_numbered h.chars n⟩
    simp [Name.numbered]
  · obtain ⟨n, -, rfl⟩ := List.mem_map.1 hbase
    refine ⟨by simp, fun c hc => ?_⟩
    rw [String.toList_append, List.mem_append] at hc
    rcases hc with hc | hc
    · exact Name.isNameChar_pascalCase hc
    · have hchars : "Node".toList.all Name.isNameChar = true := rfl
      exact List.all_eq_true.1 hchars c hc

theorem isName_of_mem_workflowSources : ∀ s ∈ b.workflowSources, IsName s.module :=
  fun _ hs => (b.isModuleName_of_mem_workflowSources hs).isName

theorem isName_handler : ∀ r ∈ b.routes, IsName r.handler :=
  fun r hr => (b.isModuleName_handler r hr).isName

/-- No handler has a name that the module of the routes binds for itself. -/
theorem handler_not_mem_routesNames : ∀ r ∈ b.routes, r.handler ∉ routesNames := by
  have hnone : ∀ m : Method, ∀ name ∈ routesNames, ¬ m.lowerName.toList <+: name.toList := by
    intro m
    cases m <;> simp [routesNames, Method.lowerName, List.cons_prefix_cons]
  intro r hr hmem
  exact hnone r.method _ hmem (b.prefix_of_mem_routes r hr)

/-! ## The files of the parts -/

/-- The text of a generated file is the only one at its path. -/
theorem textsAt_serviceFiles {path text : String} (h : ⟨path, text⟩ ∈ b.serviceFiles) :
    textsAt b.serviceFiles path = [text] :=
  textsAt_of_mem b.nodup_paths_serviceFiles h

theorem textsAt_nodeRegistry :
    textsAt b.serviceFiles "app/nodes/__init__.py" =
      [ofLines (Source.nodeRegistry b.nodeSources)] := by
  apply textsAt_serviceFiles
  simp [serviceFiles]

theorem textsAt_workflowRegistry :
    textsAt b.serviceFiles "app/workflows/__init__.py" =
      [ofLines (Source.workflowRegistry b.workflowSources)] := by
  apply textsAt_serviceFiles
  simp [serviceFiles]

theorem textsAt_routesModule :
    textsAt b.serviceFiles "app/api/routes.py" = [ofLines (Source.routesModule b.routes)] := by
  apply textsAt_serviceFiles
  simp [serviceFiles]

theorem textsAt_nodeModule {s : NodeSource} (h : s ∈ b.nodeSources) :
    textsAt b.serviceFiles (nodePath s) = [ofLines (Source.nodeModule s)] := by
  apply textsAt_serviceFiles
  rw [nodePath_eq]
  exact List.mem_append_left _ (List.mem_append_right _ (List.mem_map_of_mem h))

theorem textsAt_workflowModule {s : WorkflowSource} (h : s ∈ b.workflowSources) :
    textsAt b.serviceFiles (workflowPath s) = [ofLines (Source.workflowModule s.workflow)] := by
  apply textsAt_serviceFiles
  rw [workflowPath_eq]
  exact List.mem_append_right _ (List.mem_map_of_mem h)

/-- The files of a model make a closed service if names tell its nodes and its workflows apart and
the steps of its workflows are names of nodes. -/
theorem isClosed_serviceFiles (hnodes : (b.nodes.map Node.name).Nodup)
    (hworkflows : (b.workflows.map Workflow.name).Nodup)
    (hsteps : ∀ w ∈ b.workflows, ∀ step ∈ w.nodes,
      step ∈ b.nodes.map fun n => .plain n.name) :
    b.IsClosed b.serviceFiles (ofLines (Source.nodeRegistry b.nodeSources))
      (ofLines (Source.workflowRegistry b.workflowSources))
      (ofLines (Source.routesModule b.routes)) := by
  have himports := all_nodeImport b.isName_of_mem_nodeSources
  have hentries := all_nodeEntry b.isName_of_mem_nodeSources
  have himports' := all_workflowImport b.isName_of_mem_workflowSources
  have hentries' := all_workflowEntry b.isName_of_mem_workflowSources
  have hkeys : (b.nodeSources.map fun s => s.node.name) = b.nodes.map Node.name := by
    rw [← b.nodeSources_spec.1, List.map_map]
    rfl
  have hkeys' : (b.workflowSources.map fun s => s.workflow.name) =
      b.workflows.map Workflow.name := by
    rw [← b.workflowSources_spec.1, List.map_map]
    rfl
  constructor
  case nodeRegistry => exact b.textsAt_nodeRegistry
  case workflowRegistry => exact b.textsAt_workflowRegistry
  case routesModule => exact b.textsAt_routesModule
  case nodeImports =>
    rw [himports, List.map_map, List.map_map]
    exact ⟨b.nodup_modules_nodeSources, b.nodup_classNames_nodeSources⟩
  case nodeFiles =>
    rw [himports, ← b.nodeSources_spec.1, List.forall₂_map_left_iff, List.forall₂_map_right_iff,
      List.forall₂_same]
    intro s hs
    have hclass := (b.isName_of_mem_nodeSources s hs).2
    exact ⟨_, b.textsAt_nodeModule hs, all_classHead hclass, all_className hclass⟩
  case nodeEntries =>
    rw [hentries, himports, ← hkeys, List.map_map, List.zip_map']
    rfl
  case nodeKeys =>
    rw [hentries, List.map_map]
    exact hkeys ▸ hnodes
  case workflowImports =>
    rw [himports']
    exact b.nodup_modules_workflowSources
  case workflowFiles =>
    rw [himports', ← b.workflowSources_spec.1, List.forall₂_map_left_iff,
      List.forall₂_map_right_iff, List.forall₂_same]
    intro s hs
    have hmem := List.mem_map_of_mem (f := WorkflowSource.workflow) hs
    rw [b.workflowSources_spec.1] at hmem
    have hplain : s.workflow.nodes.map (fun t => .ofSymbols t.symbols) = s.workflow.nodes := by
      refine (List.map_congr_left fun t ht => ?_).trans (List.map_id _)
      obtain ⟨n, -, rfl⟩ := List.mem_map.1 (hsteps _ hmem t ht)
      exact RawText.ofSymbols_symbols_plain n.name
    exact ⟨_, b.textsAt_workflowModule hs, all_moduleName _, hplain ▸ all_steps _⟩
  case workflowEntries =>
    rw [hentries', himports', ← hkeys', List.zip_map']
  case workflowKeys =>
    rw [hentries', List.map_map]
    exact hkeys' ▸ hworkflows
  case entered =>
    intro w hw step hstep
    have hnames := hsteps w hw step hstep
    rw [← b.nodeSources_spec.1, List.map_map] at hnames
    rw [hentries, List.map_map]
    exact hnames
  case served =>
    rw [all_served b.isName_handler, hentries', List.map_map]
    refine ⟨rfl, fun w hw => ?_⟩
    obtain ⟨r, hr, hname⟩ := List.mem_filterMap.1 hw
    obtain ⟨v, hv, rfl⟩ := b.workflow_of_mem_routes hr hname
    exact hkeys' ▸ List.mem_map_of_mem hv
  case handlers =>
    rw [all_handler b.isName_handler]
    refine ⟨rfl, fun h hh => ?_⟩
    obtain ⟨r, hr, rfl⟩ := List.mem_map.1 hh
    exact (b.isModuleName_handler r hr).isIdentifier
  case bound =>
    rw [all_handler b.isName_handler, boundNames_routesModule b.isName_handler]
    refine ⟨rfl, List.nodup_append.2 ⟨by decide, b.nodup_handlers, ?_⟩,
      onlyBinds_routesModule b.isName_handler⟩
    intro name hname h hh he
    obtain ⟨r, hr, rfl⟩ := List.mem_map.1 hh
    exact b.handler_not_mem_routesNames r hr (he ▸ hname)

end Backend

namespace Candidate

open Reading

/-- The model of an accepted candidate tells its nodes and its workflows apart by their names, and
the steps of its workflows are names of nodes. -/
theorem names_of_validate {freshId : String} {raw : Json} {m : Backend}
    (h : validate freshId raw = .ok m) :
    (m.nodes.map Node.name).Nodup ∧ (m.workflows.map Workflow.name).Nodup ∧
      ∀ w ∈ m.workflows, ∀ step ∈ w.nodes, step ∈ m.nodes.map fun n => .plain n.name := by
  obtain ⟨fs, rfl, -, -, hfault, hread⟩ := validate_eq_ok.1 h
  obtain ⟨-, -, -, -, hnodes, hflows, -⟩ :=
    partsOfJson_prepared_eq_ok.1 (Backend.ofJson_eq_ok.1 hread).1
  obtain ⟨hnodup, hnodup', -⟩ := fault?_eq_none.1 hfault
  obtain ⟨ws, hws, hwread⟩ := lookup_of_list_eq_ok hflows
  rw [names_nodes_of_read hnodes] at hnodup
  rw [hws, names_objects_of_read lookup_name_of_workflow hwread] at hnodup'
  exact ⟨nodup_plain_iff.1 hnodup, nodup_plain_iff.1 hnodup',
    (Backend.isNormal_of_ofJson hread).resolved⟩

/-- The service that is generated for an accepted candidate is closed. -/
theorem serviceFiles_isClosed {freshId : String} {raw : Json} {m : Backend}
    (h : validate freshId raw = .ok m) :
    ∃ nodes workflows routes, m.IsClosed m.serviceFiles nodes workflows routes := by
  obtain ⟨hnodes, hworkflows, hsteps⟩ := names_of_validate h
  exact ⟨_, _, _, m.isClosed_serviceFiles hnodes hworkflows hsteps⟩

/-- An endpoint of the candidate below. -/
def itemsEndpoint : Fields := [("path", .str "/items"), ("method", .str "GET")]

/-- A workflow whose name is a keyword, with nodes whose names have one identifier. -/
def keywordWorkflow : Fields :=
  [("name", .str "class"), ("nodes", .arr [.str "a-b", .str "a b"]),
    ("endpoints", .arr [.obj itemsEndpoint])]

/-- A candidate whose names do not tell its modules apart. -/
def crossed : Fields :=
  [("name", .str "shop"),
    ("nodes", .arr [.obj [("name", .str "a b"), ("type", .str "database")],
      .obj [("name", .str "a-b"), ("type", .str "validator")]]),
    ("workflows", .arr [.obj keywordWorkflow])]

/-- The candidate is accepted, and its service is closed. -/
theorem serviceFiles_isClosed_crossed :
    ∃ m, validate "0" (.obj crossed) = .ok m ∧
      ∃ nodes workflows routes, m.IsClosed m.serviceFiles nodes workflows routes := by
  have hpath : Rule.path (.str "/items") = .ok (.plain "/items") :=
    Rule.path_eq_ok.2 ⟨.plain "/items", rfl, by cbv, by cbv⟩
  have hend : Endpoint.ofJson (.obj itemsEndpoint) = .ok ⟨"/items", .get, "", [], []⟩ :=
    Endpoint.ofJson_eq_ok.2 ⟨_, rfl, mandatory_eq_ok.2 ⟨_, rfl, hpath⟩,
      mandatory_eq_ok.2 ⟨_, rfl, rfl⟩, rfl, rfl, rfl⟩
  have hends : list Endpoint.ofJson (.arr [.obj itemsEndpoint]) =
      .ok [⟨"/items", .get, "", [], []⟩] :=
    list_eq_ok.2 ⟨_, rfl, by simp [hend]⟩
  have hflow : Workflow.ofJson (.obj keywordWorkflow) =
      .ok ⟨"class", "", ["a-b", "a b"], [⟨"/items", .get, "", [], []⟩]⟩ :=
    Workflow.ofJson_eq_ok.2 ⟨_, rfl, by cbv, rfl, by cbv, optional_eq_ok.2 (.inl ⟨_, rfl, hends⟩)⟩
  have hfault : endpointFault? itemsEndpoint = none :=
    endpointFault?_eq_none.2 ⟨⟨.plain "/items", rfl, by cbv⟩, _, _, rfl, rfl⟩
  have hvalid : validate "0" (.obj crossed) = .ok ⟨"0", "shop", "", "0.1.0",
      [⟨"a b", .database, "", [], []⟩, ⟨"a-b", .validator, "", [], []⟩],
      [⟨"class", "", ["a-b", "a b"], [⟨"/items", .get, "", [], []⟩]⟩],
      [⟨"/items", .get, "", [], []⟩]⟩ := by
    refine validate_eq_ok.2 ⟨crossed, rfl, by cbv, rfl, fault?_eq_none.2 ⟨?_, ?_, ?_, ?_, ?_⟩,
      Backend.ofJson_eq_ok.2 ⟨partsOfJson_prepared_eq_ok.2 ⟨rfl, by cbv, rfl, rfl, by cbv,
        list_eq_ok.2 ⟨_, rfl, by simp [hflow]⟩, hends⟩, by cbv⟩⟩
    · change [RawText.plain "a b", RawText.plain "a-b"].Nodup
      decide
    · exact List.nodup_singleton (RawText.plain "class")
    · intro w hw
      obtain rfl : w = keywordWorkflow := List.mem_singleton.1 hw
      cbv
    · intro e he
      obtain rfl : e = itemsEndpoint := List.mem_singleton.1 he
      exact hfault
    · intro w hw e he
      obtain rfl : w = keywordWorkflow := List.mem_singleton.1 hw
      obtain rfl : e = itemsEndpoint := List.mem_singleton.1 he
      exact hfault
  exact ⟨_, hvalid, serviceFiles_isClosed hvalid⟩

end Candidate

end Nanoservice
