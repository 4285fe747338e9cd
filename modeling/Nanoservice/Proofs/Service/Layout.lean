import Nanoservice.Proofs.Disk.Path
import Nanoservice.Proofs.Service.Name
import Nanoservice.Service.Source

/-!
# The layout of a generated service

Every node and every workflow has a module of its own: module names, and class names, are distinct
(`Backend.nodup_modules_nodeSources`, `Backend.nodup_classNames_nodeSources`,
`Backend.nodup_modules_workflowSources`). The paths of the generated files are distinct as well
(`Backend.nodup_paths_serviceFiles`), and each of them leads through folders without a dot in their
names to a file with one (`Backend.leadsToFile_of_mem_serviceFiles`), so that none leads through
another one.
-/

namespace Nanoservice

namespace Path

/-- A path leads through folders whose names have no dot to a file whose name has one. -/
def leadsToFile (written : String) : Bool :=
  (components written).dropLast.all (fun n => n != "" && !n.toList.contains '.') &&
    (components written).getLast?.any fun f => f.toList.contains '.' && f != "." && f != ".."

theorem leadsToFile_iff {written : String} :
    leadsToFile written = true ↔
      ∃ folders file, components written = folders ++ [file] ∧
        (∀ n ∈ folders, n ≠ "" ∧ '.' ∉ n.toList) ∧ '.' ∈ file.toList ∧ file ≠ "." ∧
          file ≠ ".." := by
  rcases List.eq_nil_or_concat (components written) with he | ⟨folders, file, he⟩
  · simp [leadsToFile, he]
  · rw [List.concat_eq_append] at he
    have hdef : leadsToFile written = true ↔ (∀ n ∈ folders, n ≠ "" ∧ '.' ∉ n.toList) ∧
        '.' ∈ file.toList ∧ file ≠ "." ∧ file ≠ ".." := by
      simp [leadsToFile, he, and_assoc]
    rw [hdef]
    constructor
    · exact fun h => ⟨folders, file, he, h⟩
    · rintro ⟨folders', file', he', h⟩
      obtain ⟨rfl, hfile⟩ := List.append_inj' (he.symm.trans he') rfl
      obtain rfl := List.singleton_inj.1 hfile
      exact h

/-- A path that leads to a file is plain. -/
theorem isPlain_of_leadsToFile {written : String} (h : leadsToFile written = true) :
    IsPlain written := by
  obtain ⟨folders, file, he, hfolders, hdot, hone, htwo⟩ := leadsToFile_iff.1 h
  have hnamed : ∀ n ∈ components written, n ≠ "" ∧ n ≠ "." ∧ n ≠ ".." := by
    intro n hn
    rw [he, List.mem_append, List.mem_singleton] at hn
    rcases hn with hn | rfl
    · obtain ⟨hne, hfree⟩ := hfolders n hn
      refine ⟨hne, ?_, ?_⟩
      · rintro rfl
        exact hfree (by decide)
      · rintro rfl
        exact hfree (by decide)
    · refine ⟨?_, hone, htwo⟩
      rintro rfl
      cases hdot
  exact ⟨isAbsolute_eq_false fun n hn => (hnamed n hn).1, hnamed⟩

/-- No path to a file leads through another one. -/
theorem components_eq_of_prefix {v w : String} (hv : leadsToFile v = true)
    (hw : leadsToFile w = true) (h : components v <+: components w) :
    components v = components w := by
  obtain ⟨fs, f, hv', -, hdot, -⟩ := leadsToFile_iff.1 hv
  obtain ⟨gs, g, hw', hfolders, -⟩ := leadsToFile_iff.1 hw
  obtain ⟨t, ht⟩ := h
  rcases List.eq_nil_or_concat t with rfl | ⟨t, a, rfl⟩
  · rw [← ht, List.append_nil]
  · -- Otherwise the file of the one path is a folder of the other.
    rw [List.concat_eq_append, ← List.append_assoc, hw'] at ht
    have hgs := (List.append_inj' ht rfl).1
    have hmem : f ∈ gs := by
      rw [← hgs, hv']
      simp
    exact absurd hdot (hfolders f hmem).2

end Path

namespace Source

/-- The path of a module in a folder. -/
def modulePath (folder module : String) : String :=
  folder ++ "/" ++ (module ++ ".py")

/-- The paths of the files that every service has. -/
def sharedPaths : List String :=
  ["app/__init__.py", "app/main.py", "app/api/__init__.py", "app/api/routes.py",
    "app/nodes/__init__.py", "app/workflows/__init__.py", "requirements.txt", "README.md"]

variable {folder module : String}

theorem components_modulePath (h : Name.IsModuleName module) :
    Path.components (modulePath folder module) = Path.components folder ++ [module ++ ".py"] := by
  rw [modulePath, Path.components_append, Path.components_of_not_mem (s := module ++ ".py")]
  rw [String.toList_append, List.mem_append, not_or]
  exact ⟨h.not_mem (by decide) (by decide), by decide⟩

theorem modulePath_injective (folder : String) : Function.Injective (modulePath folder) := by
  intro a b h
  have hlist := congrArg String.toList h
  simp only [modulePath, String.toList_append, List.append_cancel_left_eq,
    List.append_cancel_right_eq] at hlist
  exact String.toList_injective hlist

/-- A module in a folder without dots is a file. -/
theorem leadsToFile_modulePath (hfolder : ∀ n ∈ Path.components folder, n ≠ "" ∧ '.' ∉ n.toList)
    (h : Name.IsModuleName module) : Path.leadsToFile (modulePath folder module) = true := by
  have hlength : (module ++ ".py").toList.length = module.toList.length + 3 := by
    rw [String.toList_append, List.length_append]
    rfl
  refine Path.leadsToFile_iff.2 ⟨_, _, components_modulePath h, hfolder, ?_, ?_, ?_⟩
  · rw [String.toList_append]
    exact List.mem_append_right _ (by decide)
  · intro he
    rw [he] at hlength
    have hone : ".".toList.length = 1 := rfl
    omega
  · intro he
    rw [he] at hlength
    have htwo : "..".toList.length = 2 := rfl
    omega

/-- No module has the path of a file that every service has. -/
theorem modulePath_not_mem_sharedPaths
    (hfolder : Path.components folder = ["app", "nodes"] ∨
      Path.components folder = ["app", "workflows"])
    (h : Name.IsModuleName module) : modulePath folder module ∉ sharedPaths := by
  intro hmem
  have hlast : ∀ p ∈ sharedPaths, (Path.components p).dropLast = ["app", "nodes"] ∨
      (Path.components p).dropLast = ["app", "workflows"] →
      (Path.components p).getLast? = some "__init__.py" := by decide
  have hinit := hlast _ hmem
  rw [components_modulePath h, List.dropLast_concat, List.getLast?_concat] at hinit
  have hname := congrArg String.toList (Option.some.inj (hinit hfolder))
  obtain ⟨c, hc, hsmall⟩ := h.start
  obtain ⟨cs, hcs⟩ := List.head?_eq_some_iff.1 hc
  rw [String.toList_append, hcs, List.cons_append] at hname
  obtain rfl : c = '_' := (List.cons.inj hname).1
  cases hsmall

/-- A module of a folder is none of another folder. -/
theorem modulePath_ne {folder' module' : String} (h : Name.IsModuleName module)
    (h' : Name.IsModuleName module') (hne : Path.components folder ≠ Path.components folder') :
    modulePath folder module ≠ modulePath folder' module' := by
  intro he
  have hcomponents := congrArg Path.components he
  rw [components_modulePath h, components_modulePath h'] at hcomponents
  exact hne (List.append_inj' hcomponents rfl).1

end Source

namespace Backend

open Source

variable (b : Backend)

/-! ## The modules of nodes and workflows -/

/-- The nodes of a service are those of the model, in order, with unique names for modules and
classes. -/
theorem nodeSources_spec :
    b.nodeSources.map NodeSource.node = b.nodes ∧
      b.nodeSources.map NodeSource.module =
        (Name.uniqueAll [] (b.nodes.map fun n => Name.identifier .node n.name)).1 ∧
      b.nodeSources.map NodeSource.className =
        (Name.uniqueAll [] (b.nodes.map fun n => Name.pascalCase n.name ++ "Node")).1 := by
  obtain ⟨hmodules, -, -⟩ :=
    Name.uniqueAll_spec [] (b.nodes.map fun n => Name.identifier .node n.name)
  obtain ⟨hclasses, -, -⟩ :=
    Name.uniqueAll_spec [] (b.nodes.map fun n => Name.pascalCase n.name ++ "Node")
  rw [List.length_map] at hmodules hclasses
  rw [nodeSources, List.map_map, List.map_map, List.map_map]
  generalize (Name.uniqueAll [] (b.nodes.map fun n => Name.identifier .node n.name)).1 = modules
    at hmodules
  generalize (Name.uniqueAll [] (b.nodes.map fun n => Name.pascalCase n.name ++ "Node")).1 =
    classes at hclasses
  have hzip : b.nodes.length = (modules.zip classes).length := by
    rw [List.length_zip]
    omega
  refine ⟨List.map_fst_zip (Nat.le_of_eq hzip), ?_, ?_⟩
  · calc _ = ((b.nodes.zip (modules.zip classes)).map Prod.snd).map Prod.fst := by
          rw [List.map_map]; rfl
      _ = modules := by rw [List.map_snd_zip (Nat.le_of_eq hzip.symm), List.map_fst_zip (by omega)]
  · calc _ = ((b.nodes.zip (modules.zip classes)).map Prod.snd).map Prod.snd := by
          rw [List.map_map]; rfl
      _ = classes := by rw [List.map_snd_zip (Nat.le_of_eq hzip.symm), List.map_snd_zip (by omega)]

/-- The workflows of a service are those of the model, in order, with unique names for modules. -/
theorem workflowSources_spec :
    b.workflowSources.map WorkflowSource.workflow = b.workflows ∧
      b.workflowSources.map WorkflowSource.module =
        (Name.uniqueAll [] (b.workflows.map fun w => Name.identifier .workflow w.name)).1 := by
  obtain ⟨hmodules, -, -⟩ :=
    Name.uniqueAll_spec [] (b.workflows.map fun w => Name.identifier .workflow w.name)
  rw [List.length_map] at hmodules
  rw [workflowSources, List.map_map, List.map_map]
  exact ⟨List.map_fst_zip (Nat.le_of_eq hmodules.symm), List.map_snd_zip (Nat.le_of_eq hmodules)⟩

/-- Unique identifiers of names can name modules. -/
theorem isModuleName_uniqueAll {α : Type} (role : Name.Role) (nameOf : α → String) (as : List α) :
    ∀ m ∈ (Name.uniqueAll [] (as.map fun a => Name.identifier role (nameOf a))).1,
      Name.IsModuleName m := by
  refine Name.forall_mem_uniqueAll (fun s n h => h.numbered n) fun base hbase => ?_
  obtain ⟨a, -, rfl⟩ := List.mem_map.1 hbase
  exact Name.isModuleName_identifier role (nameOf a)

theorem isModuleName_of_mem_nodeSources {s : NodeSource} (h : s ∈ b.nodeSources) :
    Name.IsModuleName s.module := by
  have hmem := List.mem_map_of_mem (f := NodeSource.module) h
  rw [b.nodeSources_spec.2.1] at hmem
  exact isModuleName_uniqueAll .node Node.name b.nodes _ hmem

theorem isModuleName_of_mem_workflowSources {s : WorkflowSource} (h : s ∈ b.workflowSources) :
    Name.IsModuleName s.module := by
  have hmem := List.mem_map_of_mem (f := WorkflowSource.module) h
  rw [b.workflowSources_spec.2] at hmem
  exact isModuleName_uniqueAll .workflow Workflow.name b.workflows _ hmem

theorem nodup_modules_nodeSources : (b.nodeSources.map NodeSource.module).Nodup := by
  rw [b.nodeSources_spec.2.1]
  exact (Name.uniqueAll_spec _ _).2.1

theorem nodup_classNames_nodeSources : (b.nodeSources.map NodeSource.className).Nodup := by
  rw [b.nodeSources_spec.2.2]
  exact (Name.uniqueAll_spec _ _).2.1

theorem nodup_modules_workflowSources : (b.workflowSources.map WorkflowSource.module).Nodup := by
  rw [b.workflowSources_spec.2]
  exact (Name.uniqueAll_spec _ _).2.1

/-! ## The paths of the files -/

/-- The path of the module of a node. -/
def nodePath (s : NodeSource) : String := modulePath "app/nodes" s.module

/-- The path of the module of a workflow. -/
def workflowPath (s : WorkflowSource) : String := modulePath "app/workflows" s.module

theorem nodePath_eq (s : NodeSource) : nodePath s = "app/nodes/" ++ s.module ++ ".py" := by
  rw [nodePath, modulePath, ← String.append_assoc]
  rfl

theorem workflowPath_eq (s : WorkflowSource) :
    workflowPath s = "app/workflows/" ++ s.module ++ ".py" := by
  rw [workflowPath, modulePath, ← String.append_assoc]
  rfl

theorem paths_serviceFiles :
    b.serviceFiles.map OutputFile.path =
      sharedPaths ++ b.nodeSources.map nodePath ++ b.workflowSources.map workflowPath := by
  simp only [serviceFiles, List.map_append, List.map_map, Function.comp_def, ← nodePath_eq,
    ← workflowPath_eq]
  rfl

/-- Every generated file has a path of its own. -/
theorem nodup_paths_serviceFiles : (b.serviceFiles.map OutputFile.path).Nodup := by
  have hnodes : (b.nodeSources.map nodePath).Nodup := by
    rw [show b.nodeSources.map nodePath =
      (b.nodeSources.map NodeSource.module).map (modulePath "app/nodes") by rw [List.map_map]; rfl]
    exact b.nodup_modules_nodeSources.map (modulePath_injective _)
  have hworkflows : (b.workflowSources.map workflowPath).Nodup := by
    rw [show b.workflowSources.map workflowPath =
      (b.workflowSources.map WorkflowSource.module).map (modulePath "app/workflows") by
        rw [List.map_map]; rfl]
    exact b.nodup_modules_workflowSources.map (modulePath_injective _)
  rw [paths_serviceFiles, List.nodup_append, List.nodup_append]
  refine ⟨⟨by decide, hnodes, ?_⟩, hworkflows, ?_⟩
  · intro p hp q hq he
    obtain ⟨s, hs, rfl⟩ := List.mem_map.1 hq
    subst he
    exact modulePath_not_mem_sharedPaths (.inl (by decide))
      (b.isModuleName_of_mem_nodeSources hs) hp
  · intro p hp q hq he
    obtain ⟨s, hs, rfl⟩ := List.mem_map.1 hq
    subst he
    have hmodule := b.isModuleName_of_mem_workflowSources hs
    rcases List.mem_append.1 hp with hp | hp
    · exact modulePath_not_mem_sharedPaths (.inr (by decide)) hmodule hp
    · obtain ⟨t, ht, he⟩ := List.mem_map.1 hp
      exact modulePath_ne (b.isModuleName_of_mem_nodeSources ht) hmodule (by decide) he

/-- What holds of the paths that every service has and of those of modules holds of all. -/
theorem forall_path_serviceFiles {P : String → Prop} (hshared : ∀ p ∈ sharedPaths, P p)
    (hnodes : ∀ m, Name.IsModuleName m → P (modulePath "app/nodes" m))
    (hworkflows : ∀ m, Name.IsModuleName m → P (modulePath "app/workflows" m)) :
    ∀ f ∈ b.serviceFiles, P f.path := by
  intro f hf
  have hmem := List.mem_map_of_mem (f := OutputFile.path) hf
  rw [paths_serviceFiles, List.mem_append, List.mem_append] at hmem
  rcases hmem with (hmem | hmem) | hmem
  · exact hshared _ hmem
  · obtain ⟨s, hs, he⟩ := List.mem_map.1 hmem
    rw [← he]
    exact hnodes _ (b.isModuleName_of_mem_nodeSources hs)
  · obtain ⟨s, hs, he⟩ := List.mem_map.1 hmem
    rw [← he]
    exact hworkflows _ (b.isModuleName_of_mem_workflowSources hs)

/-- Every generated file lies in folders without a dot and has one in its own name. -/
theorem leadsToFile_of_mem_serviceFiles :
    ∀ f ∈ b.serviceFiles, Path.leadsToFile f.path = true :=
  b.forall_path_serviceFiles (P := fun p => Path.leadsToFile p = true) (by decide)
    (fun _ => leadsToFile_modulePath (by decide)) (fun _ => leadsToFile_modulePath (by decide))

end Backend

end Nanoservice
