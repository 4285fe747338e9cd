import Mathlib.Data.List.Pairwise
import Nanoservice.Artifacts
import Nanoservice.Proofs.Backend.RoundTrip
import Nanoservice.Proofs.Disk.Room
import Nanoservice.Proofs.OpenApi.Integers
import Nanoservice.Proofs.Service.Layout

/-!
# The artifacts of a model on the disk

Whatever names a model has, repeated ones included, the paths of its artifacts are relative and
distinct, and none leads through another one; so the artifacts are written where they have room
(`Backend.exists_write_artifacts_of_admits`), and into an empty folder without a fault, and are all
that is there afterwards (`Backend.artifacts_fill_folder`). The page is made first, from a template
that may be stored on the way, in its own folder (`Backend.page_disk`), and it is all there is when
the model cannot be written, or its document has an integer that is too long
(`Backend.artifactFault?_eq_none`, `Backend.writeArtifacts_of_artifactFault`).
-/

namespace Nanoservice

namespace Backend

open Output Source

variable (b : Backend) (page : String)

/-! ## The paths of artifacts -/

/-- The paths of the artifacts beside the service. -/
def documentPaths : List String :=
  ["backend.json", "openapi.json", "openapi.yaml", "docs.html"]

theorem components_inside (f : OutputFile) :
    Path.components (f.inside serviceFolder).path = serviceFolder :: Path.components f.path := by
  rw [OutputFile.inside, Path.components_append]
  rfl

theorem paths_artifacts :
    (b.artifacts page).map OutputFile.path =
      documentPaths ++ b.serviceFiles.map fun f => (f.inside serviceFolder).path := by
  rw [artifacts, List.map_append, List.map_map]
  rfl

/-- Every artifact lies in folders without a dot and has one in its own name. -/
theorem leadsToFile_of_mem_artifacts :
    ∀ f ∈ b.artifacts page, Path.leadsToFile f.path = true := by
  intro f hf
  have hmem := List.mem_map_of_mem (f := OutputFile.path) hf
  rw [paths_artifacts, List.mem_append] at hmem
  rcases hmem with hmem | hmem
  · exact (by decide : ∀ p ∈ documentPaths, Path.leadsToFile p = true) _ hmem
  · obtain ⟨g, hg, he⟩ := List.mem_map.1 hmem
    obtain ⟨folders, file, hfile, hfolders, hname⟩ :=
      Path.leadsToFile_iff.1 (b.leadsToFile_of_mem_serviceFiles g hg)
    rw [← he]
    refine Path.leadsToFile_iff.2 ⟨serviceFolder :: folders, file, ?_, ?_, hname⟩
    · rw [components_inside, hfile, List.cons_append]
    · exact List.forall_mem_cons.2 ⟨by decide, hfolders⟩

/-- Every artifact has a path of its own. -/
theorem nodup_paths_artifacts : ((b.artifacts page).map OutputFile.path).Nodup := by
  rw [paths_artifacts, List.nodup_append]
  refine ⟨by decide, ?_, ?_⟩
  · have hservice :
        ((b.serviceFiles.map OutputFile.path).map (serviceFolder ++ "/" ++ ·)).Nodup := by
      refine b.nodup_paths_serviceFiles.map fun v w h => ?_
      have hlist := congrArg String.toList h
      simp only [String.toList_append, List.append_cancel_left_eq] at hlist
      exact String.toList_injective hlist
    rw [List.map_map] at hservice
    exact hservice
  · intro p hp q hq he
    obtain ⟨f, hf, rfl⟩ := List.mem_map.1 hq
    subst he
    -- A document has one component, and a file of the service has two or more.
    have hone : ∀ p ∈ documentPaths, (Path.components p).length = 1 := by decide
    have hlength := hone _ hp
    obtain ⟨folders, file, hfile, -⟩ :=
      Path.leadsToFile_iff.1 (b.leadsToFile_of_mem_serviceFiles f hf)
    rw [components_inside, hfile, List.length_cons, List.length_append] at hlength
    simp at hlength

/-- No path of an artifact has a zero character. -/
theorem hasZero_of_mem_artifacts : ∀ f ∈ b.artifacts page, hasZero f.path = false := by
  have hmodule : ∀ folder m : String, '\x00' ∉ folder.toList → Name.IsModuleName m →
      '\x00' ∉ (modulePath folder m).toList := by
    intro folder m hfolder hm hmem
    simp only [modulePath, String.toList_append, List.mem_append] at hmem
    rcases hmem with (hmem | hmem) | hmem | hmem
    · exact hfolder hmem
    · exact absurd hmem (by decide)
    · exact hm.not_mem (by decide) (by decide) hmem
    · exact absurd hmem (by decide)
  have hservice : ∀ f ∈ b.serviceFiles, '\x00' ∉ f.path.toList :=
    b.forall_path_serviceFiles (P := fun p => '\x00' ∉ p.toList) (by decide)
      (fun m => hmodule _ m (by decide)) (fun m => hmodule _ m (by decide))
  intro f hf
  have hmem := List.mem_map_of_mem (f := OutputFile.path) hf
  rw [paths_artifacts, List.mem_append] at hmem
  rw [hasZero, List.contains_eq_mem, decide_eq_false_iff_not]
  rcases hmem with hmem | hmem
  · exact (by decide : ∀ p ∈ documentPaths, '\x00' ∉ p.toList) _ hmem
  · obtain ⟨g, hg, he⟩ := List.mem_map.1 hmem
    rw [← he, OutputFile.inside, String.toList_append, String.toList_append, List.mem_append,
      List.mem_append]
    rintro ((hc | hc) | hc)
    · exact absurd hc (by decide)
    · exact absurd hc (by decide)
    · exact hservice g hg hc

/-- No path of an artifact leads through another artifact. -/
theorem not_prefix_of_mem_artifacts :
    ∀ f ∈ b.artifacts page, ∀ g ∈ b.artifacts page,
      ¬ Path.components f.path <+: (Path.components g.path).dropLast := by
  intro f hf g hg hpre
  have he := Path.components_eq_of_prefix (b.leadsToFile_of_mem_artifacts page f hf)
    (b.leadsToFile_of_mem_artifacts page g hg) (hpre.trans (List.dropLast_prefix _))
  rw [he] at hpre
  exact Path.not_prefix_dropLast (Path.components_ne_nil _) hpre

/-! ## Writing them -/

theorem isPlain_of_mem_artifacts {f : OutputFile} (hf : f ∈ b.artifacts page) :
    Path.IsPlain f.path :=
  Path.isPlain_of_leadsToFile (b.leadsToFile_of_mem_artifacts page f hf)

/-- All artifacts have targets below the output folder. -/
theorem targets_artifacts (root : Path) :
    targets root (b.artifacts page) =
      .ok ((b.artifacts page).map fun f => (Path.resolve root f.path, f.content)) :=
  targets_eq_ok.2 ⟨fun f hf => ⟨b.hasZero_of_mem_artifacts page f hf,
    (b.isPlain_of_mem_artifacts page hf).isBelow_resolve root⟩, rfl⟩

/-- The targets of artifacts are distinct. -/
theorem nodup_targets_artifacts (root : Path) :
    ((b.artifacts page).map fun f => Path.resolve root f.path).Nodup := by
  have hpaths := (b.nodup_paths_artifacts page).map
    (f := fun path => root ++ Path.components path) fun v w h =>
      Path.components_injective (List.append_cancel_left h)
  rw [List.map_map] at hpaths
  rwa [List.map_congr_left fun f hf => (b.isPlain_of_mem_artifacts page hf).resolve root]

/-- No target of an artifact is above the target of another. -/
theorem not_prefix_targets_artifacts (root : Path) {f g : OutputFile} (hf : f ∈ b.artifacts page)
    (hg : g ∈ b.artifacts page) :
    ¬ Path.resolve root f.path <+: (Path.resolve root g.path).dropLast := by
  rw [(b.isPlain_of_mem_artifacts page hf).resolve, (b.isPlain_of_mem_artifacts page hg).resolve,
    List.dropLast_append_of_ne_nil (Path.components_ne_nil _), List.prefix_append_right_inj]
  exact b.not_prefix_of_mem_artifacts page f hf g hg

/-- A place that no artifact has to do with, unless one is there: one in the output folder itself
that is not the folder of the service, or one neither below nor above the output folder. -/
def IsClear (root q : Path) : Prop :=
  (∃ n, n ≠ serviceFolder ∧ q = root ++ [n]) ∨ ¬ root <+: q ∧ ¬ q <+: root

theorem IsClear.not_prefix {root q : Path} (h : IsClear root q) : ¬ q <+: root := by
  rcases h with ⟨n, -, rfl⟩ | ⟨-, habove⟩
  · intro hpre
    have hle := hpre.length_le
    rw [List.length_append, List.length_singleton] at hle
    omega
  · exact habove

/-- An artifact is a document in the output folder itself, or in the folder of the service. -/
theorem components_artifacts {f : OutputFile} (hf : f ∈ b.artifacts page) :
    (∃ n ∈ documentPaths, Path.components f.path = [n]) ∨
      ∃ rest, rest ≠ [] ∧ Path.components f.path = serviceFolder :: rest := by
  have hmem := List.mem_map_of_mem (f := OutputFile.path) hf
  rw [paths_artifacts, List.mem_append] at hmem
  rcases hmem with hmem | hmem
  · exact .inl ⟨_, hmem, (by decide : ∀ p ∈ documentPaths, Path.components p = [p]) _ hmem⟩
  · obtain ⟨g, -, he⟩ := List.mem_map.1 hmem
    exact .inr ⟨_, Path.components_ne_nil g.path, by rw [← he, components_inside]⟩

/-- A clear place is neither above the target of an artifact nor below it. -/
theorem not_prefix_of_isClear {root q : Path} {f : OutputFile} (h : IsClear root q)
    (hf : f ∈ b.artifacts page) :
    ¬ Path.resolve root f.path <+: q.dropLast ∧
      ¬ q <+: (Path.resolve root f.path).dropLast := by
  have hne := Path.components_ne_nil f.path
  rw [(b.isPlain_of_mem_artifacts page hf).resolve]
  rcases h with ⟨n, hn, rfl⟩ | ⟨houtside, habove⟩
  · rw [List.dropLast_concat, List.dropLast_append_of_ne_nil hne, List.prefix_append_right_inj]
    refine ⟨fun hpre => ?_, fun hpre => ?_⟩
    · have hle : (root ++ Path.components f.path).length ≤ root.length := hpre.length_le
      rw [List.length_append] at hle
      have hpos := List.length_pos_iff.2 hne
      omega
    · rcases b.components_artifacts page hf with ⟨m, -, hm⟩ | ⟨rest, hrest, hservice⟩
      · rw [hm] at hpre
        cases List.prefix_nil.1 hpre
      · rw [hservice, List.dropLast_cons_of_ne_nil hrest, List.cons_prefix_cons] at hpre
        exact hn hpre.1
  · refine ⟨fun hpre => ?_, fun hpre => ?_⟩
    · exact houtside (((List.prefix_append _ _).trans hpre).trans (List.dropLast_prefix q))
    · exact (List.prefix_or_prefix_of_prefix (hpre.trans (List.dropLast_prefix _))
        (List.prefix_append root _)).elim habove houtside

/-! ## The page -/

/-- The place of the template in its folder. -/
def templatePlace (templates : Path) : Path :=
  templates ++ [Page.templateName]

/-- Making the page leaves the disk as it is when there is a template, and else comes to what
writing one comes to. -/
theorem page_disk (templates : Path) (date : String) (d : Disk) :
    (b.page templates date d).1 =
      if (d.find? (templatePlace templates)).isSome then d
      else (place d (templatePlace templates) Page.builtInTemplate).1 := by
  have hplace : Path.resolve templates Page.templateName = templatePlace templates := by
    have hplain : Path.IsPlain Page.templateName := Path.isPlain_of_leadsToFile (by decide)
    rw [hplain.resolve]
    exact congrArg (templates ++ ·) (by decide)
  have hdisk : (b.page templates date d).1 =
      (Page.loadTemplate templates Page.templateName d).1 := by
    rw [Backend.page, Backend.pagePieces]
    split <;> simp_all
  rw [hdisk, Page.loadTemplate, hplace, place]
  cases (d.find? (templatePlace templates)).isSome with
  | true => rfl
  | false =>
    cases d.makeFolders (templatePlace templates).dropLast with
    | error f => rfl
    | ok d₁ =>
      dsimp only
      cases d₁.writeFile (templatePlace templates) (.text Page.builtInTemplate) <;> rfl

/-- Making the page leaves an output folder empty that neither holds the folder of the templates nor
lies below a template. -/
theorem isEmptyFolder_page {root templates : Path} {date : String} {d : Disk}
    (h : d.IsEmptyFolder root) (hout : ¬ root <+: templates)
    (hfile : ¬ templatePlace templates <+: root) :
    (b.page templates date d).1.IsEmptyFolder root := by
  have hbelow : Path.isBelow (templatePlace templates) root = false := by
    rw [← Bool.not_eq_true, Path.isBelow_iff]
    rintro ⟨hpre, hlength⟩
    rcases Path.prefix_dropLast_or_eq hpre with hpre | rfl
    · rw [templatePlace, List.dropLast_concat] at hpre
      exact hout hpre
    · omega
  rw [page_disk]
  split
  · exact h
  · rw [place, templatePlace, List.dropLast_concat]
    split
    · exact h
    · next d₁ hmake =>
      have h₁ := h.makeFolders hmake hout
      split
      · exact h₁
      · next d₂ hwrite => exact h₁.writeFile hwrite hfile hbelow

/-- Making the page keeps room where the template is not in the way. -/
theorem admits_page {templates q : Path} {d : Disk} (h : d.Admits q) (date : String)
    (hway : (d.find? (templatePlace templates)).isSome ∨
      ¬ templatePlace templates <+: q.dropLast ∧ ¬ q <+: templates) :
    (b.page templates date d).1.Admits q := by
  rw [page_disk]
  split
  · exact h
  · next habsent =>
    obtain ⟨habove, hbelow⟩ := hway.resolve_left habsent
    exact admits_place h habove (by rwa [templatePlace, List.dropLast_concat])

/-- Making the page touches no file but the template. -/
theorem file_page (templates : Path) (date : String) (d : Disk) {q : Path} {c : Content}
    (hq : q ≠ templatePlace templates) :
    (b.page templates date d).1.find? q = some (.file c) ↔ d.find? q = some (.file c) := by
  rw [page_disk]
  split
  · rfl
  · exact file_place d _ _ hq

theorem isTree_page {d : Disk} (hd : d.IsTree) (templates : Path) (date : String) :
    (b.page templates date d).1.IsTree := by
  rw [page_disk]
  split
  · exact hd
  · exact isTree_place hd _ _

/-! ## Writing the artifacts -/

/-- The integers of the schemas that the document of a model shows are short. -/
def HasShortDocument (b : Backend) : Prop :=
  b.HasShortStatuses → ∀ e, IsLast (fun f => f.place = e.place) b.endpoints e →
    ∀ r, IsLast (fun q => q.status = r.status) e.responses r → r.HasShortIntegers

/-- Nothing keeps the artifacts from being made of a model that can be written and whose document
has no long integer. -/
theorem artifactFault?_eq_none {b : Backend} :
    b.artifactFault? = none ↔ b.IsWritable ∧ b.HasShortDocument := by
  rw [artifactFault?, ← isEncodable_iff, isEncodable, HasShortDocument,
    ← OpenApi.hasShortIntegers_project]
  cases b.encodingFault? <;> simp

/-- What keeps the artifacts from being made of a model whose document has no long integer is that
the model cannot be written. -/
theorem artifactFault?_of_hasShortDocument {b : Backend} (h : b.HasShortDocument) :
    b.artifactFault? = b.encodingFault?.map .encoding := by
  rw [artifactFault?, OpenApi.hasShortIntegers_project.2 h]
  cases b.encodingFault? <;> rfl

/-- A model has no long integer in its document when it has none in its schemas. -/
theorem hasShortDocument_of_schemas {b : Backend} (h : ∀ r ∈ b.responses, r.HasShortIntegers) :
    b.HasShortDocument :=
  fun _ _ he _ hr => h _ (mem_responses_of_endpoint he.mem hr.mem)

/-- Writing the artifacts of a model, when nothing keeps them from being made, comes to what writing
their files to the disk comes to on which the page was made. -/
theorem writeArtifacts_of_eq_none (h : b.artifactFault? = none) (root templates : Path)
    (date : String) (d : Disk) :
    b.writeArtifacts root templates date d =
      ((write root (b.artifacts (b.page templates date d).2) (b.page templates date d).1).1,
        ((write root (b.artifacts (b.page templates date d).2) (b.page templates date d).1).2.map
          fun _ => b.artifacts (b.page templates date d).2).mapError .output) := by
  simp only [writeArtifacts, makeArtifacts, h]
  cases write root (b.artifacts (b.page templates date d).2) (b.page templates date d).1 with
  | mk e result => cases result <;> rfl

/-- Writing artifacts that something keeps from being made ends when the page is made. -/
theorem writeArtifacts_of_artifactFault {f : ArtifactFault} (h : b.artifactFault? = some f)
    (root templates : Path) (date : String) (d : Disk) :
    b.writeArtifacts root templates date d = ((b.page templates date d).1, .error f) := by
  simp only [writeArtifacts, makeArtifacts, h]

/-- The model itself is an artifact. -/
theorem model_mem_artifacts : ⟨"backend.json", b.persistedText⟩ ∈ b.artifacts page :=
  List.mem_append_left _ List.mem_cons_self

theorem resolve_model (root : Path) :
    Path.resolve root "backend.json" = root ++ ["backend.json"] := by
  have hplain : Path.IsPlain "backend.json" := Path.isPlain_of_leadsToFile (by decide)
  rw [hplain.resolve]
  exact congrArg (root ++ ·) (by decide)

/-- The artifacts are all written where they have room. -/
theorem exists_write_artifacts_of_admits {root : Path} {d : Disk}
    (h : ∀ f ∈ b.artifacts page, d.Admits (Path.resolve root f.path)) :
    ∃ e, write root (b.artifacts page) d =
      (e, .ok ((b.artifacts page).map fun f => Path.resolve root f.path)) := by
  have hroot : ∀ q c, q <+: root → d.find? q ≠ some (.file c) := by
    have hmodel := (h _ (b.model_mem_artifacts page)).way
    rwa [resolve_model, List.dropLast_concat] at hmodel
  have hapart : ((b.artifacts page).map
      fun f => (Path.resolve root f.path, f.content)).Pairwise
      fun t u => ¬ t.1 <+: u.1.dropLast ∧ ¬ u.1 <+: t.1.dropLast := by
    refine List.pairwise_map.2 (List.pairwise_of_forall_mem_list fun f hf g hg => ?_)
    exact ⟨b.not_prefix_targets_artifacts page root hf hg,
      b.not_prefix_targets_artifacts page root hg hf⟩
  obtain ⟨e, he⟩ := exists_write (b.targets_artifacts page root) hroot
    (List.forall_mem_map.2 h) hapart
  refine ⟨e, ?_⟩
  rwa [List.map_map] at he

/-- The artifacts leave room at a clear place. -/
theorem admits_write_artifacts {root q : Path} {d : Disk} (h : d.Admits q)
    (hclear : IsClear root q) :
    (write root (b.artifacts page) d).1.Admits q := by
  refine admits_write h (b.targets_artifacts page root) hclear.not_prefix ?_
  exact List.forall_mem_map.2 fun f hf => b.not_prefix_of_isClear page hclear hf

/-- The artifacts are all written into an empty folder. -/
theorem exists_write_artifacts {root : Path} {d : Disk} (h : d.IsEmptyFolder root) :
    ∃ e ps, write root (b.artifacts page) d = (e, .ok ps) := by
  obtain ⟨e, he⟩ := b.exists_write_artifacts_of_admits page fun f hf =>
    h.admits ((b.isPlain_of_mem_artifacts page hf).isBelow_resolve root)
  exact ⟨e, _, he⟩

/-- When they are written into an empty folder, the files there are the artifacts. -/
theorem file_write_artifacts {root : Path} {d e : Disk} {ps : List Path}
    (h : d.IsEmptyFolder root) (hwrite : write root (b.artifacts page) d = (e, .ok ps))
    {p : Path} {c : Content} (hp : p.isBelow root = true) :
    e.find? p = some (.file c) ↔
      ∃ f ∈ b.artifacts page, p = Path.resolve root f.path ∧ c = .text f.content := by
  have hplaced : ∀ f ∈ b.artifacts page,
      e.find? (Path.resolve root f.path) = some (.file (.text f.content)) := fun f hf =>
    find?_write hwrite (b.nodup_targets_artifacts page root) hf
  constructor
  · intro hc
    by_cases hmem : p ∈ ((b.artifacts page).map
        fun f => (Path.resolve root f.path, f.content)).map Prod.fst
    · obtain ⟨t, ht, rfl⟩ := List.mem_map.1 hmem
      obtain ⟨f, hf, rfl⟩ := List.mem_map.1 ht
      have hfound := hplaced f hf
      rw [hc] at hfound
      cases hfound
      exact ⟨f, hf, rfl, rfl⟩
    · have hkept := file_write (d := d) (c := c) (b.targets_artifacts page root) hmem
      rw [hwrite] at hkept
      rw [hkept, h.empty p hp] at hc
      cases hc
  · rintro ⟨f, hf, rfl, rfl⟩
    exact hplaced f hf

theorem artifactFault?_ne_output {f : OutputFault} : b.artifactFault? ≠ some (.output f) := by
  unfold artifactFault?
  split
  · nofun
  · split <;> nofun

/-- Writing artifacts refuses no path. -/
theorem writeArtifacts_ne_refusal {fault : OutputFault} (hfault : fault.isRefusal = true)
    (root templates : Path) (date : String) (d : Disk) :
    (b.writeArtifacts root templates date d).2 ≠ .error (.output fault) := by
  intro he
  cases hb : b.artifactFault? with
  | some f =>
    rw [b.writeArtifacts_of_artifactFault hb] at he
    cases he
    exact b.artifactFault?_ne_output hb
  | none =>
    rw [b.writeArtifacts_of_eq_none hb] at he
    generalize b.page templates date d = made at he
    rcases write_outcome (b.targets_artifacts made.2 root) made.1 with ⟨ps, hps⟩ | ⟨f, hf⟩
    · rw [hps] at he
      cases he
    · rw [hf] at he
      cases he
      cases hfault

/-- The artifacts of a model fill an empty folder. Their paths are relative, without empty
components and steps up, and distinct, and none leads through another one. Writing them never
refuses a path, and into a folder that is empty when the page is made it comes to an end, after
which the files in the folder are the artifacts, each with its own text, exactly when the model can
be written and its document has no long integer. Otherwise it stops at a fault, and leaves the disk
on which the page was made. -/
theorem artifacts_fill_folder (b : Backend) (root templates : Path) (date : String) (d : Disk) :
    (∀ page : String,
      (∀ f ∈ b.artifacts page, Path.isAbsolute f.path = false ∧
        ∀ n ∈ Path.components f.path, n ≠ "" ∧ n ≠ "..") ∧
      ((b.artifacts page).map OutputFile.path).Nodup ∧
      ∀ f ∈ b.artifacts page, ∀ g ∈ b.artifacts page,
        ¬ Path.components f.path <+: (Path.components g.path).dropLast) ∧
    (∀ fault, fault.isRefusal = true →
      (b.writeArtifacts root templates date d).2 ≠ .error (.output fault)) ∧
    ((b.page templates date d).1.IsEmptyFolder root →
      (b.IsWritable ∧ b.HasShortDocument ↔
        ∃ e files, b.writeArtifacts root templates date d = (e, .ok files) ∧
          files = b.artifacts (b.page templates date d).2 ∧
          ∀ p c, p.isBelow root = true → (e.find? p = some (.file c) ↔
            ∃ f ∈ files, p = Path.resolve root f.path ∧ c = .text f.content))) ∧
    ∀ f, b.artifactFault? = some f → b.writeArtifacts root templates date d =
      ((b.page templates date d).1, .error f) := by
  refine ⟨fun page => ⟨fun f hf => ?_, b.nodup_paths_artifacts page,
    b.not_prefix_of_mem_artifacts page⟩, ?_, fun hempty => ⟨fun hb => ?_, ?_⟩, ?_⟩
  · have hplain := b.isPlain_of_mem_artifacts page hf
    exact ⟨hplain.relative, fun n hn => ⟨(hplain.named n hn).1, (hplain.named n hn).2.2⟩⟩
  · exact fun fault hfault => b.writeArtifacts_ne_refusal hfault root templates date d
  · rw [b.writeArtifacts_of_eq_none (artifactFault?_eq_none.2 hb)]
    generalize b.page templates date d = made at hempty
    obtain ⟨e, ps, he⟩ := b.exists_write_artifacts made.2 hempty
    exact ⟨e, b.artifacts made.2, by rw [he]; rfl, rfl,
      fun p c hp => b.file_write_artifacts made.2 hempty he hp⟩
  · rintro ⟨e, files, hwrite, -⟩
    refine artifactFault?_eq_none.1 (Option.eq_none_iff_forall_ne_some.2 fun f hf => ?_)
    rw [b.writeArtifacts_of_artifactFault hf] at hwrite
    cases hwrite
  · exact fun f hf => b.writeArtifacts_of_artifactFault hf root templates date d

/-- A model with two nodes of one name, which points out of the output folder. -/
def repeated : Backend :=
  ⟨"0", "shop", "", "0.1.0",
    [⟨"../x", .database, "", [], []⟩, ⟨"../x", .validator, "", [], []⟩], [], []⟩

/-- On a new disk, the modules of the repeated nodes are written as files of their own. -/
theorem artifacts_fill_folder_repeated :
    ∃ e files, repeated.writeArtifacts ["out"] ["templates"] "2024-01-02" {} = (e, .ok files) ∧
      (files.map OutputFile.path).drop 12 =
        ["service/app/nodes/x.py", "service/app/nodes/x_2.py"] ∧
      ∀ f ∈ files, e.find? (Path.resolve ["out"] f.path) = some (.file (.text f.content)) := by
  have hident : Name.identifier .node "../x" = "x" := by
    have hsnake : Name.snakeCase "../x" = "x" := by
      simp [Name.snakeCase, Name.snakeWords, Name.breakWords]
      decide
    simp [Name.identifier, Name.identifier?, hsnake]
    decide
  have hpaths (page : String) : ((repeated.artifacts page).map OutputFile.path).drop 12 =
      ["service/app/nodes/x.py", "service/app/nodes/x_2.py"] := by
    have hmodules : repeated.nodeSources.map NodeSource.module = ["x", "x_2"] := by
      rw [repeated.nodeSources_spec.2.1]
      simp only [repeated, List.map_cons, List.map_nil, hident]
      decide
    have hnodes : repeated.nodeSources.map nodePath =
        ["x", "x_2"].map (modulePath "app/nodes") := by
      rw [← hmodules, List.map_map]
      rfl
    have hservice : (repeated.serviceFiles.map fun f => (f.inside serviceFolder).path) =
        (repeated.serviceFiles.map OutputFile.path).map (serviceFolder ++ "/" ++ ·) := by
      rw [List.map_map]
      rfl
    rw [paths_artifacts, hservice, paths_serviceFiles, hnodes]
    rfl
  have hempty : (repeated.page ["templates"] "2024-01-02" {}).1.IsEmptyFolder ["out"] :=
    repeated.isEmptyFolder_page (Disk.isEmptyFolder_empty _) (by decide) (by decide)
  obtain ⟨e, files, hwrite, hfiles, hfind⟩ :=
    ((artifacts_fill_folder repeated ["out"] ["templates"] "2024-01-02" {}).2.2.1 hempty).1
      (artifactFault?_eq_none.1 rfl)
  refine ⟨e, files, hwrite, by rw [hfiles]; exact hpaths _, fun f hf => ?_⟩
  have hplain := repeated.isPlain_of_mem_artifacts _ (hfiles ▸ hf)
  exact (hfind _ _ (hplain.isBelow_resolve _)).2 ⟨f, hf, rfl, rfl⟩

/-- A model with a title in a schema. -/
def titled (title : Json) : Backend :=
  single ⟨200, "", some [("title", title)]⟩

/-- On a new disk, a model with half of a surrogate pair in a schema, which is read like any other,
leaves an empty folder empty. -/
theorem artifacts_leave_folder :
    let title : Json := .broken [.half ⟨0xD800, by decide⟩]
    let b := titled title
    ofJson "1" (singleJson (.int 200) (.obj [("title", title)])) = .ok b ∧
    (b.page ["templates"] "2024-01-02" {}).1.IsEmptyFolder ["out"] ∧
    ∃ e, b.writeArtifacts ["out"] ["templates"] "2024-01-02" {} =
        (e, .error (.encoding (.broken [.half ⟨0xD800, by decide⟩]))) ∧
      e.IsEmptyFolder ["out"] := by
  intro title b
  have hempty : (b.page ["templates"] "2024-01-02" {}).1.IsEmptyFolder ["out"] :=
    b.isEmptyFolder_page (Disk.isEmptyFolder_empty _) (by decide) (by decide)
  have hfault : b.artifactFault? = some (.encoding (.broken [.half ⟨0xD800, by decide⟩])) := rfl
  exact ⟨ofJson_singleJson rfl, hempty, _, b.writeArtifacts_of_artifactFault hfault _ _ _ _, hempty⟩

end Backend

end Nanoservice
