import Nanoservice.Proofs.Candidate.Accepted
import Nanoservice.Proofs.Candidate.Endpoints
import Nanoservice.Proofs.Store.Restart

/-!
# Models that become current

A model becomes current when a generation puts it in or when it is loaded. Either way it is normal,
since both read it by the same rules. Only a generation checks that names are different; a model
that was loaded is sound when the nodes and workflows of its text have names of their own, and is
current all the same when they have not (`Stores.current_isSound_iff`, `Stores.load_twins`).
-/

namespace Nanoservice

open Candidate (names objects)

namespace Backend

/-! ## Models of a text -/

/-- A normal model is sound when its nodes and its workflows have names of their own. -/
theorem IsNormal.isSound_iff {b : Backend} (h : b.IsNormal) :
    b.IsSound ↔ (b.nodes.map Node.name).Nodup ∧ (b.workflows.map Workflow.name).Nodup := by
  constructor
  · exact fun hsound => ⟨hsound.nodes.2, hsound.workflows.2⟩
  · rintro ⟨hnodes, hflows⟩
    exact
      { name := ⟨h.name, h.trimmed⟩
        version := h.version
        nodes := ⟨fun n hn => (h.nodes n hn).name, hnodes⟩
        workflows := ⟨fun w hw => (h.workflows w hw).name, hflows⟩
        references := fun w hw n hn => List.mem_map.1 (h.resolved w hw n hn)
        endpoints := fun e he => (h.endpoints e he).isSound
        nested := fun w hw e he => ((h.workflows w hw).endpoints e he).isSound }

/-- A model that a generation puts in: that of an accepted candidate. -/
def IsGenerated (b : Backend) : Prop :=
  ∃ freshId raw, Candidate.validate freshId raw = .ok b

/-- A text of an object whose nodes have names of their own, and its workflows as well. -/
def TellsApart (s : String) : Prop :=
  ∃ fs, Json.readStrict s = .ok (.obj fs) ∧ (names (objects (fs.lookup (.plain "nodes")))).Nodup ∧
    (names (objects (fs.lookup (.plain "workflows")))).Nodup

/-- The names of the entries of an optional list that was read are those of its items, where the
rule reads them as they stand. -/
theorem names_of_optional {α : Type} {rule : Json → Reading α} {nameOf : α → String} {key : String}
    {fs : Candidate.Fields} {as : List α}
    (hrule : ∀ v a, rule v = .ok a →
      ∃ fs, v = .obj fs ∧ fs.lookup (.plain "name") = some (.str (nameOf a)))
    (h : Reading.optional (Reading.list rule) [] key fs = .ok as) :
    names (objects (fs.lookup (.plain key))) = as.map fun a => .plain (nameOf a) := by
  rcases Reading.optional_eq_ok.1 h with ⟨v, hv, hread⟩ | ⟨hnone, rfl⟩
  · obtain ⟨vs, rfl, hvs⟩ := Reading.list_eq_ok.1 hread
    rw [hv]
    exact Candidate.names_objects_of_read hrule hvs
  · rw [hnone]
    rfl

/-- The model that a text holds is normal, and it is sound when the text tells its nodes and its
workflows apart. -/
theorem isSound_iff_of_ofText? {freshId s : String} {b : Backend} (h : ofText? freshId s = some b) :
    b.IsNormal ∧ (b.IsSound ↔ TellsApart s) := by
  obtain ⟨v, hv, -, hread⟩ := ofText?_eq_some.1 h
  have hnormal := isNormal_of_ofJson hread
  obtain ⟨fs, rfl, -, -, -, -, hnodes, hflows, -⟩ := partsOfJson_eq_ok.1 (ofJson_eq_ok.1 hread).1
  refine ⟨hnormal, ?_⟩
  simp only [hnormal.isSound_iff, TellsApart, hv, Except.ok.injEq, Json.obj.injEq,
    exists_eq_left', names_of_optional Candidate.lookup_name_of_node hnodes,
    names_of_optional Candidate.lookup_name_of_workflow hflows, Candidate.nodup_plain_iff]

/-- The model of an accepted candidate is normal, and it is sound. -/
theorem isSound_of_isGenerated {b : Backend} (h : b.IsGenerated) : b.IsNormal ∧ b.IsSound := by
  obtain ⟨freshId, raw, hvalid⟩ := h
  obtain ⟨fs, rfl, -, -, hfault, hread⟩ := Candidate.validate_eq_ok.1 hvalid
  have hnormal := isNormal_of_ofJson hread
  obtain ⟨hnames, hnames', -⟩ := Candidate.fault?_eq_none.1 hfault
  obtain ⟨-, -, -, -, hnodes, hflows, -⟩ :=
    Candidate.partsOfJson_prepared_eq_ok.1 (ofJson_eq_ok.1 hread).1
  obtain ⟨ws, hws, hwread⟩ := Candidate.lookup_of_list_eq_ok hflows
  rw [Candidate.names_nodes_of_read hnodes] at hnames
  rw [hws, Candidate.names_objects_of_read Candidate.lookup_name_of_workflow hwread] at hnames'
  exact ⟨hnormal, hnormal.isSound_iff.2
    ⟨Candidate.nodup_plain_iff.1 hnames, Candidate.nodup_plain_iff.1 hnames'⟩⟩

end Backend

/-! ## Models of a run -/

namespace ModelStore

/-- A model was loaded from a text in the file of a store. -/
structure IsFound (freshId s : String) (b : Backend) (store : ModelStore) (d : Disk) : Prop where
  text : ∃ p, store.file = some p ∧ d.readText p = .ok s
  model : Backend.ofText? freshId s = some b

/-- What a load returns it found in a text. -/
theorem exists_isFound {freshId : String} {b : Backend} {store : ModelStore} {d : Disk}
    (h : (store.load freshId d).1 = some b) : ∃ s, IsFound freshId s b store d := by
  unfold load at h
  split at h
  · next b' hfound =>
    cases h
    obtain ⟨p, hp, hkept⟩ := Option.bind_eq_some_iff.1 hfound
    unfold kept? at hkept
    split at hkept
    · next s hs => exact ⟨s, ⟨p, hp, hs⟩, hkept⟩
    · cases hkept
  · cases h

end ModelStore

namespace Stores

/-- A model was loaded from a text by one of the acts of a run. -/
def Loaded (w : Stores) (acts : List StoreAct) (s : String) (b : Backend) : Prop :=
  ∃ before i freshId, before ++ [.load i freshId] <+: acts ∧
    ((w.run before).store i).IsFound freshId s b (w.run before).disk

/-- A model that is current after an act was current before it, was put in, or was loaded. -/
theorem current_step {w : Stores} {act : StoreAct} {i : Nat} {b : Backend}
    (h : ((w.step act).store i).current = some b) :
    (w.store i).current = some b ∨ (∃ persist stop, act = .replace i b persist stop) ∨
      ∃ freshId s, act = .load i freshId ∧ (w.store i).IsFound freshId s b w.disk := by
  have hlawful := isLawful_step w act
  cases act with
  | replace j b' persist stop =>
    by_cases hi : i = j
    · subst hi
      rw [hlawful.current] at h
      obtain rfl := Option.some.inj h
      exact .inr (.inl ⟨persist, stop, rfl⟩)
    · rw [hlawful.others i hi] at h
      exact .inl h
  | load j freshId =>
    by_cases hi : i = j
    · subst hi
      cases hfound : ((w.store i).load freshId w.disk).1 with
      | none =>
        rw [hlawful.missing hfound] at h
        exact .inl h
      | some b' =>
        rw [hlawful.current b' hfound] at h
        obtain rfl := Option.some.inj h
        obtain ⟨s, hs⟩ := ModelStore.exists_isFound hfound
        exact .inr (.inr ⟨freshId, s, rfl, hs⟩)
    · rw [hlawful.others i hi] at h
      exact .inl h
  | reopen j file =>
    obtain ⟨hopened, hothers, -⟩ := hlawful
    by_cases hi : i = j
    · subst hi
      rw [hopened] at h
      cases h
    · rw [hothers i hi] at h
      exact .inl h
  | outside d hd =>
    rw [hlawful.2] at h
    exact .inl h

/-- A model that is current after a run was current before it, was put in, or was loaded. -/
theorem current_run {w : Stores} {acts : List StoreAct} {i : Nat} {b : Backend}
    (h : ((w.run acts).store i).current = some b) :
    (w.store i).current = some b ∨ (∃ persist stop, .replace i b persist stop ∈ acts) ∨
      ∃ s, w.Loaded acts s b := by
  induction acts using List.reverseRecOn with
  | nil => exact .inl h
  | append_singleton acts act ih =>
    rw [run_concat] at h
    rcases current_step h with h | ⟨persist, stop, rfl⟩ | ⟨freshId, s, rfl, hfound⟩
    · rcases ih h with hstart | ⟨persist, stop, hmem⟩ | ⟨s, before, j, freshId, hpre, hfound⟩
      · exact .inl hstart
      · exact .inr (.inl ⟨persist, stop, List.mem_append_left _ hmem⟩)
      · exact .inr (.inr ⟨s, before, j, freshId, hpre.trans (List.prefix_append _ _), hfound⟩)
    · exact .inr (.inl ⟨persist, stop, List.mem_append_right _ List.mem_cons_self⟩)
    · exact .inr (.inr ⟨s, acts, i, freshId, List.prefix_refl _, hfound⟩)

/-- After a run in which generations put models in, every current model is normal. It is sound if a
generation put it in; if it was loaded, it is sound exactly when its text tells its nodes and its
workflows apart. -/
theorem current_isSound_iff {w : Stores} {acts : List StoreAct}
    (hstart : ∀ i, (w.store i).current = none)
    (hgenerated : ∀ i b persist stop, .replace i b persist stop ∈ acts → b.IsGenerated) {i : Nat}
    {b : Backend} (h : ((w.run acts).store i).current = some b) :
    b.IsNormal ∧ (b.IsGenerated ∧ b.IsSound ∨
      ∃ s, w.Loaded acts s b ∧ (b.IsSound ↔ Backend.TellsApart s)) := by
  rcases current_run h with hcurrent | ⟨persist, stop, hmem⟩ | ⟨s, hloaded⟩
  · rw [hstart i] at hcurrent
    cases hcurrent
  · have hmade := hgenerated i b persist stop hmem
    obtain ⟨hnormal, hsound⟩ := Backend.isSound_of_isGenerated hmade
    exact ⟨hnormal, .inl ⟨hmade, hsound⟩⟩
  · have ⟨before, j, freshId, _, hfound⟩ := hloaded
    obtain ⟨hnormal, hsound⟩ := Backend.isSound_iff_of_ofText? hfound.model
    exact ⟨hnormal, .inr ⟨s, hloaded, hsound⟩⟩

/-! ## A model with two workflows of one name -/

/-- A disk that holds a text in one file. -/
def holding (s : String) : Disk :=
  (⟨[]⟩ : Disk).set ["model.json"] (.file (.text s))

theorem isTree_holding (s : String) : (holding s).IsTree := by
  have hempty (q : Path) (c : Content) : (⟨[]⟩ : Disk).find? q ≠ some (.file c) := by
    unfold Disk.find?
    split <;> simp [Table.get?]
  have hwrite : (⟨[]⟩ : Disk).writeFile ["model.json"] (.text s) = .ok (holding s) :=
    Disk.writeFile_eq_ok.2 ⟨fun q c _ => hempty q c, by simp [Disk.find?, Table.get?], rfl, rfl⟩
  exact Disk.isTree_empty.writeFile hwrite

/-- The text of a file is loaded when it is written with line feeds and holds a model. -/
theorem load_holding {freshId s : String} {b : Backend}
    (hlines : Text.lineFeeds s.toList = s.toList) (h : Backend.ofText? freshId s = some b) :
    ModelStore.load freshId ⟨some ["model.json"], none⟩ (holding s) =
      (some b, ⟨some ["model.json"], some b⟩) := by
  have hfile : (holding s).find? ["model.json"] = some (.file (.text s)) :=
    Disk.find?_set_self _ (by simp) _
  have hkept : ModelStore.kept? freshId ["model.json"] (holding s) = some b := by
    simp only [ModelStore.kept?, Disk.readText, hfile, hlines, String.ofList_toList, h]
  rw [ModelStore.load, Option.bind_some, hkept]

/-- Stores over a file that holds a text. -/
def overFile (s : String) : Stores :=
  ⟨fun _ => ⟨some ["model.json"], none⟩, holding s, isTree_holding s⟩

theorem current_overFile {freshId s : String} {b : Backend}
    (hlines : Text.lineFeeds s.toList = s.toList) (h : Backend.ofText? freshId s = some b) :
    (((overFile s).run [.load 0 freshId]).store 0).current = some b := by
  have hfound : (((overFile s).store 0).load freshId (overFile s).disk).1 = some b :=
    congrArg Prod.fst (load_holding hlines h)
  exact congrArg ModelStore.current ((isLoaded_step (overFile s) 0 freshId).current b hfound)

/-- A model with two workflows of one name. -/
def twins : Backend :=
  .ofListings "" [("w", "first"), ("w", "second")]

theorem ofText?_twins : Backend.ofText? "1" twins.persistedText = some twins := by
  have hnormal : twins.IsNormal := Backend.isNormal_ofListings _ (by simp)
  have hresponses : twins.responses = [] := Backend.responses_ofListings _ _
  have hfinite : twins.finite = twins := Backend.finite_of_isFinite (by simp [hresponses])
  have hsupported : twins.IsSupported := ⟨by decide, by simp [hresponses], by decide⟩
  have hread := Backend.ofText?_toText_of_isNormal hnormal hsupported (some 2) "1"
  rwa [hfinite] at hread

/-- The text of a model with two workflows of one name is loaded, and the model is current. -/
theorem load_twins : ModelStore.load "1" ⟨some ["model.json"], none⟩
      (holding twins.persistedText) = (some twins, ⟨some ["model.json"], some twins⟩) ∧
    ¬ (twins.workflows.map Workflow.name).Nodup :=
  ⟨load_holding twins.lineFeeds_persistedText ofText?_twins,
    by simp [twins, Backend.ofListings, Backend.listing]⟩

/-- A model with two workflows of one name is current and normal once it was loaded, and it is sound
only if a text that holds it tells them apart. -/
theorem current_isSound_iff_twins : twins.IsNormal ∧ (twins.IsGenerated ∧ twins.IsSound ∨
    ∃ s, (overFile twins.persistedText).Loaded [.load 0 "1"] s twins ∧
      (twins.IsSound ↔ Backend.TellsApart s)) :=
  current_isSound_iff (fun _ => rfl) (by simp)
    (current_overFile twins.lineFeeds_persistedText ofText?_twins)

end Stores

end Nanoservice
