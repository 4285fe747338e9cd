import Mathlib
import Nanoservice.Candidate
import Nanoservice.Proofs.Backend.Normal

/-!
# The checks of a candidate

When each check of a candidate finds nothing, in terms of the candidate's fields: names are not
repeated (`firstRepeated?_eq_none`), references are known (`nodesFault?_eq_none`), an endpoint has
a path and a method (`endpointFault?_eq_none`), and all of these together (`fault?_eq_none`).
`validate_eq_ok` and `partsOfJson_prepared_eq_ok` then say which candidates are accepted.
-/

namespace Nanoservice.Candidate

open Reading

/-! ## Entries that are objects -/

/-- The objects of a list are the fields of its entries that are objects. -/
theorem mem_objects {vs : List Json} {fs : Fields} :
    fs ∈ objects (some (.arr vs)) ↔ Json.obj fs ∈ vs := by
  simp only [objects, List.mem_filterMap]
  constructor
  · rintro ⟨v, hv, hfs⟩
    cases v <;> simp_all
  · exact fun h => ⟨_, h, rfl⟩

/-- The objects of a list that was read are the fields that its items were read from. -/
theorem exists_read_of_mem_objects {α : Type} {rule : Json → Reading α} {vs : List Json}
    {as : List α} (h : vs.map rule = as.map .ok) {fs : Fields}
    (hfs : fs ∈ objects (some (.arr vs))) : ∃ a ∈ as, rule (.obj fs) = .ok a := by
  have hmem : rule (.obj fs) ∈ as.map Except.ok :=
    h ▸ List.mem_map_of_mem (mem_objects.1 hfs)
  obtain ⟨a, ha, he⟩ := List.mem_map.1 hmem
  exact ⟨a, ha, he.symm⟩

/-- Every item that was read comes from an entry of its list. -/
theorem exists_entry_of_mem {α : Type} {rule : Json → Reading α} {vs : List Json} {as : List α}
    (h : vs.map rule = as.map .ok) {a : α} (ha : a ∈ as) : ∃ v ∈ vs, rule v = .ok a := by
  have hmem : Except.ok a ∈ vs.map rule := h ▸ List.mem_map_of_mem ha
  exact List.mem_map.1 hmem

/-! ## Names -/

/-- No name is repeated when all are different and none was seen before. -/
theorem firstRepeated?_eq_none {seen ns : List RawText} :
    firstRepeated? seen ns = none ↔ ns.Nodup ∧ ∀ n ∈ ns, n ∉ seen := by
  induction ns generalizing seen with
  | nil => simp [firstRepeated?]
  | cons n ns ih =>
    rw [firstRepeated?, List.nodup_cons]
    by_cases hn : n ∈ seen
    · simp [hn]
    · rw [if_neg (by simpa using hn), ih]
      simp only [List.mem_cons, not_or, forall_eq_or_imp]
      constructor
      · rintro ⟨hnd, hall⟩
        exact ⟨⟨fun hmem => (hall n hmem).1 rfl, hnd⟩, hn, fun m hm => (hall m hm).2⟩
      · rintro ⟨⟨hnot, hnd⟩, -, hall⟩
        exact ⟨hnd, fun m hm => ⟨by rintro rfl; exact hnot hm, hall m hm⟩⟩

/-- No name is repeated in a list when all are different. -/
theorem firstRepeated?_nil_eq_none {ns : List RawText} :
    firstRepeated? [] ns = none ↔ ns.Nodup := by
  simp [firstRepeated?_eq_none]

/-- Names are told apart as plain texts. -/
theorem nodup_plain_iff {α : Type} {nameOf : α → String} {as : List α} :
    (as.map fun a => RawText.plain (nameOf a)).Nodup ↔ (as.map nameOf).Nodup := by
  have hinjective : Function.Injective RawText.plain := fun _ _ => RawText.plain.inj
  rw [← List.nodup_map_iff hinjective, List.map_map]
  rfl

/-- The names of a list that was read are those of its items, where the rule reads them as they
stand. -/
theorem names_objects_of_read {α : Type} {rule : Json → Reading α} {nameOf : α → String}
    (hrule : ∀ v a, rule v = .ok a →
      ∃ fs, v = .obj fs ∧ fs.lookup (.plain "name") = some (.str (nameOf a)))
    {vs : List Json} {as : List α} (h : vs.map rule = as.map .ok) :
    names (objects (some (.arr vs))) = as.map fun a => .plain (nameOf a) := by
  induction vs generalizing as with
  | nil =>
    cases as with
    | nil => rfl
    | cons a as => simp at h
  | cons v vs ih =>
    cases as with
    | nil => simp at h
    | cons a as =>
      simp only [List.map_cons, List.cons.injEq] at h
      obtain ⟨fs, rfl, hname⟩ := hrule v a h.1
      have htail := ih h.2
      simp only [names, objects, List.filterMap_cons] at htail ⊢
      simp [hname, Json.rawText?, htail]

/-- A node's name is read as it stands. -/
theorem lookup_name_of_node (v : Json) (n : Node) (h : Node.ofJson v = .ok n) :
    ∃ fs, v = .obj fs ∧ fs.lookup (.plain "name") = some (.str n.name) := by
  obtain ⟨fs, rfl, hname, -⟩ := Node.ofJson_eq_ok.1 h
  obtain ⟨v, hv, hs⟩ := mandatory_eq_ok.1 hname
  exact ⟨fs, rfl, hv.trans (congrArg some (Rule.name_eq_ok.1 hs).1)⟩

/-- A workflow's name is read as it stands. -/
theorem lookup_name_of_workflow (v : Json) (w : Workflow) (h : Workflow.ofJson v = .ok w) :
    ∃ fs, v = .obj fs ∧ fs.lookup (.plain "name") = some (.str w.name) := by
  obtain ⟨fs, rfl, hname, -⟩ := Workflow.ofJson_eq_ok.1 h
  obtain ⟨v, hv, hs⟩ := mandatory_eq_ok.1 hname
  exact ⟨fs, rfl, hv.trans (congrArg some (Rule.name_eq_ok.1 hs).1)⟩

/-! ## Single checks -/

/-- A workflow's node list counts as absent or is an array of known names. -/
theorem nodesFault?_eq_none {known : List RawText} {w : Fields} :
    nodesFault? known w = none ↔ ∀ v, w.lookup (.plain "nodes") = some v → v.isFalsy = false →
      ∃ refs, v = .arr refs ∧ ∀ r ∈ refs, ∃ n ∈ known, Json.rawText? r = some n := by
  unfold nodesFault?
  cases w.lookup (.plain "nodes") with
  | none => simp
  | some v =>
    simp only [Option.some.injEq, forall_eq']
    cases hf : v.isFalsy with
    | true => simp
    | false =>
      cases v with
      | arr refs =>
        simp only [Bool.false_eq_true, if_false, Option.map_eq_none_iff, List.find?_eq_none,
          Json.arr.injEq, exists_eq_left', forall_const]
        refine forall₂_congr fun r hr => ?_
        cases Json.rawText? r <;> simp
      | null | bool | int | float | str | broken | obj => simp

/-- An endpoint has a path that is a text and not blank, and a known method. -/
theorem endpointFault?_eq_none {e : Fields} :
    endpointFault? e = none ↔
      (∃ path, (e.lookup (.plain "path")).bind Json.rawText? = some path ∧ path.isBlank = false) ∧
      ∃ v m, e.lookup (.plain "method") = some v ∧ Rule.method v = .ok m := by
  unfold endpointFault?
  cases (e.lookup (.plain "path")).bind Json.rawText? with
  | none => simp
  | some path =>
    cases hb : path.isBlank with
    | true => simp [hb]
    | false =>
      simp only [Bool.false_eq_true, if_false, Option.some.injEq, exists_eq_left', hb, true_and]
      cases he : e.lookup (.plain "method") with
      | none => simp [Rule.method, Rule.keyword, Reading.fail]
      | some v =>
        simp only [Option.getD_some, Option.some.injEq, exists_and_left, exists_eq_left']
        cases Rule.method v <;> simp

/-- What is checked of the names, references and endpoints of a candidate. -/
theorem fault?_eq_none {fs : Fields} :
    fault? fs = none ↔
      (names (objects (fs.lookup (.plain "nodes")))).Nodup ∧
      (names (objects (fs.lookup (.plain "workflows")))).Nodup ∧
      (∀ w ∈ objects (fs.lookup (.plain "workflows")),
        nodesFault? (names (objects (fs.lookup (.plain "nodes")))) w = none) ∧
      (∀ e ∈ objects (some (.arr (endpoints fs))), endpointFault? e = none) ∧
      ∀ w ∈ objects (fs.lookup (.plain "workflows")), ∀ e ∈ objects (w.lookup (.plain "endpoints")),
        endpointFault? e = none := by
  simp only [fault?]
  rw [← firstRepeated?_nil_eq_none, ← firstRepeated?_nil_eq_none]
  cases firstRepeated? [] (names (objects (fs.lookup (.plain "nodes")))) with
  | some n => simp
  | none =>
    cases firstRepeated? [] (names (objects (fs.lookup (.plain "workflows")))) with
    | some n => simp
    | none =>
      simp only [true_and]
      rw [← List.findSome?_eq_none_iff]
      cases (objects (fs.lookup (.plain "workflows"))).findSome?
          (nodesFault? (names (objects (fs.lookup (.plain "nodes"))))) with
      | some r => simp
      | none =>
        simp only [List.findSome?_eq_none_iff, List.mem_append, List.mem_flatMap, true_and]
        constructor
        · exact fun h => ⟨fun e he => h e (.inl he), fun w hw e he => h e (.inr ⟨w, hw, he⟩)⟩
        · rintro ⟨htop, hnested⟩ e (he | ⟨w, hw, he⟩)
          · exact htop e he
          · exact hnested w hw e he

/-! ## Accepted candidates -/

/-- A candidate is accepted when it passes all checks and is read as a model. -/
theorem validate_eq_ok {freshId : String} {raw : Json} {b : Backend} :
    validate freshId raw = .ok b ↔ ∃ fs, raw = .obj fs ∧ hasName fs = true ∧
      hasWorkflows fs = true ∧ fault? fs = none ∧
      Backend.ofJson freshId (prepared fs) = .ok b := by
  cases raw with
  | obj fs =>
    simp only [validate, Json.obj.injEq, exists_eq_left']
    cases hasName fs <;> cases hasWorkflows fs <;> cases fault? fs <;>
      cases Backend.ofJson freshId (prepared fs) <;> simp
  | null | bool | int | float | str | broken | arr => simp [validate]

/-- The list of nodes that is read as part of a model. -/
def nodeEntries (fs : Fields) : Json :=
  if ((fs.lookup (.plain "nodes")).getD .null).isFalsy then .arr []
  else (fs.lookup (.plain "nodes")).getD .null

/-- The parts of a model are read from the fields of a candidate. -/
theorem partsOfJson_prepared_eq_ok {freshId : String} {fs : Fields} {b : Backend} :
    Backend.partsOfJson freshId (prepared fs) = .ok b ↔ b.id = freshId ∧
      Rule.title ((fs.lookup (.plain "name")).getD .null) = .ok b.name ∧
      Rule.description ((fs.lookup (.plain "description")).getD .null) = .ok b.description ∧
      Rule.version ((fs.lookup (.plain "version")).getD .null) = .ok b.version ∧
      list Node.ofJson (nodeEntries fs) = .ok b.nodes ∧
      list Workflow.ofJson ((fs.lookup (.plain "workflows")).getD .null) = .ok b.workflows ∧
      list Endpoint.ofJson (.arr (endpoints fs)) = .ok b.endpoints := by
  rw [Backend.partsOfJson_eq_ok]
  simp [prepared, nodeEntries, mandatory_eq_ok, optional_eq_ok, List.lookup,
    -List.lookup_eq_none_iff]

/-- The entries that are read as nodes have the names that are checked. -/
theorem objects_nodeEntries (fs : Fields) :
    objects (some (nodeEntries fs)) = objects (fs.lookup (.plain "nodes")) := by
  unfold nodeEntries
  cases fs.lookup (.plain "nodes") with
  | none => rfl
  | some v =>
    rw [Option.getD_some]
    split
    · next hf =>
      cases v with
      | arr vs =>
        obtain rfl : vs = [] := by simpa [Json.isFalsy] using hf
        rfl
      | null | bool | int | float | str | broken | obj => rfl
    · rfl

/-- The names that are checked are those of the nodes that were read. -/
theorem names_nodes_of_read {fs : Fields} {nodes : List Node}
    (h : list Node.ofJson (nodeEntries fs) = .ok nodes) :
    names (objects (fs.lookup (.plain "nodes"))) = nodes.map fun n => .plain n.name := by
  obtain ⟨vs, hvs, hread⟩ := list_eq_ok.1 h
  rw [← objects_nodeEntries, hvs]
  exact names_objects_of_read lookup_name_of_node hread

/-- A field that was read as a list is there. -/
theorem lookup_of_list_eq_ok {α : Type} {rule : Json → Reading α} {key : String} {fs : Fields}
    {as : List α} (h : list rule ((fs.lookup (.plain key)).getD .null) = .ok as) :
    ∃ vs, fs.lookup (.plain key) = some (.arr vs) ∧ vs.map rule = as.map .ok := by
  obtain ⟨vs, hvs, hread⟩ := list_eq_ok.1 h
  cases hl : fs.lookup (.plain key) with
  | none => rw [hl] at hvs; cases hvs
  | some v => rw [hl] at hvs; exact ⟨vs, congrArg some hvs, hread⟩

end Nanoservice.Candidate
