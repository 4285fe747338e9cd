import Nanoservice.Proofs.Candidate.Checks

/-!
# The checks of a candidate and the rules of a model

References, paths and methods are looked at twice, by the checks of a candidate and by the rules
that read its model. `validate_agrees` says how the two fit: a candidate is accepted exactly when
its shape and its names are right and the rules read its model, so the other checks refuse nothing
that the rules would read; and what the rules still find after the checks is no unknown node, no
path and no method (`Issue.IsUnchecked`).
-/

namespace Nanoservice

/-- An issue that the checks of a candidate leave to the rules: no unknown node, no path and no
method. -/
structure Issue.IsUnchecked (i : Issue) : Prop where
  reference : ∀ workflow node, i.flaw ≠ .unknownNode workflow node
  path : i.path.getLast? ≠ some (.key "path")
  method : i.path.getLast? ≠ some (.key "method")

/-- A reading finds only what the checks of a candidate leave to it. -/
def Reading.Unchecked {α : Type} (r : Reading α) : Prop :=
  ∀ i ∈ r.issues, i.IsUnchecked

namespace Issue.IsUnchecked

/-- An issue of the value itself is no path and no method. -/
theorem of_flaw {flaw : Flaw} (h : ∀ workflow node, flaw ≠ .unknownNode workflow node) :
    IsUnchecked ⟨[], flaw⟩ :=
  ⟨h, by simp, by simp⟩

/-- An issue stays one that is left to the rules behind any step but a path or a method. -/
theorem under {s : Step} {i : Issue} (hpath : s ≠ .key "path") (hmethod : s ≠ .key "method")
    (h : IsUnchecked i) : IsUnchecked (i.under s) := by
  obtain ⟨steps, flaw⟩ := i
  refine ⟨h.reference, ?_, ?_⟩
  · cases steps with
    | nil => simpa [Issue.under] using hpath
    | cons t steps => simpa [Issue.under, List.getLast?_cons_cons] using h.path
  · cases steps with
    | nil => simpa [Issue.under] using hmethod
    | cons t steps => simpa [Issue.under, List.getLast?_cons_cons] using h.method

end Issue.IsUnchecked

namespace Reading

open Issue

variable {α β : Type} {fs : List (RawText × Json)}

/-! ## Combinators -/

theorem unchecked_ok {a : α} : Unchecked (.ok a) := by
  intro i hi
  simp at hi

theorem unchecked_fail {flaw : Flaw} (h : ∀ workflow node, flaw ≠ .unknownNode workflow node) :
    Unchecked (fail flaw : Reading α) := by
  intro i hi
  obtain rfl : i = ⟨[], flaw⟩ := by simpa using hi
  exact .of_flaw h

theorem unchecked_both {x : Reading α} {y : Reading β} (hx : Unchecked x) (hy : Unchecked y) :
    Unchecked (x.both y) := by
  intro i hi
  rw [issues_both, List.mem_append] at hi
  exact hi.elim (hx i) (hy i)

theorem unchecked_map {f : α → β} {r : Reading α} (h : Unchecked r) :
    Unchecked (Except.map f r) := by
  intro i hi
  rw [issues_map] at hi
  exact h i hi

theorem unchecked_part {kind : String} {read : List (RawText × Json) → Reading α} {v : Json}
    (h : ∀ fs, v = .obj fs → Unchecked (read fs)) : Unchecked (part kind read v) := by
  intro i hi
  rcases mem_issues_part.1 hi with ⟨-, rfl⟩ | ⟨fs, hv, hi⟩
  · exact .of_flaw (by simp)
  · exact h fs hv i hi

/-- The issues of a mandatory field other than a path or a method. -/
theorem unchecked_mandatory {rule : Json → Reading α} {key : String}
    (hkey : key ≠ "path" ∧ key ≠ "method") (h : ∀ v, Unchecked (rule v)) :
    Unchecked (mandatory rule key fs) := by
  obtain ⟨hpath, hmethod⟩ := hkey
  intro i hi
  rcases mem_issues_mandatory.1 hi with ⟨-, rfl⟩ | ⟨v, -, j, hj, rfl⟩
  · exact ⟨by simp, by simpa using hpath, by simpa using hmethod⟩
  · exact (h v j hj).under (by simpa using hpath) (by simpa using hmethod)

/-- The issues of an optional field other than a path or a method. -/
theorem unchecked_optional {rule : Json → Reading α} {default : α} {key : String}
    (hkey : key ≠ "path" ∧ key ≠ "method")
    (h : ∀ v, fs.lookup (.plain key) = some v → Unchecked (rule v)) :
    Unchecked (optional rule default key fs) := by
  obtain ⟨hpath, hmethod⟩ := hkey
  intro i hi
  obtain ⟨v, hv, j, hj, rfl⟩ := mem_issues_optional.1 hi
  exact (h v hv j hj).under (by simpa using hpath) (by simpa using hmethod)

theorem unchecked_list {rule : Json → Reading α} {v : Json}
    (h : ∀ vs, v = .arr vs → ∀ w ∈ vs, Unchecked (rule w)) : Unchecked (list rule v) := by
  intro i hi
  rcases mem_issues_list.1 hi with ⟨-, rfl⟩ | ⟨vs, n, w, rfl, hw, j, hj, rfl⟩
  · exact .of_flaw (by simp)
  · exact (h vs rfl w (List.mem_of_getElem? hw) j hj).under (by simp) (by simp)

end Reading

/-! ## Rules -/

namespace Rule

open Reading

theorem unchecked_text (v : Json) : Unchecked (text v) := by
  cases v <;> first | exact unchecked_ok | exact unchecked_fail (by simp)

theorem unchecked_rawText (v : Json) : Unchecked (rawText v) := by
  cases v <;> first | exact unchecked_ok | exact unchecked_fail (by simp)

theorem unchecked_name (v : Json) : Unchecked (name v) := by
  have htext := unchecked_text v
  unfold name
  split
  · split
    · exact unchecked_fail (by simp)
    · exact unchecked_ok
  · next h => rwa [h] at htext

theorem unchecked_title (v : Json) : Unchecked (title v) := by
  have hname := unchecked_name v
  cases v with
  | str s =>
    simp only [title, name, text]
    split
    · exact unchecked_fail (by simp)
    · exact unchecked_ok
  | null | bool | int | float | broken | arr | obj => exact hname

theorem unchecked_description (v : Json) : Unchecked (description v) := by
  cases v <;> first | exact unchecked_ok | exact unchecked_fail (by simp)

theorem unchecked_version (v : Json) : Unchecked (version v) := by
  have htext := unchecked_rawText v
  unfold version
  split
  · exact unchecked_ok
  · split
    · split <;> exact unchecked_ok
    · next h => rwa [h] at htext

theorem unchecked_keyword {α : Type} (fold : String → String) (spelling : α → String)
    (choices : List α) (v : Json) : Unchecked (keyword fold spelling choices v) := by
  unfold keyword
  split
  · split
    · exact unchecked_ok
    · exact unchecked_fail (by simp)
  · exact unchecked_fail (by simp)
  · exact unchecked_fail (by simp)

theorem unchecked_switch (v : Json) : Unchecked (switch v) := by
  simp only [switch, switchOfInt]
  repeat' split
  all_goals first | exact unchecked_ok | exact unchecked_fail (by simp)

theorem unchecked_integer (v : Json) : Unchecked (integer v) := by
  unfold integer
  repeat' split
  all_goals first | exact unchecked_ok | exact unchecked_fail (by simp)

theorem unchecked_schema (v : Json) : Unchecked (schema v) := by
  unfold schema
  split
  · exact unchecked_ok
  · exact unchecked_ok
  · exact unchecked_fail (by simp)

end Rule

/-! ## Parts of a model -/

open Reading

/-- The key that is used of two is neither a path nor a method when they are not. -/
theorem Reading.usedKey_ne {key second : String} {fs : List (RawText × Json)}
    (hkey : key ≠ "path" ∧ key ≠ "method") (hsecond : second ≠ "path" ∧ second ≠ "method") :
    usedKey key second fs ≠ "path" ∧ usedKey key second fs ≠ "method" := by
  unfold usedKey
  split
  · exact hsecond
  · exact hkey

theorem Reading.unchecked_nameField {fs : List (RawText × Json)} :
    Unchecked (mandatory Rule.name "name" fs) :=
  unchecked_mandatory (by decide) Rule.unchecked_name

theorem Reading.unchecked_descriptionField {fs : List (RawText × Json)} :
    Unchecked (optional Rule.description "" "description" fs) :=
  unchecked_optional (by decide) fun v _ => Rule.unchecked_description v

theorem Field.unchecked (v : Json) : Unchecked (Field.ofJson v) := by
  refine unchecked_part fun fs _ =>
    unchecked_map (unchecked_both ?_ (unchecked_both ?_ ?_))
  · exact unchecked_nameField
  · exact unchecked_optional (by decide) fun w _ => Rule.unchecked_keyword _ _ _ w
  · exact unchecked_descriptionField

theorem Node.unchecked (v : Json) : Unchecked (Node.ofJson v) := by
  have hfields (w : Json) : Unchecked (list Field.ofJson w) :=
    unchecked_list fun _ _ u _ => Field.unchecked u
  refine unchecked_part fun fs _ =>
    unchecked_map (unchecked_both ?_ (unchecked_both ?_ (unchecked_both ?_ (unchecked_both ?_ ?_))))
  · exact unchecked_nameField
  · exact unchecked_mandatory (by decide) (Rule.unchecked_keyword _ _ _)
  · exact unchecked_descriptionField
  · exact unchecked_optional (by decide) fun w _ => hfields w
  · exact unchecked_optional (by decide) fun w _ => hfields w

theorem Parameter.unchecked (v : Json) : Unchecked (Parameter.ofJson v) := by
  refine unchecked_part fun fs _ =>
    unchecked_map (unchecked_both ?_ (unchecked_both ?_ (unchecked_both ?_ (unchecked_both ?_ ?_))))
  · exact unchecked_nameField
  · exact unchecked_mandatory (usedKey_ne (by decide) (by decide)) (Rule.unchecked_keyword _ _ _)
  · exact unchecked_optional (by decide) fun w _ => Rule.unchecked_switch w
  · exact unchecked_optional (by decide) fun w _ => Rule.unchecked_keyword _ _ _ w
  · exact unchecked_descriptionField

theorem Response.unchecked (v : Json) : Unchecked (Response.ofJson v) := by
  refine unchecked_part fun fs _ =>
    unchecked_map (unchecked_both ?_ (unchecked_both ?_ ?_))
  · exact unchecked_mandatory (by decide) Rule.unchecked_integer
  · exact unchecked_descriptionField
  · exact unchecked_optional (usedKey_ne (by decide) (by decide)) fun w _ => Rule.unchecked_schema w

/-- A path that passed the check of its endpoint is read. -/
theorem Endpoint.unchecked_path {fs : List (RawText × Json)}
    (h : Candidate.endpointFault? fs = none) : Unchecked (mandatory Rule.path "path" fs) := by
  obtain ⟨⟨label, hlabel, hblank⟩, -⟩ := Candidate.endpointFault?_eq_none.1 h
  obtain ⟨v, hv, hlabel⟩ := Option.bind_eq_some_iff.1 hlabel
  have hpath : Rule.path v = .ok (label.rewrite EndpointPath.normalize) :=
    Rule.path_eq_ok.2 ⟨label, Rule.rawText_eq_ok_iff.2 hlabel, hblank, rfl⟩
  rw [mandatory_eq_ok.2 ⟨v, hv, hpath⟩]
  exact unchecked_ok

/-- A method that passed the check of its endpoint is read. -/
theorem Endpoint.unchecked_method {fs : List (RawText × Json)}
    (h : Candidate.endpointFault? fs = none) : Unchecked (mandatory Rule.method "method" fs) := by
  obtain ⟨-, v, m, hv, hm⟩ := Candidate.endpointFault?_eq_none.1 h
  rw [mandatory_eq_ok.2 ⟨v, hv, hm⟩]
  exact unchecked_ok

/-- The issues of an endpoint that passed its check, if it is an object at all. -/
theorem Endpoint.unchecked {v : Json}
    (h : ∀ fs, v = .obj fs → Candidate.endpointFault? fs = none) :
    Unchecked (Endpoint.ofJson v) := by
  refine unchecked_part fun fs hv =>
    unchecked_map (unchecked_both ?_ (unchecked_both ?_ (unchecked_both ?_ (unchecked_both ?_ ?_))))
  · exact Endpoint.unchecked_path (h fs hv)
  · exact Endpoint.unchecked_method (h fs hv)
  · exact unchecked_descriptionField
  · exact unchecked_optional (by decide) fun w _ =>
      unchecked_list fun _ _ u _ => Parameter.unchecked u
  · exact unchecked_optional (by decide) fun w _ =>
      unchecked_list fun _ _ u _ => Response.unchecked u

/-- The issues of a list of endpoints that passed their checks. -/
theorem Endpoint.unchecked_list {v : Json}
    (h : ∀ fs ∈ Candidate.objects (some v), Candidate.endpointFault? fs = none) :
    Unchecked (list Endpoint.ofJson v) := by
  refine Reading.unchecked_list fun vs hv w hw => Endpoint.unchecked fun fs hfs => h fs ?_
  subst hv hfs
  exact Candidate.mem_objects.2 hw

/-- The issues of a workflow whose endpoints passed their checks. -/
theorem Workflow.unchecked {v : Json}
    (h : ∀ fs, v = .obj fs → ∀ e ∈ Candidate.objects (fs.lookup (.plain "endpoints")),
      Candidate.endpointFault? e = none) : Unchecked (Workflow.ofJson v) := by
  refine unchecked_part fun fs hv =>
    unchecked_map (unchecked_both ?_ (unchecked_both ?_ (unchecked_both ?_ ?_)))
  · exact unchecked_nameField
  · exact unchecked_descriptionField
  · exact unchecked_optional (by decide) fun w _ =>
      Reading.unchecked_list fun _ _ u _ => Rule.unchecked_rawText u
  · exact unchecked_optional (by decide) fun w hw =>
      Endpoint.unchecked_list fun e he => h fs hv e (hw ▸ he)

namespace Candidate

/-! ## What the rules say about a candidate that they read -/

/-- The known names hold every node that a workflow of a model may name. -/
theorem mem_names_iff {fs : Fields} {nodes : List Node}
    (h : list Node.ofJson (nodeEntries fs) = .ok nodes) {n : RawText} :
    n ∈ names (objects (fs.lookup (.plain "nodes"))) ↔
      n ∈ nodes.map fun node => .plain node.name := by
  rw [names_nodes_of_read h]

/-- A workflow that was read and whose references are resolved has a node list without fault. -/
theorem nodesFault?_of_read {known : List RawText} {fs : Fields} {w : Workflow}
    (h : Workflow.ofJson (.obj fs) = .ok w) (hknown : ∀ n ∈ w.nodes, n ∈ known) :
    nodesFault? known fs = none := by
  obtain ⟨fs', hfs, -, -, hnodes, -⟩ := Workflow.ofJson_eq_ok.1 h
  obtain rfl : fs = fs' := Json.obj.inj hfs
  refine nodesFault?_eq_none.2 fun v hv _ => ?_
  rcases optional_eq_ok.1 hnodes with ⟨u, hu, hread⟩ | ⟨hnone, -⟩
  · obtain rfl : v = u := Option.some.inj (hv.symm.trans hu)
    obtain ⟨refs, rfl, hrefs⟩ := list_eq_ok.1 hread
    refine ⟨refs, rfl, fun r hr => ?_⟩
    have hmem : Rule.rawText r ∈ w.nodes.map Except.ok := hrefs ▸ List.mem_map_of_mem hr
    obtain ⟨n, hn, htext⟩ := List.mem_map.1 hmem
    exact ⟨n, hknown n hn, Rule.rawText_eq_ok_iff.1 htext.symm⟩
  · rw [hv] at hnone
    cases hnone

/-- A workflow whose node list has no fault names only nodes that are known. -/
theorem mem_known_of_nodesFault? {known : List RawText} {fs : Fields} {w : Workflow}
    (h : Workflow.ofJson (.obj fs) = .ok w) (hfault : nodesFault? known fs = none) :
    ∀ n ∈ w.nodes, n ∈ known := by
  obtain ⟨fs', hfs, -, -, hnodes, -⟩ := Workflow.ofJson_eq_ok.1 h
  obtain rfl : fs = fs' := Json.obj.inj hfs
  intro n hn
  rcases optional_eq_ok.1 hnodes with ⟨v, hv, hread⟩ | ⟨-, hempty⟩
  · obtain ⟨refs, rfl, hrefs⟩ := list_eq_ok.1 hread
    obtain ⟨r, hr, htext⟩ := exists_entry_of_mem hrefs hn
    have hfalsy : (Json.arr refs).isFalsy = false := by
      cases refs with
      | nil => cases hr
      | cons => rfl
    obtain ⟨refs', hrefs', hall⟩ := nodesFault?_eq_none.1 hfault _ hv hfalsy
    obtain rfl := Json.arr.inj hrefs'
    obtain ⟨label, hlabel, heq⟩ := hall _ hr
    obtain rfl : n = label := Option.some.inj ((Rule.rawText_eq_ok_iff.1 htext).symm.trans heq)
    exact hlabel
  · rw [hempty] at hn
    cases hn

/-- An endpoint that was read has no fault. -/
theorem endpointFault?_of_read {fs : Fields} {e : Endpoint}
    (h : Endpoint.ofJson (.obj fs) = .ok e) : endpointFault? fs = none := by
  obtain ⟨fs', hfs, hpath, hmethod, -⟩ := Endpoint.ofJson_eq_ok.1 h
  obtain rfl : fs = fs' := Json.obj.inj hfs
  obtain ⟨v, hv, hp⟩ := mandatory_eq_ok.1 hpath
  obtain ⟨path, hread, hblank, -⟩ := Rule.path_eq_ok.1 hp
  obtain ⟨u, hu, hm⟩ := mandatory_eq_ok.1 hmethod
  exact endpointFault?_eq_none.2
    ⟨⟨path, by rw [hv, Option.bind_some, Rule.rawText_eq_ok_iff.1 hread], hblank⟩, u, _, hu, hm⟩

/-- The endpoints inside a workflow that was read have no fault. -/
theorem endpointFault?_of_workflow {fs : Fields} {w : Workflow}
    (h : Workflow.ofJson (.obj fs) = .ok w) :
    ∀ e ∈ objects (fs.lookup (.plain "endpoints")), endpointFault? e = none := by
  obtain ⟨fs', hfs, -, -, -, hends⟩ := Workflow.ofJson_eq_ok.1 h
  obtain rfl : fs = fs' := Json.obj.inj hfs
  intro e he
  rcases optional_eq_ok.1 hends with ⟨v, hv, hread⟩ | ⟨hnone, -⟩
  · obtain ⟨vs, rfl, hvs⟩ := list_eq_ok.1 hread
    rw [hv] at he
    obtain ⟨a, -, ha⟩ := exists_read_of_mem_objects hvs he
    exact endpointFault?_of_read ha
  · rw [hnone] at he
    cases he

/-- A candidate whose names are different and which is read as a model has no fault. -/
theorem fault?_of_read {freshId : String} {fs : Fields} {m : Backend}
    (hnodes : (names (objects (fs.lookup (.plain "nodes")))).Nodup)
    (hflows : (names (objects (fs.lookup (.plain "workflows")))).Nodup)
    (h : Backend.ofJson freshId (prepared fs) = .ok m) : fault? fs = none := by
  obtain ⟨hparts, hrefs⟩ := Backend.ofJson_eq_ok.1 h
  obtain ⟨-, -, -, -, hnoderead, hflowread, hendread⟩ := partsOfJson_prepared_eq_ok.1 hparts
  obtain ⟨ws, hws, hwread⟩ := lookup_of_list_eq_ok hflowread
  obtain ⟨es, hes, heread⟩ := list_eq_ok.1 hendread
  obtain rfl := Json.arr.inj hes
  refine fault?_eq_none.2 ⟨hnodes, hflows, ?_, ?_, ?_⟩
  · rw [hws]
    intro fs' hfs'
    obtain ⟨w, hw, hread⟩ := exists_read_of_mem_objects hwread hfs'
    exact nodesFault?_of_read hread fun n hn =>
      (mem_names_iff hnoderead).2 (Backend.unknownNode?_eq_none.1 hrefs w hw n hn)
  · intro e he
    obtain ⟨a, -, ha⟩ := exists_read_of_mem_objects heread he
    exact endpointFault?_of_read ha
  · rw [hws]
    intro fs' hfs'
    obtain ⟨w, -, hread⟩ := exists_read_of_mem_objects hwread hfs'
    exact endpointFault?_of_workflow hread

/-! ## What the checks leave to the rules -/

/-- The parts of a candidate without fault have only issues that are left to the rules. -/
theorem unchecked_partsOfJson {freshId : String} {fs : Fields} (hfault : fault? fs = none) :
    Unchecked (Backend.partsOfJson freshId (prepared fs)) := by
  obtain ⟨-, -, -, htop, hnested⟩ := fault?_eq_none.1 hfault
  refine unchecked_part fun fs' hfs' => ?_
  refine unchecked_map (unchecked_both ?_ (unchecked_both ?_ (unchecked_both ?_
    (unchecked_both ?_ (unchecked_both ?_ (unchecked_both ?_ ?_))))))
  · exact unchecked_optional (by decide) fun w _ => Rule.unchecked_rawText w
  · exact unchecked_mandatory (by decide) Rule.unchecked_title
  · exact unchecked_descriptionField
  · exact unchecked_optional (by decide) fun w _ => Rule.unchecked_version w
  · exact unchecked_optional (by decide) fun w _ =>
      unchecked_list fun _ _ u _ => Node.unchecked u
  · refine unchecked_optional (by decide) fun w hw => ?_
    rw [← Json.obj.inj hfs'] at hw
    obtain rfl : (fs.lookup (.plain "workflows")).getD .null = w := Option.some.inj hw
    refine unchecked_list fun vs hvs u hu => Workflow.unchecked fun ws hws => ?_
    refine hnested ws ?_
    cases hlookup : fs.lookup (.plain "workflows") with
    | none => rw [hlookup] at hvs; cases hvs
    | some v =>
      rw [hlookup, Option.getD_some] at hvs
      subst hvs hws
      exact mem_objects.2 hu
  · refine unchecked_optional (by decide) fun w hw => ?_
    rw [← Json.obj.inj hfs'] at hw
    obtain rfl : .arr (endpoints fs) = w := Option.some.inj hw
    exact Endpoint.unchecked_list htop

/-- A candidate without fault whose parts are read has no unknown node. -/
theorem unknownNode?_of_fault? {freshId : String} {fs : Fields} {m : Backend}
    (hfault : fault? fs = none) (h : Backend.partsOfJson freshId (prepared fs) = .ok m) :
    m.unknownNode? = none := by
  obtain ⟨-, -, hrefs, -, -⟩ := fault?_eq_none.1 hfault
  obtain ⟨-, -, -, -, hnoderead, hflowread, -⟩ := partsOfJson_prepared_eq_ok.1 h
  obtain ⟨ws, hws, hwread⟩ := lookup_of_list_eq_ok hflowread
  refine Backend.unknownNode?_eq_none.2 fun w hw n hn => (mem_names_iff hnoderead).1 ?_
  obtain ⟨v, hv, hread⟩ := exists_entry_of_mem hwread hw
  obtain ⟨fs', rfl, -⟩ := Workflow.ofJson_eq_ok.1 hread
  exact mem_known_of_nodesFault? hread (hrefs fs' (hws ▸ mem_objects.2 hv)) n hn

/-- The checks of a candidate agree with the rules of a model. A candidate is accepted exactly when
it has a name, a list of workflows and no repeated names, and the rules read its model; and when a
candidate passes all checks, the rules find only what the checks leave to them. -/
theorem validate_agrees (freshId : String) (raw : Json) :
    (∀ m, validate freshId raw = .ok m ↔ ∃ fs, raw = .obj fs ∧ hasName fs = true ∧
      hasWorkflows fs = true ∧ (names (objects (fs.lookup (.plain "nodes")))).Nodup ∧
      (names (objects (fs.lookup (.plain "workflows")))).Nodup ∧
      Backend.ofJson freshId (prepared fs) = .ok m) ∧
    ∀ fs, raw = .obj fs → hasName fs = true → hasWorkflows fs = true → fault? fs = none →
      ∀ is, Backend.ofJson freshId (prepared fs) = .error is →
        ∀ i ∈ is, i.IsUnchecked := by
  constructor
  · intro m
    rw [validate_eq_ok]
    constructor
    · rintro ⟨fs, rfl, hname, hflows, hfault, hread⟩
      obtain ⟨hnodup, hnodup', -⟩ := fault?_eq_none.1 hfault
      exact ⟨fs, rfl, hname, hflows, hnodup, hnodup', hread⟩
    · rintro ⟨fs, rfl, hname, hflows, hnodup, hnodup', hread⟩
      exact ⟨fs, rfl, hname, hflows, fault?_of_read hnodup hnodup' hread, hread⟩
  · intro fs _ _ _ hfault is his i hi
    have hparts : Unchecked (Backend.partsOfJson freshId (prepared fs)) :=
      unchecked_partsOfJson hfault
    unfold Backend.ofJson at his
    split at his
    · next is' hread =>
      cases his
      exact hparts i (by rwa [hread])
    · next m hread =>
      rw [unknownNode?_of_fault? hfault hread] at his
      cases his

/-- A candidate that passes all checks, with half of a surrogate pair in a path, and whose only node
has none of the known types. -/
def untyped : Fields :=
  [("name", .str "s"), ("workflows", .arr []),
    ("nodes", .arr [.obj [("name", .str "n"), ("type", .str "queue")]]),
    ("endpoints", .arr
      [.obj [("path", .broken [.half ⟨0xD800, by decide⟩]), ("method", .str " get ")]])]

theorem fault?_untyped : fault? untyped = none := by
  refine fault?_eq_none.2 ⟨List.nodup_singleton _, List.nodup_nil, ?_, ?_, ?_⟩
  · exact fun w hw => absurd hw List.not_mem_nil
  · intro e he
    obtain rfl := List.mem_singleton.1 he
    exact endpointFault?_eq_none.2
      ⟨⟨.broken [.half ⟨0xD800, by decide⟩], rfl, by decide⟩, _, .get, rfl, by cbv⟩
  · exact fun w hw => absurd hw List.not_mem_nil

theorem ofJson_untyped : Backend.ofJson "0" (prepared untyped) =
    .error [⟨[.key "nodes", .index 0, .key "type"],
      .notOneOf (NodeKind.all.map NodeKind.keyword)⟩] := by
  cbv

/-- A candidate without entries is accepted; one that passes all checks is refused for the type of
its node alone. -/
theorem validate_agrees_untyped :
    validate "0" (.obj [("name", .str "s"), ("workflows", .arr [])]) =
      .ok ⟨"0", "s", "", "0.1.0", [], [], []⟩ ∧
    Issue.IsUnchecked ⟨[.key "nodes", .index 0, .key "type"],
      .notOneOf (NodeKind.all.map NodeKind.keyword)⟩ := by
  refine ⟨((validate_agrees "0" _).1 _).2 ⟨_, rfl, rfl, rfl, List.nodup_nil, List.nodup_nil,
    by cbv⟩, ?_⟩
  exact (validate_agrees "0" (.obj untyped)).2 untyped rfl rfl rfl fault?_untyped _
    ofJson_untyped _ (List.mem_singleton.2 rfl)

end Candidate

end Nanoservice
