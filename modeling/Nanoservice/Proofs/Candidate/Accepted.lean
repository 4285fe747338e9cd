import Nanoservice.Proofs.Candidate.Checks

/-!
# Accepted candidates

`Backend.IsSound` is what a model promises to everything that is made from it: names that tell its
nodes and its workflows apart, references that lead somewhere, and endpoints that can be routed.
Every accepted candidate gives a sound model (`Candidate.validate_isSound`). Part of this is said
by the rules that read a model (`Backend.isNormal_of_ofJson`); that names are different is only
checked of the candidate, and survives since names are read as they stand.
-/

namespace Nanoservice

/-- An endpoint that can be routed: its path begins with a slash, has no blank margins and no colon
parameter, and its method is one of four. -/
structure Endpoint.IsSound (e : Endpoint) : Prop where
  slash : e.path.shown.toList.head? = some '/'
  trimmed : e.path.trim = e.path
  braced : ∀ c : Char, c.isAlpha = true ∨ c = '_' → ¬ ['/', ':', c] <:+: e.path.shown.toList
  method : e.method.keyword ∈ ["GET", "POST", "PUT", "DELETE"]

/-- A model whose names are told apart and whose references and endpoints lead somewhere. -/
structure Backend.IsSound (b : Backend) : Prop where
  name : b.name ≠ "" ∧ Text.trim b.name = b.name
  version : b.version.isBlank = false
  nodes : (∀ n ∈ b.nodes, n.name ≠ "") ∧ (b.nodes.map Node.name).Nodup
  workflows : (∀ w ∈ b.workflows, w.name ≠ "") ∧ (b.workflows.map Workflow.name).Nodup
  references : ∀ w ∈ b.workflows, ∀ n ∈ w.nodes, ∃ node ∈ b.nodes, .plain node.name = n
  endpoints : ∀ e ∈ b.endpoints, e.IsSound
  nested : ∀ w ∈ b.workflows, ∀ e ∈ w.endpoints, e.IsSound

/-- A letter or an underscore may start the name of a colon parameter. -/
theorem EndpointPath.isNameStart_of_isAlpha {c : Char} (h : c.isAlpha = true ∨ c = '_') :
    isNameStart c = true := by
  rcases h with h | rfl
  · simp only [Char.isAlpha, Char.isUpper, Char.isLower, Bool.or_eq_true, Bool.and_eq_true,
      decide_eq_true_eq] at h
    simp only [isNameStart, Bool.or_eq_true, Bool.and_eq_true, decide_eq_true_eq]
    rcases h with h | h
    · exact .inl (.inr h)
    · exact .inl (.inl h)
  · decide

/-- A normal endpoint can be routed. -/
theorem Endpoint.IsNormal.isSound {e : Endpoint} (h : e.IsNormal) : e.IsSound where
  slash := h.path.slash
  trimmed := RawText.rewrite_eq_self (by
    rw [Text.trim, Text.trimChars_eq_self_iff.2 h.path.trimmed, String.ofList_toList])
  braced c hc := h.path.braced c (EndpointPath.isNameStart_of_isAlpha hc)
  method := by cases e.method <;> decide

namespace Candidate

open Reading

/-- The model of an accepted candidate is normal. -/
theorem isNormal_of_validate {freshId : String} {raw : Json} {m : Backend}
    (h : validate freshId raw = .ok m) : m.IsNormal := by
  obtain ⟨fs, -, -, -, -, hread⟩ := validate_eq_ok.1 h
  exact Backend.isNormal_of_ofJson hread

/-- The nodes of an accepted candidate have different names, and so have its workflows. -/
theorem nodup_names_of_validate {freshId : String} {raw : Json} {m : Backend}
    (h : validate freshId raw = .ok m) :
    (m.nodes.map Node.name).Nodup ∧ (m.workflows.map Workflow.name).Nodup := by
  obtain ⟨fs, rfl, -, -, hfault, hread⟩ := validate_eq_ok.1 h
  obtain ⟨-, -, -, -, hnodes, hflows, -⟩ :=
    partsOfJson_prepared_eq_ok.1 (Backend.ofJson_eq_ok.1 hread).1
  obtain ⟨hnodup, hnodup', -⟩ := fault?_eq_none.1 hfault
  obtain ⟨ws, hws, hwread⟩ := lookup_of_list_eq_ok hflows
  rw [names_nodes_of_read hnodes] at hnodup
  rw [hws, names_objects_of_read lookup_name_of_workflow hwread] at hnodup'
  exact ⟨nodup_plain_iff.1 hnodup, nodup_plain_iff.1 hnodup'⟩

/-- The model of an accepted candidate is sound. -/
theorem validate_isSound {freshId : String} {raw : Json} {m : Backend}
    (h : validate freshId raw = .ok m) : m.IsSound := by
  have hnormal := isNormal_of_validate h
  obtain ⟨hnodes, hflows⟩ := nodup_names_of_validate h
  exact
    { name := ⟨hnormal.name, hnormal.trimmed⟩
      version := hnormal.version
      nodes := ⟨fun n hn => (hnormal.nodes n hn).name, hnodes⟩
      workflows := ⟨fun w hw => (hnormal.workflows w hw).name, hflows⟩
      references := fun w hw n hn => List.mem_map.1 (hnormal.resolved w hw n hn)
      endpoints := fun e he => (hnormal.endpoints e he).isSound
      nested := fun w hw e he => ((hnormal.workflows w hw).endpoints e he).isSound }

/-- An endpoint with margins, a colon parameter and a method in lower case. -/
def looseEndpoint : Fields := [("path", .str " items/:id"), ("method", .str "get ")]

/-- A workflow that serves the loose endpoint. -/
def looseWorkflow : Fields :=
  [("name", .str "w"), ("nodes", .arr [.str "n"]), ("endpoints", .arr [.obj looseEndpoint])]

/-- A candidate with a padded name, a null version and keywords in mixed case. -/
def loose : Fields :=
  [("name", .str " shop "), ("version", .null),
    ("nodes", .arr [.obj [("name", .str "n"), ("type", .str "DataBase")]]),
    ("workflows", .arr [.obj looseWorkflow])]

/-- The loose candidate is accepted, and its model is sound. -/
theorem validate_isSound_loose :
    ∃ m, validate "0" (.obj loose) = .ok m ∧ m.IsSound := by
  have hnormalize : EndpointPath.normalize " items/:id" = "/items/\x7bid\x7d" := by
    simp [EndpointPath.normalize, EndpointPath.braceParameters, EndpointPath.isNameChar,
      EndpointPath.isNameStart, EndpointPath.withSlash, Text.trimChars, Text.isBlank,
      Text.dropEndWhile]
  have hpath : Rule.path (.str " items/:id") = .ok "/items/\x7bid\x7d" :=
    Rule.path_eq_ok.2 ⟨.plain " items/:id", rfl, by decide, congrArg RawText.plain hnormalize⟩
  have hmethod : Rule.method (.str "get ") = .ok .get := by cbv
  have hend : Endpoint.ofJson (.obj looseEndpoint) =
      .ok ⟨"/items/\x7bid\x7d", .get, "", [], []⟩ :=
    Endpoint.ofJson_eq_ok.2 ⟨_, rfl, mandatory_eq_ok.2 ⟨_, rfl, hpath⟩,
      mandatory_eq_ok.2 ⟨_, rfl, hmethod⟩, rfl, rfl, rfl⟩
  have hends : list Endpoint.ofJson (.arr [.obj looseEndpoint]) =
      .ok [⟨"/items/\x7bid\x7d", .get, "", [], []⟩] :=
    list_eq_ok.2 ⟨_, rfl, by simp [hend]⟩
  have hflow : Workflow.ofJson (.obj looseWorkflow) =
      .ok ⟨"w", "", ["n"], [⟨"/items/\x7bid\x7d", .get, "", [], []⟩]⟩ :=
    Workflow.ofJson_eq_ok.2 ⟨_, rfl, by cbv, rfl, by cbv, optional_eq_ok.2 (.inl ⟨_, rfl, hends⟩)⟩
  have hfault : endpointFault? looseEndpoint = none :=
    endpointFault?_eq_none.2 ⟨⟨.plain " items/:id", rfl, by cbv⟩, _, _, rfl, hmethod⟩
  have hvalid : validate "0" (.obj loose) = .ok ⟨"0", "shop", "", "0.1.0",
      [⟨"n", .database, "", [], []⟩],
      [⟨"w", "", ["n"], [⟨"/items/\x7bid\x7d", .get, "", [], []⟩]⟩],
      [⟨"/items/\x7bid\x7d", .get, "", [], []⟩]⟩ := by
    refine validate_eq_ok.2 ⟨loose, rfl, by cbv, rfl, fault?_eq_none.2 ⟨?_, ?_, ?_, ?_, ?_⟩,
      Backend.ofJson_eq_ok.2 ⟨partsOfJson_prepared_eq_ok.2 ⟨rfl, by cbv, rfl, rfl, by cbv,
        list_eq_ok.2 ⟨_, rfl, by simp [hflow]⟩, hends⟩, by cbv⟩⟩
    · exact List.nodup_singleton (RawText.plain "n")
    · exact List.nodup_singleton (RawText.plain "w")
    · intro w hw
      obtain rfl : w = looseWorkflow := List.mem_singleton.1 hw
      cbv
    · intro e he
      obtain rfl : e = looseEndpoint := List.mem_singleton.1 he
      exact hfault
    · intro w hw e he
      obtain rfl : w = looseWorkflow := List.mem_singleton.1 hw
      obtain rfl : e = looseEndpoint := List.mem_singleton.1 he
      exact hfault
  exact ⟨_, hvalid, validate_isSound hvalid⟩

end Candidate

end Nanoservice
