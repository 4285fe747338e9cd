import Nanoservice.Proofs.Backend.Parts

/-!
# Normal models

What reading a model guarantees: names are not empty, the model's own name has no blank margins, its
version is not blank, every endpoint path is in normal form, and every node that a workflow names
is a node of the model. `Backend.isNormal_of_ofJson` says that every model that was read, from
whatever value, is normal in this sense.
-/

namespace Nanoservice

open Reading

/-- An input or output with a name. -/
def Field.IsNormal (f : Field) : Prop := f.name ≠ ""

/-- A node with a name, and so its inputs and outputs. -/
structure Node.IsNormal (n : Node) : Prop where
  name : n.name ≠ ""
  inputs : ∀ f ∈ n.inputs, f.IsNormal
  outputs : ∀ f ∈ n.outputs, f.IsNormal

/-- A parameter with a name. -/
def Parameter.IsNormal (p : Parameter) : Prop := p.name ≠ ""

/-- An endpoint whose path is in normal form. -/
structure Endpoint.IsNormal (e : Endpoint) : Prop where
  path : EndpointPath.IsNormal e.path.shown
  parameters : ∀ p ∈ e.parameters, p.IsNormal

/-- A workflow with a name, whose endpoints are normal. -/
structure Workflow.IsNormal (w : Workflow) : Prop where
  name : w.name ≠ ""
  endpoints : ∀ e ∈ w.endpoints, e.IsNormal

/-- A model in normal form whose references lead to its nodes. -/
structure Backend.IsNormal (b : Backend) : Prop where
  name : b.name ≠ ""
  trimmed : Text.trim b.name = b.name
  version : b.version.isBlank = false
  nodes : ∀ n ∈ b.nodes, n.IsNormal
  workflows : ∀ w ∈ b.workflows, w.IsNormal
  endpoints : ∀ e ∈ b.endpoints, e.IsNormal
  resolved : ∀ w ∈ b.workflows, ∀ n ∈ w.nodes, n ∈ b.nodes.map fun node => .plain node.name

/-- A mandatory name that was read is not empty. -/
theorem ne_empty_of_mandatory_name {key : String} {fs : List (RawText × Json)} {s : String}
    (h : mandatory Rule.name key fs = .ok s) : s ≠ "" := by
  obtain ⟨v, -, hv⟩ := mandatory_eq_ok.1 h
  exact (Rule.name_eq_ok.1 hv).2

theorem Field.isNormal_of_ofJson (v : Json) (f : Field) (h : Field.ofJson v = .ok f) :
    f.IsNormal := by
  obtain ⟨fs, -, hname, -⟩ := Field.ofJson_eq_ok.1 h
  exact ne_empty_of_mandatory_name hname

theorem Node.isNormal_of_ofJson (v : Json) (n : Node) (h : Node.ofJson v = .ok n) :
    n.IsNormal := by
  obtain ⟨fs, -, hname, -, -, hin, hout⟩ := Node.ofJson_eq_ok.1 h
  exact ⟨ne_empty_of_mandatory_name hname,
    forall_of_optional_list_eq_ok Field.isNormal_of_ofJson hin,
    forall_of_optional_list_eq_ok Field.isNormal_of_ofJson hout⟩

theorem Parameter.isNormal_of_ofJson (v : Json) (p : Parameter)
    (h : Parameter.ofJson v = .ok p) : p.IsNormal := by
  obtain ⟨fs, -, hname, -⟩ := Parameter.ofJson_eq_ok.1 h
  exact ne_empty_of_mandatory_name hname

theorem Endpoint.isNormal_of_ofJson (v : Json) (e : Endpoint) (h : Endpoint.ofJson v = .ok e) :
    e.IsNormal := by
  obtain ⟨fs, -, hpath, -, -, hparams, -⟩ := Endpoint.ofJson_eq_ok.1 h
  obtain ⟨p, -, hp⟩ := mandatory_eq_ok.1 hpath
  obtain ⟨t, -, -, ht⟩ := Rule.path_eq_ok.1 hp
  have hshown : EndpointPath.normalize t.shown = e.path.shown := by rw [← ht, RawText.shown_rewrite]
  exact ⟨hshown ▸ EndpointPath.isNormal_normalize t.shown,
    forall_of_optional_list_eq_ok Parameter.isNormal_of_ofJson hparams⟩

theorem Workflow.isNormal_of_ofJson (v : Json) (w : Workflow) (h : Workflow.ofJson v = .ok w) :
    w.IsNormal := by
  obtain ⟨fs, -, hname, -, -, hends⟩ := Workflow.ofJson_eq_ok.1 h
  exact ⟨ne_empty_of_mandatory_name hname,
    forall_of_optional_list_eq_ok Endpoint.isNormal_of_ofJson hends⟩

namespace Backend

/-- Every model that was read is normal. -/
theorem isNormal_of_ofJson {freshId : String} {v : Json} {b : Backend}
    (h : ofJson freshId v = .ok b) : b.IsNormal := by
  obtain ⟨hparts, hrefs⟩ := ofJson_eq_ok.1 h
  obtain ⟨fs, -, -, htitle, -, hversion, hnodes, hflows, hends⟩ := partsOfJson_eq_ok.1 hparts
  obtain ⟨t, -, ht⟩ := mandatory_eq_ok.1 htitle
  obtain ⟨s, -, hs, hne⟩ := Rule.title_eq_ok.1 ht
  exact
    { name := hne
      trimmed := by rw [← hs, Text.trim_trim]
      version := of_optional_eq_ok (P := fun t => t.isBlank = false) (by decide)
        (fun _ _ => Rule.not_blank_of_version) hversion
      nodes := forall_of_optional_list_eq_ok Node.isNormal_of_ofJson hnodes
      workflows := forall_of_optional_list_eq_ok Workflow.isNormal_of_ofJson hflows
      endpoints := forall_of_optional_list_eq_ok Endpoint.isNormal_of_ofJson hends
      resolved := unknownNode?_eq_none.1 hrefs }

end Backend

end Nanoservice
