import Nanoservice.Proofs.Service.Serving

/-!
# Where the endpoints of a model come from

The endpoints of an accepted candidate are collected before the model is read, and looked up in its
workflows after that. A candidate without a list of endpoints at the top level has those of its
workflows, so each of its routes has a workflow. A list at the top level is read entry by entry in
their place and changes nothing else (`Candidate.validate_of_agree`). Both are said in
`Candidate.endpoints_areCollected`.
-/

namespace Nanoservice.Candidate

open Reading

variable {freshId : String} {fs gs : Fields} {b : Backend} {es : List Endpoint}

/-- Two candidates that differ in nothing but the endpoints at the top level. -/
def AgreeBeside (fs gs : Fields) : Prop :=
  ∀ key, key ≠ "endpoints" → gs.lookup (.plain key) = fs.lookup (.plain key)

/-- Other endpoints at the top level of an accepted candidate make other endpoints of its model, and
change nothing else. -/
theorem validate_of_agree (h : validate freshId (.obj fs) = .ok b) (hagree : AgreeBeside fs gs)
    (hes : list Endpoint.ofJson (.arr (endpoints gs)) = .ok es) :
    validate freshId (.obj gs) = .ok { b with endpoints := es } := by
  obtain ⟨fs', hfs, hname, hflows, hfault, hread⟩ := validate_eq_ok.1 h
  obtain rfl : fs = fs' := Json.obj.inj hfs
  obtain ⟨hparts, hrefs⟩ := Backend.ofJson_eq_ok.1 hread
  obtain ⟨hid, htitle, hdescription, hversion, hnodes, hworkflows, -⟩ :=
    partsOfJson_prepared_eq_ok.1 hparts
  have hentries : nodeEntries gs = nodeEntries fs := by
    rw [nodeEntries, nodeEntries, hagree "nodes" (by decide)]
  have hprepared : Backend.ofJson freshId (prepared gs) = .ok { b with endpoints := es } := by
    refine Backend.ofJson_eq_ok.2 ⟨partsOfJson_prepared_eq_ok.2 ?_, hrefs⟩
    rw [hagree "name" (by decide), hagree "description" (by decide), hagree "version" (by decide),
      hagree "workflows" (by decide), hentries]
    exact ⟨hid, htitle, hdescription, hversion, hnodes, hworkflows, hes⟩
  obtain ⟨hnodup, hnodup', -⟩ := fault?_eq_none.1 hfault
  refine validate_eq_ok.2 ⟨gs, rfl, ?_, ?_, fault?_of_read ?_ ?_ hprepared, hprepared⟩
  · rwa [hasName, hagree "name" (by decide)]
  · rwa [hasWorkflows, hagree "workflows" (by decide)]
  · rwa [hagree "nodes" (by decide)]
  · rwa [hagree "workflows" (by decide)]

/-- Without a list of endpoints at the top level, an accepted candidate would be the same model with
the endpoints of its workflows. -/
theorem validate_without_list (h : validate freshId (.obj fs) = .ok b) (hagree : AgreeBeside fs gs)
    (htop : ∀ vs, gs.lookup (.plain "endpoints") ≠ some (.arr vs)) :
    validate freshId (.obj gs) =
      .ok { b with endpoints := b.workflows.flatMap Workflow.endpoints } := by
  obtain ⟨ws, hws, hwread⟩ := workflows_of_validate h
  refine validate_of_agree h hagree (list_eq_ok.2 ⟨_, rfl, ?_⟩)
  rw [endpoints_eq_flatMap htop, hagree "workflows" (by decide), hws]
  exact flatMap_nestedEntries hwread

/-- The endpoints of an accepted candidate. Without a list of them at the top level they are those
of the workflows in order, and so every route has a workflow, the first one that lists its method
and path. With such a list they are the readings of its entries in order; each workflow is the
reading of its own entry still, and the candidate without the list is accepted with the same
workflows. -/
theorem endpoints_areCollected (h : validate freshId (.obj fs) = .ok b) :
    ((∀ vs, fs.lookup (.plain "endpoints") ≠ some (.arr vs)) →
      b.endpoints = b.workflows.flatMap Workflow.endpoints ∧
        ∀ r ∈ b.routes, ∃ w, IsFirst (fun w => w.Lists r.key) b.workflows w ∧
          r.workflow = some w.name) ∧
    ∀ vs, fs.lookup (.plain "endpoints") = some (.arr vs) →
      b.endpoints.length = vs.length ∧ vs.map Endpoint.ofJson = b.endpoints.map .ok ∧
        (∃ ws, fs.lookup (.plain "workflows") = some (.arr ws) ∧
          ws.map Workflow.ofJson = b.workflows.map .ok) ∧
        ∀ gs, AgreeBeside fs gs → (∀ us, gs.lookup (.plain "endpoints") ≠ some (.arr us)) →
          validate freshId (.obj gs) =
            .ok { b with endpoints := b.workflows.flatMap Workflow.endpoints } := by
  constructor
  · intro htop
    have hends := endpoints_of_validate h htop
    refine ⟨hends, fun r hr => ?_⟩
    obtain ⟨runs, describes, hserved⟩ := Backend.exists_isServed hends hr
    exact ⟨runs, hserved.first, hserved.workflow⟩
  · intro vs hvs
    have hread : vs.map Endpoint.ofJson = b.endpoints.map .ok := by
      simpa [endpoints, hvs] using map_ofJson_endpoints h
    refine ⟨?_, hread, workflows_of_validate h, fun gs => validate_without_list h⟩
    simpa using (congrArg List.length hread).symm

/-! ## A candidate with a list of endpoints -/

/-- The candidate of two workflows, with an endpoint of its own at the top level. -/
def overridden : Fields :=
  shared.candidate ++ [(.plain "endpoints", .arr [(Backend.listed "third").toJson])]

theorem agreeBeside_overridden : AgreeBeside shared.candidate overridden := by
  intro key hkey
  simp [overridden, List.lookup_append, List.lookup, beq_false_of_ne hkey]

theorem validate_overridden : validate "0" (.obj overridden) =
    .ok { shared with endpoints := [Backend.listed "third"] } := by
  have hnormal : (Backend.listed "third").IsNormal :=
    (Backend.isNormal_listing (l := ("w", "third")) (by simp)).endpoints _ List.mem_cons_self
  have hread := Endpoint.ofJson_toJson hnormal fun r hr => by cases hr
  exact validate_of_agree validate_shared agreeBeside_overridden
    (list_eq_ok.2 ⟨_, rfl, congrArg (fun r => [r]) hread⟩)

/-- The endpoints of two workflows are collected when there is no list at the top level; with a list
they are those of the list, and would be those of the workflows without it. -/
theorem endpoints_areCollected_shared :
    (validate "0" (.obj shared.candidate) = .ok shared ∧
      (∀ vs, shared.candidate.lookup (.plain "endpoints") ≠ some (.arr vs)) ∧
      shared.endpoints = shared.workflows.flatMap Workflow.endpoints) ∧
    validate "0" (.obj overridden) = .ok { shared with endpoints := [Backend.listed "third"] } ∧
      ∃ vs, overridden.lookup (.plain "endpoints") = some (.arr vs) ∧ vs.length = 1 ∧
        AgreeBeside overridden shared.candidate := by
  have hshared := endpoints_areCollected validate_shared
  have hlist : overridden.lookup (.plain "endpoints") =
      some (.arr [(Backend.listed "third").toJson]) := rfl
  have hoverridden := (endpoints_areCollected validate_overridden).2 _ hlist
  exact ⟨⟨validate_shared, no_endpoints_shared, (hshared.1 no_endpoints_shared).1⟩,
    validate_overridden, _, hlist, hoverridden.1.symm,
    fun key hkey => (agreeBeside_overridden key hkey).symm⟩

end Nanoservice.Candidate
