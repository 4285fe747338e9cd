import Nanoservice.Proofs.Candidate.Endpoints
import Nanoservice.Proofs.Service.Route

/-!
# Workflows that serve a route and describe it

When the endpoints of a model are those of its workflows, a route runs the first workflow that lists
its method and path, and is described by the last one (`Candidate.routes_areServed`). They are the
same workflow when only one lists the method and path, and may differ otherwise
(`Candidate.route_of_shared`).
-/

namespace Nanoservice

namespace Route

/-- A route runs one workflow of a model, and is described by an endpoint of another. -/
structure IsServed (workflows : List Workflow) (r : Route) (runs describes : Workflow) : Prop where
  first : IsFirst (fun w => w.Lists r.key) workflows runs
  workflow : r.workflow = some runs.name
  last : IsLast (fun w => w.Lists r.key) workflows describes
  described : ∃ e, IsLast (fun e => e.key = r.key) describes.endpoints e ∧
    r.description = e.description ∧ r.status = e.successStatus

/-- The workflow that a route runs describes it if no other workflow lists its method and path. -/
theorem IsServed.eq_of_only {workflows : List Workflow} {r : Route} {runs describes : Workflow}
    (h : r.IsServed workflows runs describes)
    (honly : ∀ v ∈ workflows, ∀ w ∈ workflows, v.Lists r.key → w.Lists r.key → v = w) :
    runs = describes :=
  honly _ h.first.mem _ h.last.mem h.first.1 h.last.1

end Route

namespace Backend

/-- The routes of a model whose endpoints are those of its workflows. -/
theorem exists_isServed {b : Backend} (h : b.endpoints = b.workflows.flatMap Workflow.endpoints)
    {r : Route} (hr : r ∈ b.routes) : ∃ runs describes, r.IsServed b.workflows runs describes := by
  obtain ⟨e, hlast, hdescription, hstatus⟩ := described_of_mem_routes hr
  rw [h] at hlast
  obtain ⟨describes, hdescribes, he⟩ := hlast.flatMap
  obtain ⟨runs, hruns⟩ := exists_isFirst (p := fun w => w.Lists r.key) hdescribes.mem hdescribes.1
  exact ⟨runs, describes, hruns, (workflow_eq_some_iff hr).2 ⟨runs, hruns, rfl⟩, hdescribes,
    e, he, hdescription, hstatus⟩

end Backend

namespace Candidate

/-- A route of the model of a candidate without a list of endpoints at the top level runs the first
workflow that lists its method and path, and its description and status are those of the last such
endpoint of the last such workflow; so both are the same workflow if only one lists them. -/
theorem routes_areServed {freshId : String} {fs : Fields} {b : Backend}
    (h : validate freshId (.obj fs) = .ok b)
    (htop : ∀ vs, fs.lookup (.plain "endpoints") ≠ some (.arr vs)) :
    ∀ r ∈ b.routes, ∃ runs describes, r.IsServed b.workflows runs describes ∧
      ((∀ v ∈ b.workflows, ∀ w ∈ b.workflows, v.Lists r.key → w.Lists r.key → v = w) →
        runs = describes) := by
  intro r hr
  obtain ⟨runs, describes, hserved⟩ := Backend.exists_isServed (endpoints_of_validate h htop) hr
  exact ⟨runs, describes, hserved, hserved.eq_of_only⟩

/-! ## A route of two workflows -/

/-- A model with two workflows that list one method and path. -/
def shared : Backend :=
  .ofListings "" [("a", "first"), ("b", "second")]

theorem validate_shared : validate "0" (.obj shared.candidate) = .ok shared :=
  Backend.validate_ofListings _ (by simp) (by simp)

theorem no_endpoints_shared :
    ∀ vs, shared.candidate.lookup (.plain "endpoints") ≠ some (.arr vs) := by
  intro vs hvs
  cases hvs

theorem exists_route_shared : ∃ r ∈ shared.routes, r.key = (.get, .plain "/x") :=
  Backend.exists_route (e := Backend.listed "first") List.mem_cons_self

/-- The route of two workflows runs one of them, and is described by one of them. -/
theorem routes_areServed_shared : validate "0" (.obj shared.candidate) = .ok shared ∧
    (∀ vs, shared.candidate.lookup (.plain "endpoints") ≠ some (.arr vs)) ∧
    ∃ r ∈ shared.routes, ∃ runs describes, r.IsServed shared.workflows runs describes := by
  obtain ⟨r, hr, -⟩ := exists_route_shared
  obtain ⟨runs, describes, hserved, -⟩ :=
    routes_areServed validate_shared no_endpoints_shared r hr
  exact ⟨validate_shared, no_endpoints_shared, r, hr, runs, describes, hserved⟩

/-- The route of two workflows runs the first one, and no endpoint of that workflow has the
description of the route. -/
theorem route_of_shared : validate "0" (.obj shared.candidate) = .ok shared ∧
    (∀ vs, shared.candidate.lookup (.plain "endpoints") ≠ some (.arr vs)) ∧
    ∃ r ∈ shared.routes, r.workflow = some "a" ∧ r.description = "second" ∧
      ∀ w ∈ shared.workflows, r.workflow = some w.name →
        ∀ e ∈ w.endpoints, e.description ≠ r.description := by
  obtain ⟨r, hr, hkey⟩ := exists_route_shared
  have hfirst : IsFirst (fun w => w.Lists r.key) shared.workflows
      (Backend.listing ("a", "first")) :=
    ⟨⟨_, List.mem_cons_self, hkey.symm⟩, [], _, rfl, by simp⟩
  have hworkflow : r.workflow = some "a" :=
    (Backend.workflow_eq_some_iff hr).2 ⟨_, hfirst, rfl⟩
  obtain ⟨e, hlast, hdescription, -⟩ := Backend.described_of_mem_routes hr
  have hsecond : IsLast (fun e => e.key = r.key) shared.endpoints (Backend.listed "second") :=
    ⟨hkey.symm, [Backend.listed "first"], [], rfl, by simp⟩
  rw [hlast.unique hsecond] at hdescription
  refine ⟨validate_shared, no_endpoints_shared, r, hr, hworkflow, hdescription, ?_⟩
  rw [hworkflow, hdescription]
  simp [shared, Backend.ofListings, Backend.listing, Backend.listed]

end Candidate

end Nanoservice
