import Nanoservice.Proofs.Candidate.Endpoints
import Nanoservice.Proofs.OpenApi.Calls
import Nanoservice.Proofs.OpenApi.RelativePath
import Nanoservice.Proofs.Service.Route

/-!
# Calls and routes

The document and the service of a backend are made from the same endpoints, by different rules: the
document has each endpoint below its server's path, from which the leading base segment was cut off,
while the service has it at its own path. So the calls of the document are the routes, each at the
address that the document gives it (`OpenApi.calls_match_routes`), and these are the addresses of
the routes only if all paths lie below the base segment. A route at another path has no call there
(`OpenApi.route_without_call`).
-/

namespace Nanoservice

namespace OpenApi

/-- The method and address of a call. -/
def Call.address (c : Call) : RawText × RawText :=
  (c.method, c.url)

/-- The address at which a route answers. -/
def served (k : Method × RawText) : RawText × RawText :=
  (.plain k.1.lowerName, k.2)

/-- The address that a document gives to a method and path. -/
def documented (k : Method × RawText) : RawText × RawText :=
  (.plain k.1.lowerName, .plain basePath ++ k.2.rewrite relativePath)

/-! ## Addresses -/

theorem lowerName_injective {m n : Method} (h : m.lowerName = n.lowerName) : m = n := by
  cases m <;> cases n <;> first | rfl | simp [Method.lowerName] at h

/-- A document has every path below the base segment. -/
theorem prefix_documented (path : RawText) :
    ['/', 'a', 'p', 'i', '/'] <+: (.plain basePath ++ path.rewrite relativePath).shown.toList := by
  obtain ⟨cs, hcs⟩ := exists_relativePath path.shown
  rw [RawText.shown_append, RawText.shown_rewrite, String.toList_append, hcs]
  exact ⟨cs, by simp [basePath]⟩

/-- A path that lies below the base segment has its own address in a document. -/
theorem documented_eq_self {path : RawText}
    (h : ['/', 'a', 'p', 'i', '/'] <+: path.shown.toList) :
    .plain basePath ++ path.rewrite relativePath = path := by
  obtain ⟨cs, hcs⟩ := h
  rw [RawText.plain_append_rewrite (by decide)]
  refine RawText.rewrite_eq_self (String.toList_injective ?_)
  rw [relativePath, ← hcs]
  simp [basePath]

/-- Endpoints are in one place of a document when they have one address there. -/
theorem place_eq_iff {e f : Endpoint} :
    e.place = f.place ↔ documented e.key = documented f.key := by
  simp only [Endpoint.place, documented, Endpoint.key, Prod.mk.injEq]
  refine and_congr ⟨congrArg fun m : Method => RawText.plain m.lowerName, fun h => ?_⟩
    RawText.plain_append_inj.symm
  exact lowerName_injective (RawText.plain.inj h)

/-- The addresses of the calls are those that the document gives to the endpoints. -/
theorem mem_addresses_iff {b : Backend} {a : RawText × RawText} :
    a ∈ (calls (Document.ofBackend b).toJson).map Call.address ↔
      ∃ e ∈ b.endpoints, documented e.key = a := by
  rw [List.mem_map]
  constructor
  · rintro ⟨c, hc, rfl⟩
    obtain ⟨e, hlast, rfl⟩ := mem_calls_iff.1 hc
    exact ⟨e, hlast.mem, rfl⟩
  · rintro ⟨e, he, rfl⟩
    obtain ⟨f, hlast⟩ := exists_isLast (p := fun f => f.place = e.place) he rfl
    have hplace : f.place = e.place := hlast.1
    exact ⟨f.call, mem_calls_iff.2 ⟨f, hplace ▸ hlast, rfl⟩, place_eq_iff.1 hplace⟩

/-- The routes of a backend have the methods and paths of its endpoints. -/
theorem mem_keys_iff {b : Backend} {a : RawText × RawText}
    {f : Method × RawText → RawText × RawText} :
    (a ∈ b.routes.map fun r => f r.key) ↔ ∃ e ∈ b.endpoints, f e.key = a := by
  rw [List.mem_map]
  constructor
  · rintro ⟨r, hr, rfl⟩
    obtain ⟨e, hlast, -⟩ := Backend.described_of_mem_routes hr
    exact ⟨e, hlast.mem, congrArg f hlast.1⟩
  · rintro ⟨e, he, rfl⟩
    obtain ⟨r, hr, hkey⟩ := Backend.exists_route he
    exact ⟨r, hr, congrArg f hkey⟩

/-! ## Calls and routes -/

/-- Calls that are the routes of a backend, each at the address that a document gives it. -/
structure Matches (b : Backend) (cs : List Call) : Prop where
  /-- The calls have the addresses that the document gives to the routes. -/
  addresses : ∀ a, a ∈ cs.map Call.address ↔ a ∈ b.routes.map fun r => documented r.key
  /-- These are the addresses of the routes when all paths lie below the base segment. -/
  same : (∀ a, a ∈ cs.map Call.address ↔ a ∈ b.routes.map fun r => served r.key) ↔
    ∀ e ∈ b.endpoints, ['/', 'a', 'p', 'i', '/'] <+: e.path.shown.toList
  /-- The summary of a call is the description of the route of the last endpoint with its
  address. -/
  summaries : ∀ c ∈ cs, ∃ e, IsLast (fun e => documented e.key = c.address) b.endpoints e ∧
    ∃ r ∈ b.routes, r.key = e.key ∧ r.description = c.summary
  /-- So it is the description of the only route that has the address. -/
  only : ∀ c ∈ cs, ∀ r ∈ b.routes,
    (∀ r' ∈ b.routes, documented r'.key = c.address → r' = r) → c.summary = r.description

theorem same_addresses_iff {b : Backend} :
    (∀ a, a ∈ (calls (Document.ofBackend b).toJson).map Call.address ↔
      a ∈ b.routes.map fun r => served r.key) ↔
      ∀ e ∈ b.endpoints, ['/', 'a', 'p', 'i', '/'] <+: e.path.shown.toList := by
  simp only [mem_addresses_iff, mem_keys_iff]
  constructor
  · intro h e he
    obtain ⟨f, -, hf⟩ := (h (served e.key)).2 ⟨e, he, rfl⟩
    have hpath : .plain basePath ++ f.path.rewrite relativePath = e.path := congrArg Prod.snd hf
    rw [← hpath]
    exact prefix_documented f.path
  · intro h a
    refine exists_congr fun e => and_congr_right fun he => ?_
    rw [documented, Endpoint.key, documented_eq_self (h e he)]
    rfl

/-- The summary of a call is the description of the route of the last endpoint at its address. -/
theorem exists_route_of_call {b : Backend} {c : Call}
    (h : c ∈ calls (Document.ofBackend b).toJson) :
    ∃ e, IsLast (fun e => documented e.key = c.address) b.endpoints e ∧
      ∃ r ∈ b.routes, r.key = e.key ∧ r.description = c.summary := by
  obtain ⟨e, hlast, rfl⟩ := mem_calls_iff.1 h
  obtain ⟨r, hr, hkey⟩ := Backend.exists_route hlast.mem
  obtain ⟨f, hf, hdescription, -⟩ := Backend.described_of_mem_routes hr
  -- The last endpoint in a place of the document is the last one with its own method and path.
  have hown : IsLast (fun f => f.key = r.key) b.endpoints e :=
    hlast.narrow hkey.symm fun f hf =>
      place_eq_iff.2 (congrArg documented (hf.trans hkey))
  refine ⟨e, hlast.narrow rfl fun f hf => place_eq_iff.2 hf, r, hr, hkey, ?_⟩
  rw [hdescription, hf.unique hown]
  rfl

/-- The calls of the document in which the endpoints of a backend were entered are the routes of the
backend, each at the address that the document gives it. -/
theorem matches_ofBackend (b : Backend) : Matches b (calls (Document.ofBackend b).toJson) where
  addresses a := mem_addresses_iff.trans mem_keys_iff.symm
  same := same_addresses_iff
  summaries c hc := exists_route_of_call hc
  only c hc r hr honly := by
    obtain ⟨e, hlast, r', hr', hkey, hsummary⟩ := exists_route_of_call hc
    have haddress : documented r'.key = c.address := hkey ▸ hlast.1
    rw [← hsummary, honly r' hr' haddress]

/-- A backend has a complete document, whose calls are its routes at the addresses that the document
gives them, exactly if its statuses are short enough to be written. -/
theorem calls_match_routes (b : Backend) :
    (∃ d, project b = .complete d ∧ Matches b (calls d.toJson)) ↔ b.HasShortStatuses :=
  exists_complete_iff (matches_ofBackend b)

/-- A model with a path outside the base segment. -/
def outside : Backend :=
  .ofListings "" [("w", "")]

/-- The route of a path outside the base segment answers where the document has no call. -/
theorem route_without_call : (∃ raw, Candidate.validate "0" raw = .ok outside) ∧
    (.plain "get", .plain "/x") ∈ (outside.routes.map fun r => served r.key) ∧
    (.plain "get", .plain "/x") ∉ (calls (project outside).toJson).map Call.address := by
  have hshort : outside.HasShortStatuses := by
    intro e he r hr
    obtain rfl := List.mem_singleton.1 he
    cases hr
  refine ⟨⟨_, Backend.validate_ofListings _ (by simp) (by simp)⟩, ?_, fun h => ?_⟩
  · exact mem_keys_iff.2 ⟨Backend.listed "", List.mem_cons_self, rfl⟩
  · rw [project_eq_complete.2 ⟨hshort, rfl⟩] at h
    obtain ⟨e, -, he⟩ := mem_addresses_iff.1 h
    have hpath : .plain basePath ++ e.path.rewrite relativePath = .plain "/x" :=
      congrArg Prod.snd he
    have hprefix := prefix_documented e.path
    rw [hpath] at hprefix
    simp at hprefix

end OpenApi

end Nanoservice
