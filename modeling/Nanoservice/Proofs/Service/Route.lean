import Mathlib.Data.List.Forall2
import Nanoservice.Proofs.Service.Name
import Nanoservice.Proofs.Table
import Nanoservice.Service.Route

/-!
# Routes and their handlers

The routes of a backend are its methods and paths, one route for each (`Backend.areRoutes_routes`).
Every route has a handler of its own (`Backend.nodup_handlers`), whose name is a valid identifier
(`Backend.isModuleName_handler`) that begins with the method of the route
(`Backend.prefix_of_mem_routes`). A route is served by a workflow of the model
(`Backend.workflow_of_mem_routes`), the first one that lists its method and path
(`Backend.workflow_eq_some_iff`), and is described by the last endpoint that has them
(`Backend.described_of_mem_routes`); every endpoint has a route (`Backend.exists_route`).
-/

namespace Nanoservice

/-- What tells one route from another. -/
def Route.key (r : Route) : Method × RawText :=
  (r.method, r.path)

/-- A workflow lists an endpoint with a method and path. -/
def Workflow.Lists (w : Workflow) (k : Method × RawText) : Prop :=
  ∃ e ∈ w.endpoints, e.key = k

/-- The status of success of an endpoint: that of its first response from 200 to 299, and 200 if it
has none. -/
def Endpoint.SucceedsWith (e : Endpoint) (status : Int) : Prop :=
  (∃ r, IsFirst (fun r => 200 ≤ r.status ∧ r.status ≤ 299) e.responses r ∧ r.status = status) ∨
    (∀ r ∈ e.responses, ¬ (200 ≤ r.status ∧ r.status ≤ 299)) ∧ status = 200

theorem Endpoint.succeedsWith_successStatus (e : Endpoint) : e.SucceedsWith e.successStatus := by
  have hrange : ∀ r : Response, (decide (200 ≤ r.status) && decide (r.status < 300)) =
      decide (200 ≤ r.status ∧ r.status ≤ 299) := by
    intro r
    rw [← Bool.decide_and, decide_eq_decide]
    omega
  rw [successStatus, List.find?_map]
  simp only [Function.comp_def, hrange]
  cases hfind : e.responses.find? fun r => decide (200 ≤ r.status ∧ r.status ≤ 299) with
  | some r => exact .inl ⟨r, isFirst_iff_find?.2 hfind, rfl⟩
  | none => exact .inr ⟨fun r hr => by simpa using List.find?_eq_none.1 hfind r hr, rfl⟩

namespace Backend

variable (b : Backend)

/-- The endpoints that describe the routes, in the order of the routes. -/
def describing : List Endpoint :=
  b.described.map Prod.snd

/-- The unique names of the methods and paths of the routes. -/
def handlers : List String :=
  (Name.uniqueAll [] (b.describing.map fun e => Name.handler e.method.keyword e.path.shown)).1

theorem length_handlers : b.handlers.length = b.describing.length := by
  obtain ⟨hlength, -, -⟩ := Name.uniqueAll_spec []
    (b.describing.map fun e => Name.handler e.method.keyword e.path.shown)
  rwa [List.length_map] at hlength

/-- The handlers of routes are the unique names of their methods and paths. -/
theorem handlers_eq : b.routes.map Route.handler = b.handlers := by
  rw [routes, List.map_map]
  exact List.map_snd_zip (Nat.le_of_eq b.length_handlers)

theorem nodup_handlers : (b.routes.map Route.handler).Nodup := by
  rw [handlers_eq]
  exact (Name.uniqueAll_spec _ _).2.1

/-- The handler of a route is that of its method and path, with a number behind it or not. -/
theorem handler_of_mem_routes {r : Route} (h : r ∈ b.routes) :
    r.handler = Name.handler r.method.keyword r.path.shown ∨
      ∃ n, r.handler = Name.numbered (Name.handler r.method.keyword r.path.shown) n := by
  obtain ⟨⟨e, handler⟩, hzip, rfl⟩ := List.mem_map.1 h
  have hnames := Name.forall₂_uniqueAll []
    (b.describing.map fun e => Name.handler e.method.keyword e.path.shown)
  rw [List.forall₂_map_left_iff] at hnames
  exact (List.forall₂_iff_zip.1 hnames).2 hzip

/-- The handler of a route has a valid name. -/
theorem isModuleName_handler : ∀ r ∈ b.routes, Name.IsModuleName r.handler := by
  intro r hr
  have hbase : Name.IsModuleName (Name.handler r.method.keyword r.path.shown) :=
    Name.isModuleName_identifier .route _
  rcases b.handler_of_mem_routes hr with he | ⟨n, he⟩ <;> rw [he]
  · exact hbase
  · exact hbase.numbered n

/-- The handler of a route begins with the name of its method. -/
theorem prefix_of_mem_routes :
    ∀ r ∈ b.routes, r.method.lowerName.toList <+: r.handler.toList := by
  intro r hr
  have hbase := Name.prefix_handler r.method r.path.shown
  rcases b.handler_of_mem_routes hr with he | ⟨n, he⟩ <;> rw [he]
  · exact hbase
  · refine hbase.trans ?_
    rw [Name.numbered, String.toList_append, String.toList_append, List.append_assoc]
    exact List.prefix_append _ _

/-- A route is served by a workflow of the model. -/
theorem workflow_of_mem_routes {r : Route} (h : r ∈ b.routes) {name : String}
    (hname : r.workflow = some name) : ∃ w ∈ b.workflows, w.name = name := by
  obtain ⟨⟨e, handler⟩, -, rfl⟩ := List.mem_map.1 h
  have hmem := Table.mem_ofFirst (Table.mem_of_get? hname)
  obtain ⟨w, hw, hentry⟩ := List.mem_flatMap.1 hmem
  obtain ⟨f, -, hf⟩ := List.mem_map.1 hentry
  exact ⟨w, hw, (Prod.mk.inj hf).2⟩

/-! ## What describes and serves a route -/

variable {b} {r : Route}

/-- The endpoint that describes a method and path is the last one that has them. -/
theorem mem_described_iff {k : Method × RawText} {e : Endpoint} :
    (k, e) ∈ b.described ↔ IsLast (fun e => e.key = k) b.endpoints e :=
  Table.mem_ofLast_map

/-- A route is described by the last endpoint that has its method and path. -/
theorem described_of_mem_routes (h : r ∈ b.routes) :
    ∃ e, IsLast (fun e => e.key = r.key) b.endpoints e ∧ r.description = e.description ∧
      r.status = e.successStatus := by
  obtain ⟨⟨e, handler⟩, hzip, rfl⟩ := List.mem_map.1 h
  obtain ⟨⟨k, e⟩, hmem, rfl⟩ := List.mem_map.1 (List.of_mem_zip hzip).1
  have hlast := mem_described_iff.1 hmem
  obtain rfl : e.key = k := hlast.1
  exact ⟨e, hlast, rfl, rfl⟩

/-- Every endpoint has a route. -/
theorem exists_route {e : Endpoint} (h : e ∈ b.endpoints) : ∃ r ∈ b.routes, r.key = e.key := by
  obtain ⟨f, hlast⟩ := exists_isLast (p := fun f => f.key = e.key) h rfl
  have hmem : f ∈ b.describing := List.mem_map_of_mem (mem_described_iff.2 hlast)
  rw [← List.map_fst_zip (Nat.le_of_eq b.length_handlers.symm)] at hmem
  obtain ⟨⟨f', handler⟩, hzip, rfl⟩ := List.mem_map.1 hmem
  exact ⟨_, List.mem_map_of_mem hzip, hlast.1⟩

/-- The first entry with a method and path is that of the first workflow that lists them. -/
theorem isFirst_of_entry {k : Method × RawText} {entry : (Method × RawText) × String}
    (h : IsFirst (fun entry => entry.1 = k)
      (b.workflows.flatMap fun w => w.endpoints.map fun e => (e.key, w.name)) entry) :
    ∃ w, IsFirst (fun w => w.Lists k) b.workflows w ∧ w.name = entry.2 := by
  obtain ⟨w, hw, hentry⟩ := h.flatMap
  obtain ⟨e, -, rfl⟩ := List.mem_map.1 hentry.mem
  refine ⟨w, ?_, rfl⟩
  simpa [Workflow.Lists] using hw

/-- The workflow that serves a method and path is the first one that lists them. -/
theorem get?_servedBy {k : Method × RawText} {name : String} :
    Table.get? k b.servedBy = some name ↔
      ∃ w, IsFirst (fun w => w.Lists k) b.workflows w ∧ w.name = name := by
  unfold servedBy
  rw [Table.get?_ofFirst]
  constructor
  · rintro ⟨entry, hfirst, rfl⟩
    exact isFirst_of_entry hfirst
  · rintro ⟨w, hw, rfl⟩
    obtain ⟨e, he, hkey⟩ := hw.1
    have hmem : (e.key, w.name) ∈
        b.workflows.flatMap fun w => w.endpoints.map fun e => (e.key, w.name) :=
      List.mem_flatMap.2 ⟨w, hw.mem, List.mem_map_of_mem he⟩
    obtain ⟨entry, hfirst⟩ := exists_isFirst (p := fun entry => entry.1 = k) hmem hkey
    obtain ⟨v, hv, hname⟩ := isFirst_of_entry hfirst
    exact ⟨entry, hfirst, by rw [← hname, hv.unique hw]⟩

/-- The workflow of a route is the first one that lists its method and path. -/
theorem workflow_eq_some_iff (h : r ∈ b.routes) {name : String} :
    r.workflow = some name ↔
      ∃ w, IsFirst (fun w => w.Lists r.key) b.workflows w ∧ w.name = name := by
  obtain ⟨⟨e, handler⟩, -, rfl⟩ := List.mem_map.1 h
  exact get?_servedBy

/-- A route is not served when no workflow lists its method and path. -/
theorem workflow_eq_none_iff (h : r ∈ b.routes) :
    r.workflow = none ↔ ∀ w ∈ b.workflows, ¬ w.Lists r.key := by
  constructor
  · intro hnone w hw hlists
    obtain ⟨v, hv⟩ := exists_isFirst (p := fun w => w.Lists r.key) hw hlists
    rw [(workflow_eq_some_iff h).2 ⟨v, hv, rfl⟩] at hnone
    cases hnone
  · intro hlists
    rw [Option.eq_none_iff_forall_ne_some]
    intro name hname
    obtain ⟨w, hw, -⟩ := (workflow_eq_some_iff h).1 hname
    exact hlists w hw.mem hw.1

/-! ## The routes of a backend -/

variable (b)

/-- The routes have the methods and paths of the endpoints that describe them. -/
theorem map_key_routes : b.routes.map Route.key = b.described.map Prod.fst := by
  have hzip : b.routes.map Route.key =
      (b.describing.zip b.handlers).map (Endpoint.key ∘ Prod.fst) := by
    rw [routes, List.map_map]
    rfl
  rw [hzip, ← List.map_map, List.map_fst_zip (Nat.le_of_eq b.length_handlers.symm), describing,
    List.map_map]
  exact List.map_congr_left fun p hp => (mem_described_iff.1 hp).1

/-- The methods and paths of the endpoints have routes, each where it first occurs. -/
theorem map_key_routes_eq_eraseDups :
    b.routes.map Route.key = (b.endpoints.map Endpoint.key).eraseDups := by
  -- pairs are compared by their components here, and by their decidable equality in a table
  have hbeq : (instBEqProd : BEq (Method × RawText)) = instBEqOfDecidableEq :=
    lawful_beq_subsingleton _ _
  rw [map_key_routes, described, Table.keys_ofLast_map, hbeq]

/-- Routes that are made of the endpoints and workflows of a backend. -/
structure AreRoutes (b : Backend) (rs : List Route) : Prop where
  /-- Each method and path of an endpoint has one route, where it first occurs. -/
  order : rs.map Route.key = (b.endpoints.map Endpoint.key).eraseDups
  once : (rs.map Route.key).Nodup
  /-- The last endpoint with the method and path gives the description and the status. -/
  described : ∀ r ∈ rs, ∃ e, IsLast (fun e => e.key = r.key) b.endpoints e ∧
    r.description = e.description ∧ e.SucceedsWith r.status
  /-- The first workflow that lists the method and path serves them, and none without one. -/
  served : ∀ r ∈ rs, ∀ name, r.workflow = some name ↔
    ∃ w, IsFirst (fun w => w.Lists r.key) b.workflows w ∧ w.name = name
  unserved : ∀ r ∈ rs, r.workflow = none ↔ ∀ w ∈ b.workflows, ¬ w.Lists r.key
  /-- The handlers have names of their own, each an identifier that begins with the method. -/
  different : (rs.map Route.handler).Nodup
  handlers : ∀ r ∈ rs, Name.IsIdentifier r.handler ∧
    r.method.lowerName.toList <+: r.handler.toList

/-- The routes of a backend are made of its endpoints, one for each method and path. -/
theorem areRoutes_routes : AreRoutes b b.routes where
  order := b.map_key_routes_eq_eraseDups
  once := b.map_key_routes ▸ Table.nodup_keys_ofLast
  described r hr := by
    obtain ⟨e, hlast, hdescription, hstatus⟩ := described_of_mem_routes hr
    exact ⟨e, hlast, hdescription, hstatus ▸ e.succeedsWith_successStatus⟩
  served r hr _ := workflow_eq_some_iff hr
  unserved r hr := workflow_eq_none_iff hr
  different := b.nodup_handlers
  handlers r hr := ⟨(b.isModuleName_handler r hr).isIdentifier, b.prefix_of_mem_routes r hr⟩

end Backend

end Nanoservice
