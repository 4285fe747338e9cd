import Nanoservice.Proofs.Backend.RoundTrip
import Nanoservice.Proofs.Candidate.Agreement

/-!
# Candidates without endpoints of their own

A candidate that lists no endpoints at the top level gets those of its workflows, in order
(`Candidate.endpoints_of_validate`). So a model whose endpoints are those of its workflows can be
written as a candidate without a list of endpoints, and is the model of that candidate, up to the
special numbers in schemas (`Backend.validate_candidate`).
-/

namespace Nanoservice

open Reading

namespace Candidate

/-- The endpoint entries of a workflow, none if it lists no endpoints. -/
def nestedEntries (workflow : Fields) : List Json :=
  ((workflow.lookup (.plain "endpoints")).bind Json.items?).getD []

/-- The endpoint entries of a workflow that was read are those that its endpoints were read from. -/
theorem nestedEntries_of_read {fs : Fields} {w : Workflow} (h : Workflow.ofJson (.obj fs) = .ok w) :
    (nestedEntries fs).map Endpoint.ofJson = w.endpoints.map .ok := by
  obtain ⟨fs', hfs, -, -, -, hends⟩ := Workflow.ofJson_eq_ok.1 h
  obtain rfl : fs = fs' := Json.obj.inj hfs
  rcases optional_eq_ok.1 hends with ⟨v, hv, hread⟩ | ⟨hnone, hempty⟩
  · obtain ⟨vs, rfl, hvs⟩ := list_eq_ok.1 hread
    simpa [nestedEntries, hv, Json.items?] using hvs
  · simp [nestedEntries, hnone, hempty]

/-- The endpoint entries of workflows that were read, one workflow after another. -/
theorem flatMap_nestedEntries {vs : List Json} {ws : List Workflow}
    (h : vs.map Workflow.ofJson = ws.map .ok) :
    ((objects (some (.arr vs))).flatMap nestedEntries).map Endpoint.ofJson =
      (ws.flatMap Workflow.endpoints).map .ok := by
  induction vs generalizing ws with
  | nil =>
    cases ws with
    | nil => rfl
    | cons w ws => simp at h
  | cons v vs ih =>
    cases ws with
    | nil => simp at h
    | cons w ws =>
      simp only [List.map_cons, List.cons.injEq] at h
      obtain ⟨fs, rfl, -⟩ := Workflow.ofJson_eq_ok.1 h.1
      have htail := ih h.2
      simp only [objects, List.filterMap_cons, List.flatMap_cons, List.map_append,
        nestedEntries_of_read h.1] at htail ⊢
      rw [htail]

/-- Without a list of endpoints at the top level, the entries that are read are those of the
workflows. -/
theorem endpoints_eq_flatMap {fs : Fields}
    (h : ∀ vs, fs.lookup (.plain "endpoints") ≠ some (.arr vs)) :
    endpoints fs = (objects (fs.lookup (.plain "workflows"))).flatMap nestedEntries := by
  unfold endpoints
  split
  · next vs hvs => exact absurd hvs (h vs)
  · rfl

/-- The workflows of an accepted candidate are read from their entries, one by one. -/
theorem workflows_of_validate {freshId : String} {fs : Fields} {b : Backend}
    (h : validate freshId (.obj fs) = .ok b) :
    ∃ ws, fs.lookup (.plain "workflows") = some (.arr ws) ∧
      ws.map Workflow.ofJson = b.workflows.map .ok := by
  obtain ⟨fs', hfs, -, -, -, hread⟩ := validate_eq_ok.1 h
  obtain rfl : fs = fs' := Json.obj.inj hfs
  obtain ⟨-, -, -, -, -, hflows, -⟩ :=
    partsOfJson_prepared_eq_ok.1 (Backend.ofJson_eq_ok.1 hread).1
  exact lookup_of_list_eq_ok hflows

/-- The entries that the endpoints of a model were read from, one by one. -/
theorem map_ofJson_endpoints {freshId : String} {fs : Fields} {b : Backend}
    (h : validate freshId (.obj fs) = .ok b) :
    (endpoints fs).map Endpoint.ofJson = b.endpoints.map .ok := by
  obtain ⟨fs', hfs, -, -, -, hread⟩ := validate_eq_ok.1 h
  obtain rfl : fs = fs' := Json.obj.inj hfs
  obtain ⟨-, -, -, -, -, -, hends⟩ :=
    partsOfJson_prepared_eq_ok.1 (Backend.ofJson_eq_ok.1 hread).1
  obtain ⟨es, hes, heread⟩ := list_eq_ok.1 hends
  obtain rfl := Json.arr.inj hes
  exact heread

/-- The endpoints of an accepted candidate that lists none at the top level are those of its
workflows. -/
theorem endpoints_of_validate {freshId : String} {fs : Fields} {b : Backend}
    (h : validate freshId (.obj fs) = .ok b)
    (htop : ∀ vs, fs.lookup (.plain "endpoints") ≠ some (.arr vs)) :
    b.endpoints = b.workflows.flatMap Workflow.endpoints := by
  obtain ⟨ws, hws, hwread⟩ := workflows_of_validate h
  have heread := map_ofJson_endpoints h
  rw [endpoints_eq_flatMap htop, hws, flatMap_nestedEntries hwread] at heread
  exact (List.map_injective_iff.2 (fun _ _ => Except.ok.inj) heread).symm

end Candidate

namespace Backend

open Candidate

/-- A model written as a candidate without a list of endpoints. -/
def candidate (b : Backend) : Candidate.Fields :=
  [("name", .str b.name), ("description", .ofText b.description), ("version", .ofText b.version),
    ("nodes", .arr (b.nodes.map Node.toJson)),
    ("workflows", .arr (b.workflows.map Workflow.toJson))]

/-- A model whose names are different, whose schemas have whole keys and whose endpoints are those
of its workflows. -/
structure IsAssembled (b : Backend) : Prop where
  normal : b.IsNormal
  keys : ∀ r ∈ b.responses, r.HasWholeKeys
  nodes : (b.nodes.map Node.name).Nodup
  workflows : (b.workflows.map Workflow.name).Nodup
  endpoints : b.endpoints = b.workflows.flatMap Workflow.endpoints

/-- The workflows of a normal model are read back one by one, up to the special numbers. -/
theorem map_ofJson_workflows {b : Backend} (h : b.IsNormal)
    (hkeys : ∀ r ∈ b.responses, r.HasWholeKeys) :
    (b.workflows.map Workflow.toJson).map Workflow.ofJson =
      (b.workflows.map Workflow.finite).map .ok := by
  rw [List.map_map, List.map_map]
  exact List.map_congr_left fun w hw =>
    Workflow.ofJson_toJson (h.workflows w hw) ((forall_mem_responses.1 hkeys).2 w hw)

/-- The endpoint entries of a candidate that is written from a model are read as the endpoints of
its workflows. -/
theorem endpoints_candidate {b : Backend} (h : b.IsAssembled) :
    list Endpoint.ofJson (.arr (Candidate.endpoints b.candidate)) = .ok b.finite.endpoints := by
  have hends : b.finite.endpoints =
      (b.workflows.map Workflow.finite).flatMap Workflow.endpoints := by
    rw [finite, h.endpoints, List.map_flatMap, List.flatMap_map]
    rfl
  have hflat : Candidate.endpoints b.candidate =
      (objects (some (.arr (b.workflows.map Workflow.toJson)))).flatMap nestedEntries :=
    endpoints_eq_flatMap fun vs hvs => by cases hvs
  rw [hends, hflat]
  exact list_eq_ok.2 ⟨_, rfl, flatMap_nestedEntries (map_ofJson_workflows h.normal h.keys)⟩

/-- The fields of a candidate say what a model says, whatever its endpoints are. -/
structure Describes (fs : Candidate.Fields) (b : Backend) : Prop where
  name : fs.lookup (.plain "name") = some (.str b.name)
  description : fs.lookup (.plain "description") = some (.ofText b.description)
  version : fs.lookup (.plain "version") = some (.ofText b.version)
  nodes : fs.lookup (.plain "nodes") = some (.arr (b.nodes.map Node.toJson))
  workflows : fs.lookup (.plain "workflows") = some (.arr (b.workflows.map Workflow.toJson))

variable {b : Backend} {fs : Candidate.Fields} {es : List Endpoint} {freshId : String}

/-- The nodes of a candidate that says what a model says are read as the nodes of the model. -/
theorem Describes.nodes_eq_ok (h : Describes fs b) (hb : b.IsNormal) :
    list Node.ofJson (nodeEntries fs) = .ok b.nodes := by
  have hentries : nodeEntries fs = .arr (b.nodes.map Node.toJson) := by
    rw [nodeEntries, h.nodes, Option.getD_some]
    split
    · next hfalsy =>
      obtain hnil : b.nodes.map Node.toJson = [] := List.isEmpty_iff.1 hfalsy
      rw [hnil]
    · rfl
  rw [hentries]
  exact list_map_encode_self fun n hn => Node.ofJson_toJson (hb.nodes n hn)

/-- A candidate that says what a model says is read as the model with the endpoints of the
candidate, up to the special numbers. -/
theorem ofJson_of_describes (h : Describes fs b) (hb : b.IsNormal)
    (hkeys : ∀ r ∈ b.responses, r.HasWholeKeys)
    (hes : list Endpoint.ofJson (.arr (Candidate.endpoints fs)) = .ok es) :
    ofJson freshId (prepared fs) = .ok { b.finite with id := freshId, endpoints := es } := by
  refine ofJson_eq_ok.2 ⟨partsOfJson_prepared_eq_ok.2 ⟨rfl, ?_, ?_, ?_, h.nodes_eq_ok hb, ?_, hes⟩,
    unknownNode?_eq_none.2 fun w hw n hn => ?_⟩
  · rw [h.name]
    exact Rule.title_eq_ok.2 ⟨_, rfl, hb.trimmed, hb.name⟩
  · rw [h.description]
    exact Rule.description_ofText b.description
  · rw [h.version]
    exact Rule.version_ofText hb.version
  · rw [h.workflows]
    exact list_map_encode fun w hw =>
      Workflow.ofJson_toJson (hb.workflows w hw) ((forall_mem_responses.1 hkeys).2 w hw)
  · obtain ⟨u, hu, rfl⟩ := List.mem_map.1 hw
    exact hb.resolved u hu n hn

/-- A candidate that says what a model says is accepted when the names of the model are different
and the endpoints of the candidate can be read. -/
theorem validate_of_describes (h : Describes fs b) (hb : b.IsNormal)
    (hkeys : ∀ r ∈ b.responses, r.HasWholeKeys)
    (hnodes : (b.nodes.map Node.name).Nodup) (hflows : (b.workflows.map Workflow.name).Nodup)
    (hes : list Endpoint.ofJson (.arr (Candidate.endpoints fs)) = .ok es) :
    validate freshId (.obj fs) = .ok { b.finite with id := freshId, endpoints := es } := by
  have hread : ofJson freshId (prepared fs) =
      .ok { b.finite with id := freshId, endpoints := es } := ofJson_of_describes h hb hkeys hes
  refine validate_eq_ok.2 ⟨fs, rfl, ?_, ?_, fault?_of_read ?_ ?_ hread, hread⟩
  · have hblank := Text.not_blank_of_trim hb.trimmed hb.name
    simpa [hasName, h.name, Json.rawText?, RawText.isBlank, RawText.shown] using hblank
  · simp [hasWorkflows, h.workflows, Json.items?]
  · rw [names_nodes_of_read (h.nodes_eq_ok hb)]
    exact nodup_plain_iff.2 hnodes
  · have hnames : (b.workflows.map Workflow.finite).map Workflow.name =
        b.workflows.map Workflow.name := by
      simp [Workflow.finite, Function.comp_def]
    rw [h.workflows, names_objects_of_read lookup_name_of_workflow (map_ofJson_workflows hb hkeys)]
    exact nodup_plain_iff.2 (hnames ▸ hflows)

/-- A model whose names are different and whose endpoints are those of its workflows is the model of
the candidate that is written from it, up to the special numbers. -/
theorem validate_candidate (h : b.IsAssembled) (hid : b.id = .plain freshId) :
    validate freshId (.obj b.candidate) = .ok b.finite := by
  have hvalid : validate freshId (.obj b.candidate) = .ok { b.finite with id := freshId } :=
    validate_of_describes ⟨rfl, rfl, rfl, rfl, rfl⟩ h.normal h.keys h.nodes h.workflows
      (endpoints_candidate h)
  rwa [← hid] at hvalid

/-! ## Models of one path -/

/-- An endpoint at a fixed path. -/
def listed (description : String) : Endpoint :=
  ⟨"/x", .get, description, [], []⟩

/-- A workflow with a name that lists the endpoint with a description. -/
def listing (l : String × String) : Workflow :=
  ⟨l.1, "", [], [listed l.2]⟩

/-- A model whose workflows all list one path. -/
def ofListings (description : String) (ls : List (String × String)) : Backend :=
  { id := "0"
    name := "s"
    description := description
    version := defaultVersion
    nodes := []
    workflows := ls.map listing
    endpoints := (ls.map listing).flatMap Workflow.endpoints }

theorem isNormal_listing {l : String × String} (h : l.1 ≠ "") : (listing l).IsNormal := by
  have hpath : EndpointPath.IsNormal "/x" :=
    EndpointPath.isNormal_of_not_mem_colon (by simp) (by simp [Text.Trimmed, Text.isBlank])
      (by simp)
  exact ⟨h, List.forall_mem_singleton.2 ⟨hpath, fun p hp => by cases hp⟩⟩

theorem isNormal_ofListings (description : String) {ls : List (String × String)}
    (hnames : ∀ l ∈ ls, l.1 ≠ "") : (ofListings description ls).IsNormal where
  name := by simp [ofListings]
  trimmed := by cbv
  version := by cbv
  nodes n hn := by cases hn
  workflows := List.forall_mem_map.2 fun l hl => isNormal_listing (hnames l hl)
  endpoints e he := by
    obtain ⟨w, hw, hmem⟩ := List.mem_flatMap.1 he
    obtain ⟨l, hl, rfl⟩ := List.mem_map.1 hw
    exact (isNormal_listing (hnames l hl)).endpoints e hmem
  resolved w hw n hn := by
    obtain ⟨l, -, rfl⟩ := List.mem_map.1 hw
    cases hn

/-- A model of one path has no responses. -/
theorem responses_ofListings (description : String) (ls : List (String × String)) :
    (ofListings description ls).responses = [] := by
  have hlisted : ∀ e ∈ (ls.map listing).flatMap Workflow.endpoints, e.responses = [] := by
    intro e he
    obtain ⟨w, hw, hmem⟩ := List.mem_flatMap.1 he
    obtain ⟨l, -, rfl⟩ := List.mem_map.1 hw
    obtain rfl := List.mem_singleton.1 hmem
    rfl
  refine List.flatMap_eq_nil_iff.2 fun e he => hlisted e ?_
  rcases List.mem_append.1 he with he | he <;> exact he

/-- A model of one path is that of a candidate when the names of its workflows are different. -/
theorem validate_ofListings (description : String) {ls : List (String × String)}
    (hnames : ∀ l ∈ ls, l.1 ≠ "") (hnodup : (ls.map Prod.fst).Nodup) :
    validate "0" (.obj (ofListings description ls).candidate) =
      .ok (ofListings description ls) := by
  have hassembled : (ofListings description ls).IsAssembled :=
    { normal := isNormal_ofListings description hnames
      keys := by simp [responses_ofListings]
      nodes := List.nodup_nil
      workflows := by simpa [ofListings, Function.comp_def, listing] using hnodup
      endpoints := rfl }
  have hfinite : (ofListings description ls).finite = ofListings description ls :=
    finite_of_isFinite (by simp [responses_ofListings])
  have hvalid := validate_candidate hassembled rfl
  rwa [hfinite] at hvalid

/-! ## Models of one workflow -/

/-- A model whose only workflow lists the endpoints. -/
def ofEndpoints (es : List Endpoint) : Backend :=
  { id := "0"
    name := "s"
    description := ""
    version := defaultVersion
    nodes := []
    workflows := [⟨"w", "", [], es⟩]
    endpoints := es }

theorem isAssembled_ofEndpoints {es : List Endpoint} (h : ∀ e ∈ es, e.IsNormal)
    (hkeys : ∀ e ∈ es, ∀ r ∈ e.responses, r.HasWholeKeys) : (ofEndpoints es).IsAssembled where
  normal :=
    { name := by simp [ofEndpoints]
      trimmed := by cbv
      version := by cbv
      nodes := fun n hn => by cases hn
      workflows := List.forall_mem_singleton.2 ⟨by simp, h⟩
      endpoints := h
      resolved := List.forall_mem_singleton.2 fun n hn => by cases hn }
  keys := forall_mem_responses.2 ⟨hkeys, List.forall_mem_singleton.2 hkeys⟩
  nodes := List.nodup_nil
  workflows := List.nodup_singleton "w"
  endpoints := by simp [ofEndpoints]

/-- A model whose only workflow lists normal endpoints with whole keys and without special numbers
is that of a candidate. -/
theorem validate_ofEndpoints {es : List Endpoint} (h : ∀ e ∈ es, e.IsNormal)
    (hkeys : ∀ e ∈ es, ∀ r ∈ e.responses, r.HasWholeKeys)
    (hfinite : (ofEndpoints es).finite = ofEndpoints es) :
    validate "0" (.obj (ofEndpoints es).candidate) = .ok (ofEndpoints es) := by
  have hvalid := validate_candidate (isAssembled_ofEndpoints h hkeys) rfl
  rwa [hfinite] at hvalid

end Backend

end Nanoservice
