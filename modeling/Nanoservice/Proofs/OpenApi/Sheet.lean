import Nanoservice.OpenApi.Sheet
import Nanoservice.Proofs.Backend.Writable
import Nanoservice.Proofs.Candidate.Accepted
import Nanoservice.Proofs.OpenApi.Routes
import Nanoservice.Proofs.Yaml.Literals

/-!
# The OpenAPI document loaded from YAML

The nodes of a document mean its JSON value: the operations that share the default response mean it
in each place, whether it stands there under its anchor or is named
(`exists_entryValues?_nodes`). So the YAML text of a document loads as the JSON value that its JSON
text spells, if each of its texts and keys is read back (`load_yaml`).
-/

namespace Nanoservice

open Nanoservice.Json (IsSpelled IsSpelledText isSpelled_ofText)

/-- The schema of a response is a value that free text can spell. -/
def Response.IsSpelled (r : Response) : Prop :=
  ∀ fs, r.schema = some fs → Json.IsSpelled (.obj fs)

namespace OpenApi

/-! ## Documents that free text can spell -/

theorem isSpelled_map {α : Type} {as : List α} {f : α → Json} (h : ∀ a ∈ as, IsSpelled (f a)) :
    IsSpelled (.arr (as.map f)) :=
  .arr (List.forall_mem_map.2 h)

/-- Fields are an object that free text can spell when their keys and values can be spelled. -/
theorem isSpelled_obj {fs : List (RawText × Json)} (hkeys : (fs.map Prod.fst).Nodup)
    (h : ∀ f ∈ fs, IsSpelledText f.1 ∧ IsSpelled f.2) : IsSpelled (.obj fs) :=
  .obj hkeys (fun f hf => (h f hf).1) fun f hf => (h f hf).2

/-- A field under a key of characters is an object that free text can spell when its value can be
spelled. -/
theorem isSpelled_singleton {key : String} {v : Json} (h : IsSpelled v) :
    IsSpelled (.obj [(.plain key, v)]) :=
  isSpelled_obj (List.nodup_singleton _) (List.forall_mem_singleton.2 ⟨trivial, h⟩)

/-- Keys of characters stay different as keys of an object. -/
theorem nodup_plain_keys {α : Type} {t : List (String × α)} (h : (t.map Prod.fst).Nodup)
    (json : α → Json) : ((t.map fun p => (RawText.plain p.1, json p.2)).map Prod.fst).Nodup := by
  have hinjective : Function.Injective RawText.plain := fun _ _ => RawText.plain.inj
  have hnodup := h.map hinjective
  rwa [List.map_map] at hnodup ⊢

theorem isSpelled_responseJson {r : Response} (htext : IsSpelledText r.description)
    (h : r.IsSpelled) : IsSpelled (responseJson r) := by
  obtain ⟨status, description, schema⟩ := r
  have hdescription := isSpelled_ofText htext
  rcases schema with _ | _ | ⟨f, fs⟩
  · exact isSpelled_singleton hdescription
  · exact isSpelled_singleton hdescription
  · have hcontent : IsSpelled (contentJson (f :: fs)) :=
      isSpelled_singleton (isSpelled_singleton (h _ rfl))
    exact isSpelled_obj (by simp) (List.forall_mem_cons.2
      ⟨⟨trivial, hdescription⟩, List.forall_mem_singleton.2 ⟨trivial, hcontent⟩⟩)

theorem isSpelled_responses {rs : List Response}
    (htexts : ∀ r ∈ rs, IsSpelledText r.description) (h : ∀ r ∈ rs, r.IsSpelled) :
    IsSpelled (Responses.ofList rs).toJson := by
  unfold Responses.ofList
  split
  · exact isSpelled_singleton (isSpelled_singleton (.str _))
  · refine isSpelled_obj (nodup_plain_keys Table.nodup_keys_ofLast responseJson)
      (List.forall_mem_map.2 fun p hp => ⟨trivial, ?_⟩)
    obtain ⟨r, hr, rfl⟩ := List.mem_map.1 (Table.mem_ofLast hp)
    exact isSpelled_responseJson (htexts r hr) (h r hr)

theorem isSpelled_typeObject (t : ValueType) :
    ∀ f ∈ typeObject t, IsSpelledText f.1 ∧ IsSpelled f.2 :=
  List.forall_mem_singleton.2 ⟨trivial, .str _⟩

theorem ParameterEntry.isSpelled_toJson {p : ParameterEntry} (h : IsSpelledText p.description) :
    IsSpelled p.toJson := by
  have htype : IsSpelled (.obj (typeObject p.type)) :=
    isSpelled_obj (by simp [typeObject]) (isSpelled_typeObject p.type)
  refine isSpelled_obj (by simp) ?_
  simp only [List.forall_mem_cons]
  exact ⟨⟨trivial, .str _⟩, ⟨trivial, .str _⟩, ⟨trivial, isSpelled_ofText h⟩, ⟨trivial, .bool _⟩,
    ⟨trivial, htype⟩, List.forall_mem_nil _⟩

theorem RequestBody.isSpelled_toJson {ps : List Parameter} {r : RequestBody}
    (hps : ∀ p ∈ ps, IsSpelledText p.description) (h : RequestBody.ofParameters? ps = some r) :
    IsSpelled r.toJson := by
  obtain ⟨p, rest, rfl⟩ : ∃ p rest, ps = p :: rest := by
    cases ps with
    | nil => cases h
    | cons p rest => exact ⟨p, rest, rfl⟩
  obtain rfl := Option.some.inj h
  have hproperties : IsSpelled (.obj ((Table.ofFirst ((p :: rest).map fun p => (p.name, p))).map
      fun p => (.plain p.1, .obj (typeObject p.2.type ++
        [(.plain "description", .ofText p.2.description)])))) := by
    refine isSpelled_obj (nodup_plain_keys Table.nodup_keys_ofFirst fun p : Parameter =>
      .obj (typeObject p.type ++ [(.plain "description", .ofText p.description)]))
      (List.forall_mem_map.2 fun q hq => ⟨trivial, ?_⟩)
    obtain ⟨p', hp', rfl⟩ := List.mem_map.1 (Table.mem_ofFirst hq)
    exact isSpelled_obj (by simp [typeObject]) (List.forall_mem_append.2
      ⟨isSpelled_typeObject _, List.forall_mem_singleton.2
        ⟨trivial, isSpelled_ofText (hps _ hp')⟩⟩)
  have hschema : IsSpelled (.obj [("type", .str "object"), ("properties", _)]) :=
    isSpelled_obj (by simp) (List.forall_mem_cons.2
      ⟨⟨trivial, .str _⟩, List.forall_mem_singleton.2 ⟨trivial, hproperties⟩⟩)
  refine isSpelled_obj (by simp) ?_
  simp only [List.forall_mem_cons]
  exact ⟨⟨trivial, isSpelled_ofText (hps p List.mem_cons_self)⟩, ⟨trivial, .bool _⟩,
    ⟨trivial, isSpelled_singleton (isSpelled_singleton hschema)⟩, List.forall_mem_nil _⟩

theorem nodup_keys_operation (o : Operation) (v : Json) :
    ((o.headFields ++ [(RawText.plain "responses", v)]).map Prod.fst).Nodup := by
  unfold Operation.headFields
  cases o.parameters.isEmpty <;> cases o.body <;> simp

theorem Operation.isSpelled_toJson {e : Endpoint} (htexts : ∀ t ∈ e.texts, IsSpelledText t)
    (h : ∀ r ∈ e.responses, r.IsSpelled) : IsSpelled (Operation.ofEndpoint e).toJson := by
  simp only [Endpoint.texts, List.forall_mem_cons, List.forall_mem_append,
    List.forall_mem_map] at htexts
  obtain ⟨-, hdescription, hparameters, hresponses⟩ := htexts
  refine isSpelled_obj (nodup_keys_operation _ _) ?_
  rw [List.forall_mem_append, List.forall_mem_singleton]
  refine ⟨?_, trivial, isSpelled_responses hresponses h⟩
  intro f hf
  simp only [Operation.headFields, List.mem_append] at hf
  rcases hf with (hf | hf) | hf
  · rcases List.mem_pair.1 hf with rfl | rfl <;> exact ⟨trivial, isSpelled_ofText hdescription⟩
  · split at hf
    · cases hf
    · rw [List.mem_singleton.1 hf]
      refine ⟨trivial, isSpelled_map fun q hq => ?_⟩
      obtain ⟨p, hp, rfl⟩ := List.mem_map.1 hq
      exact ParameterEntry.isSpelled_toJson (hparameters p (List.mem_filter.1 hp).1)
  · split at hf
    · next r hr =>
      rw [List.mem_singleton.1 hf]
      exact ⟨trivial, RequestBody.isSpelled_toJson
        (fun p hp => hparameters p (List.mem_filter.1 hp).1) hr⟩
    · cases hf

/-- A path that free text can spell is one in a document too. -/
theorem isSpelledText_relativePath {path : RawText} (h : IsSpelledText path) :
    IsSpelledText (path.rewrite relativePath) := by
  obtain ⟨cut, put, kept, hpath, hrelative, hcut, hput⟩ := symbols_relativePath path
  cases path with
  | plain s => trivial
  | broken symbols =>
    obtain ⟨⟨s, hs⟩, hapart⟩ := h
    change Json.AreBroken (RawText.rewrite relativePath (.broken symbols)).symbols
    change symbols = _ at hpath
    rw [hpath] at hs hapart
    rw [hrelative]
    have hkept : Symbol.half s ∈ kept := by simpa using hs
    have hchain := (List.isChain_append.1 hapart).2.1
    refine ⟨⟨s, List.mem_append_right _ hkept⟩, ?_⟩
    rcases hput with rfl | rfl
    · exact hchain
    · exact List.isChain_cons.2 ⟨fun _ _ hhigh => absurd hhigh.1 (by decide), hchain⟩

theorem isSpelled_infoJson {title description version : Json} (htitle : IsSpelled title)
    (hdescription : IsSpelled description) (hversion : IsSpelled version) :
    IsSpelled (infoJson title description version) := by
  refine isSpelled_obj (by simp) ?_
  simp only [List.forall_mem_cons]
  exact ⟨⟨trivial, htitle⟩, ⟨trivial, hdescription⟩, ⟨trivial, hversion⟩, List.forall_mem_nil _⟩

theorem isSpelled_serversJson : IsSpelled serversJson :=
  .arr (List.forall_mem_singleton.2 (isSpelled_singleton (.str _)))

/-- The complete document of a model is a value that free text can spell, if the texts and schemas
of the model are. -/
theorem isSpelled_document {b : Backend} (htexts : ∀ t ∈ b.texts, IsSpelledText t)
    (h : ∀ r ∈ b.responses, r.IsSpelled) : IsSpelled (Document.ofBackend b).toJson := by
  have hentered : Entered b.endpoints (Document.ofBackend b).paths := entered_foldl b.endpoints
  simp only [Backend.texts, List.forall_mem_cons, List.forall_mem_append,
    List.forall_mem_flatMap] at htexts
  obtain ⟨-, hdescription, hversion, -, hends⟩ := htexts
  have hpath {path : RawText} {operations : List (Method × Operation)}
      (hmem : (path, operations) ∈ (Document.ofBackend b).paths) :
      IsSpelled (pathJson operations) := by
    refine isSpelled_obj ?_ (List.forall_mem_map.2 fun q hq => ⟨trivial, ?_⟩)
    · have hinjective : Function.Injective fun m : Method => RawText.plain m.lowerName :=
        fun _ _ h => lowerName_injective (RawText.plain.inj h)
      have hnodup := (hentered.nodup_methods _ hmem).map hinjective
      rwa [List.map_map] at hnodup ⊢
    · obtain ⟨m, o⟩ := q
      obtain ⟨e, he, rfl⟩ := hentered.mem_iff.1 ⟨operations, hmem, hq⟩
      exact Operation.isSpelled_toJson (hends e he.mem) fun r hr =>
        h r (Backend.mem_responses_of_endpoint he.mem hr)
  have hpaths :
      IsSpelled (.obj ((Document.ofBackend b).paths.map fun p => (p.1, pathJson p.2))) := by
    refine isSpelled_obj ?_ (List.forall_mem_map.2 fun p hp => ⟨?_, hpath hp⟩)
    · rw [List.map_map]
      exact hentered.nodup
    · have hmem : p.1 ∈ (b.endpoints.foldl enter []).map Prod.fst := List.mem_map_of_mem hp
      rw [keys_paths, List.mem_eraseDups] at hmem
      obtain ⟨e, he, hpath⟩ := List.mem_map.1 hmem
      exact hpath ▸ isSpelledText_relativePath (hends e he _ List.mem_cons_self)
  refine isSpelled_obj (by simp) ?_
  simp only [List.forall_mem_cons]
  exact ⟨⟨trivial, .str _⟩, ⟨trivial, isSpelled_infoJson (.str _) (isSpelled_ofText hdescription)
    (isSpelled_ofText hversion)⟩, ⟨trivial, isSpelled_serversJson⟩, ⟨trivial, hpaths⟩,
    ⟨trivial, isSpelled_singleton (isSpelled_obj List.nodup_nil (List.forall_mem_nil _))⟩,
    List.forall_mem_nil _⟩

/-- The document of a model is a value that free text can spell, if the texts and schemas of the
model are. -/
theorem isSpelled_project {b : Backend} (htexts : ∀ t ∈ b.texts, IsSpelledText t)
    (h : ∀ r ∈ b.responses, r.IsSpelled) : IsSpelled (project b).toJson := by
  by_cases hshort : b.HasShortStatuses
  · rw [project_eq_complete.2 ⟨hshort, rfl⟩]
    exact isSpelled_document htexts h
  · simp only [Backend.texts, List.forall_mem_cons] at htexts
    have horElse {v : Json} (hv : IsSpelled v) (default : String) :
        IsSpelled (if v.isFalsy then .str default else v) := by
      split
      · exact .str _
      · exact hv
    rw [project_eq_minimal hshort]
    refine isSpelled_obj (by simp) ?_
    simp only [List.forall_mem_cons]
    exact ⟨⟨trivial, .str _⟩, ⟨trivial, isSpelled_infoJson (horElse (.str _) _) (.str _)
      (horElse (isSpelled_ofText htexts.2.2.1) _)⟩, ⟨trivial, isSpelled_serversJson⟩,
      ⟨trivial, isSpelled_obj List.nodup_nil (List.forall_mem_nil _)⟩, List.forall_mem_nil _⟩

/-! ## The nodes of a document -/

open Nanoservice.Yaml (Anchors entryValues? value?_ofJson entryValues?_ofFields
  entryValues?_append)

/-- The anchors behind some operations: the one of the default response, once it occurred. -/
def shared (seen : Bool) : Anchors :=
  if seen then [(sharedAnchor, standardResponse)] else []

/-- The node of the default response where it occurred before, or where it did not. -/
def sharedTree (seen : Bool) : Yaml.Tree :=
  if seen then .named sharedAnchor else anchoredResponse

/-- The default response means the same at its first place and elsewhere. -/
theorem value?_sharedTree (seen : Bool) :
    (sharedTree seen).value? (shared seen) = some (standardResponse, shared true) := by
  cases seen <;> rfl

theorem fields_of_isSpelled {fs : List (RawText × Json)} (h : IsSpelled (.obj fs)) :
    (fs.map Prod.fst).Nodup ∧ (∀ f ∈ fs, IsSpelledText f.1) ∧ ∀ f ∈ fs, IsSpelled f.2 := by
  cases h with
  | obj hkeys htexts hfields => exact ⟨hkeys, htexts, hfields⟩

/-- The entries of fields that free text can spell mean the fields. -/
theorem entryValues?_of_isSpelled {fs : List (RawText × Json)}
    (htexts : ∀ f ∈ fs, IsSpelledText f.1) (hfields : ∀ f ∈ fs, IsSpelled f.2) (anchors : Anchors) :
    entryValues? anchors (Yaml.Tree.ofFields fs) = some (fs, anchors) :=
  entryValues?_ofFields htexts fun f hf => value?_ofJson (hfields f hf) anchors

/-- An operation means its JSON value. -/
theorem value?_toTree {o : Operation} (ho : IsSpelled o.toJson) (seen : Bool) :
    (o.toTree (sharedTree seen)).value? (shared seen) =
      some (o.toJson, shared (seen || o.isStandard)) := by
  obtain ⟨hkeys, htexts, hfields⟩ := fields_of_isSpelled ho
  rw [List.forall_mem_append, List.forall_mem_singleton] at htexts hfields
  have hhead : entryValues? (shared seen) (Yaml.Tree.ofFields o.headFields) =
      some (o.headFields, shared seen) := entryValues?_of_isSpelled htexts.1 hfields.1 _
  -- the node of the responses is an anchor's or an alias's only where they are the default
  have hoperation {node : Yaml.Tree} {seen' : Bool}
      (htree : o.toTree (sharedTree seen) =
        .map (Yaml.Tree.ofFields o.headFields ++ [(.plain "responses", node)]))
      (hnode : node.value? (shared seen) = some (o.responses.toJson, shared seen')) :
      (o.toTree (sharedTree seen)).value? (shared seen) = some (o.toJson, shared seen') := by
    have hresponses : entryValues? (shared seen) [(.plain "responses", node)] =
        some ([(.plain "responses", o.responses.toJson)], shared seen') := by
      simp only [entryValues?, hnode, Option.map_some, RawText.ofSymbols_symbols_plain]
    rw [htree, Yaml.Tree.value?, entryValues?_append hhead hresponses]
    simp only [Option.map_some, Table.ofLast_eq_self hkeys]
    rfl
  cases hr : o.responses with
  | standard =>
    have hstandard : o.isStandard = true := by simp [Operation.isStandard, hr]
    rw [hstandard, Bool.or_true]
    have htree : o.toTree (sharedTree seen) = .map (Yaml.Tree.ofFields o.headFields ++
        [(.plain "responses", .map [(.plain "200", sharedTree seen)])]) := by
      simp only [Operation.toTree, hr]
    refine hoperation htree ?_
    simp only [Yaml.Tree.value?, entryValues?, value?_sharedTree, Option.map_some, hr,
      RawText.ofSymbols_symbols_plain]
    rfl
  | declared table =>
    have hdeclared : o.isStandard = false := by simp [Operation.isStandard, hr]
    rw [hdeclared, Bool.or_false]
    exact hoperation (by simp only [Operation.toTree, hr]) (value?_ofJson hfields.2 _)

/-- The operations of a path mean their JSON values. -/
theorem entryValues?_operationTrees {operations : List (Method × Operation)}
    (h : ∀ q ∈ operations, IsSpelled q.2.toJson) (seen : Bool) :
    entryValues? (shared seen) (operationTrees seen operations).1 =
      some (operations.map fun (m, o) => (.plain m.lowerName, o.toJson),
        shared (operationTrees seen operations).2) := by
  induction operations generalizing seen with
  | nil => rfl
  | cons q operations ih =>
    obtain ⟨m, o⟩ := q
    rw [List.forall_mem_cons] at h
    have ih := ih h.2 (seen || o.isStandard)
    have ho := value?_toTree h.1 seen
    simp only [operationTrees]
    simp only [sharedTree] at ho
    simp only [entryValues?, ho, ih, Option.map_some, List.map_cons,
      RawText.ofSymbols_symbols_plain]

/-- The paths mean their JSON values. -/
theorem exists_entryValues?_pathTrees {paths : List (RawText × List (Method × Operation))}
    (htexts : ∀ p ∈ paths, IsSpelledText p.1) (h : ∀ p ∈ paths, IsSpelled (pathJson p.2))
    (seen : Bool) :
    ∃ seen', entryValues? (shared seen) (pathTrees seen paths) =
      some (paths.map fun (path, operations) => (path, pathJson operations), shared seen') := by
  induction paths generalizing seen with
  | nil => exact ⟨seen, rfl⟩
  | cons p paths ih =>
    obtain ⟨path, operations⟩ := p
    rw [List.forall_mem_cons] at h htexts
    obtain ⟨hkeys, -, hoperations⟩ := fields_of_isSpelled h.1
    have hfirst := entryValues?_operationTrees
      (fun q hq => hoperations (.plain q.1.lowerName, q.2.toJson) (List.mem_map_of_mem hq)) seen
    obtain ⟨seen', hmore⟩ := ih htexts.2 h.2 (operationTrees seen operations).2
    refine ⟨seen', ?_⟩
    simp only [pathTrees, entryValues?, Yaml.Tree.value?, hfirst, hmore, Option.map_some,
      Table.ofLast_eq_self hkeys, List.map_cons, htexts.1.ofSymbols_symbols]
    rfl

theorem ofFields_eq_map (fs : List (RawText × Json)) :
    Yaml.Tree.ofFields fs = fs.map fun (key, v) => (key, Yaml.Tree.ofJson v) := by
  induction fs with
  | nil => rfl
  | cons f fs ih => rw [Yaml.Tree.ofFields, List.map_cons, ih]

/-- The node of the paths means their JSON value, shared or not. -/
theorem exists_value?_pathsTree {d : Document} (hd : IsSpelled d.toJson) :
    ∃ anchors, d.pathsTree.value? [] = some
      (.obj (d.paths.map fun (path, operations) => (path, pathJson operations)), anchors) := by
  have hpaths : IsSpelled
      (.obj (d.paths.map fun (path, operations) => (path, pathJson operations))) :=
    (fields_of_isSpelled hd).2.2 (.plain "paths", _) (by simp)
  obtain ⟨hkeys, htexts, hfields⟩ := fields_of_isSpelled hpaths
  unfold Document.pathsTree
  split
  · obtain ⟨seen, hseen⟩ := exists_entryValues?_pathTrees
      (fun p hp => htexts (p.1, pathJson p.2) (List.mem_map_of_mem hp))
      (fun p hp => hfields (p.1, pathJson p.2) (List.mem_map_of_mem hp)) false
    refine ⟨shared seen, ?_⟩
    have hstart : shared false = [] := rfl
    rw [hstart] at hseen
    simp only [Yaml.Tree.value?, hseen, Option.map_some, Table.ofLast_eq_self hkeys]
  · refine ⟨[], ?_⟩
    have hvalue := value?_ofJson hpaths []
    rw [Yaml.Tree.ofJson, ofFields_eq_map, List.map_map] at hvalue
    exact hvalue

/-- The entries of a complete document's root mean its JSON value. -/
theorem exists_entryValues?_nodes {d : Document} (hd : IsSpelled d.toJson) :
    ∃ anchors, entryValues? [] d.nodes = some (d.toJson.fields, anchors) := by
  obtain ⟨anchors, hpaths⟩ := exists_value?_pathsTree hd
  obtain ⟨-, -, hfields⟩ := fields_of_isSpelled hd
  simp only [List.forall_mem_cons] at hfields
  obtain ⟨hversion, hinfo, hservers, -, hcomponents, -⟩ := hfields
  have hnodes : d.nodes = [(.plain "openapi", Yaml.Tree.ofJson (.str formatVersion)),
      (.plain "info", Yaml.Tree.ofJson
        (infoJson (.str d.title) (.ofText d.description) (.ofText d.version))),
      (.plain "servers", Yaml.Tree.ofJson serversJson), (.plain "paths", d.pathsTree),
      (.plain "components", Yaml.Tree.ofJson (.obj [(.plain "schemas", .obj [])]))] := rfl
  refine ⟨anchors, ?_⟩
  rw [hnodes]
  simp only [entryValues?, value?_ofJson hversion, value?_ofJson hinfo, value?_ofJson hservers,
    hpaths, value?_ofJson hcomponents, Option.map_some, RawText.ofSymbols_symbols_plain]
  rfl

/-- The entries of a projection's root mean its JSON value. -/
theorem Projection.exists_entryValues?_nodes {p : Projection} (hp : IsSpelled p.toJson) :
    ∃ anchors, entryValues? [] p.nodes = some (p.toJson.fields, anchors) := by
  cases p with
  | complete d => exact OpenApi.exists_entryValues?_nodes hp
  | minimal title version =>
    obtain ⟨-, htexts, hfields⟩ := fields_of_isSpelled hp
    exact ⟨[], entryValues?_of_isSpelled htexts hfields []⟩

/-- The JSON value of a projection is an object with a field under each key. -/
theorem Projection.toJson_eq (p : Projection) : p.toJson = .obj p.toJson.fields := by
  cases p <;> rfl

/-! ## Loading a document -/

/-- Each text and each key of a document is read back from its YAML text. -/
def Projection.isLegible (p : Projection) : Bool :=
  Yaml.areLegibleEntries 0 p.nodes

/-- The YAML text of a model's document loads as the document, and so does its JSON text, if each
text and each key of the document is read back from where it stands in the YAML text. -/
theorem load_yaml {b : Backend} (htexts : ∀ t ∈ b.texts, IsSpelledText t)
    (hschemas : ∀ r ∈ b.responses, r.IsSpelled) (hlegible : (project b).isLegible = true) :
    Yaml.load (project b).yaml = some (project b).toJson ∧
      Json.read (project b).json = .ok (project b).toJson := by
  have hd := isSpelled_project htexts hschemas
  obtain ⟨anchors, hnodes⟩ := (project b).exists_entryValues?_nodes hd
  refine ⟨?_, Json.read_write_spread 2 hd⟩
  rw [(project b).toJson_eq] at hd
  rw [Projection.yaml, Yaml.load_document hnodes hlegible,
    Table.ofLast_eq_self (fields_of_isSpelled hd).1, ← (project b).toJson_eq]

/-- A model whose texts look like numbers, truth values and null, span lines, and hold quotes,
letters beyond ASCII and half of a surrogate pair. Two of its operations share the default response.
-/
def awkward : Backend :=
  ⟨"0", "1.0", "first: 'a'\n\n  # \"\u00fc\"\u2028", "2.10", [], [],
    [⟨"/api/items", .get, "yes", [], []⟩, ⟨"/items", .post, "12", [], []⟩,
      ⟨"/x", .get, .broken [.char 'h', .half ⟨0xD83D, by decide⟩], [],
        [⟨200, "null", some [("max", .arr [.int 200, .str "200", .str "~"])]⟩]⟩]⟩

theorem texts_awkward : ∀ t ∈ awkward.texts, IsSpelledText t := by
  have hbroken : Json.AreBroken [.char 'h', .half ⟨0xD83D, by decide⟩] :=
    ⟨⟨_, List.mem_cons_of_mem _ List.mem_cons_self⟩, by simp [Json.isHigh]⟩
  simp only [Backend.texts, awkward, Endpoint.texts, List.forall_mem_cons, List.forall_mem_append,
    List.forall_mem_flatMap, List.map_nil, List.map_cons, List.not_mem_nil, false_imp_iff,
    implies_true, and_true, true_and, IsSpelledText]
  exact hbroken

theorem responses_awkward : ∀ r ∈ awkward.responses, r.IsSpelled := by
  have hint : (200 : Int).natAbs < 10 ^ Text.maxIntegerDigits :=
    Text.natAbs_lt_of_word (by decide)
  have hvalues : IsSpelled (.arr [.int 200, .str "200", .str "~"]) := by
    refine .arr ?_
    simp only [List.forall_mem_cons]
    exact ⟨.int hint, .str _, .str _, List.forall_mem_nil _⟩
  intro r hr fs hfs
  obtain rfl : r = ⟨200, "null", some [("max", .arr [.int 200, .str "200", .str "~"])]⟩ := by
    simpa [Backend.responses, awkward] using hr
  obtain rfl := Option.some.inj hfs
  exact isSpelled_singleton hvalues

theorem hasShortStatuses_awkward : awkward.HasShortStatuses := by
  have hstatus : (200 : Int).natAbs < 10 ^ Text.maxIntegerDigits :=
    Text.natAbs_lt_of_word (by decide)
  simpa [Backend.HasShortStatuses, Endpoint.HasShortStatuses, awkward] using hstatus

theorem load_yaml_awkward :
    (∀ t ∈ awkward.texts, IsSpelledText t) ∧ (∀ r ∈ awkward.responses, r.IsSpelled) ∧
      (project awkward).isLegible = true ∧
      Yaml.load (project awkward).yaml = some (project awkward).toJson ∧
      Json.read (project awkward).json = .ok (project awkward).toJson := by
  have hproject := project_eq_complete.2 ⟨hasShortStatuses_awkward, rfl⟩
  have hlegible : (project awkward).isLegible = true := by
    rw [hproject]
    decide +kernel
  exact ⟨texts_awkward, responses_awkward, hlegible,
    load_yaml texts_awkward responses_awkward hlegible⟩

/-! ## A document that is loaded as another one -/

/-- A candidate whose description holds a next-line character. -/
def nextLine : Candidate.Fields :=
  [("name", .str "s"), ("description", .str "a\u0085b"), ("workflows", .arr [])]

/-- The candidate is accepted, and its document is loaded as that of a model with a blank in place
of the next-line character. -/
theorem load_nextLine : ∃ b, Candidate.validate "0" (.obj nextLine) = .ok b ∧ b.responses = [] ∧
    Yaml.load (project b).yaml ≠ some (project b).toJson ∧
    (Yaml.load (project b).yaml).map (·.write (.spread 2)) =
      some (project { b with description := "a b" }).json := by
  let b : Backend := ⟨"0", "s", "a\u0085b", "0.1.0", [], [], []⟩
  have hvalid : Candidate.validate "0" (.obj nextLine) = .ok b := by
    refine Candidate.validate_eq_ok.2 ⟨_, rfl, by cbv, rfl, ?_, by cbv⟩
    exact rfl
  have hload : (Yaml.load (project b).yaml).map (·.write (.spread 2)) =
      some (project { b with description := "a b" }).json := by
    rw [Projection.yaml, Yaml.document, Yaml.load, String.toList_ofList]
    · decide +kernel
    · exact fun h => by cases h
  refine ⟨b, hvalid, rfl, fun hsame => ?_, hload⟩
  -- the two models would have one JSON text, and so one description
  rw [hsame, Option.map_some, Option.some.injEq] at hload
  have hspelled (description : String) :
      IsSpelled (project { b with description := description }).toJson :=
    isSpelled_project (by simp [Backend.texts, b, IsSpelledText]) (List.forall_mem_nil _)
  have hread := Json.read_write_spread 2 (hspelled "a\u0085b")
  rw [hload, Projection.json, Json.read_write_spread 2 (hspelled "a b"), Except.ok.injEq] at hread
  simp [project, Projection.toJson, Document.toJson, Document.ofBackend, infoJson, b,
    Json.ofText] at hread

end OpenApi

end Nanoservice
