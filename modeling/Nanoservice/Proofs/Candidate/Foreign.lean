import Mathlib.Data.List.Forall2
import Nanoservice.Proofs.Generation.Assembly

/-!
# Foreign keys

Each part of a candidate declares the keys that it is read from, the second names of keys included;
every other key is foreign to it. `validate_added` says that foreign keys are inert: wherever they
are added to the objects that stand for parts of a candidate, the validation comes to the same
model or to the same refusal. To a candidate as a whole the key of the identity is foreign too, so
a reply has no say in the identity of the model.

What foreign keys may be added to is the relation `Part` of two values, given the keys that a part
declares and what becomes of the values under them. A rule that reads parts does not tell related
values apart (the `ofJson_added` lemmas, from the innermost part outwards), and neither do the
checks that come before the reading. An object that stands where no part is read from one, in the
place of a list, a name or a reference, declares no keys and stays as it is: an empty object in the
place of the node list counts as absent, and any other does not.
-/

namespace Nanoservice

namespace Foreign

open Candidate (Fields)

/-! ## Adding keys -/

/-- The keys that a part declares, each with how its value may change. -/
abbrev Declared : Type := List (RawText × (Json → Json → Prop))

/-- Keys that are not declared are added to the fields of an object, anywhere among them. Under a
declared key a value changes as the key allows; what stands under a foreign key may change at
will. -/
inductive Adds (declared : Declared) : Fields → Fields → Prop where
  | nil : Adds declared [] []
  | add {key : RawText} {v : Json} {fs fs' : Fields} (hkey : declared.lookup key = none) :
    Adds declared fs fs' → Adds declared fs ((key, v) :: fs')
  | keep {key : RawText} {v v' : Json} {fs fs' : Fields}
    (hvalue : ∀ change, declared.lookup key = some change → change v v') :
    Adds declared fs fs' → Adds declared ((key, v) :: fs) ((key, v') :: fs')

/-- A value in the place of a part: foreign keys are added to an object, and a value that is no
object stays. -/
inductive Part (declared : Declared) : Json → Json → Prop where
  | object {fs fs' : Fields} (h : Adds declared fs fs') : Part declared (.obj fs) (.obj fs')
  | other {v : Json} (h : ∀ fs, v ≠ .obj fs) : Part declared v v

/-- A value in the place of a list: its items change one by one, and a value that is no list
stays. -/
inductive Items (change : Json → Json → Prop) : Json → Json → Prop where
  | list {vs vs' : List Json} (h : List.Forall₂ change vs vs') : Items change (.arr vs) (.arr vs')
  | other {v : Json} (h : ∀ vs, v ≠ .arr vs) : Items change v v

end Foreign

open Foreign

/-! ### The keys of each part -/

def Field.declared : Declared :=
  [("name", Eq), ("type", Eq), ("description", Eq)]

def Node.declared : Declared :=
  [("name", Eq), ("type", Eq), ("description", Eq), ("inputs", Items (Part Field.declared)),
    ("outputs", Items (Part Field.declared))]

def Parameter.declared : Declared :=
  [("name", Eq), ("in", Eq), ("location", Eq), ("required", Eq), ("type", Eq), ("description", Eq)]

/-- The keys of a response; no key is added inside its schema. -/
def Response.declared : Declared :=
  [("status", Eq), ("description", Eq), ("schema", Eq), ("schema_", Eq)]

def Endpoint.declared : Declared :=
  [("path", Eq), ("method", Eq), ("description", Eq),
    ("parameters", Items (Part Parameter.declared)), ("responses", Items (Part Response.declared))]

def Workflow.declared : Declared :=
  [("name", Eq), ("description", Eq), ("nodes", Eq), ("endpoints", Items (Part Endpoint.declared))]

/-- The keys of a candidate. -/
def Candidate.declared : Declared :=
  [("name", Eq), ("description", Eq), ("version", Eq), ("nodes", Items (Part Node.declared)),
    ("workflows", Items (Part Workflow.declared)), ("endpoints", Items (Part Endpoint.declared))]

/-- The keys of a model, which has an identity besides. -/
def Backend.declared : Declared :=
  ("id", Eq) :: Candidate.declared

namespace Foreign

open Reading Candidate

variable {α : Type} {declared : Declared} {fs fs' : Fields} {v v' : Json} {key : RawText}
  {change : Json → Json → Prop}

/-! ### Adding nothing -/

theorem Adds.refl (hrefl : ∀ p ∈ declared, ∀ v, p.2 v v) (fs : Fields) : Adds declared fs fs := by
  induction fs with
  | nil => exact .nil
  | cons f fs ih =>
    refine .keep (fun change hchange => ?_) ih
    obtain ⟨before, after, hmem, -⟩ := List.lookup_eq_some_iff.1 hchange
    exact hrefl (f.1, change) (by simp [hmem]) f.2

theorem Part.refl (hrefl : ∀ p ∈ declared, ∀ v, p.2 v v) (v : Json) : Part declared v v := by
  cases v with
  | obj fs => exact .object (.refl hrefl fs)
  | null | bool | int | float | str | broken | arr => exact .other nofun

theorem Items.refl (hrefl : ∀ v, change v v) (v : Json) : Items change v v := by
  cases v with
  | arr vs => exact .list (List.forall₂_same.2 fun v _ => hrefl v)
  | null | bool | int | float | str | broken | obj => exact .other nofun

/-! ## Reading -/

/-- Under a declared key both objects have values that belong together, or neither has one. -/
theorem Adds.lookup (h : Adds declared fs fs') (key : RawText)
    (hkey : declared.lookup key = some change) :
    Option.Rel change (fs.lookup key) (fs'.lookup key) := by
  induction h with
  | nil => exact .none
  | @add k v fs fs' hk _ ih =>
    have hne : (key == k) = false := by
      rw [beq_eq_false_iff_ne]
      rintro rfl
      rw [hk] at hkey
      cases hkey
    rw [List.lookup_cons, hne]
    exact ih
  | @keep k v v' fs fs' hv _ ih =>
    rw [List.lookup_cons, List.lookup_cons]
    cases hk : key == k with
    | true =>
      obtain rfl := beq_iff_eq.1 hk
      exact .some (hv change hkey)
    | false => exact ih

/-- A declared key stays. -/
theorem Adds.keepKey (hkey : declared.lookup key = some change) (hv : change v v')
    (h : Adds declared fs fs') : Adds declared ((key, v) :: fs) ((key, v') :: fs') := by
  refine .keep (fun change' hchange => ?_) h
  obtain rfl := Option.some.inj (hkey.symm.trans hchange)
  exact hv

theorem Adds.lookup_eq (h : Adds declared fs fs') (key : RawText)
    (hkey : declared.lookup key = some Eq) : fs'.lookup key = fs.lookup key := by
  have hvalues := h.lookup key hkey
  generalize fs.lookup key = value, fs'.lookup key = value' at hvalues
  cases hvalues with
  | some hv => rw [hv]
  | none => rfl

theorem Adds.mandatory {rule : Json → Reading α} (h : Adds declared fs fs') (key : String)
    (hkey : declared.lookup (.plain key) = some Eq) :
    Reading.mandatory rule key fs' = Reading.mandatory rule key fs := by
  simp only [Reading.mandatory, h.lookup_eq _ hkey]

theorem Adds.optional {rule : Json → Reading α} {default : α} (h : Adds declared fs fs')
    (key : String) (hkey : declared.lookup (.plain key) = some Eq) :
    Reading.optional rule default key fs' = Reading.optional rule default key fs := by
  simp only [Reading.optional, h.lookup_eq _ hkey]

/-- An object uses the same one of two declared keys. -/
theorem Adds.usedKey (h : Adds declared fs fs') (key second : String)
    (hkey : declared.lookup (.plain key) = some Eq)
    (hsecond : declared.lookup (.plain second) = some Eq) :
    Reading.usedKey key second fs' = Reading.usedKey key second fs := by
  simp only [Reading.usedKey, h.lookup_eq _ hkey, h.lookup_eq _ hsecond]

theorem lookup_usedKey {key second : String} (fs : Fields)
    (hkey : declared.lookup (.plain key) = some change)
    (hsecond : declared.lookup (.plain second) = some change) :
    declared.lookup (.plain (usedKey key second fs)) = some change := by
  unfold usedKey
  split
  · exact hsecond
  · exact hkey

/-- A rule that does not tell items apart does not tell their lists apart. -/
theorem items_congr {rule : Json → Reading α} {vs vs' : List Json} {start : Nat}
    (h : List.Forall₂ change vs vs') (hrule : ∀ v v', change v v' → rule v' = rule v) :
    items rule start vs' = items rule start vs := by
  induction h generalizing start with
  | nil => rfl
  | cons hv _ ih => rw [items, items, hrule _ _ hv, ih]

theorem list_congr {rule : Json → Reading α} (h : Items change v v')
    (hrule : ∀ v v', change v v' → rule v' = rule v) : list rule v' = list rule v := by
  cases h with
  | list h => exact items_congr h hrule
  | other => rfl

theorem Adds.list {rule : Json → Reading α} {default : List α} (h : Adds declared fs fs')
    (key : String) (hkey : declared.lookup (.plain key) = some (Items change))
    (hrule : ∀ v v', change v v' → rule v' = rule v) :
    Reading.optional (Reading.list rule) default key fs' =
      Reading.optional (Reading.list rule) default key fs := by
  have hvalues := h.lookup _ hkey
  unfold Reading.optional
  generalize fs.lookup (.plain key) = value, fs'.lookup (.plain key) = value' at hvalues
  cases hvalues with
  | some hv => simp only [list_congr hv hrule]
  | none => rfl

theorem part_congr {kind : String} {read : Fields → Reading α} (h : Part declared v v')
    (hread : ∀ fs fs', Adds declared fs fs' → read fs' = read fs) :
    part kind read v' = part kind read v := by
  cases h with
  | object h => exact hread _ _ h
  | other => rfl

end Foreign

/-! ### The parts -/

theorem Field.ofJson_added (v v' : Json) (h : Part declared v v') : ofJson v' = ofJson v := by
  refine part_congr h fun fs fs' h => ?_
  rw [h.mandatory "name" rfl, h.optional "type" rfl, h.optional "description" rfl]

theorem Node.ofJson_added (v v' : Json) (h : Part declared v v') : ofJson v' = ofJson v := by
  refine part_congr h fun fs fs' h => ?_
  rw [h.mandatory "name" rfl, h.mandatory "type" rfl, h.optional "description" rfl,
    h.list "inputs" rfl Field.ofJson_added, h.list "outputs" rfl Field.ofJson_added]

theorem Parameter.ofJson_added (v v' : Json) (h : Part declared v v') : ofJson v' = ofJson v := by
  refine part_congr h fun fs fs' h => ?_
  have hlocation : declared.lookup (.plain (Reading.usedKey "in" "location" fs)) = some Eq :=
    lookup_usedKey fs rfl rfl
  rw [h.mandatory "name" rfl, h.usedKey "in" "location" rfl rfl, h.mandatory _ hlocation,
    h.optional "required" rfl, h.optional "type" rfl, h.optional "description" rfl]

theorem Response.ofJson_added (v v' : Json) (h : Part declared v v') : ofJson v' = ofJson v := by
  refine part_congr h fun fs fs' h => ?_
  have hschema : declared.lookup (.plain (Reading.usedKey "schema" "schema_" fs)) = some Eq :=
    lookup_usedKey fs rfl rfl
  rw [h.mandatory "status" rfl, h.optional "description" rfl,
    h.usedKey "schema" "schema_" rfl rfl, h.optional _ hschema]

theorem Endpoint.ofJson_added (v v' : Json) (h : Part declared v v') : ofJson v' = ofJson v := by
  refine part_congr h fun fs fs' h => ?_
  rw [h.mandatory "path" rfl, h.mandatory "method" rfl, h.optional "description" rfl,
    h.list "parameters" rfl Parameter.ofJson_added, h.list "responses" rfl Response.ofJson_added]

theorem Workflow.ofJson_added (v v' : Json) (h : Part declared v v') : ofJson v' = ofJson v := by
  refine part_congr h fun fs fs' h => ?_
  rw [h.mandatory "name" rfl, h.optional "description" rfl, h.optional "nodes" rfl,
    h.list "endpoints" rfl Endpoint.ofJson_added]

theorem Backend.partsOfJson_added (i : String) (v v' : Json) (h : Part declared v v') :
    partsOfJson i v' = partsOfJson i v := by
  refine part_congr h fun fs fs' h => ?_
  rw [h.optional "id" rfl, h.mandatory "name" rfl, h.optional "description" rfl,
    h.optional "version" rfl, h.list "nodes" rfl Node.ofJson_added,
    h.list "workflows" rfl Workflow.ofJson_added, h.list "endpoints" rfl Endpoint.ofJson_added]

namespace Candidate

variable {fs fs' : Fields} {keys : Declared} {change : Json → Json → Prop}

/-! ## Checking -/

/-- The entries of lists whose items change one by one. -/
theorem entries_added {value value' : Option Json} (h : Option.Rel (Items change) value value') :
    List.Forall₂ change ((value.bind Json.items?).getD []) ((value'.bind Json.items?).getD []) := by
  cases h with
  | none => exact .nil
  | @some v v' h =>
    cases h with
    | list h => exact h
    | other h =>
      cases v with
      | arr vs => exact absurd rfl (h vs)
      | null | bool | int | float | str | broken | obj => exact .nil

/-- The objects of a list are those among its entries. -/
theorem objects_eq (value : Option Json) :
    objects value = ((value.bind Json.items?).getD []).filterMap fun v =>
      match v with
      | .obj fs => some fs
      | _ => none := by
  cases value with
  | none => rfl
  | some v => cases v <;> rfl

theorem objects_added {value value' : Option Json}
    (h : Option.Rel (Items (Part keys)) value value') :
    List.Forall₂ (Adds keys) (objects value) (objects value') := by
  rw [objects_eq, objects_eq]
  refine List.rel_filterMap (fun v v' hv => ?_) (entries_added h)
  cases hv with
  | object h => exact .some h
  | other h =>
    cases v with
    | obj fs => exact absurd rfl (h fs)
    | null | bool | int | float | str | broken | arr => exact .none

theorem names_added {parts parts' : List Fields} (h : List.Forall₂ (Adds keys) parts parts')
    (hname : keys.lookup (.plain "name") = some Eq) : names parts' = names parts := by
  induction h with
  | nil => rfl
  | cons hpart _ ih =>
    simp only [names, List.filterMap_cons, hpart.lookup_eq "name" hname] at ih ⊢
    rw [ih]

/-- A check that does not tell parts apart finds the same fault in lists of them. -/
theorem findSome?_added {parts parts' : List Fields} {fault? : Fields → Option Refusal}
    (h : List.Forall₂ (Adds keys) parts parts')
    (hfault : ∀ fs fs', Adds keys fs fs' → fault? fs' = fault? fs) :
    parts'.findSome? fault? = parts.findSome? fault? := by
  induction h with
  | nil => rfl
  | cons hpart _ ih => rw [List.findSome?_cons, List.findSome?_cons, hfault _ _ hpart, ih]

theorem nodesFault?_added (known : List RawText) (fs fs' : Fields)
    (h : Adds Workflow.declared fs fs') : nodesFault? known fs' = nodesFault? known fs := by
  simp only [nodesFault?, h.lookup_eq "name" rfl, h.lookup_eq "nodes" rfl]

theorem endpointFault?_added (fs fs' : Fields) (h : Adds Endpoint.declared fs fs') :
    endpointFault? fs' = endpointFault? fs := by
  simp only [endpointFault?, h.lookup_eq "path" rfl, h.lookup_eq "method" rfl]

theorem hasName_added (h : Adds declared fs fs') : hasName fs' = hasName fs := by
  simp only [hasName, h.lookup_eq "name" rfl]

theorem hasWorkflows_added (h : Adds declared fs fs') : hasWorkflows fs' = hasWorkflows fs := by
  have hvalues := h.lookup (.plain "workflows") rfl
  unfold hasWorkflows
  generalize fs.lookup (.plain "workflows") = value, fs'.lookup (.plain "workflows") = value'
    at hvalues
  cases hvalues with
  | none => rfl
  | some hv => cases hv <;> rfl

/-- The endpoints that the model gets change one by one, wherever they come from. -/
theorem endpoints_added (h : Adds declared fs fs') :
    List.Forall₂ (Part Endpoint.declared) (endpoints fs) (endpoints fs') := by
  have hnested : List.Forall₂ (Part Endpoint.declared)
      ((objects (fs.lookup (.plain "workflows"))).flatMap fun w =>
        ((w.lookup (.plain "endpoints")).bind Json.items?).getD [])
      ((objects (fs'.lookup (.plain "workflows"))).flatMap fun w =>
        ((w.lookup (.plain "endpoints")).bind Json.items?).getD []) :=
    List.rel_flatMap (objects_added (h.lookup (.plain "workflows") rfl)) fun w w' hw =>
      entries_added (hw.lookup (.plain "endpoints") rfl)
  have hvalues := h.lookup (.plain "endpoints") rfl
  unfold endpoints
  generalize fs.lookup (.plain "endpoints") = value, fs'.lookup (.plain "endpoints") = value'
    at hvalues
  cases hvalues with
  | none => exact hnested
  | @some v v' hv =>
    cases hv with
    | list hvs => exact hvs
    | other hv =>
      cases v with
      | arr vs => exact absurd rfl (hv vs)
      | null | bool | int | float | str | broken | obj => exact hnested

theorem fault?_added (h : Adds declared fs fs') : fault? fs' = fault? fs := by
  have hnodes := objects_added (h.lookup (.plain "nodes") rfl)
  have hworkflows := objects_added (h.lookup (.plain "workflows") rfl)
  have hendpoints : List.Forall₂ (Adds Endpoint.declared)
      (objects (some (.arr (endpoints fs))) ++
        (objects (fs.lookup (.plain "workflows"))).flatMap fun w =>
          objects (w.lookup (.plain "endpoints")))
      (objects (some (.arr (endpoints fs'))) ++
        (objects (fs'.lookup (.plain "workflows"))).flatMap fun w =>
          objects (w.lookup (.plain "endpoints"))) :=
    List.rel_append (objects_added (.some (.list (endpoints_added h))))
      (List.rel_flatMap hworkflows fun w w' hw =>
        objects_added (hw.lookup (.plain "endpoints") rfl))
  simp only [fault?, names_added hnodes rfl, names_added hworkflows rfl,
    findSome?_added hworkflows (nodesFault?_added _),
    findSome?_added hendpoints endpointFault?_added]

/-! ## Validating -/

theorem getD_added {value value' : Option Json} (h : Option.Rel (Items change) value value') :
    Items change (value.getD .null) (value'.getD .null) := by
  cases h with
  | some hv => exact hv
  | none => exact .other nofun

/-- The list that stands for an absent value takes the place of both values or of neither. -/
theorem orEmpty_added {v v' : Json} (h : Items change v v') :
    Items change (if v.isFalsy then .arr [] else v) (if v'.isFalsy then .arr [] else v') := by
  cases h with
  | list h =>
    cases h with
    | nil => exact .list .nil
    | cons hv h => exact .list (.cons hv h)
  | other h =>
    split
    · exact .list .nil
    · exact .other h

/-- To the object that is read as a model foreign keys are added as to the candidate. -/
theorem prepared_added (h : Adds declared fs fs') :
    Part Backend.declared (prepared fs) (prepared fs') := by
  have hplain (key : RawText) (hkey : declared.lookup key = some Eq) :
      (fs.lookup key).getD .null = (fs'.lookup key).getD .null := by
    rw [h.lookup_eq _ hkey]
  have hnodes := orEmpty_added (getD_added (h.lookup (.plain "nodes") rfl))
  have hworkflows := getD_added (h.lookup (.plain "workflows") rfl)
  exact .object (.keepKey rfl (hplain "name" rfl) (.keepKey rfl (hplain "description" rfl)
    (.keepKey rfl (hplain "version" rfl) (.keepKey rfl hnodes (.keepKey rfl hworkflows
      (.keepKey rfl (.list (endpoints_added h)) .nil))))))

/-- A validation with the same fresh identity comes to the same. -/
theorem validate_same_added (i : String) {raw raw' : Json} (h : Part declared raw raw') :
    validate i raw' = validate i raw := by
  cases h with
  | other => rfl
  | object h =>
    simp only [validate, hasName_added h, hasWorkflows_added h, fault?_added h, Backend.ofJson,
      Backend.partsOfJson_added i _ _ (prepared_added h)]

/-- Foreign keys are inert: a candidate to whose objects they are added is accepted as the same
model, but for the fresh identity, or refused for the same. The identity of a model is the fresh
one, whatever the candidate says. -/
theorem validate_added (i j : String) {raw raw' : Json} (h : Part declared raw raw') :
    validate j raw' = (validate i raw).map (Backend.withId j) ∧
      ∀ m, validate j raw' = .ok m → m.id = j := by
  constructor
  · rw [validate_same_added j h, validate_fresh i j]
  · exact fun m hm => id_of_validate hm

/-- A candidate with one part of each kind. -/
def catalogue : Json := .obj
  [("name", .str "shop"),
    ("nodes", .arr [.obj [("name", .str "n"), ("type", .str "validator"),
      ("inputs", .arr [.obj [("name", .str "x")]])]]),
    ("workflows", .arr [.obj [("name", .str "w"), ("nodes", .arr [.str "n"]),
      ("endpoints", .arr [.obj [("path", .str "/a"), ("method", .str "GET"),
        ("parameters", .arr [.obj [("name", .str "p"), ("in", .str "query")]]),
        ("responses", .arr [.obj [("status", .int 200)]])]])]])]

/-- The same candidate with an identity, and with a foreign key in a node, an input, an endpoint
and a response. -/
def annotatedCatalogue : Json := .obj
  [("id", .str "mine"), ("name", .str "shop"),
    ("nodes", .arr [.obj [("name", .str "n"), ("color", .str "red"), ("type", .str "validator"),
      ("inputs", .arr [.obj [("name", .str "x"), ("unit", .null)]])]]),
    ("workflows", .arr [.obj [("name", .str "w"), ("nodes", .arr [.str "n"]),
      ("endpoints", .arr [.obj [("tags", .arr []), ("path", .str "/a"), ("method", .str "GET"),
        ("parameters", .arr [.obj [("name", .str "p"), ("in", .str "query")]]),
        ("responses", .arr [.obj [("status", .int 200), ("headers", .obj [])]])]])]])]

theorem validate_added_catalogue :
    ∃ m, validate "0" catalogue = .ok m ∧ validate "1" annotatedCatalogue = .ok (m.withId "1") := by
  have hadded : Part declared catalogue annotatedCatalogue := by
    refine .object (.add rfl (.keepKey rfl rfl (.keepKey rfl (.list (.cons ?node .nil))
      (.keepKey rfl (.list (.cons ?workflow .nil)) .nil))))
    case node =>
      refine .object (.keepKey rfl rfl (.add rfl (.keepKey rfl rfl
        (.keepKey rfl (.list (.cons ?input .nil)) .nil))))
      exact .object (.keepKey rfl rfl (.add rfl .nil))
    case workflow =>
      refine .object (.keepKey rfl rfl (.keepKey rfl rfl
        (.keepKey rfl (.list (.cons ?endpoint .nil)) .nil)))
      refine .object (.add rfl (.keepKey rfl rfl (.keepKey rfl rfl (.keepKey rfl ?parameters
        (.keepKey rfl (.list (.cons ?response .nil)) .nil)))))
      case parameters => exact .refl (.refl (by simp [Parameter.declared])) _
      case response => exact .object (.keepKey rfl rfl (.add rfl .nil))
  obtain ⟨m, hm⟩ : ∃ m, validate "0" catalogue = .ok m := ⟨_, rfl⟩
  have heq := (validate_added "0" "1" hadded).1
  rw [hm] at heq
  exact ⟨m, hm, heq⟩

end Candidate

end Nanoservice
