import Nanoservice.Proofs.Backend.Parts
import Nanoservice.Proofs.Backend.Writable

/-!
# Models that texts can hold

A model is supported when it holds nothing that a persisted text cannot: no integer of more than
4300 digits, no half of a surrogate pair, no object with a key twice, and no more nesting than the
reader takes. The JSON value of such a model is one that the reader can give
(`Backend.isRead_toJson`), and the model can be encoded (`Backend.IsSupported.isEncodable`). Every
model that was read from a value within the reader's limits is supported
(`Backend.isSupported_of_ofJson`). -/

namespace Nanoservice

open Reading
open Text (maxIntegerDigits)

/-- A response whose status and schema the reader of persisted texts can give. -/
structure Response.IsSupported (r : Response) : Prop where
  status : r.status.natAbs < 10 ^ maxIntegerDigits
  schema : ∀ fs, r.schema = some fs → Json.IsRead true (.obj fs)

/-- A model that a persisted text can hold. -/
structure Backend.IsSupported (b : Backend) : Prop where
  texts : ∀ t ∈ b.texts, t.isWhole = true
  responses : ∀ r ∈ b.responses, r.IsSupported
  levels : b.toJson.levels ≤ Json.readableLevels

/-! ## The JSON value of a model -/

/-- An array of encoded items is one that the reader can give when the items are. -/
theorem Json.isRead_arr_map {α : Type} {encode : α → Json} {as : List α}
    (h : ∀ a ∈ as, Json.IsRead true (encode a)) : Json.IsRead true (.arr (as.map encode)) :=
  .arr (List.forall_mem_map.2 h)

/-- A whole text is one that the reader can give. -/
theorem Json.isRead_ofText {t : RawText} (h : t.isWhole = true) : Json.IsRead true (.ofText t) := by
  cases t with
  | plain s => exact .str s
  | broken symbols => cases h

theorem Field.isRead_toJson {f : Field} (h : f.description.isWhole = true) :
    Json.IsRead true f.toJson := by
  refine .obj (by simp) (by simp [Json.IsReadText]) ?_
  simp only [List.forall_mem_cons, List.not_mem_nil, false_imp_iff, implies_true, and_true]
  exact ⟨.str _, .str _, Json.isRead_ofText h⟩

theorem Node.isRead_toJson {n : Node} (h : ∀ t ∈ n.texts, t.isWhole = true) :
    Json.IsRead true n.toJson := by
  simp only [texts, List.forall_mem_cons, List.forall_mem_map, List.forall_mem_append] at h
  obtain ⟨hdescription, hinputs, houtputs⟩ := h
  refine .obj (by simp) (by simp [Json.IsReadText]) ?_
  simp only [List.forall_mem_cons, List.not_mem_nil, false_imp_iff, implies_true, and_true]
  exact ⟨.str _, .str _, Json.isRead_ofText hdescription,
    Json.isRead_arr_map fun f hf => Field.isRead_toJson (hinputs f hf),
    Json.isRead_arr_map fun f hf => Field.isRead_toJson (houtputs f hf)⟩

theorem Parameter.isRead_toJson {p : Parameter} (h : p.description.isWhole = true) :
    Json.IsRead true p.toJson := by
  refine .obj (by simp) (by simp [Json.IsReadText]) ?_
  simp only [List.forall_mem_cons, List.not_mem_nil, false_imp_iff, implies_true, and_true]
  exact ⟨.str _, .str _, .bool _, .str _, Json.isRead_ofText h⟩

/-- The keys of a supported response are whole. -/
theorem Response.IsSupported.hasWholeKeys {r : Response} (h : r.IsSupported) : r.HasWholeKeys :=
  fun fs hfs => (h.schema fs hfs).whole.2.1

theorem Response.isRead_toJson {r : Response} (h : r.IsSupported)
    (htext : r.description.isWhole = true) : Json.IsRead true r.toJson := by
  refine .obj (by simp) (by simp [Json.IsReadText]) ?_
  simp only [List.forall_mem_cons, List.not_mem_nil, false_imp_iff, implies_true, and_true]
  refine ⟨.int h.status, Json.isRead_ofText htext, ?_⟩
  cases hschema : r.schema with
  | none => exact .null
  | some fs =>
    dsimp only
    rw [h.hasWholeKeys.spelledFields hschema]
    exact (h.schema fs hschema).finite

theorem Endpoint.isRead_toJson {e : Endpoint} (h : ∀ r ∈ e.responses, r.IsSupported)
    (htexts : ∀ t ∈ e.texts, t.isWhole = true) : Json.IsRead true e.toJson := by
  simp only [texts, List.forall_mem_cons, List.forall_mem_map, List.forall_mem_append] at htexts
  obtain ⟨hpath, hdescription, hparameters, hresponses⟩ := htexts
  refine .obj (by simp) (by simp [Json.IsReadText]) ?_
  simp only [List.forall_mem_cons, List.not_mem_nil, false_imp_iff, implies_true, and_true]
  exact ⟨Json.isRead_ofText hpath, .str _, Json.isRead_ofText hdescription,
    Json.isRead_arr_map fun p hp => Parameter.isRead_toJson (hparameters p hp),
    Json.isRead_arr_map fun r hr => Response.isRead_toJson (h r hr) (hresponses r hr)⟩

theorem Workflow.isRead_toJson {w : Workflow}
    (h : ∀ e ∈ w.endpoints, ∀ r ∈ e.responses, r.IsSupported)
    (htexts : ∀ t ∈ w.texts, t.isWhole = true) : Json.IsRead true w.toJson := by
  simp only [texts, List.forall_mem_cons, List.forall_mem_flatMap, List.forall_mem_append] at htexts
  obtain ⟨hdescription, hnodes, hendpoints⟩ := htexts
  refine .obj (by simp) (by simp [Json.IsReadText]) ?_
  simp only [List.forall_mem_cons, List.not_mem_nil, false_imp_iff, implies_true, and_true]
  exact ⟨.str _, Json.isRead_ofText hdescription,
    Json.isRead_arr_map fun t ht => Json.isRead_ofText (hnodes t ht),
    Json.isRead_arr_map fun e he => Endpoint.isRead_toJson (h e he) (hendpoints e he)⟩

namespace Backend

/-- The JSON value of a supported model is one that the reader can give. -/
theorem isRead_toJson {b : Backend} (h : b.IsSupported) : Json.IsRead true b.toJson := by
  have htexts := h.texts
  simp only [texts, List.forall_mem_cons, List.forall_mem_flatMap, List.forall_mem_append]
    at htexts
  obtain ⟨hid, hdescription, hversion, ⟨hnodes, hworkflows⟩, hendpoints⟩ := htexts
  obtain ⟨htop, hnested⟩ := forall_mem_responses.1 h.responses
  refine .obj (by simp) (by simp [Json.IsReadText]) ?_
  simp only [List.forall_mem_cons, List.not_mem_nil, false_imp_iff, implies_true, and_true]
  exact ⟨Json.isRead_ofText hid, .str _, Json.isRead_ofText hdescription,
    Json.isRead_ofText hversion, Json.isRead_arr_map fun n hn => Node.isRead_toJson (hnodes n hn),
    Json.isRead_arr_map fun w hw => Workflow.isRead_toJson (hnested w hw) (hworkflows w hw),
    Json.isRead_arr_map fun e he => Endpoint.isRead_toJson (htop e he) (hendpoints e he)⟩

/-- A schema lies deep in the JSON value of its model. -/
theorem levels_schema_lt {b : Backend} {r : Response} {fs : List (RawText × Json)}
    (hr : r ∈ b.responses) (hfs : r.schema = some fs) : (Json.obj fs).levels < b.toJson.levels := by
  have hresponse : (Json.obj fs).levels < r.toJson.levels := by
    have hwritten : (Json.obj fs).finite.spelled.levels = (Json.obj fs).levels := by
      rw [Json.levels_spelled, Json.levels_finite]
    rw [← hwritten, Response.toJson, hfs]
    rw [Json.finite, Json.spelled]
    exact Json.levels_lt_of_mem_obj (f := ("schema", _)) (by simp)
  have hendpoint {e : Endpoint} (he : r ∈ e.responses) : r.toJson.levels < e.toJson.levels :=
    (Json.levels_lt_of_mem_arr (List.mem_map_of_mem he)).trans
      (Json.levels_lt_of_mem_obj (f := ("responses", _)) (by simp))
  obtain ⟨e, he, hr⟩ := List.mem_flatMap.1 hr
  refine hresponse.trans ((hendpoint hr).trans ?_)
  rcases List.mem_append.1 he with he | he
  · exact (Json.levels_lt_of_mem_arr (List.mem_map_of_mem he)).trans
      (Json.levels_lt_of_mem_obj (f := ("endpoints", _)) (by simp))
  · obtain ⟨w, hw, he⟩ := List.mem_flatMap.1 he
    have hworkflow : e.toJson.levels < w.toJson.levels :=
      (Json.levels_lt_of_mem_arr (List.mem_map_of_mem he)).trans
        (Json.levels_lt_of_mem_obj (f := ("endpoints", _)) (by simp))
    exact hworkflow.trans ((Json.levels_lt_of_mem_arr (List.mem_map_of_mem hw)).trans
      (Json.levels_lt_of_mem_obj (f := ("workflows", _)) (by simp)))

/-- What the reader of persisted texts takes can be written. -/
theorem IsSupported.isEncodable {b : Backend} (h : b.IsSupported) : b.isEncodable = true := by
  refine isEncodable_iff.2 ⟨h.texts, fun r hr fs hfs => ⟨?_, ?_⟩⟩
  · exact ((h.responses r hr).schema fs hfs).whole.1
  · have hheight := Json.height_le_levels (.obj fs)
    have hlevels := (levels_schema_lt hr hfs).trans_le h.levels
    have hroom : Json.readableLevels ≤ Json.writableHeight := by decide
    rw [Json.height] at hheight
    omega

end Backend

/-! ## Models that were read -/

/-- A measured integer has few digits. -/
theorem Rule.natAbs_lt_of_isMeasured {n : Int} (h : isMeasured n = true) :
    n.natAbs < 10 ^ maxIntegerDigits := by
  have hword : n.natAbs < 10 ^ 19 := by
    simp only [isMeasured, decide_eq_true_eq] at h
    omega
  exact Text.natAbs_lt_of_word hword

section

variable {pairsOnly : Bool}

/-- A status that was read from a value that the reader can give is no longer than one may be. -/
theorem Rule.natAbs_lt_of_integer {v : Json} {n : Int} (hv : Json.IsRead pairsOnly v)
    (h : integer v = .ok n) : n.natAbs < 10 ^ maxIntegerDigits := by
  cases hv with
  | bool b =>
    cases h
    exact natAbs_lt_of_isMeasured (by cases b <;> decide)
  | int hn =>
    cases h
    exact hn
  | float x =>
    unfold integer at h
    dsimp only at h
    split at h
    · split at h
      · split at h
        · next hmeasured => cases h; exact natAbs_lt_of_isMeasured hmeasured
        · cases h
      · cases h
    · cases h
  | str s =>
    unfold integer at h
    dsimp only at h
    split at h
    · next hnumber => cases h; exact Text.natAbs_lt_of_roundedNumber hnumber
    · cases h
    · cases h
  | null | broken | arr | obj => cases h

/-- What holds of every value that a rule gives for a value from a text holds of every item of an
optional list from a text. -/
theorem Reading.forall_of_optional_list_isRead {α : Type} {rule : Json → Reading α} {as : List α}
    {key : String} {fs : List (RawText × Json)} {P : α → Prop}
    (hP : ∀ v a, Json.IsRead pairsOnly v → rule v = .ok a → P a)
    (hfs : Json.IsRead pairsOnly (.obj fs)) (h : optional (list rule) [] key fs = .ok as) :
    ∀ a ∈ as, P a := by
  intro a ha
  rcases optional_eq_ok.1 h with ⟨v, hv, hlist⟩ | ⟨-, rfl⟩
  · obtain ⟨vs, rfl, hvs⟩ := list_eq_ok.1 hlist
    have hmem : Except.ok a ∈ vs.map rule := hvs ▸ List.mem_map_of_mem ha
    obtain ⟨w, hw, hrule⟩ := List.mem_map.1 hmem
    cases hfs.lookup hv with
    | arr hitems => exact hP w a (hitems w hw) hrule
  · cases ha

/-- A response whose status and schema the reader can give; halves of surrogate pairs may stand in
the schema unless only pairs are read. -/
structure Response.IsReadAs (pairsOnly : Bool) (r : Response) : Prop where
  status : r.status.natAbs < 10 ^ maxIntegerDigits
  schema : ∀ fs, r.schema = some fs → Json.IsRead pairsOnly (.obj fs)

theorem Response.IsReadAs.isSupported {r : Response} (h : r.IsReadAs true) : r.IsSupported :=
  ⟨h.status, h.schema⟩

theorem Response.IsReadAs.integers {r : Response} (h : r.IsReadAs pairsOnly) :
    Text.isShortInteger r.status = true ∧
      ∀ fs, r.schema = some fs → Json.fieldsHaveShortIntegers fs = true :=
  ⟨Text.isShortInteger_iff.2 h.status, fun fs hfs => (h.schema fs hfs).hasShortIntegers⟩

theorem Response.isReadAs_of_ofJson (v : Json) (r : Response) (hv : Json.IsRead pairsOnly v)
    (h : Response.ofJson v = .ok r) : r.IsReadAs pairsOnly := by
  obtain ⟨fs, rfl, hstatus, -, hschema⟩ := Response.ofJson_eq_ok.1 h
  obtain ⟨w, hw, hinteger⟩ := mandatory_eq_ok.1 hstatus
  refine ⟨Rule.natAbs_lt_of_integer (hv.lookup hw) hinteger, fun gs hgs => ?_⟩
  rw [hgs] at hschema
  rcases optional_eq_ok.1 hschema with ⟨u, hu, hrule⟩ | ⟨-, hnone⟩
  · rcases Rule.schema_eq_ok.1 hrule with ⟨-, hnone⟩ | ⟨gs', rfl, hgs'⟩
    · cases hnone
    · cases hgs'
      exact hv.lookup hu
  · cases hnone

theorem Endpoint.isReadAs_of_ofJson (v : Json) (e : Endpoint) (hv : Json.IsRead pairsOnly v)
    (h : Endpoint.ofJson v = .ok e) : ∀ r ∈ e.responses, r.IsReadAs pairsOnly := by
  obtain ⟨fs, rfl, -, -, -, -, hresponses⟩ := Endpoint.ofJson_eq_ok.1 h
  exact forall_of_optional_list_isRead Response.isReadAs_of_ofJson hv hresponses

theorem Workflow.isReadAs_of_ofJson (v : Json) (w : Workflow) (hv : Json.IsRead pairsOnly v)
    (h : Workflow.ofJson v = .ok w) :
    ∀ e ∈ w.endpoints, ∀ r ∈ e.responses, r.IsReadAs pairsOnly := by
  obtain ⟨fs, rfl, -, -, -, hends⟩ := Workflow.ofJson_eq_ok.1 h
  exact forall_of_optional_list_isRead Endpoint.isReadAs_of_ofJson hv hends

/-- The responses of a model that was read from a value that the reader can give. -/
theorem Backend.isReadAs_of_ofJson {freshId : String} {v : Json} {m : Backend}
    (hv : Json.IsRead pairsOnly v) (h : ofJson freshId v = .ok m) :
    ∀ r ∈ m.responses, r.IsReadAs pairsOnly := by
  obtain ⟨hparts, -⟩ := ofJson_eq_ok.1 h
  obtain ⟨fs, rfl, -, -, -, -, -, hflows, hends⟩ := partsOfJson_eq_ok.1 hparts
  intro r hr
  obtain ⟨e, he, hr⟩ := List.mem_flatMap.1 hr
  rcases List.mem_append.1 he with he | he
  · exact forall_of_optional_list_isRead Endpoint.isReadAs_of_ofJson hv hends e he r hr
  · obtain ⟨w, hw, he⟩ := List.mem_flatMap.1 he
    exact forall_of_optional_list_isRead Workflow.isReadAs_of_ofJson hv hflows w hw e he r hr

end

/-! ## Texts that were read -/

/-- What holds of the default and of every value that a rule gives for a value from a text holds of
an optional value from a text. -/
theorem Reading.of_optional_isRead {α : Type} {rule : Json → Reading α} {default a : α}
    {key : String} {fs : List (RawText × Json)} {P : α → Prop} (hdefault : P default)
    (hP : ∀ v a, Json.IsRead true v → rule v = .ok a → P a) (hfs : Json.IsRead true (.obj fs))
    (h : optional rule default key fs = .ok a) : P a := by
  rcases optional_eq_ok.1 h with ⟨v, hv, hrule⟩ | ⟨-, rfl⟩
  · exact hP v a (hfs.lookup hv) hrule
  · exact hdefault

namespace Rule

theorem isWhole_of_rawText (v : Json) (t : RawText) (hv : Json.IsRead true v)
    (h : rawText v = .ok t) : t.isWhole = true := by
  rw [rawText_eq_ok.1 h] at hv
  cases t with
  | plain s => rfl
  | broken symbols => cases hv with | broken hp _ => cases hp

theorem isWhole_of_description (v : Json) (t : RawText) (hv : Json.IsRead true v)
    (h : description v = .ok t) : t.isWhole = true := by
  unfold description at h
  split at h
  · cases h; rfl
  · exact isWhole_of_rawText _ t hv h

theorem isWhole_of_version (v : Json) (t : RawText) (hv : Json.IsRead true v)
    (h : version v = .ok t) : t.isWhole = true := by
  unfold version at h
  split at h
  · cases h; rfl
  · split at h
    · next hraw =>
      split at h
      · cases h; rfl
      · cases h; exact isWhole_of_rawText _ t hv hraw
    · cases h

theorem isWhole_of_path (v : Json) (t : RawText) (hv : Json.IsRead true v)
    (h : path v = .ok t) : t.isWhole = true := by
  obtain ⟨given, hraw, -, rfl⟩ := path_eq_ok.1 h
  rw [RawText.isWhole_rewrite]
  exact isWhole_of_rawText v given hv hraw

end Rule

/-- A description that was read from a value that the reader can give is whole. -/
theorem Reading.isWhole_of_optional_description {t : RawText} {fs : List (RawText × Json)}
    (hfs : Json.IsRead true (.obj fs))
    (h : optional Rule.description "" "description" fs = .ok t) : t.isWhole = true :=
  of_optional_isRead (P := fun t => t.isWhole = true) rfl Rule.isWhole_of_description hfs h

theorem Field.isWhole_of_ofJson (v : Json) (f : Field) (hv : Json.IsRead true v)
    (h : Field.ofJson v = .ok f) : f.description.isWhole = true := by
  obtain ⟨fs, rfl, -, -, hdescription⟩ := Field.ofJson_eq_ok.1 h
  exact isWhole_of_optional_description hv hdescription

theorem Node.texts_of_ofJson (v : Json) (n : Node) (hv : Json.IsRead true v)
    (h : Node.ofJson v = .ok n) : ∀ t ∈ n.texts, t.isWhole = true := by
  obtain ⟨fs, rfl, -, -, hdescription, hinputs, houtputs⟩ := Node.ofJson_eq_ok.1 h
  simp only [texts, List.forall_mem_cons, List.forall_mem_map, List.forall_mem_append]
  exact ⟨isWhole_of_optional_description hv hdescription,
    forall_of_optional_list_isRead Field.isWhole_of_ofJson hv hinputs,
    forall_of_optional_list_isRead Field.isWhole_of_ofJson hv houtputs⟩

theorem Parameter.isWhole_of_ofJson (v : Json) (p : Parameter) (hv : Json.IsRead true v)
    (h : Parameter.ofJson v = .ok p) : p.description.isWhole = true := by
  obtain ⟨fs, rfl, -, -, -, -, hdescription⟩ := Parameter.ofJson_eq_ok.1 h
  exact isWhole_of_optional_description hv hdescription

theorem Response.isWhole_of_ofJson (v : Json) (r : Response) (hv : Json.IsRead true v)
    (h : Response.ofJson v = .ok r) : r.description.isWhole = true := by
  obtain ⟨fs, rfl, -, hdescription, -⟩ := Response.ofJson_eq_ok.1 h
  exact isWhole_of_optional_description hv hdescription

theorem Endpoint.texts_of_ofJson (v : Json) (e : Endpoint) (hv : Json.IsRead true v)
    (h : Endpoint.ofJson v = .ok e) : ∀ t ∈ e.texts, t.isWhole = true := by
  obtain ⟨fs, rfl, hpath, -, hdescription, hparams, hresponses⟩ := Endpoint.ofJson_eq_ok.1 h
  obtain ⟨w, hw, hrule⟩ := mandatory_eq_ok.1 hpath
  simp only [texts, List.forall_mem_cons, List.forall_mem_map, List.forall_mem_append]
  exact ⟨Rule.isWhole_of_path w _ (hv.lookup hw) hrule,
    isWhole_of_optional_description hv hdescription,
    forall_of_optional_list_isRead Parameter.isWhole_of_ofJson hv hparams,
    forall_of_optional_list_isRead Response.isWhole_of_ofJson hv hresponses⟩

theorem Workflow.texts_of_ofJson (v : Json) (w : Workflow) (hv : Json.IsRead true v)
    (h : Workflow.ofJson v = .ok w) : ∀ t ∈ w.texts, t.isWhole = true := by
  obtain ⟨fs, rfl, -, hdescription, hnodes, hends⟩ := Workflow.ofJson_eq_ok.1 h
  simp only [texts, List.forall_mem_cons, List.forall_mem_flatMap, List.forall_mem_append]
  exact ⟨isWhole_of_optional_description hv hdescription,
    forall_of_optional_list_isRead Rule.isWhole_of_rawText hv hnodes,
    forall_of_optional_list_isRead Endpoint.texts_of_ofJson hv hends⟩

/-- The texts of a model are whole that was read from a value that the reader of persisted texts can
give, but for the identity of a model that states none. -/
theorem Backend.texts_of_ofJson {freshId : String} {v : Json} {m : Backend}
    (hv : Json.IsRead true v) (h : ofJson freshId v = .ok m) : ∀ t ∈ m.texts, t.isWhole = true := by
  obtain ⟨hparts, -⟩ := ofJson_eq_ok.1 h
  obtain ⟨fs, rfl, hid, -, hdescription, hversion, hnodes, hflows, hends⟩ :=
    partsOfJson_eq_ok.1 hparts
  simp only [texts, List.forall_mem_cons, List.forall_mem_flatMap, List.forall_mem_append]
  exact ⟨of_optional_isRead (P := fun t => t.isWhole = true) rfl Rule.isWhole_of_rawText hv hid,
    isWhole_of_optional_description hv hdescription,
    of_optional_isRead (P := fun t => t.isWhole = true) rfl Rule.isWhole_of_version hv hversion,
    ⟨forall_of_optional_list_isRead Node.texts_of_ofJson hv hnodes,
      forall_of_optional_list_isRead Workflow.texts_of_ofJson hv hflows⟩,
    forall_of_optional_list_isRead Endpoint.texts_of_ofJson hv hends⟩

/-! ## The nesting of what was read -/

/-- The items that an optional list was read from are nested deeper than their encoded forms, and
so is the object that holds them. -/
theorem Reading.levels_optional_list_lt {α : Type} {rule : Json → Reading α} {encode : α → Json}
    {as : List α} {key : String} {fs : List (RawText × Json)}
    (hrule : ∀ v a, rule v = .ok a → (encode a).levels ≤ v.levels) (hpos : 0 < (Json.obj fs).levels)
    (h : optional (list rule) [] key fs = .ok as) :
    (Json.arr (as.map encode)).levels < (Json.obj fs).levels := by
  rcases optional_eq_ok.1 h with ⟨v, hv, hlist⟩ | ⟨-, rfl⟩
  · obtain ⟨vs, rfl, hvs⟩ := list_eq_ok.1 hlist
    refine Nat.lt_of_le_of_lt (Json.levels_arr_le (List.forall_mem_map.2 fun a ha => ?_))
      (Json.levels_lt_of_lookup hv)
    have hmem : Except.ok a ∈ vs.map rule := hvs ▸ List.mem_map_of_mem ha
    obtain ⟨w, hw, hread⟩ := List.mem_map.1 hmem
    exact Nat.lt_of_le_of_lt (hrule w a hread) (Json.levels_lt_of_mem_arr hw)
  · exact hpos

/-- An object with a mandatory field has a level. -/
theorem Reading.levels_pos_of_mandatory {α : Type} {rule : Json → Reading α} {a : α}
    {key : String} {fs : List (RawText × Json)} (h : mandatory rule key fs = .ok a) :
    0 < (Json.obj fs).levels := by
  obtain ⟨v, hv, -⟩ := mandatory_eq_ok.1 h
  exact Nat.zero_lt_of_lt (Json.levels_lt_of_lookup hv)

theorem Field.levels_toJson_le (v : Json) (f : Field) (h : Field.ofJson v = .ok f) :
    f.toJson.levels ≤ v.levels := by
  obtain ⟨fs, rfl, hname, -⟩ := Field.ofJson_eq_ok.1 h
  have hpos := levels_pos_of_mandatory hname
  exact Json.levels_obj_le (by simpa [Json.levels] using hpos)

theorem Node.levels_toJson_le (v : Json) (n : Node) (h : Node.ofJson v = .ok n) :
    n.toJson.levels ≤ v.levels := by
  obtain ⟨fs, rfl, hname, -, -, hinputs, houtputs⟩ := Node.ofJson_eq_ok.1 h
  have hpos := levels_pos_of_mandatory hname
  have hlists := And.intro (levels_optional_list_lt Field.levels_toJson_le hpos hinputs)
    (levels_optional_list_lt Field.levels_toJson_le hpos houtputs)
  refine Json.levels_obj_le ?_
  simp only [List.forall_mem_cons, List.not_mem_nil, false_imp_iff, implies_true, and_true,
    Json.levels_ofText]
  exact ⟨hpos, hpos, hpos, hlists⟩

theorem Parameter.levels_toJson_le (v : Json) (p : Parameter) (h : Parameter.ofJson v = .ok p) :
    p.toJson.levels ≤ v.levels := by
  obtain ⟨fs, rfl, hname, -⟩ := Parameter.ofJson_eq_ok.1 h
  have hpos := levels_pos_of_mandatory hname
  exact Json.levels_obj_le (by simpa [Json.levels] using hpos)

theorem Response.levels_toJson_le (v : Json) (r : Response) (h : Response.ofJson v = .ok r) :
    r.toJson.levels ≤ v.levels := by
  obtain ⟨fs, rfl, hstatus, -, hschema⟩ := Response.ofJson_eq_ok.1 h
  have hpos := levels_pos_of_mandatory hstatus
  refine Json.levels_obj_le ?_
  simp only [List.forall_mem_cons, List.not_mem_nil, false_imp_iff, implies_true, and_true,
    Json.levels_ofText]
  refine ⟨hpos, hpos, ?_⟩
  rcases optional_eq_ok.1 hschema with ⟨u, hu, hrule⟩ | ⟨-, hnone⟩
  · rcases Rule.schema_eq_ok.1 hrule with ⟨-, hnone⟩ | ⟨gs, rfl, hgs⟩
    · rw [hnone]
      exact hpos
    · have hlevels : (Json.obj gs).finite.spelled.levels = (Json.obj gs).levels := by
        rw [Json.levels_spelled, Json.levels_finite]
      rw [Json.finite, Json.spelled] at hlevels
      rw [hgs]
      exact hlevels.trans_lt (Json.levels_lt_of_lookup hu)
  · rw [hnone]
    exact hpos

theorem Endpoint.levels_toJson_le (v : Json) (e : Endpoint) (h : Endpoint.ofJson v = .ok e) :
    e.toJson.levels ≤ v.levels := by
  obtain ⟨fs, rfl, hpath, -, -, hparams, hresponses⟩ := Endpoint.ofJson_eq_ok.1 h
  have hpos := levels_pos_of_mandatory hpath
  have hlists := And.intro (levels_optional_list_lt Parameter.levels_toJson_le hpos hparams)
    (levels_optional_list_lt Response.levels_toJson_le hpos hresponses)
  refine Json.levels_obj_le ?_
  simp only [List.forall_mem_cons, List.not_mem_nil, false_imp_iff, implies_true, and_true,
    Json.levels_ofText]
  exact ⟨hpos, hpos, hpos, hlists⟩

theorem Workflow.levels_toJson_le (v : Json) (w : Workflow) (h : Workflow.ofJson v = .ok w) :
    w.toJson.levels ≤ v.levels := by
  obtain ⟨fs, rfl, hname, -, hnodes, hends⟩ := Workflow.ofJson_eq_ok.1 h
  have hpos := levels_pos_of_mandatory hname
  have hlists := And.intro
    (levels_optional_list_lt (fun _ t _ => Json.levels_ofText t ▸ Nat.zero_le _) hpos hnodes)
    (levels_optional_list_lt Endpoint.levels_toJson_le hpos hends)
  refine Json.levels_obj_le ?_
  simp only [List.forall_mem_cons, List.not_mem_nil, false_imp_iff, implies_true, and_true,
    Json.levels_ofText]
  exact ⟨hpos, hpos, hlists⟩

namespace Backend

/-- A model is nested no deeper than the value that it was read from. -/
theorem levels_toJson_le {freshId : String} {v : Json} {m : Backend}
    (h : ofJson freshId v = .ok m) : m.toJson.levels ≤ v.levels := by
  obtain ⟨hparts, -⟩ := ofJson_eq_ok.1 h
  obtain ⟨fs, rfl, -, hname, -, -, hnodes, hflows, hends⟩ := partsOfJson_eq_ok.1 hparts
  have hpos := levels_pos_of_mandatory hname
  have hlists := And.intro (levels_optional_list_lt Node.levels_toJson_le hpos hnodes)
    (And.intro (levels_optional_list_lt Workflow.levels_toJson_le hpos hflows)
      (levels_optional_list_lt Endpoint.levels_toJson_le hpos hends))
  refine Json.levels_obj_le ?_
  simp only [List.forall_mem_cons, List.not_mem_nil, false_imp_iff, implies_true, and_true,
    Json.levels_ofText]
  exact ⟨hpos, hpos, hpos, hpos, hlists⟩

/-- Every model that was read from a value within the limits of the reader of persisted texts is
supported. -/
theorem isSupported_of_ofJson {freshId : String} {v : Json} {m : Backend}
    (hv : Json.IsRead true v) (hlevels : v.levels ≤ Json.readableLevels)
    (h : ofJson freshId v = .ok m) : m.IsSupported where
  texts := texts_of_ofJson hv h
  responses := fun r hr => (isReadAs_of_ofJson hv h r hr).isSupported
  levels := (levels_toJson_le h).trans hlevels

/-- A text holds a model when its value is within the reader's limits and read as the model. -/
theorem ofText?_eq_some {freshId s : String} {m : Backend} : ofText? freshId s = some m ↔
    ∃ v, Json.readStrict s = .ok v ∧ v.levels ≤ Json.readableLevels ∧ ofJson freshId v = .ok m := by
  unfold ofText?
  cases Json.readStrict s with
  | error e => simp
  | ok v =>
    simp only [Except.ok.injEq, exists_eq_left', Option.ite_none_right_eq_some]
    cases ofJson freshId v <;> simp [Except.toOption]

/-- Every model that was loaded from a text is supported. -/
theorem isSupported_of_ofText? {freshId s : String} {m : Backend}
    (h : ofText? freshId s = some m) : m.IsSupported := by
  obtain ⟨v, hv, hlevels, hread⟩ := ofText?_eq_some.1 h
  exact isSupported_of_ofJson (Json.isRead_of_readChars hv) hlevels hread

end Backend

end Nanoservice
