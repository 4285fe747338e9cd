import Mathlib
import Nanoservice.Proofs.Backend.Normal
import Nanoservice.Proofs.Backend.Supported
import Nanoservice.Proofs.Json.RoundTrip

/-!
# Persisted models read back

Every part of a model that is normal is read back from its JSON value (the `ofJson_toJson` lemmas),
up to special numbers in response schemas and the spelling of their keys. With the round trip of
JSON texts, `Backend.ofText?_encode` says that a supported model has a text, which is read back as
the model's finite form, and that this form has the same text. A model that was itself loaded is
supported (`Backend.isSupported_of_ofText?`). -/

namespace Nanoservice

open Reading

/-! ## Keywords -/

theorem Rule.valueType_keyword (t : ValueType) : Rule.valueType (.str t.keyword) = .ok t := by
  cases t <;> cbv

theorem Rule.nodeKind_keyword (k : NodeKind) : Rule.nodeKind (.str k.keyword) = .ok k := by
  cases k <;> cbv

theorem Rule.location_keyword (l : Location) : Rule.location (.str l.keyword) = .ok l := by
  cases l <;> cbv

theorem Rule.method_keyword (m : Method) : Rule.method (.str m.keyword) = .ok m := by
  cases m <;> cbv

/-! ## Parts of a model -/

/-- An optional field that is there is read by its rule. -/
theorem Reading.optional_of_lookup {α : Type} {rule : Json → Reading α} {default a : α}
    {key : String} {fs : List (RawText × Json)} {v : Json} (h : fs.lookup (.plain key) = some v)
    (hv : rule v = .ok a) : optional rule default key fs = .ok a :=
  optional_eq_ok.2 (.inl ⟨v, h, hv⟩)

/-- A list of encoded items is read back when every item is. -/
theorem Reading.list_map_encode {α β : Type} {encode : α → Json} {rule : Json → Reading β}
    {g : α → β} {as : List α} (h : ∀ a ∈ as, rule (encode a) = .ok (g a)) :
    list rule (.arr (as.map encode)) = .ok (as.map g) := by
  refine list_eq_ok.2 ⟨_, rfl, ?_⟩
  rw [List.map_map, List.map_map]
  exact List.map_congr_left h

/-- A list of encoded items that are read back as they are is read back as it is. -/
theorem Reading.list_map_encode_self {α : Type} {encode : α → Json} {rule : Json → Reading α}
    {as : List α} (h : ∀ a ∈ as, rule (encode a) = .ok a) :
    list rule (.arr (as.map encode)) = .ok as :=
  list_eq_ok.2 ⟨_, rfl, by rw [List.map_map]; exact List.map_congr_left h⟩

theorem Rule.description_ofText (t : RawText) : Rule.description (.ofText t) = .ok t := by
  cases t <;> rfl

/-- A version that is not blank is read as it is. -/
theorem Rule.version_ofText {t : RawText} (h : t.isBlank = false) :
    Rule.version (.ofText t) = .ok t := by
  cases t <;>
    simp only [version, Json.ofText, rawText, Json.rawText?, h, Bool.false_eq_true, if_false]

theorem Field.ofJson_toJson {f : Field} (h : f.IsNormal) : Field.ofJson f.toJson = .ok f :=
  Field.ofJson_eq_ok.2 ⟨_, rfl, mandatory_eq_ok.2 ⟨_, rfl, Rule.name_eq_ok.2 ⟨rfl, h⟩⟩,
    optional_of_lookup rfl (Rule.valueType_keyword f.type),
    optional_of_lookup rfl (Rule.description_ofText _)⟩

theorem Node.ofJson_toJson {n : Node} (h : n.IsNormal) : Node.ofJson n.toJson = .ok n := by
  have hfields {fs : List Field} (hfs : ∀ f ∈ fs, f.IsNormal) :
      list Field.ofJson (.arr (fs.map Field.toJson)) = .ok fs :=
    list_map_encode_self fun f hf => Field.ofJson_toJson (hfs f hf)
  exact Node.ofJson_eq_ok.2 ⟨_, rfl, mandatory_eq_ok.2 ⟨_, rfl, Rule.name_eq_ok.2 ⟨rfl, h.name⟩⟩,
    mandatory_eq_ok.2 ⟨_, rfl, Rule.nodeKind_keyword n.kind⟩,
    optional_of_lookup rfl (Rule.description_ofText _),
    optional_of_lookup rfl (hfields h.inputs), optional_of_lookup rfl (hfields h.outputs)⟩

theorem Parameter.ofJson_toJson {p : Parameter} (h : p.IsNormal) :
    Parameter.ofJson p.toJson = .ok p :=
  Parameter.ofJson_eq_ok.2 ⟨_, rfl, mandatory_eq_ok.2 ⟨_, rfl, Rule.name_eq_ok.2 ⟨rfl, h⟩⟩,
    mandatory_eq_ok.2 ⟨_, rfl, Rule.location_keyword p.location⟩, optional_of_lookup rfl rfl,
    optional_of_lookup rfl (Rule.valueType_keyword p.type),
    optional_of_lookup rfl (Rule.description_ofText _)⟩

theorem Response.ofJson_toJson {r : Response} (h : r.HasWholeKeys) :
    Response.ofJson r.toJson = .ok r.finite := by
  refine Response.ofJson_eq_ok.2 ⟨_, rfl, mandatory_eq_ok.2 ⟨_, rfl, rfl⟩,
    optional_of_lookup rfl (Rule.description_ofText _), optional_of_lookup rfl ?_⟩
  cases hschema : r.schema with
  | none => simp [Rule.schema, Response.finite, hschema]
  | some fs => simp [Rule.schema, Response.finite, hschema, h.spelledFields hschema]

theorem Endpoint.ofJson_toJson {e : Endpoint} (h : e.IsNormal)
    (hkeys : ∀ r ∈ e.responses, r.HasWholeKeys) : Endpoint.ofJson e.toJson = .ok e.finite := by
  have hpath : Rule.path (.ofText e.path) = .ok e.path :=
    Rule.path_eq_ok.2 ⟨e.path, Rule.rawText_ofText _, h.path.not_blank,
      RawText.rewrite_eq_self (EndpointPath.normalize_eq_self h.path)⟩
  have hparameters : list Parameter.ofJson (.arr (e.parameters.map Parameter.toJson)) =
      .ok e.parameters :=
    list_map_encode_self fun p hp => Parameter.ofJson_toJson (h.parameters p hp)
  exact Endpoint.ofJson_eq_ok.2 ⟨_, rfl, mandatory_eq_ok.2 ⟨_, rfl, hpath⟩,
    mandatory_eq_ok.2 ⟨_, rfl, Rule.method_keyword e.method⟩,
    optional_of_lookup rfl (Rule.description_ofText _), optional_of_lookup rfl hparameters,
    optional_of_lookup rfl (list_map_encode fun r hr => Response.ofJson_toJson (hkeys r hr))⟩

theorem Workflow.ofJson_toJson {w : Workflow} (h : w.IsNormal)
    (hkeys : ∀ e ∈ w.endpoints, ∀ r ∈ e.responses, r.HasWholeKeys) :
    Workflow.ofJson w.toJson = .ok w.finite := by
  have hnodes : list Rule.rawText (.arr (w.nodes.map Json.ofText)) = .ok w.nodes :=
    list_map_encode_self fun t _ => Rule.rawText_ofText t
  exact Workflow.ofJson_eq_ok.2 ⟨_, rfl,
    mandatory_eq_ok.2 ⟨_, rfl, Rule.name_eq_ok.2 ⟨rfl, h.name⟩⟩,
    optional_of_lookup rfl (Rule.description_ofText _), optional_of_lookup rfl hnodes,
    optional_of_lookup rfl
      (list_map_encode fun e he => Endpoint.ofJson_toJson (h.endpoints e he) (hkeys e he))⟩

namespace Backend

/-- A normal model with whole keys is read back from its JSON value, up to the special numbers. -/
theorem ofJson_toJson {m : Backend} (h : m.IsNormal) (hkeys : ∀ r ∈ m.responses, r.HasWholeKeys)
    (freshId : String) : ofJson freshId m.toJson = .ok m.finite := by
  obtain ⟨htop, hnested⟩ := forall_mem_responses.1 hkeys
  have hnodes : list Node.ofJson (.arr (m.nodes.map Node.toJson)) = .ok m.nodes :=
    list_map_encode_self fun n hn => Node.ofJson_toJson (h.nodes n hn)
  refine ofJson_eq_ok.2 ⟨partsOfJson_eq_ok.2 ⟨_, rfl,
    optional_of_lookup rfl (Rule.rawText_ofText _),
    mandatory_eq_ok.2 ⟨_, rfl, Rule.title_eq_ok.2 ⟨_, rfl, h.trimmed, h.name⟩⟩,
    optional_of_lookup rfl (Rule.description_ofText _),
    optional_of_lookup rfl (Rule.version_ofText h.version),
    optional_of_lookup rfl hnodes,
    optional_of_lookup rfl (list_map_encode fun w hw =>
      Workflow.ofJson_toJson (h.workflows w hw) (hnested w hw)),
    optional_of_lookup rfl (list_map_encode fun e he =>
      Endpoint.ofJson_toJson (h.endpoints e he) (htop e he))⟩, ?_⟩
  refine unknownNode?_eq_none.2 fun w hw n hn => ?_
  obtain ⟨u, hu, rfl⟩ := List.mem_map.1 hw
  exact h.resolved u hu n hn

/-! ## A model with a single response -/

/-- A JSON value with a single endpoint, and a single response there. -/
def singleJson (status schema : Json) : Json :=
  .obj [("id", .str "0"), ("name", .str "shop"),
    ("endpoints", .arr [.obj [("path", .str "/items"), ("method", .str "GET"),
      ("responses", .arr [.obj [("status", status), ("schema", schema)]])]])]

/-- A model with a single endpoint, and a single response there. -/
def single (r : Response) : Backend :=
  ⟨"0", "shop", "", defaultVersion, [], [], [⟨"/items", .get, "", [], [r]⟩]⟩

theorem ofJson_singleJson {freshId : String} {status schema : Json} {r : Response}
    (h : Response.ofJson (.obj [("status", status), ("schema", schema)]) = .ok r) :
    ofJson freshId (singleJson status schema) = .ok (single r) := by
  have hnormalize : EndpointPath.normalize "/items" = "/items" := by
    simp [EndpointPath.normalize, EndpointPath.braceParameters, EndpointPath.withSlash,
      Text.trimChars, Text.isBlank, Text.dropEndWhile]
  have hpath : Rule.path (.str "/items") = .ok (.plain "/items") :=
    Rule.path_eq_ok.2 ⟨.plain "/items", rfl, by decide, congrArg RawText.plain hnormalize⟩
  have hend : Endpoint.ofJson (.obj [("path", .str "/items"), ("method", .str "GET"),
      ("responses", .arr [.obj [("status", status), ("schema", schema)]])]) =
      .ok ⟨"/items", .get, "", [], [r]⟩ :=
    Endpoint.ofJson_eq_ok.2 ⟨_, rfl, mandatory_eq_ok.2 ⟨_, rfl, hpath⟩,
      mandatory_eq_ok.2 ⟨_, rfl, Rule.method_keyword .get⟩, rfl, rfl,
      optional_of_lookup rfl (list_eq_ok.2 ⟨_, rfl, by simp [h]⟩)⟩
  exact ofJson_eq_ok.2 ⟨partsOfJson_eq_ok.2 ⟨_, rfl, rfl, by cbv, rfl, rfl, rfl, rfl,
    optional_of_lookup rfl (list_eq_ok.2 ⟨_, rfl, by simp [hend, single]⟩)⟩, rfl⟩

/-! ## The text of a model -/

/-- The text of a supported model holds the model's JSON value. -/
theorem readStrict_toText {m : Backend} (h : m.IsSupported) (indent : Option Nat) :
    Json.readStrict (m.toText indent) = .ok m.toJson := by
  rw [toText, Json.readStrict_write_model indent (isRead_toJson h), finite_toJson]

/-- A normal model that is supported is read back from its text, up to the special numbers. -/
theorem ofText?_toText_of_isNormal {m : Backend} (h : m.IsNormal) (hs : m.IsSupported)
    (indent : Option Nat) (freshId : String) :
    ofText? freshId (m.toText indent) = some m.finite := by
  have hread := ofJson_toJson h (fun r hr => (hs.responses r hr).hasWholeKeys) freshId
  simp only [ofText?, readStrict_toText hs, hs.levels, if_true, hread, Except.toOption]

/-- A supported model has a text. It is read back as the model with null in place of every special
number, which is the model itself when there are none, and what was read has the same text. -/
theorem ofText?_encode {freshId : String} {v : Json} {m : Backend} (h : ofJson freshId v = .ok m)
    (hs : m.IsSupported) (indent : Option Nat) (freshId' : String) :
    ∃ s, m.encode indent = .ok s ∧ ofText? freshId' s = some m.finite ∧
      m.finite.encode indent = .ok s ∧ ((∀ r ∈ m.responses, r.IsFinite) → m.finite = m) := by
  have hencode := encode_eq_ok hs.isEncodable indent
  exact ⟨m.toText indent, hencode,
    ofText?_toText_of_isNormal (isNormal_of_ofJson h) hs indent freshId',
    (m.encode_finite indent).trans hencode, finite_of_isFinite⟩

/-- A model with a number that is none in a schema is read back with null in its place. -/
theorem ofText?_encode_nan :
    ∃ s, (single ⟨200, "", some [("max", .arr [.float .nan, .int 7])]⟩).encode (some 2) = .ok s ∧
      ofText? "1" s = some (single ⟨200, "", some [("max", .arr [.null, .int 7])]⟩) := by
  let r : Response := ⟨200, "", some [("max", .arr [.float .nan, .int 7])]⟩
  have hread : ofJson "1" (singleJson (.int 200) (.obj [("max", .arr [.float .nan, .int 7])])) =
      .ok (single r) := ofJson_singleJson rfl
  have hschema : Json.IsRead true (.obj [("max", .arr [.float .nan, .int 7])]) := by
    refine .obj (by simp) (by simp [Json.IsReadText]) (List.forall_mem_singleton.2 (.arr ?_))
    simp only [List.forall_mem_cons, List.not_mem_nil, false_imp_iff, implies_true, and_true]
    exact ⟨.float _, .int (Rule.natAbs_lt_of_isMeasured (by decide))⟩
  have hresponse : r.IsSupported :=
    ⟨Rule.natAbs_lt_of_isMeasured (by decide), fun fs hfs => Option.some.inj hfs ▸ hschema⟩
  have hsupported : (single r).IsSupported :=
    ⟨by decide, List.forall_mem_singleton.2 hresponse, by decide⟩
  obtain ⟨s, hencode, hfound, -⟩ := ofText?_encode hread hsupported (some 2) "1"
  exact ⟨s, hencode, hfound⟩

/-- A model whose written characters are not read is not read back. -/
theorem ofText?_toText_eq_none {m : Backend} {indent : Option Nat} {freshId : String}
    (h : (Json.readChars true (m.toJson.writeChars (.model indent) 0)).isOk = false) :
    ofText? freshId (m.toText indent) = none := by
  rw [toText, Json.write, ofText?, Json.readStrict, String.toList_ofList]
  cases hr : Json.readChars true (m.toJson.writeChars (.model indent) 0) with
  | error e => rfl
  | ok v => rw [hr] at h; cases h

/-- The text of a model with a status of 4301 digits is not read back. -/
theorem ofText?_longStatus (freshId : String) :
    ofText? freshId ((single ⟨10 ^ 4300, "", none⟩).toText (some 2)) = none :=
  ofText?_toText_eq_none (by decide +kernel)

/-- A status of 4301 digits and a title with half of a surrogate pair are read from a value. The
text that is written for the status is not read back, and for the title no text is written. -/
theorem ofText?_encode_unsupported :
    (ofJson "1" (singleJson (.int (10 ^ 4300)) .null) = .ok (single ⟨10 ^ 4300, "", none⟩) ∧
      ((single ⟨10 ^ 4300, "", none⟩).encode (some 2)).toOption.bind (ofText? "1") = none) ∧
    (ofJson "1" (singleJson (.int 200) (.obj [("title", .broken [.half ⟨0xD800, by decide⟩])])) =
        .ok (single ⟨200, "", some [("title", .broken [.half ⟨0xD800, by decide⟩])]⟩) ∧
      (single ⟨200, "", some [("title", .broken [.half ⟨0xD800, by decide⟩])]⟩).encode (some 2) =
        .error (.broken [.half ⟨0xD800, by decide⟩])) := by
  have hreread (n : Int) : ((single ⟨n, "", none⟩).encode (some 2)).toOption.bind (ofText? "1") =
      ofText? "1" ((single ⟨n, "", none⟩).toText (some 2)) := by
    rw [encode_eq_ok rfl, Except.toOption, Option.bind_some]
  exact ⟨⟨ofJson_singleJson rfl, (hreread _).trans (ofText?_longStatus "1")⟩,
    ofJson_singleJson rfl, rfl⟩

end Backend

end Nanoservice
