import Mathlib.Data.List.Induction
import Nanoservice.Proofs.Backend.RoundTrip
import Nanoservice.Proofs.Http.Sending
import Nanoservice.Proofs.Json.Lines
import Nanoservice.Proofs.Store.Run

/-!
# What a restart finds

Stores that share a file find in it, however often they are opened again, the model that was last
put in to be kept, with null in place of every special number (`Stores.load_reopened`). What is
carried along a run is that nothing is in the way of the file and that it holds the whole text of
that model (`Stores.Holds`): acts that do not keep a model leave the disk alone, and one that does
cannot fail. The text is found as it was written, since it holds no carriage return
(`Backend.lineFeeds_persistedText`), and is read back as models are that a text can hold. Others are
kept as well, but not found again (`Stores.foundAgain_unsupported`).
-/

namespace Nanoservice

open ModelStore (IsBlocked)

namespace Backend

/-- A model that was read, and that holds nothing that a persisted text cannot. -/
structure IsKeepable (b : Backend) : Prop where
  read : ∃ freshId v, ofJson freshId v = .ok b
  supported : b.IsSupported

/-- The text of a model has the line ends that it is found with on a disk. -/
theorem lineFeeds_persistedText (b : Backend) :
    Text.lineFeeds b.persistedText.toList = b.persistedText.toList := by
  refine Text.lineFeeds_eq_self ?_
  rw [persistedText, toText, Json.write, String.toList_ofList]
  exact Json.return_not_mem_writeChars (Json.hasNoReturn_model _) 0 _

end Backend

namespace StoreAct

/-- The model that an act asks to be kept. -/
def kept? : StoreAct → Option Backend
  | .replace _ b true _ => some b
  | _ => none

/-- The model that was last asked to be kept. -/
def lastKept? (acts : List StoreAct) : Option Backend :=
  acts.reverse.findSome? kept?

/-- An act of stores with one file, at which the disk neither gives out nor is changed from outside.
What is to be kept can be held by a text. -/
def IsQuiet (p : Path) : StoreAct → Prop
  | .replace _ b persist stop => stop = none ∧ (persist = true → b.IsKeepable)
  | .load _ _ => True
  | .reopen _ file => file = some p
  | .outside _ _ => False

theorem lastKept?_concat (acts : List StoreAct) (act : StoreAct) :
    lastKept? (acts ++ [act]) = act.kept?.or (lastKept? acts) := by
  rw [lastKept?, List.reverse_append, List.reverse_singleton, List.singleton_append,
    List.findSome?_cons]
  cases act.kept? <;> rfl

end StoreAct

namespace ModelStore

variable {p : Path} {text : String} {d e : Disk}

/-- Where nothing is in the way, nothing is when a text was kept. -/
theorem IsWhole.not_isBlocked (h : IsWhole p text none d e) (hfree : ¬ IsBlocked d p) :
    ¬ IsBlocked e p := by
  obtain ⟨hplace, hsibling⟩ := h.done rfl ((attempt_isOk p text d).2 hfree)
  intro hblocked
  cases hblocked with
  | sibling hfolder =>
    rw [hsibling] at hfolder
    cases hfolder
  | place hfolder =>
    rw [hplace] at hfolder
    cases hfolder
  | way hpre hfile =>
    refine hfree (.way hpre ((h.files _ _ ?_ ?_).1 hfile))
    · rintro rfl
      refine Path.not_prefix_dropLast ?_ hpre
      rintro rfl
      exact hfree (.place rfl)
    · rintro rfl
      exact not_sibling_prefix p hpre

/-- The model that is found at a place that holds the text of one. -/
theorem kept?_persistedText {b : Backend} (freshId : String)
    (h : d.find? p = some (.file (.text b.persistedText))) :
    kept? freshId p d = Backend.ofText? freshId b.persistedText := by
  simp only [kept?, Disk.readText, h, b.lineFeeds_persistedText, String.ofList_toList]

/-- A store with nothing current finds the model that its file holds, with null in place of special
numbers. -/
theorem load_persistedText {b : Backend} (hb : b.IsKeepable) (freshId : String)
    (h : d.find? p = some (.file (.text b.persistedText))) :
    load freshId ⟨some p, none⟩ d = (some b.finite, ⟨some p, some b.finite⟩) := by
  obtain ⟨⟨id, v, hread⟩, hsupported⟩ := hb
  have hfound : kept? freshId p d = some b.finite := by
    rw [kept?_persistedText freshId h]
    exact Backend.ofText?_toText_of_isNormal (Backend.isNormal_of_ofJson hread) hsupported _ _
  simp only [load, Option.bind_some, hfound]

theorem kept?_of_absent (freshId : String) (h : d.find? p = none) : kept? freshId p d = none := by
  simp only [kept?, Disk.readText, h]

end ModelStore

namespace Stores

open StoreAct

variable {p : Path} {kept : Option Backend} {w : Stores} {act : StoreAct}

/-- All stores have one file, nothing is in the way of it, and it holds the text of the model that
was last kept, if one was. -/
structure Holds (p : Path) (kept : Option Backend) (w : Stores) : Prop where
  files : ∀ i, (w.store i).file = some p
  free : ¬ IsBlocked w.disk p
  keepable : ∀ b ∈ kept, b.IsKeepable
  text : w.disk.find? p = kept.map fun b => .file (.text b.persistedText)

/-- An act that keeps the file of every store and leaves the disk alone changes nothing of what is
held. -/
theorem Holds.of_disk_eq {w' : Stores} (h : Holds p kept w) (hdisk : w'.disk = w.disk)
    (hfiles : ∀ i, (w'.store i).file = some p) : Holds p kept w' :=
  ⟨hfiles, hdisk ▸ h.free, h.keepable, hdisk ▸ h.text⟩

theorem files_of_onlyAt {w' : Stores} {i : Nat} (h : Holds p kept w) (hothers : OnlyAt i w w')
    (hfile : (w'.store i).file = some p) (j : Nat) : (w'.store j).file = some p := by
  by_cases hj : j = i
  · rw [hj, hfile]
  · rw [hothers j hj, h.files]

/-- After a quiet act the file holds the model that the act asks to keep, or what it held. -/
theorem Holds.step (h : Holds p kept w) (hquiet : act.IsQuiet p) :
    Holds p (act.kept?.or kept) (w.step act) := by
  have hlawful := isLawful_step w act
  cases act with
  | load i freshId =>
    refine h.of_disk_eq hlawful.disk (files_of_onlyAt h hlawful.others ?_)
    cases hfound : ((w.store i).load freshId w.disk).1 with
    | none => rw [hlawful.missing hfound, h.files]
    | some b => rw [hlawful.current b hfound, h.files]
  | reopen i file =>
    obtain ⟨hstore, hothers, hdisk⟩ := hlawful
    refine h.of_disk_eq hdisk (files_of_onlyAt h hothers ?_)
    rw [hstore, hquiet]
  | outside d hd => exact hquiet.elim
  | replace i b persist stop =>
    obtain ⟨rfl, hkeepable⟩ := hquiet
    have hfiles := files_of_onlyAt h hlawful.others (by rw [hlawful.current, h.files])
    cases persist with
    | false => exact h.of_disk_eq (hlawful.untouched (.inr rfl)) hfiles
    | true =>
      have hwhole := hlawful.kept p (h.files i) rfl
      rw [Backend.stop?_of_isEncodable (hkeepable rfl).supported.isEncodable] at hwhole
      exact
        { files := hfiles
          free := hwhole.not_isBlocked h.free
          keepable := by
            rintro _ ⟨⟩
            exact hkeepable rfl
          text := (hwhole.done rfl ((ModelStore.attempt_isOk _ _ _).2 h.free)).1 }

/-- After quiet acts the file holds the model that was last asked to be kept. -/
theorem holds_run {acts : List StoreAct} (h : Holds p none w)
    (hquiet : ∀ act ∈ acts, act.IsQuiet p) : Holds p (lastKept? acts) (w.run acts) := by
  induction acts using List.reverseRecOn with
  | nil => exact h
  | append_singleton acts act ih =>
    rw [run_concat, lastKept?_concat]
    exact (ih fun a ha => hquiet a (List.mem_append_left _ ha)).step
      (hquiet act (List.mem_append_right _ (List.mem_singleton_self act)))

/-- A store with nothing current finds the model that is held, with null in place of special
numbers. -/
theorem Holds.load (h : Holds p kept w) (freshId : String) :
    ModelStore.load freshId ⟨some p, none⟩ w.disk =
      (kept.map Backend.finite, ⟨some p, kept.map Backend.finite⟩) := by
  cases kept with
  | none =>
    have hfound := ModelStore.kept?_of_absent freshId h.text
    simp only [ModelStore.load, Option.bind_some, hfound, Option.map_none]
  | some b => exact ModelStore.load_persistedText (h.keepable b rfl) freshId h.text

/-- A store that was opened again has its file and nothing current, and the disk is as it was. -/
theorem run_reopen (w : Stores) (acts : List StoreAct) (i : Nat) (file : Option Path) :
    (w.run (acts ++ [.reopen i file])).store i = ⟨file, none⟩ ∧
      (w.run (acts ++ [.reopen i file])).disk = (w.run acts).disk := by
  rw [run_concat]
  obtain ⟨hstore, -, hdisk⟩ := isLawful_step (w.run acts) (.reopen i file)
  exact ⟨hstore, hdisk⟩

/-- Stores over one file, which is absent at first, are opened again after any quiet acts. A load
then finds the model that was last asked to be kept, with null in place of special numbers, and
makes it current. -/
theorem load_reopened {acts : List StoreAct} (hfiles : ∀ i, (w.store i).file = some p)
    (hfree : ¬ IsBlocked w.disk p) (habsent : w.disk.find? p = none)
    (hquiet : ∀ act ∈ acts, act.IsQuiet p) (i : Nat) (freshId : String) :
    ((w.run (acts ++ [.reopen i (some p)])).store i).load freshId
        (w.run (acts ++ [.reopen i (some p)])).disk =
      ((lastKept? acts).map Backend.finite, ⟨some p, (lastKept? acts).map Backend.finite⟩) := by
  have hstart : Holds p none w := ⟨hfiles, hfree, by simp, habsent⟩
  obtain ⟨hstore, hdisk⟩ := run_reopen w acts i (some p)
  rw [hstore, hdisk]
  exact (holds_run hstart hquiet).load freshId

/-! ## A restart -/

/-- Stores over one file of a disk on which nothing is. -/
def fresh (p : Path) : Stores :=
  ⟨fun _ => ⟨some p, none⟩, ⟨[]⟩, Disk.isTree_empty⟩

theorem not_isBlocked_fresh {p : Path} (hp : p ≠ []) : ¬ IsBlocked (fresh p).disk p := by
  have hempty (q : Path) (hq : q ≠ []) : (fresh p).disk.find? q = none := by
    rw [Disk.find?, if_neg hq]
    rfl
  intro hblocked
  cases hblocked with
  | @way q c hpre hfile =>
    by_cases hq : q = []
    · rw [hq] at hfile
      cases hfile
    · rw [hempty q hq] at hfile
      cases hfile
  | sibling hfolder =>
    rw [hempty _ (ModelStore.sibling_ne_nil p)] at hfolder
    cases hfolder
  | place hfolder =>
    rw [hempty p hp] at hfolder
    cases hfolder

/-- A model with a single response, in whose schema a value stands in front of an integer. -/
def limits (v : Json) : Backend :=
  Backend.single ⟨200, "", some [("max", .arr [v, .int 7])]⟩

theorem isKeepable_limits {v : Json} (hv : Json.IsRead true v)
    (hlevels : (limits v).toJson.levels ≤ Json.readableLevels) : (limits v).IsKeepable := by
  have hschema : Json.IsRead true (.obj [("max", .arr [v, .int 7])]) := by
    refine .obj (by simp) (by simp [Json.IsReadText]) (List.forall_mem_singleton.2 (.arr ?_))
    simp only [List.forall_mem_cons, List.not_mem_nil, false_imp_iff, implies_true, and_true]
    exact ⟨hv, .int (Rule.natAbs_lt_of_isMeasured (by decide))⟩
  have hstatus : (200 : Int).natAbs < 10 ^ Text.maxIntegerDigits :=
    Rule.natAbs_lt_of_isMeasured (by decide)
  have hresponse : Response.IsSupported ⟨200, "", some [("max", .arr [v, .int 7])]⟩ :=
    ⟨hstatus, fun fs hfs => Option.some.inj hfs ▸ hschema⟩
  have hread : Response.ofJson
      (.obj [("status", .int 200), ("schema", .obj [("max", .arr [v, .int 7])])]) =
      .ok ⟨200, "", some [("max", .arr [v, .int 7])]⟩ := rfl
  have htexts : ∀ t ∈ (limits v).texts, t.isWhole = true := by
    simp [limits, Backend.single, Backend.texts, Endpoint.texts, Backend.defaultVersion]
  exact ⟨⟨"0", _, Backend.ofJson_singleJson hread⟩,
    ⟨htexts, List.forall_mem_singleton.2 hresponse, hlevels⟩⟩

/-- Two stores keep models in turn and load what the other one has kept, and a last model is put in
and not kept. -/
def rekept : List StoreAct :=
  [.replace 0 (limits .null) true none, .load 1 "1", .replace 1 (limits (.float .nan)) true none,
    .load 0 "2", .replace 0 (limits (.int 3)) false none]

/-- After models were kept in turn a restart finds the last one that was, with null in place of the
number that is none. -/
theorem load_reopened_rekept :
    (((fresh ["model.json"]).run (rekept ++ [.reopen 1 (some ["model.json"])])).store 1).load "3"
        ((fresh ["model.json"]).run (rekept ++ [.reopen 1 (some ["model.json"])])).disk =
      (some (limits .null), ⟨some ["model.json"], some (limits .null)⟩) := by
  refine load_reopened (fun i => rfl) (not_isBlocked_fresh (by decide)) rfl ?_ 1 "3"
  simp only [rekept, List.forall_mem_cons, List.not_mem_nil, false_imp_iff, implies_true, and_true,
    IsQuiet, true_and]
  exact ⟨fun _ => isKeepable_limits .null (by decide),
    fun _ => isKeepable_limits (.float _) (by decide), fun h => by cases h⟩

/-- What a load gives when stores over a fresh file have kept a model and one is opened again. -/
def foundAgain (p : Path) (b : Backend) (freshId : String) : Option Backend × ModelStore :=
  (((fresh p).run ([.replace 0 b true none] ++ [.reopen 0 (some p)])).store 0).load freshId
    ((fresh p).run ([.replace 0 b true none] ++ [.reopen 0 (some p)])).disk

theorem foundAgain_eq_none {b : Backend} {p : Path} {freshId : String}
    (h : ModelStore.kept? freshId p ((fresh p).run [.replace 0 b true none]).disk = none) :
    foundAgain p b freshId = (none, ⟨some p, none⟩) := by
  obtain ⟨hstore, hdisk⟩ := run_reopen (fresh p) [.replace 0 b true none] 0 (some p)
  rw [foundAgain, hstore, hdisk, ModelStore.load, Option.bind_some, h]

/-- A model that can be encoded but whose text is not read back is not found by a restart. -/
theorem foundAgain_of_isEncodable {b : Backend} {p : Path} (hp : p ≠ []) {freshId : String}
    (hencodable : b.isEncodable = true) (h : Backend.ofText? freshId b.persistedText = none) :
    foundAgain p b freshId = (none, ⟨some p, none⟩) := by
  have hwhole := (isReplaced_step (fresh p) 0 b true none).kept p rfl rfl
  rw [Backend.stop?_of_isEncodable hencodable] at hwhole
  have hfree := (ModelStore.attempt_isOk _ b.persistedText _).2 (not_isBlocked_fresh hp)
  exact foundAgain_eq_none
    ((ModelStore.kept?_persistedText freshId (hwhole.done rfl hfree).1).trans h)

/-- A model that cannot be encoded is not found by a restart. -/
theorem foundAgain_of_not_isEncodable {b : Backend} {p : Path} (hp : p ≠ []) (freshId : String)
    (hencodable : b.isEncodable = false) : foundAgain p b freshId = (none, ⟨some p, none⟩) := by
  have hwhole := (isReplaced_step (fresh p) 0 b true none).kept p rfl rfl
  have hstop : b.stop? p none ≠ none := by simp [Backend.stop?, hencodable]
  have hempty : (fresh p).disk.find? p = none := by
    rw [Disk.find?, if_neg hp]
    rfl
  exact foundAgain_eq_none
    (ModelStore.kept?_of_absent freshId ((hwhole.failed (.inl hstop)).trans hempty))

/-- Models with a status of 4301 digits and with half of a surrogate pair in a schema are read, and
a restart does not find them again: the text of the first is not read, and the second has none. -/
theorem foundAgain_unsupported :
    (Backend.ofJson "1" (Backend.singleJson (.int (10 ^ 4300)) .null) =
        .ok (Backend.single ⟨10 ^ 4300, "", none⟩) ∧
      foundAgain ["model.json"] (Backend.single ⟨10 ^ 4300, "", none⟩) "1" =
        (none, ⟨some ["model.json"], none⟩)) ∧
    (Backend.ofJson "1" (Backend.singleJson (.int 200)
        (.obj [("title", .broken [.half ⟨0xD800, by decide⟩])])) =
        .ok (Backend.single ⟨200, "", some [("title", .broken [.half ⟨0xD800, by decide⟩])]⟩) ∧
      foundAgain ["model.json"]
          (Backend.single ⟨200, "", some [("title", .broken [.half ⟨0xD800, by decide⟩])]⟩) "1" =
        (none, ⟨some ["model.json"], none⟩)) :=
  ⟨⟨Backend.ofJson_singleJson rfl,
      foundAgain_of_isEncodable (by decide) rfl (Backend.ofText?_longStatus "1")⟩,
    Backend.ofJson_singleJson rfl, foundAgain_of_not_isEncodable (by decide) "1" rfl⟩

end Stores

end Nanoservice
