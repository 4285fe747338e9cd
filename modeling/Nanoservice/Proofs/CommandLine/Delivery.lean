import Nanoservice.CommandLine.Run
import Nanoservice.Proofs.Artifacts
import Nanoservice.Proofs.Generation.Assembly
import Nanoservice.Proofs.Http.Session
import Nanoservice.Proofs.Store.Restart

/-!
# What a generation leaves behind

A generation that ends well has written all artifacts and kept the model, so that the program can be
started with it from then on; one that does not leaves the disk as it was (`run_isDelivered`).
Everything that can fail is in front of the first file that is written, but for one thing: the page
is made, and with it a template stored that was not there, before the model is encoded. A model that
cannot be written, as it holds half of a surrogate pair, breaks off between the two
(`run_leavesTemplate`).

The model is kept where its file among the artifacts is, or outside of the output folder. In both
cases the place is clear of the artifacts (`IsStatePlace.isClear`), so the artifacts leave room for
it, and keeping the model leaves the artifacts (`keep_after_write`).
-/

namespace Nanoservice

/-! ## Models that a generation makes -/

namespace Candidate

variable {pairsOnly : Bool} {fs : Fields}

/-- The objects of a list that the reader can give are values that it can give. -/
theorem isRead_of_mem_objects {key : String} {w : Fields} (h : Json.IsRead pairsOnly (.obj fs))
    (hw : w ∈ objects (fs.lookup (.plain key))) : Json.IsRead pairsOnly (.obj w) := by
  unfold objects at hw
  split at hw
  · next vs hvs =>
    cases h.lookup hvs with
    | arr hitems => exact hitems _ (mem_objects.1 hw)
  · cases hw

/-- The endpoints that a model gets are values that the reader can give. -/
theorem isRead_endpoints (h : Json.IsRead pairsOnly (.obj fs)) :
    ∀ v ∈ endpoints fs, Json.IsRead pairsOnly v := by
  unfold endpoints
  split
  · next vs hvs =>
    cases h.lookup hvs with
    | arr hitems => exact hitems
  · intro v hv
    obtain ⟨w, hw, hv⟩ := List.mem_flatMap.1 hv
    cases hlookup : w.lookup (.plain "endpoints") with
    | none => simp [hlookup] at hv
    | some u =>
      cases (isRead_of_mem_objects h hw).lookup hlookup with
      | arr hitems =>
        rw [hlookup] at hv
        exact hitems v hv
      | null | bool | int | float | str | broken | obj => simp [hlookup, Json.items?] at hv

/-- What is read as a model is a value that the reader can give. -/
theorem isRead_prepared (h : Json.IsRead pairsOnly (.obj fs)) :
    Json.IsRead pairsOnly (prepared fs) := by
  have hfield (key : String) : Json.IsRead pairsOnly ((fs.lookup (.plain key)).getD .null) := by
    cases hlookup : fs.lookup (.plain key) with
    | none => exact .null
    | some v => exact h.lookup hlookup
  refine .obj (by simp) (by simp [Json.IsReadText]) ?_
  simp only [List.forall_mem_cons, List.not_mem_nil, false_imp_iff, implies_true, and_true]
  refine ⟨hfield _, hfield _, hfield _, ?_, hfield _, .arr (isRead_endpoints h)⟩
  split
  · exact .arr (by simp)
  · exact hfield _

/-- The responses of the model of a candidate that was read. -/
theorem isReadAs_of_validate {freshId : String} {raw : Json} {b : Backend}
    (hread : Json.IsRead pairsOnly raw) (h : validate freshId raw = .ok b) :
    ∀ r ∈ b.responses, r.IsReadAs pairsOnly := by
  obtain ⟨fs, rfl, -, -, -, hmodel⟩ := validate_eq_ok.1 h
  exact Backend.isReadAs_of_ofJson (isRead_prepared hread) hmodel

/-- The model of an accepted candidate that can be written can be kept when it is read back with its
keys and is not nested too deep. -/
theorem isKeepable_of_validate {freshId : String} {raw : Json} {b : Backend}
    (hread : Json.IsRead pairsOnly raw) (h : validate freshId raw = .ok b) (hb : b.IsWritable)
    (hkeys : ∀ r ∈ b.responses, r.HasWholeKeys)
    (hlevels : b.toJson.levels ≤ Json.readableLevels) : b.IsKeepable := by
  have hresponses := isReadAs_of_validate hread h
  obtain ⟨fs, rfl, -, -, -, hmodel⟩ := validate_eq_ok.1 h
  refine ⟨⟨_, _, hmodel⟩, hb.texts, fun r hr => ⟨(hresponses r hr).status, fun gs hgs => ?_⟩,
    hlevels⟩
  exact ((hresponses r hr).schema gs hgs).of_whole (hb.responses r hr gs hgs).1 (hkeys r hr gs hgs)

end Candidate

namespace Generation

variable {freshId : String} {b : Backend}

/-- The model that a reply comes to is that of a candidate that was read. -/
theorem exists_of_decode {t : String}
    (h : (Reply.decode t).map (validated freshId) = .ok (.ok b)) :
    ∃ v, Json.IsRead false v ∧ Candidate.validate freshId v = .ok b := by
  unfold Reply.decode at h
  split at h
  · simp [Except.map, validated] at h
  · simp [Except.map] at h
  · next v hv =>
    have hread := Json.isRead_of_readChars hv
    have hagrees := validated_agrees hread freshId
    rw [Except.map, Except.ok.injEq] at h
    refine ⟨v, hread, ?_⟩
    cases hvalid : Candidate.validate freshId v with
    | ok m =>
      rw [hvalid, h] at hagrees
      cases hagrees
      rfl
    | error r =>
      rw [hvalid, h] at hagrees
      obtain ⟨s, hs, -⟩ := hagrees
      cases hs

/-- A generation that comes to a model has an accepted input, and the model is that of a candidate
that was read. -/
theorem exists_of_assemble {prompt : RawText} {settings : Settings} {override : Option RawText}
    {respond : CompletionRequest → Completion}
    (h : (assemble freshId settings prompt override respond).2 = .ok (.ok b)) :
    Prompt.inputFailure? (some prompt) settings.apiKey = none ∧
      ∃ v, Json.IsRead false v ∧ Candidate.validate freshId v = .ok b := by
  cases hinput : Prompt.inputFailure? (some prompt) settings.apiKey with
  | some f => simp [assemble, translate, request, hinput, Except.map, validated] at h
  | none =>
    refine ⟨rfl, ?_⟩
    obtain ⟨r, hr⟩ : ∃ r, request settings prompt override = .ok r := by
      simp [request, hinput]
    simp only [assemble, translate, hr] at h
    cases hrespond : respond r with
    | failure m => simp [hrespond, candidate, Except.map, validated] at h
    | crash m => simp [hrespond, candidate, Except.map] at h
    | reply t =>
      rw [hrespond] at h
      exact exists_of_decode h

end Generation

namespace CommandLine

open ModelStore (sibling)

variable {ambient : Ambient} {here : Path} {settings : Settings} {prompt : String} {o : Options}
  {respond : CompletionRequest → Completion} {sent : List CompletionRequest} {b : Backend}
  {root templates state q : Path} {page date : String} {d e : Disk}

/-! ## Room for what is delivered -/

/-- There is room for a file at a place, and the template is not in its way if it has to be stored
first. -/
structure IsWritable (d : Disk) (templates q : Path) : Prop where
  room : d.Admits q
  template : (d.find? (Backend.templatePlace templates)).isSome ∨
    ¬ Backend.templatePlace templates <+: q.dropLast ∧ ¬ q <+: templates

theorem IsWritable.admits_page (h : IsWritable d templates q) (b : Backend) (date : String) :
    (b.page templates date d).1.Admits q :=
  b.admits_page h.room date h.template

/-- The artifacts of a model can be written, and so can the file where it is kept and the sibling of
that, which are not on the way to the output folder. -/
structure HasRoom (b : Backend) (root templates state : Path) (d : Disk) : Prop where
  artifacts : ∀ page, ∀ f ∈ b.artifacts page, IsWritable d templates (Path.resolve root f.path)
  kept : IsWritable d templates state
  beside : IsWritable d templates (sibling state)
  apart : ¬ state <+: root ∧ ¬ sibling state <+: root

/-- A model is kept where its file among the artifacts is, or outside of the output folder. -/
def IsStatePlace (root state : Path) : Prop :=
  state = root ++ ["backend.json"] ∨ ¬ root <+: state

/-- The sibling of a place outside of the output folder is outside as well, if it is not the folder
itself. -/
theorem not_prefix_sibling (houtside : ¬ root <+: state) (habove : ¬ sibling state <+: root) :
    ¬ root <+: sibling state := by
  intro hpre
  rcases Path.prefix_dropLast_or_eq hpre with hpre | rfl
  · rw [ModelStore.dropLast_sibling] at hpre
    exact houtside (hpre.trans (List.dropLast_prefix state))
  · exact habove (List.prefix_refl _)

namespace IsStatePlace

/-- The place where a model is kept is clear of its artifacts. -/
theorem isClear (h : IsStatePlace root state) (habove : ¬ state <+: root) :
    Backend.IsClear root state :=
  h.imp (fun he => ⟨_, by decide, he⟩) fun houtside => ⟨houtside, habove⟩

/-- So is its sibling. -/
theorem isClear_sibling (h : IsStatePlace root state) (habove : ¬ sibling state <+: root) :
    Backend.IsClear root (sibling state) := by
  rcases h with rfl | houtside
  · exact .inl ⟨"backend.json.tmp", by decide, by simp [sibling]⟩
  · exact .inr ⟨not_prefix_sibling houtside habove, habove⟩

/-- An artifact that is kept where the model is kept is the file of the model. -/
theorem content_eq (h : IsStatePlace root state) {f : OutputFile} (hf : f ∈ b.artifacts page)
    (he : Path.resolve root f.path = state) : f.content = b.persistedText := by
  rcases h with rfl | houtside
  · rw [← Backend.resolve_model] at he
    have hsame := List.inj_on_of_nodup_map (b.nodup_targets_artifacts page root) hf
      (b.model_mem_artifacts page) he
    rw [hsame]
  · refine absurd ?_ houtside
    rw [← he, (b.isPlain_of_mem_artifacts page hf).resolve]
    exact List.prefix_append _ _

/-- No artifact is written to the sibling. -/
theorem target_ne_sibling (h : IsStatePlace root state) (habove : ¬ sibling state <+: root)
    {f : OutputFile} (hf : f ∈ b.artifacts page) : Path.resolve root f.path ≠ sibling state := by
  rw [(b.isPlain_of_mem_artifacts page hf).resolve]
  intro he
  rcases h with rfl | houtside
  · rw [sibling, List.dropLast_concat, List.append_cancel_left_eq] at he
    rcases b.components_artifacts page hf with ⟨n, hn, hone⟩ | ⟨rest, hrest, hservice⟩
    · rw [hone] at he
      obtain rfl : n = "backend.json.tmp" := by simpa using he
      exact absurd hn (by decide)
    · rw [hservice] at he
      exact hrest (List.cons.inj he).2
  · exact not_prefix_sibling houtside habove (he ▸ List.prefix_append _ _)

end IsStatePlace

/-! ## Delivering -/

/-- What is there when a model was delivered: every artifact, and where the model is kept what the
file of the model among the artifacts holds. No other file but the template has changed. -/
structure IsDelivered (b : Backend) (root templates state : Path) (date : String) (d e : Disk) :
    Prop where
  artifacts : ∀ f ∈ b.artifacts (b.page templates date d).2,
    e.find? (Path.resolve root f.path) = some (.file (.text f.content))
  kept : e.find? state = e.find? (Path.resolve root "backend.json")
  others : ∀ q c, (∀ f ∈ b.artifacts (b.page templates date d).2, q ≠ Path.resolve root f.path) →
    q ≠ state → q ≠ sibling state → q ≠ Backend.templatePlace templates →
      (e.find? q = some (.file c) ↔ d.find? q = some (.file c))

/-- The model is kept as its text. -/
theorem IsDelivered.find?_state (h : IsDelivered b root templates state date d e) :
    e.find? state = some (.file (.text b.persistedText)) :=
  h.kept.trans (h.artifacts _ (b.model_mem_artifacts _))

/-- A text can be kept where there is room for it and for the sibling. -/
theorem not_isBlocked_of_admits (h : d.Admits state) (hsibling : d.Admits (sibling state)) :
    ¬ ModelStore.IsBlocked d state := by
  intro hblocked
  cases hblocked with
  | way hpre hfile => exact h.way _ _ hpre hfile
  | sibling hfolder => exact hsibling.place hfolder
  | place hfolder => exact h.place hfolder

/-- Keeping the text of a model whose artifacts were written leaves them all there, and changes no
other file. -/
theorem keep_after_write {ps : List Path} {d₁ : Disk}
    (hwrite : Output.write root (b.artifacts page) d₁ = (e, .ok ps)) (htree : e.IsTree)
    (hplace : IsStatePlace root state) (habove : ¬ sibling state <+: root)
    (hfree : ¬ ModelStore.IsBlocked e state) :
    (∀ f ∈ b.artifacts page,
      (ModelStore.keep state b.persistedText e).find? (Path.resolve root f.path) =
        some (.file (.text f.content))) ∧
    (ModelStore.keep state b.persistedText e).find? state = some (.file (.text b.persistedText)) ∧
    ∀ q c, (∀ f ∈ b.artifacts page, q ≠ Path.resolve root f.path) → q ≠ state →
      q ≠ sibling state → ((ModelStore.keep state b.persistedText e).find? q = some (.file c) ↔
        d₁.find? q = some (.file c)) := by
  have hwhole := ModelStore.keepUntil_isWhole htree state b.persistedText none
  rw [ModelStore.keepUntil] at hwhole
  obtain ⟨htext, -⟩ := hwhole.done rfl ((ModelStore.attempt_isOk _ _ _).2 hfree)
  refine ⟨fun f hf => ?_, htext, fun q c hq hstate hsibling => ?_⟩
  · have hwritten := Output.find?_write hwrite (b.nodup_targets_artifacts page root) hf
    by_cases he : Path.resolve root f.path = state
    · rw [he, htext, hplace.content_eq hf he]
    · exact (hwhole.files _ _ he (hplace.target_ne_sibling habove hf)).2 hwritten
  · rw [hwhole.files q c hstate hsibling]
    have hmem : q ∉ ((b.artifacts page).map
        fun f => (Path.resolve root f.path, f.content)).map Prod.fst := by
      rw [List.map_map]
      intro hmem
      obtain ⟨f, hf, rfl⟩ := List.mem_map.1 hmem
      exact hq f hf rfl
    have hkept := Output.file_write (d := d₁) (c := c) (b.targets_artifacts page root) hmem
    rwa [hwrite] at hkept

/-- A model of which artifacts can be made and that has room is delivered by writing its artifacts
and keeping its text. -/
theorem exists_isDelivered (hb : b.artifactFault? = none) (hd : d.IsTree)
    (hplace : IsStatePlace root state) (hroom : HasRoom b root templates state d) (date : String) :
    ∃ e, b.writeArtifacts root templates date d =
        (e, .ok (b.artifacts (b.page templates date d).2)) ∧
      IsDelivered b root templates state date d (ModelStore.keep state b.persistedText e) := by
  have hadmits (q : Path) (h : IsWritable d templates q) := h.admits_page b date
  obtain ⟨e, hwrite⟩ := b.exists_write_artifacts_of_admits (b.page templates date d).2
    fun f hf => hadmits _ (hroom.artifacts _ f hf)
  have htree := Output.isTree_write (b.isTree_page hd templates date) root
    (b.artifacts (b.page templates date d).2)
  have hstate := b.admits_write_artifacts (b.page templates date d).2 (hadmits _ hroom.kept)
    (hplace.isClear hroom.apart.1)
  have hsibling := b.admits_write_artifacts (b.page templates date d).2 (hadmits _ hroom.beside)
    (hplace.isClear_sibling hroom.apart.2)
  rw [hwrite] at htree hstate hsibling
  obtain ⟨hartifacts, htext, hothers⟩ := keep_after_write hwrite htree hplace hroom.apart.2
    (not_isBlocked_of_admits hstate hsibling)
  refine ⟨e, by rw [b.writeArtifacts_of_eq_none hb, hwrite]; rfl, hartifacts, ?_, ?_⟩
  · rw [htext, hartifacts _ (b.model_mem_artifacts _)]
  · intro q c hq hne hne' htemplate
    rw [hothers q c hq hne hne', b.file_page templates date d htemplate]

/-- A model of which artifacts can be made and that has room is delivered. -/
theorem deliver_of_eq_none (ambient : Ambient) (sent : List CompletionRequest)
    (hb : b.artifactFault? = none) (hd : d.IsTree)
    (hfile : (storeOf here settings).file = some state)
    (hplace : IsStatePlace (Path.resolve here o.output) state)
    (hzero : Output.hasZero o.output = false)
    (hroom : HasRoom b (Path.resolve here o.output) (Path.resolve here settings.templatesDir) state
      d) :
    ∃ e r, deliver ambient here settings o sent b d = (e, .ok r) ∧ r.exitCode = 0 ∧
      IsDelivered b (Path.resolve here o.output) (Path.resolve here settings.templatesDir) state
        ambient.date d e := by
  obtain ⟨e, hwrite, hdelivered⟩ := exists_isDelivered hb hd hplace hroom ambient.date
  have hencodable := Backend.isEncodable_iff.2 (Backend.artifactFault?_eq_none.1 hb).1
  have hreport : ∃ r, deliver ambient here settings o sent b d =
      (ModelStore.keep state b.persistedText e, .ok r) ∧ r.exitCode = 0 := by
    simp only [deliver, hzero, hwrite, ModelStore.replace, hfile, hencodable, if_true,
      Bool.false_eq_true, if_false]
    exact ⟨_, rfl, rfl⟩
  obtain ⟨r, hr, hcode⟩ := hreport
  exact ⟨_, r, hr, hcode, hdelivered⟩

/-- The delivery of a model of which no artifacts can be made breaks off when its page was made. -/
theorem deliver_of_artifactFault {f : ArtifactFault} (h : b.artifactFault? = some f) :
    deliver ambient here settings o sent b d =
      ((b.page (Path.resolve here settings.templatesDir) ambient.date d).1,
        .error (.artifacts f)) := by
  simp only [deliver, b.writeArtifacts_of_artifactFault h, Backend.makeArtifacts, h]
  exact ite_self _

/-! ## Running -/

/-- A generation comes to a model. -/
def Makes (ambient : Ambient) (settings : Settings) (respond : CompletionRequest → Completion)
    (prompt : String) (o : Options) (b : Backend) : Prop :=
  (Generation.assemble ambient.modelId settings prompt o.model respond).2 = .ok (.ok b)

/-- A model that a generation comes to can be kept when it can be written, its keys are whole, and
it is not nested too deep. -/
theorem Makes.isKeepable (h : Makes ambient settings respond prompt o b) (hb : b.IsWritable)
    (hkeys : ∀ q ∈ b.responses, q.HasWholeKeys)
    (hlevels : b.toJson.levels ≤ Json.readableLevels) : b.IsKeepable := by
  obtain ⟨-, v, hread, hvalid⟩ := Generation.exists_of_assemble h
  exact Candidate.isKeepable_of_validate hread hvalid hb hkeys hlevels

/-- What keeps the artifacts of a model from being made that a generation comes to is that the model
cannot be written. -/
theorem Makes.artifactFault?_eq (h : Makes ambient settings respond prompt o b) :
    b.artifactFault? = b.encodingFault?.map .encoding := by
  obtain ⟨-, v, hread, hvalid⟩ := Generation.exists_of_assemble h
  have hshort : ∀ r ∈ b.responses, r.HasShortIntegers := fun r hr =>
    (Candidate.isReadAs_of_validate hread hvalid r hr).integers.2
  exact Backend.artifactFault?_of_hasShortDocument (Backend.hasShortDocument_of_schemas hshort)

/-- A generation comes to one model at most. -/
theorem Makes.unique {b' : Backend} (h : Makes ambient settings respond prompt o b)
    (h' : Makes ambient settings respond prompt o b') : b = b' := by
  rw [Makes, h] at h'
  cases h'
  rfl

/-- A generation that comes to a model delivers it. -/
theorem Makes.generate_eq (h : Makes ambient settings respond prompt o b) (here : Path) (d : Disk) :
    ∃ sent, generate ambient here settings respond prompt o d =
      deliver ambient here settings o sent b d := by
  obtain ⟨hinput, -⟩ := Generation.exists_of_assemble h
  cases hmade : Generation.assemble ambient.modelId settings prompt o.model respond with
  | mk sent made =>
    obtain rfl : made = .ok (.ok b) := by rw [← h, hmade]
    exact ⟨sent, by simp only [generate, hinput, hmade]⟩

/-- A generation that comes to no model leaves the disk as it is. -/
theorem generate_of_not_makes (h : ∀ b, ¬ Makes ambient settings respond prompt o b) (here : Path)
    (d : Disk) : ∃ r, generate ambient here settings respond prompt o d = (d, r) ∧
      exitCode r = 1 := by
  unfold generate
  split
  · exact ⟨_, rfl, rfl⟩
  · split
    · exact ⟨_, rfl, rfl⟩
    · exact ⟨_, rfl, rfl⟩
    · next sent b hmade => exact absurd (by rw [Makes, hmade]) (h b)

/-- How a generation ends: without a model, with one that is delivered, or at the fault of one that
cannot be encoded. -/
theorem generate_ends {r : Except Crash Report} (hd : d.IsTree)
    (hfile : (storeOf here settings).file = some state)
    (hplace : IsStatePlace (Path.resolve here o.output) state)
    (hzero : Output.hasZero o.output = false)
    (hroom : ∀ b, Makes ambient settings respond prompt o b →
      HasRoom b (Path.resolve here o.output) (Path.resolve here settings.templatesDir) state d)
    (hrun : generate ambient here settings respond prompt o d = (e, r)) :
    ((∀ b, ¬ Makes ambient settings respond prompt o b) ∧ e = d ∧ exitCode r = 1) ∨
    ∃ b, Makes ambient settings respond prompt o b ∧
      ((b.IsWritable ∧ exitCode r = 0 ∧
        IsDelivered b (Path.resolve here o.output) (Path.resolve here settings.templatesDir) state
          ambient.date d e) ∨
      ∃ f, b.encodingFault? = some f ∧ r = .error (.artifacts (.encoding f)) ∧
        e = (b.page (Path.resolve here settings.templatesDir) ambient.date d).1) := by
  by_cases hmakes : ∃ b, Makes ambient settings respond prompt o b
  · obtain ⟨b, hb⟩ := hmakes
    obtain ⟨sent, hsent⟩ := hb.generate_eq here d
    rw [hsent] at hrun
    refine .inr ⟨b, hb, ?_⟩
    have hartifacts := hb.artifactFault?_eq
    cases hfault : b.encodingFault? with
    | none =>
      rw [hfault] at hartifacts
      obtain ⟨e', r', hdeliver, hcode, hdelivered⟩ :=
        deliver_of_eq_none ambient sent hartifacts hd hfile hplace hzero (hroom b hb)
      rw [hdeliver] at hrun
      cases hrun
      exact .inl ⟨(Backend.artifactFault?_eq_none.1 hartifacts).1, hcode, hdelivered⟩
    | some f =>
      rw [hfault] at hartifacts
      rw [deliver_of_artifactFault hartifacts] at hrun
      cases hrun
      exact .inr ⟨f, rfl, rfl, rfl⟩
  · have hnone : ∀ b, ¬ Makes ambient settings respond prompt o b := fun b hb => hmakes ⟨b, hb⟩
    obtain ⟨r', hr', hcode⟩ := generate_of_not_makes hnone here d
    rw [hr'] at hrun
    cases hrun
    exact .inl ⟨hnone, rfl, hcode⟩

theorem run_generate {words : List String}
    (hcommand : Command.ofWords settings words = .ok (.generate prompt o)) :
    run ambient here settings respond words d =
      generate ambient here settings respond prompt o d := by
  simp only [run, hcommand]

/-- A server is started with the model that is read back from the text that is kept. -/
theorem run_serve {words : List String} (hcommand : Command.ofWords settings words = .ok (.serve o))
    (hfile : (storeOf here settings).file = some state)
    (htext : d.find? state = some (.file (.text b.persistedText))) :
    ∃ r, run ambient here settings respond words d = (d, .ok r) ∧ r.exitCode = 0 ∧
      r.servers = [serverOf settings o
        ⟨some state, Backend.ofText? ambient.modelId b.persistedText⟩] := by
  have hstore : storeOf here settings = ⟨some state, none⟩ := by rw [← hfile]; rfl
  refine ⟨serve ambient here settings o d, by simp only [run, hcommand], rfl, ?_⟩
  have hkept := ModelStore.kept?_persistedText ambient.modelId htext
  cases hfound : Backend.ofText? ambient.modelId b.persistedText with
  | none =>
    rw [hfound] at hkept
    simp only [serve, hstore, ModelStore.load, Option.bind_some, hkept]
  | some m =>
    rw [hfound] at hkept
    simp only [serve, hstore, ModelStore.load, Option.bind_some, hkept]

/-- What the program does when its command line asks for a generation. The output folder and the
place where the model is kept have room, and the one is where its file among the artifacts is, or
outside of the folder.

The exit code is zero or one. A run that exits with one has left the disk as it was, if a model that
it came to can be written. One that exits with zero has delivered the model that it came to, and
whenever the program is started next to serve, it does so with the model that the delivered text
holds: with this one, if its keys are whole and it is not nested too deep. Every model that can be
written is delivered; one that cannot breaks the run off when its page was made. -/
theorem run_isDelivered {words : List String} {r : Except Crash Report}
    (hcommand : Command.ofWords settings words = .ok (.generate prompt o)) (hd : d.IsTree)
    (hfile : (storeOf here settings).file = some state)
    (hplace : IsStatePlace (Path.resolve here o.output) state)
    (hzero : Output.hasZero o.output = false)
    (hroom : ∀ b, Makes ambient settings respond prompt o b →
      HasRoom b (Path.resolve here o.output) (Path.resolve here settings.templatesDir) state d)
    (hrun : run ambient here settings respond words d = (e, r)) :
    (exitCode r = 0 ∨ exitCode r = 1) ∧
    (exitCode r = 1 →
      (∀ b, Makes ambient settings respond prompt o b → b.IsWritable) → e = d) ∧
    (exitCode r = 0 → ∃ b, Makes ambient settings respond prompt o b ∧
      IsDelivered b (Path.resolve here o.output) (Path.resolve here settings.templatesDir) state
        ambient.date d e ∧
      (∀ ambient' respond' words' o', Command.ofWords settings words' = .ok (.serve o') →
        ∃ r', run ambient' here settings respond' words' e = (e, .ok r') ∧ r'.exitCode = 0 ∧
          r'.servers = [serverOf settings o'
            ⟨some state, Backend.ofText? ambient'.modelId b.persistedText⟩]) ∧
      ((∀ q ∈ b.responses, q.HasWholeKeys) → b.toJson.levels ≤ Json.readableLevels →
        ∀ freshId, Backend.ofText? freshId b.persistedText = some b.finite)) ∧
    ∀ b, Makes ambient settings respond prompt o b →
      (b.IsWritable → exitCode r = 0) ∧
      ∀ f, b.encodingFault? = some f → r = .error (.artifacts (.encoding f)) ∧
        e = (b.page (Path.resolve here settings.templatesDir) ambient.date d).1 := by
  rw [run_generate hcommand] at hrun
  rcases generate_ends hd hfile hplace hzero hroom hrun with ⟨hnone, rfl, hcode⟩ |
    ⟨b, hb, ⟨hwritable, hcode, hdelivered⟩ | ⟨f, hfault, rfl, rfl⟩⟩
  · refine ⟨.inr hcode, fun _ _ => rfl, fun hzero => ?_, fun b hb => absurd hb (hnone b)⟩
    rw [hcode] at hzero
    cases hzero
  · refine ⟨.inl hcode, fun hone => ?_, fun _ => ⟨b, hb, hdelivered, ?_, ?_⟩, fun b' hb' => ?_⟩
    · rw [hcode] at hone
      cases hone
    · intro ambient' respond' words' o' hserve
      exact run_serve hserve hfile hdelivered.find?_state
    · intro hkeys hlevels freshId
      have hkeepable := hb.isKeepable hwritable hkeys hlevels
      obtain ⟨id, v, hread⟩ := hkeepable.read
      exact Backend.ofText?_toText_of_isNormal (Backend.isNormal_of_ofJson hread)
        hkeepable.supported _ freshId
    · obtain rfl := hb.unique hb'
      exact ⟨fun _ => hcode, fun f hf => absurd hwritable (Backend.not_isWritable_of_fault hf)⟩
  · have hbroken := Backend.not_isWritable_of_fault hfault
    refine ⟨.inr rfl, fun _ hall => absurd (hall b hb) hbroken, ?_, fun b' hb' => ?_⟩
    · rintro ⟨⟩
    · obtain rfl := hb.unique hb'
      refine ⟨fun hwritable => absurd hwritable hbroken, fun f' hf' => ?_⟩
      obtain rfl : f = f' := Option.some.inj (hfault.symm.trans hf')
      exact ⟨rfl, rfl⟩

/-- The settings of a program with a key, and else the defaults. -/
def keyed : Settings := { apiKey := some "key" }

/-- Surroundings with one identity, and without a date. -/
def undated : Ambient := ⟨"0", fun _ => "1", "", ""⟩

/-- A place in the folder of the default output can be written on a new disk. -/
theorem isWritable_generated (n : String) (ns : Path) :
    IsWritable {} ["templates"] ("generated" :: n :: ns) where
  room := Disk.admits_empty (List.cons_ne_nil _ _)
  template := by
    refine .inr ⟨fun hpre => ?_, fun hpre => ?_⟩
    · rw [List.dropLast_cons_of_ne_nil (List.cons_ne_nil _ _)] at hpre
      exact absurd (List.cons_prefix_cons.1 hpre).1 (by decide)
    · exact absurd (List.cons_prefix_cons.1 hpre).1 (by decide)

/-- There is room for any model on a new disk. -/
theorem hasRoom_empty (b : Backend) :
    HasRoom b ["generated"] ["templates"] ["generated", "backend.json"] {} where
  artifacts page f hf := by
    rw [(b.isPlain_of_mem_artifacts page hf).resolve]
    cases hcomponents : Path.components f.path with
    | nil => exact absurd hcomponents (Path.components_ne_nil _)
    | cons n ns => exact isWritable_generated n ns
  kept := isWritable_generated _ _
  beside := isWritable_generated _ _
  apart := by decide

/-- The default settings come to a model when the reply holds it. -/
theorem makes_of_read {text : String} {v : Json} (h : Json.read text = .ok (Http.cappedJson v)) :
    Makes undated keyed (fun _ => .reply text) "shop" (.ofSettings keyed) (Http.capped v) := by
  rw [Makes, Generation.assemble_of_reply (by decide) fun _ _ => rfl]
  exact Http.conclude_of_read h

/-- A model with a special number in a schema is delivered, and served with null in its place. -/
theorem run_isDelivered_unlimited :
    ∃ e r, run undated [] keyed (fun _ => .reply Http.unlimitedReply) ["generate", "shop"] {} =
        (e, r) ∧ exitCode r = 0 ∧
      e.find? ["generated", "backend.json"] =
        some (.file (.text (Http.capped (.float .nan)).persistedText)) ∧
      ∃ r', run undated [] keyed (fun _ => .failure "") ["serve"] e = (e, .ok r') ∧
        r'.servers.map (fun s => s.store.current) = [some (Http.capped .null)] := by
  have hmakes := makes_of_read Http.read_unlimitedReply
  have hcommand : Command.ofWords keyed ["generate", "shop"] =
      .ok (.generate "shop" (.ofSettings keyed)) := rfl
  have hserve : Command.ofWords keyed ["serve"] = .ok (.serve (.ofSettings keyed)) := rfl
  have hroot : Path.resolve [] (Options.ofSettings keyed).output = ["generated"] := by decide
  have htemplates : Path.resolve [] keyed.templatesDir = ["templates"] := by decide
  have hfile : (storeOf [] keyed).file = some ["generated", "backend.json"] := by decide
  cases hrun : run undated [] keyed (fun _ => .reply Http.unlimitedReply) ["generate", "shop"]
      {} with
  | mk e r =>
    obtain ⟨-, -, hdelivers, hmade⟩ := run_isDelivered hcommand Disk.isTree_empty hfile
      (.inl (by rw [hroot]; rfl)) (by decide)
      (fun b _ => by rw [hroot, htemplates]; exact hasRoom_empty b) hrun
    have hcode := (hmade _ hmakes).1 (Backend.isEncodable_iff.1 rfl)
    obtain ⟨b, hb, hdelivered, hserved, hfound⟩ := hdelivers hcode
    obtain rfl := hmakes.unique hb
    obtain ⟨r', hr', -, hservers⟩ := hserved undated (fun _ => .failure "") ["serve"] _ hserve
    refine ⟨e, r, rfl, hcode, hdelivered.find?_state, r', hr', ?_⟩
    have hkeys : ∀ q ∈ (Http.capped (.float .nan)).responses, q.HasWholeKeys := by
      simp [Http.capped, Backend.ofEndpoints, Backend.responses, Response.HasWholeKeys,
        Json.fieldsHaveWholeKeys, Json.hasWholeKeys]
    rw [hservers, hfound hkeys (by decide)]
    rfl

/-- A model with half of a surrogate pair in a schema is not delivered, although there is room for
it, and leaves the template behind that was not there. -/
theorem run_leavesTemplate :
    (∀ b, HasRoom b ["generated"] ["templates"] ["generated", "backend.json"] {}) ∧
    ∃ e r, run undated [] keyed (fun _ => .reply Http.halvedReply) ["generate", "shop"] {} =
        (e, r) ∧ exitCode r = 1 ∧
      ({} : Disk).find? ["templates", "documentation.html.j2"] = none ∧
      e.find? ["templates", "documentation.html.j2"] =
        some (.file (.text Page.builtInTemplate)) := by
  have hmakes := makes_of_read Http.read_halvedReply
  have hcommand : Command.ofWords keyed ["generate", "shop"] =
      .ok (.generate "shop" (.ofSettings keyed)) := rfl
  have hfault : (Http.capped (.broken [.half ⟨0xD800, by decide⟩])).artifactFault? =
      some (.encoding (.broken [.half ⟨0xD800, by decide⟩])) := rfl
  obtain ⟨sent, hsent⟩ := hmakes.generate_eq [] {}
  have hrun := (run_generate hcommand).trans (hsent.trans (deliver_of_artifactFault hfault))
  refine ⟨hasRoom_empty, _, _, hrun, rfl, rfl, ?_⟩
  have htemplates : Path.resolve [] keyed.templatesDir = ["templates"] := by decide
  rw [Backend.page_disk, htemplates]
  rfl

end CommandLine

end Nanoservice
