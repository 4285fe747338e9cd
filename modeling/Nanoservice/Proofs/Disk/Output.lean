import Nanoservice.Proofs.Disk.Change

/-!
# Where generated files end up

Writing generated files is confined to the output folder (`Output.write_isConfined`). A path that
leads out of the folder is refused before anything is done. Otherwise no file outside the folder is
made, changed or lost, also when something is in the way of a file half-way; and when all files are
written, every target holds the text of the last file that leads to it, and no other file has
changed.

The proof goes from one file (`place_spec`, `file_place`) to a list of files by induction on the
list (`find?_placeAll`, `file_placeAll`).
-/

namespace Nanoservice

/-- A fault of a path itself, which is found before anything is written. -/
def OutputFault.isRefusal : OutputFault → Bool
  | .outside _ | .zeroCharacter => true
  | .disk _ => false

namespace Output

variable {root p q : Path} {d e : Disk} {s : String} {c : Content} {ts : List (Path × String)}

/-! ## One file -/

/-- After a text was written to a place, it is there, there are folders on the way where nothing
was, and all else is as it was. -/
theorem place_spec (h : place d p s = (e, none)) :
    p ≠ [] ∧ ∀ q, e.find? q =
      if q = p then some (.file (.text s))
      else (d.find? q).or (if q <+: p.dropLast then some .folder else none) := by
  unfold place at h
  split at h
  · cases h
  · next d₁ hfolders =>
    split at h
    · cases h
    · next d₂ hwrite =>
      cases h
      obtain ⟨hp, hfind⟩ := Disk.find?_of_writeFile hwrite
      refine ⟨hp, fun q => ?_⟩
      rw [hfind, Disk.find?_of_makeFolders hfolders]

/-- Whatever is in the way of a text, no file but the one at its place is made, changed or lost. -/
theorem file_place (d : Disk) (p : Path) (s : String) (hq : q ≠ p) :
    (place d p s).1.find? q = some (.file c) ↔ d.find? q = some (.file c) := by
  unfold place
  split
  · rfl
  · next d₁ hfolders =>
    split
    · exact Disk.file_of_makeFolders hfolders
    · next d₂ hwrite =>
      rw [(Disk.find?_of_writeFile hwrite).2, if_neg hq]
      exact Disk.file_of_makeFolders hfolders

/-- A text is written to a place unless a file is above the place or a folder is there. -/
theorem exists_place (s : String) (hp : p ≠ [])
    (habove : ∀ q c, q <+: p.dropLast → d.find? q ≠ some (.file c))
    (hfolder : d.find? p ≠ some .folder) : ∃ e, place d p s = (e, none) := by
  have hmake := Disk.makeFolders_eq_ok.2 ⟨habove, rfl⟩
  obtain ⟨e, hwrite⟩ := Disk.exists_writeFile hmake hp hfolder (.text s)
  refine ⟨e, ?_⟩
  unfold place
  rw [hmake]
  simp only [hwrite]

/-! ## A list of files -/

/-- The last text that a list has for a place. -/
def lastText? (p : Path) : List (Path × String) → Option String
  | [] => none
  | t :: ts => (lastText? p ts).or (if t.1 = p then some t.2 else none)

/-- A text behind which no other one is for the same place is the last one for it. -/
theorem lastText?_append {before after : List (Path × String)} (h : ∀ t ∈ after, t.1 ≠ p) :
    lastText? p (before ++ (p, s) :: after) = some s := by
  have hafter : lastText? p after = none := by
    induction after with
    | nil => rfl
    | cons t after ih =>
      rw [lastText?, ih fun u hu => h u (List.mem_cons_of_mem t hu), Option.none_or,
        if_neg (h t List.mem_cons_self)]
  induction before with
  | nil => rw [List.nil_append, lastText?, hafter, Option.none_or, if_pos rfl]
  | cons t before ih => rw [List.cons_append, lastText?, ih, Option.some_or]

/-- A list has no text for a place exactly when the place is none of its own. -/
theorem lastText?_eq_none : lastText? p ts = none ↔ p ∉ ts.map Prod.fst := by
  induction ts with
  | nil => simp [lastText?]
  | cons t ts ih =>
    rw [lastText?, Option.or_eq_none_iff, ih]
    simp [and_comm, eq_comm]

/-- Whatever is in the way of texts, no file but those at their places is made, changed or lost. -/
theorem file_placeAll (d : Disk) (ts : List (Path × String)) (hq : q ∉ ts.map Prod.fst) :
    (placeAll d ts).1.find? q = some (.file c) ↔ d.find? q = some (.file c) := by
  induction ts generalizing d with
  | nil => rfl
  | cons t ts ih =>
    obtain ⟨p, s⟩ := t
    rw [List.map_cons, List.mem_cons, not_or] at hq
    have hplace := file_place (c := c) d p s hq.1
    rw [placeAll]
    split
    · next d₁ hd =>
      rw [hd] at hplace
      rw [ih d₁ hq.2, hplace]
    · next d₁ f hd =>
      rw [hd] at hplace
      exact hplace

/-- After all texts were written, each place holds its last one. -/
theorem find?_placeAll (h : placeAll d ts = (e, none)) (hs : lastText? p ts = some s) :
    e.find? p = some (.file (.text s)) := by
  induction ts generalizing d with
  | nil => cases hs
  | cons t ts ih =>
    obtain ⟨q, s'⟩ := t
    rw [placeAll] at h
    split at h
    · next d₁ hplace =>
      rw [lastText?] at hs
      cases hlast : lastText? p ts with
      | some s'' =>
        rw [hlast, Option.some_or] at hs
        exact ih h (hlast.trans hs)
      | none =>
        -- No later text is for this place, so the rest of the list leaves it alone.
        rw [hlast, Option.none_or] at hs
        obtain ⟨rfl, rfl⟩ : q = p ∧ s' = s := by simpa using hs
        have hrest := file_placeAll (c := .text s') d₁ ts (lastText?_eq_none.1 hlast)
        rw [h] at hrest
        rw [hrest, (place_spec hplace).2, if_pos rfl]
    · cases h

/-- Texts are written to places of which none is above another one, unless a file is above a place
or a folder is there. -/
theorem exists_placeAll (hne : ∀ t ∈ ts, t.1 ≠ [])
    (habove : ∀ t ∈ ts, ∀ q c, q <+: t.1.dropLast → d.find? q ≠ some (.file c))
    (hfolder : ∀ t ∈ ts, d.find? t.1 ≠ some .folder)
    (hapart : ts.Pairwise fun t u => ¬ t.1 <+: u.1.dropLast ∧ ¬ u.1 <+: t.1.dropLast) :
    ∃ e, placeAll d ts = (e, none) := by
  induction ts generalizing d with
  | nil => exact ⟨d, rfl⟩
  | cons t ts ih =>
    obtain ⟨p, s⟩ := t
    rw [List.forall_mem_cons] at hne habove hfolder
    rw [List.pairwise_cons] at hapart
    obtain ⟨d₁, hplace⟩ := exists_place s hne.1 habove.1 hfolder.1
    obtain ⟨-, hfind⟩ := place_spec hplace
    rw [placeAll, hplace]
    refine ih hne.2 ?_ ?_ hapart.2
    · intro t ht q c hpre hc
      rw [hfind] at hc
      split at hc
      · next hq =>
        subst hq
        exact (hapart.1 t ht).1 hpre
      · refine habove.2 t ht q c hpre ?_
        cases hd : d.find? q <;> simp_all
    · intro t ht hc
      rw [hfind] at hc
      split at hc
      · cases hc
      · by_cases hpre : t.1 <+: p.dropLast
        · exact (hapart.1 t ht).2 hpre
        · rw [if_neg hpre, Option.or_none] at hc
          exact hfolder.2 t ht hc

/-! ## Targets -/

/-- A path has a target when it leads below the output folder and has no zero character. -/
theorem target_eq_ok {path : String} :
    target root path = .ok p ↔
      hasZero path = false ∧ (Path.resolve root path).isBelow root = true ∧
        p = Path.resolve root path := by
  simp only [target]
  split
  · next hzero => simp [hzero]
  · next hzero =>
    split
    · next hbelow =>
      rw [Except.ok.injEq]
      exact ⟨fun h => ⟨by simpa using hzero, hbelow, h.symm⟩, fun h => h.2.2.symm⟩
    · next hbelow => simp [hbelow]

/-- A path has no target when it has a zero character or leads out of the output folder. -/
theorem target_eq_error {path : String} {fault : OutputFault}
    (h : target root path = .error fault) :
    fault = .zeroCharacter ∨
      (Path.resolve root path).isBelow root = false ∧ fault = .outside path := by
  simp only [target] at h
  split at h
  · cases h
    exact .inl rfl
  · split at h
    · cases h
    · next hbelow =>
      cases h
      exact .inr ⟨by simpa using hbelow, rfl⟩

/-- A list of files has targets when each of its paths has one. -/
theorem targets_eq_ok {files : List OutputFile} :
    targets root files = .ok ts ↔
      (∀ f ∈ files, hasZero f.path = false ∧ (Path.resolve root f.path).isBelow root = true) ∧
        ts = files.map fun f => (Path.resolve root f.path, f.content) := by
  induction files generalizing ts with
  | nil =>
    rw [targets, Except.ok.injEq]
    exact ⟨fun h => ⟨by simp, h.symm⟩, fun h => h.2.symm⟩
  | cons f files ih =>
    rw [targets]
    cases htarget : target root f.path with
    | error fault =>
      constructor
      · intro h
        cases h
      · rintro ⟨hfiles, -⟩
        obtain ⟨hzero, hbelow⟩ := hfiles f List.mem_cons_self
        rw [target_eq_ok.2 ⟨hzero, hbelow, rfl⟩] at htarget
        cases htarget
    | ok p =>
      obtain ⟨hzero, hbelow, rfl⟩ := target_eq_ok.1 htarget
      rw [List.forall_mem_cons, List.map_cons]
      cases hrest : targets root files with
      | error fault =>
        constructor
        · intro h
          cases h
        · rintro ⟨⟨-, hfiles⟩, -⟩
          rw [ih.2 ⟨hfiles, rfl⟩] at hrest
          cases hrest
      | ok us =>
        obtain ⟨hfiles, rfl⟩ := ih.1 hrest
        constructor
        · intro h
          cases h
          exact ⟨⟨⟨hzero, hbelow⟩, hfiles⟩, rfl⟩
        · rintro ⟨-, rfl⟩
          rfl

/-- The fault of a list of files without targets is that of one of its paths. -/
theorem targets_eq_error {files : List OutputFile} {fault : OutputFault}
    (h : targets root files = .error fault) : ∃ f ∈ files, target root f.path = .error fault := by
  induction files with
  | nil => cases h
  | cons f files ih =>
    rw [targets] at h
    cases htarget : target root f.path with
    | error fault' =>
      rw [htarget] at h
      cases h
      exact ⟨f, List.mem_cons_self, htarget⟩
    | ok p =>
      rw [htarget] at h
      cases hrest : targets root files with
      | error fault' =>
        rw [hrest] at h
        cases h
        obtain ⟨g, hg, hfault⟩ := ih hrest
        exact ⟨g, List.mem_cons_of_mem f hg, hfault⟩
      | ok us =>
        rw [hrest] at h
        cases h

/-! ## Writing all files -/

/-- A refused list of files leaves the disk as it is. -/
theorem write_of_targets_error {files : List OutputFile} {fault : OutputFault}
    (h : targets root files = .error fault) (d : Disk) :
    write root files d = (d, .error fault) := by
  rw [write, h]

/-- Whatever is in the way of files that have targets, no file but those at the targets is made,
changed or lost. -/
theorem file_write {files : List OutputFile} (h : targets root files = .ok ts)
    (hp : p ∉ ts.map Prod.fst) :
    (write root files d).1.find? p = some (.file c) ↔ d.find? p = some (.file c) := by
  cases hroot : d.makeFolders root with
  | error f => simp only [write, h, hroot]
  | ok d₁ =>
    rw [← Disk.file_of_makeFolders hroot, ← file_placeAll d₁ ts hp]
    simp only [write, h, hroot]
    cases placeAll d₁ ts with
    | mk d₂ fault => cases fault <;> rfl

/-- When all files were written, their targets are returned in order, and all texts were placed. -/
theorem write_eq_ok {files : List OutputFile} {ps : List Path}
    (h : write root files d = (e, .ok ps)) :
    ∃ ts d₁, targets root files = .ok ts ∧ placeAll d₁ ts = (e, none) ∧ ps = ts.map Prod.fst := by
  cases htargets : targets root files with
  | error fault =>
    rw [write_of_targets_error htargets] at h
    cases h
  | ok ts =>
    cases hroot : d.makeFolders root with
    | error f =>
      simp only [write, htargets, hroot] at h
      cases h
    | ok d₁ =>
      cases hplace : placeAll d₁ ts with
      | mk d₂ fault =>
        simp only [write, htargets, hroot, hplace] at h
        cases fault with
        | some f => cases h
        | none =>
          cases h
          exact ⟨ts, d₁, rfl, hplace, rfl⟩

/-- When files were written, each target holds the text of the last file that leads to it. -/
theorem find?_write_last {before after : List OutputFile} {f : OutputFile} {ps : List Path}
    (h : write root (before ++ f :: after) d = (e, .ok ps))
    (hlast : ∀ g ∈ after, Path.resolve root g.path ≠ Path.resolve root f.path) :
    e.find? (Path.resolve root f.path) = some (.file (.text f.content)) := by
  obtain ⟨ts, d₁, htargets, hplace, -⟩ := write_eq_ok h
  obtain ⟨-, rfl⟩ := targets_eq_ok.1 htargets
  refine find?_placeAll hplace ?_
  rw [List.map_append, List.map_cons]
  refine lastText?_append fun t ht => ?_
  obtain ⟨g, hg, rfl⟩ := List.mem_map.1 ht
  exact hlast g hg

/-- When files with distinct targets were written, each target holds the text of its file. -/
theorem find?_write {files : List OutputFile} {f : OutputFile} {ps : List Path}
    (h : write root files d = (e, .ok ps))
    (hnodup : (files.map fun f => Path.resolve root f.path).Nodup) (hf : f ∈ files) :
    e.find? (Path.resolve root f.path) = some (.file (.text f.content)) := by
  obtain ⟨before, after, rfl⟩ := List.append_of_mem hf
  refine find?_write_last h fun g hg he => ?_
  rw [List.map_append, List.nodup_append, List.map_cons, List.nodup_cons] at hnodup
  refine hnodup.2.1.1 ?_
  rw [← he]
  exact List.mem_map_of_mem hg

/-- A writing of files that have targets comes to an end or meets an obstacle on the disk. -/
theorem write_outcome {files : List OutputFile} (h : targets root files = .ok ts) (d : Disk) :
    (∃ ps, (write root files d).2 = .ok ps) ∨ ∃ f, (write root files d).2 = .error (.disk f) := by
  cases hroot : d.makeFolders root with
  | error f =>
    refine .inr ⟨f, ?_⟩
    simp only [write, h, hroot]
  | ok d₁ =>
    simp only [write, h, hroot]
    cases placeAll d₁ ts with
    | mk d₂ fault =>
      cases fault with
      | none => exact .inl ⟨_, rfl⟩
      | some f => exact .inr ⟨f, rfl⟩

/-- A path that leads out of the output folder is refused, and the disk stays as it is. -/
theorem write_of_not_isBelow {files : List OutputFile}
    (h : ∃ f ∈ files, (Path.resolve root f.path).isBelow root = false) (d : Disk) :
    ∃ fault, fault.isRefusal = true ∧ write root files d = (d, .error fault) := by
  obtain ⟨f, hf, hout⟩ := h
  cases htargets : targets root files with
  | error fault =>
    obtain ⟨g, -, hfault⟩ := targets_eq_error htargets
    refine ⟨fault, ?_, write_of_targets_error htargets d⟩
    rcases target_eq_error hfault with rfl | ⟨-, rfl⟩
    · rfl
    · rfl
  | ok ts =>
    rw [((targets_eq_ok.1 htargets).1 f hf).2] at hout
    cases hout

/-- Only a zero character keeps files from having targets whose paths lead below the output
folder. -/
theorem targets_of_isBelow {files : List OutputFile}
    (h : ∀ f ∈ files, (Path.resolve root f.path).isBelow root = true) :
    (∃ ts, targets root files = .ok ts) ∨ targets root files = .error .zeroCharacter := by
  cases htargets : targets root files with
  | error fault =>
    obtain ⟨g, hg, hfault⟩ := targets_eq_error htargets
    rcases target_eq_error hfault with rfl | ⟨hout, -⟩
    · exact .inr rfl
    · rw [h g hg] at hout
      cases hout
  | ok ts => exact .inl ⟨ts, rfl⟩

/-- Writing is confined to the output folder. A path that leads elsewhere is refused, and the disk
stays as it is. Otherwise the writing comes to an end or meets an obstacle on the disk, unless a
path has a zero character; in any case only files below the folder are made or changed. If it comes
to an end, the targets are returned in order, each of them holds the text of the last file that
leads to it, and no other file has changed. -/
theorem write_isConfined (root : Path) (files : List OutputFile) (d : Disk) :
    ((∃ f ∈ files, (Path.resolve root f.path).isBelow root = false) →
      ∃ fault, fault.isRefusal = true ∧ write root files d = (d, .error fault)) ∧
    ((∀ f ∈ files, (Path.resolve root f.path).isBelow root = true) →
      ∀ e result, write root files d = (e, result) →
        ((∃ ps, result = .ok ps) ∨ (∃ f, result = .error (.disk f)) ∨
          e = d ∧ result = .error .zeroCharacter) ∧
        (∀ p c, p.isBelow root = false →
          (e.find? p = some (.file c) ↔ d.find? p = some (.file c))) ∧
        ∀ ps, result = .ok ps →
          ps = files.map (fun f => Path.resolve root f.path) ∧
          (∀ before f after, files = before ++ f :: after →
            (∀ g ∈ after, Path.resolve root g.path ≠ Path.resolve root f.path) →
            e.find? (Path.resolve root f.path) = some (.file (.text f.content))) ∧
          ∀ p c, p ∉ ps → (e.find? p = some (.file c) ↔ d.find? p = some (.file c))) := by
  refine ⟨fun hout => write_of_not_isBelow hout d, fun hbelow e result hwrite => ?_⟩
  rcases targets_of_isBelow hbelow with ⟨ts, htargets⟩ | hzero
  · have hplaces : ts.map Prod.fst = files.map fun f => Path.resolve root f.path := by
      rw [(targets_eq_ok.1 htargets).2, List.map_map, Function.comp_def]
    have hother : ∀ p c, p ∉ ts.map Prod.fst →
        (e.find? p = some (.file c) ↔ d.find? p = some (.file c)) := by
      intro p c hp
      have hfile := file_write (d := d) (c := c) htargets hp
      rwa [hwrite] at hfile
    refine ⟨?_, fun p c hp => hother p c ?_, fun ps hps => ?_⟩
    · have hresult := write_outcome htargets d
      rw [hwrite] at hresult
      exact hresult.imp_right .inl
    · intro hmem
      rw [hplaces] at hmem
      obtain ⟨f, hf, rfl⟩ := List.mem_map.1 hmem
      rw [hbelow f hf] at hp
      cases hp
    · subst hps
      obtain ⟨us, d₁, hus, -, rfl⟩ := write_eq_ok hwrite
      obtain rfl : ts = us := Except.ok.inj (htargets.symm.trans hus)
      refine ⟨hplaces, fun before f after hsplit hlast => ?_, hother⟩
      subst hsplit
      exact find?_write_last hwrite hlast
  · rw [write_of_targets_error hzero] at hwrite
    cases hwrite
    exact ⟨.inr (.inr ⟨rfl, rfl⟩), fun _ _ _ => Iff.rfl, fun ps hps => by cases hps⟩

/-- A list of files in which a later path climbs out of the output folder. -/
def climbing : List OutputFile :=
  [⟨"notes.txt", "1"⟩, ⟨"b/../../notes.txt", "2"⟩]

/-- A list of files in which three paths lead to the same target. -/
def aliased : List OutputFile :=
  [⟨"notes.txt", "1"⟩, ⟨"/a/out/.//notes.txt", "2"⟩, ⟨"b/../notes.txt", "3"⟩]

/-- The climbing list is refused; the aliased one leaves the last of its texts. -/
theorem write_isConfined_aliased :
    (∃ fault, fault.isRefusal = true ∧
      write ["a", "out"] climbing {} = ({}, .error fault)) ∧
    (write ["a", "out"] aliased {}).1.find? ["a", "out", "notes.txt"] =
      some (.file (.text "3")) := by
  refine ⟨(write_isConfined ["a", "out"] climbing {}).1 ⟨⟨"b/../../notes.txt", "2"⟩, ?_, ?_⟩, ?_⟩
  · exact List.mem_cons_of_mem _ List.mem_cons_self
  · decide
  · obtain ⟨-, -, hok⟩ := (write_isConfined ["a", "out"] aliased {}).2 (by decide) _ _ rfl
    obtain ⟨-, hlast, -⟩ := hok _ rfl
    exact hlast [⟨"notes.txt", "1"⟩, ⟨"/a/out/.//notes.txt", "2"⟩] ⟨"b/../notes.txt", "3"⟩ [] rfl
      (by simp)

end Output

end Nanoservice
