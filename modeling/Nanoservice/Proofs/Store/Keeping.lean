import Nanoservice.ModelStore
import Nanoservice.Proofs.Disk.Tree

/-!
# Keeping a text

A text is kept in three steps: the folders on the way are made, the text is written to a sibling,
and the sibling takes the place of what was there. An attempt fails when something is in the way of
a step (`ModelStore.attempt_isOk`), and it may end after any part of the first two steps when the
disk gives out by itself (`ModelStore.Breakdown`). Wherever it ends, the place holds what it held
before or the whole text, and no other file but the sibling is made, changed or lost
(`ModelStore.keepUntil_isWhole`).
-/

namespace Nanoservice.ModelStore

/-! ## The steps -/

/-- An attempt to keep a text; the first step that fails ends it. -/
def attempt (p : Path) (text : String) (d : Disk) : Except DiskFault Disk := do
  let d ← d.makeFolders p.dropLast
  let d ← d.writeFile (sibling p) (.text text)
  d.moveFile (sibling p) p

/-- No text can be kept at a place when a file is on the way there, or when a folder is there or in
the place of the sibling. -/
inductive IsBlocked (d : Disk) (p : Path) : Prop
  | way {q : Path} {c : Content} (hpre : q <+: p.dropLast) (hfile : d.find? q = some (.file c))
  | sibling (hfolder : d.find? (sibling p) = some .folder)
  | place (hfolder : d.find? p = some .folder)

/-- How far an attempt comes that ends because the disk gives out: some of the folders on the way
are made, or all of them, and the sibling is left with some content. -/
inductive Breakdown where
  | folders (made : Nat)
  | sibling (content : Content)
  deriving DecidableEq, Repr

/-- The disk after an attempt that breaks down. -/
def brokenOff (p : Path) (d : Disk) : Breakdown → Disk
  | .folders made =>
    match d.makeFolders (p.dropLast.take made) with
    | .error _ => d
    | .ok d => d
  | .sibling content =>
    match d.makeFolders p.dropLast with
    | .error _ => d
    | .ok d =>
      match d.writeFile (sibling p) content with
      | .error _ => d
      | .ok d => d

/-- The disk after an attempt to keep a text, which may break down. -/
def keepUntil (p : Path) (text : String) (d : Disk) : Option Breakdown → Disk
  | none => keep p text d
  | some stop => brokenOff p d stop

variable {p q : Path} {text : String} {c : Content} {d d₁ d₂ e : Disk}

theorem attempt_eq_ok : attempt p text d = .ok e ↔ ∃ d₁ d₂, d.makeFolders p.dropLast = .ok d₁ ∧
    d₁.writeFile (sibling p) (.text text) = .ok d₂ ∧ d₂.moveFile (sibling p) p = .ok e := by
  unfold attempt
  cases hmake : d.makeFolders p.dropLast with
  | error f => simp [bind, Except.bind]
  | ok d₁ =>
    cases hwrite : d₁.writeFile (sibling p) (.text text) with
    | error f => simp [bind, Except.bind, hwrite]
    | ok d₂ => simp [bind, Except.bind, hwrite]

/-- What an attempt comes to is what is kept. -/
theorem keep_of_attempt (h : attempt p text d = .ok e) : keep p text d = e := by
  obtain ⟨d₁, d₂, hmake, hwrite, hmove⟩ := attempt_eq_ok.1 h
  unfold keep
  rw [hmake]
  simp only [hwrite, hmove]

/-! ## The sibling -/

theorem sibling_ne (p : Path) : sibling p ≠ p := by
  rcases List.eq_nil_or_concat p with rfl | ⟨folder, name, rfl⟩
  · exact List.cons_ne_nil _ _
  · intro h
    simp [sibling] at h

@[simp] theorem dropLast_sibling (p : Path) : (sibling p).dropLast = p.dropLast := by
  rw [sibling, List.dropLast_concat]

theorem sibling_ne_nil (p : Path) : sibling p ≠ [] :=
  List.append_ne_nil_of_right_ne_nil _ (List.cons_ne_nil _ _)

/-- The sibling is not on the way to the place. -/
theorem not_sibling_prefix (p : Path) : ¬ sibling p <+: p.dropLast := by
  have hdrop := Path.not_prefix_dropLast (sibling_ne_nil p)
  rwa [dropLast_sibling] at hdrop

/-! ## In front of the last step -/

/-- What the steps in front of the last one do to a disk: the place stays as it is, and no other
file but the sibling is made, changed or lost. -/
structure Prepares (p : Path) (d e : Disk) : Prop where
  tree : e.IsTree
  place : e.find? p = d.find? p
  files : ∀ q c, q ≠ sibling p → (e.find? q = some (.file c) ↔ d.find? q = some (.file c))
  folders : ∀ q, d.find? q = some .folder → e.find? q = some .folder

namespace Prepares

theorem refl (hd : d.IsTree) : Prepares p d d :=
  ⟨hd, rfl, fun _ _ _ => Iff.rfl, fun _ h => h⟩

theorem trans (h : Prepares p d d₁) (h' : Prepares p d₁ e) : Prepares p d e where
  tree := h'.tree
  place := h'.place.trans h.place
  files q c hq := (h'.files q c hq).trans (h.files q c hq)
  folders q hq := h'.folders q (h.folders q hq)

/-- Folders on the way are made. -/
theorem makeFolders {target : Path} (hd : d.IsTree) (htarget : target <+: p.dropLast)
    (h : d.makeFolders target = .ok e) : Prepares p d e where
  tree := hd.makeFolders h
  place := by
    rw [Disk.find?_of_makeFolders h]
    by_cases hp : p = []
    · rw [hp]
      rfl
    · rw [if_neg fun hpre => Path.not_prefix_dropLast hp (hpre.trans htarget), Option.or_none]
  files q c _ := Disk.file_of_makeFolders h
  folders q hq := by rw [Disk.find?_of_makeFolders h, hq, Option.some_or]

/-- The sibling is written. -/
theorem writeFile (hd : d.IsTree) (h : d.writeFile (sibling p) c = .ok e) : Prepares p d e where
  tree := hd.writeFile h
  place := by rw [(Disk.find?_of_writeFile h).2, if_neg (sibling_ne p).symm]
  files q c' hq := by rw [(Disk.find?_of_writeFile h).2, if_neg hq]
  folders q hq := by
    rw [(Disk.find?_of_writeFile h).2, if_neg, hq]
    rintro rfl
    exact (Disk.writeFile_eq_ok.1 h).2.1 hq

end Prepares

/-- An attempt that breaks down leaves the place as it is. -/
theorem prepares_brokenOff (p : Path) (hd : d.IsTree) (stop : Breakdown) :
    Prepares p d (brokenOff p d stop) := by
  cases stop with
  | folders made =>
    rw [brokenOff]
    split
    · exact .refl hd
    · next d₁ hmake => exact .makeFolders hd (List.take_prefix _ _) hmake
  | sibling content =>
    rw [brokenOff]
    split
    · exact .refl hd
    · next d₁ hmake =>
      have hfolders := Prepares.makeFolders hd (List.prefix_refl _) hmake
      split
      · exact hfolders
      · next d₂ hwrite => exact hfolders.trans (.writeFile hfolders.tree hwrite)

/-- An attempt that fails leaves the place as it is. -/
theorem prepares_keep (hd : d.IsTree) {f : DiskFault} (h : attempt p text d = .error f) :
    Prepares p d (keep p text d) := by
  unfold keep
  split
  · exact .refl hd
  · next d₁ hmake =>
    have hfolders := Prepares.makeFolders hd (List.prefix_refl _) hmake
    split
    · exact hfolders
    · next d₂ hwrite =>
      have hsibling := hfolders.trans (.writeFile hfolders.tree hwrite)
      split
      · exact hsibling
      · next e hmove =>
        rw [attempt_eq_ok.2 ⟨d₁, d₂, hmake, hwrite, hmove⟩] at h
        cases h

/-! ## Whole texts -/

/-- What an attempt to keep a text does to a disk. -/
structure IsWhole (p : Path) (text : String) (stop : Option Breakdown) (d e : Disk) : Prop where
  tree : e.IsTree
  /-- The place holds what it held before, or the whole text. -/
  whole : e.find? p = d.find? p ∨ e.find? p = some (.file (.text text))
  /-- If the disk gives out or a step fails, it holds what it held before. -/
  failed : stop ≠ none ∨ (∃ f, attempt p text d = .error f) → e.find? p = d.find? p
  /-- If no step fails, it holds the whole text, and the sibling is gone. -/
  done : stop = none → (∃ e', attempt p text d = .ok e') →
    e.find? p = some (.file (.text text)) ∧ e.find? (sibling p) = none
  /-- No other file but the sibling is made, changed or lost. -/
  files : ∀ q c, q ≠ p → q ≠ sibling p → (e.find? q = some (.file c) ↔ d.find? q = some (.file c))
  folders : ∀ q, d.find? q = some .folder → e.find? q = some .folder

theorem Prepares.isWhole {stop : Option Breakdown} (h : Prepares p d e)
    (hstop : stop = none → ∃ f, attempt p text d = .error f) : IsWhole p text stop d e where
  tree := h.tree
  whole := .inl h.place
  failed _ := h.place
  done hnone hok := by
    obtain ⟨f, hf⟩ := hstop hnone
    obtain ⟨e', he'⟩ := hok
    rw [hf] at he'
    cases he'
  files q c _ hq := h.files q c hq
  folders := h.folders

/-- When all steps are done the place holds the text. -/
theorem isWhole_of_attempt (hd : d.IsTree) (h : attempt p text d = .ok e) :
    IsWhole p text none d e := by
  obtain ⟨d₁, d₂, hmake, hwrite, hmove⟩ := attempt_eq_ok.1 h
  have hfolders := Prepares.makeFolders hd (List.prefix_refl _) hmake
  have hprepared : Prepares p d d₂ := hfolders.trans (.writeFile hfolders.tree hwrite)
  obtain ⟨c, hsource, htarget, hfind⟩ := Disk.find?_of_moveFile hprepared.tree hmove
  have hsibling : d₂.find? (sibling p) = some (.file (.text text)) := by
    rw [(Disk.find?_of_writeFile hwrite).2, if_pos rfl]
  obtain rfl : c = .text text := by
    rw [hsibling] at hsource
    cases hsource
    rfl
  have hplace : e.find? p = some (.file (.text text)) := by rw [hfind, if_pos rfl]
  have hgone : e.find? (sibling p) = none := by
    rw [hfind, if_neg (sibling_ne p), if_pos rfl]
  exact
    { tree := hprepared.tree.moveFile hmove (dropLast_sibling p)
      whole := .inr hplace
      failed := by
        rintro (hstop | ⟨f, hf⟩)
        · exact absurd rfl hstop
        · rw [h] at hf
          cases hf
      done := fun _ _ => ⟨hplace, hgone⟩
      files := fun q c hp hq => by
        rw [hfind, if_neg hp, if_neg hq]
        exact hprepared.files q c hq
      folders := fun q hq => by
        have hfolder := hprepared.folders q hq
        rw [hfind, if_neg, if_neg, hfolder]
        · rintro rfl
          rw [hsibling] at hfolder
          cases hfolder
        · rintro rfl
          exact htarget hfolder }

/-- Wherever an attempt to keep a text ends, the place holds what it held before or the whole
text. -/
theorem keepUntil_isWhole (hd : d.IsTree) (p : Path) (text : String) (stop : Option Breakdown) :
    IsWhole p text stop d (keepUntil p text d stop) := by
  cases stop with
  | some stop => exact (prepares_brokenOff p hd stop).isWhole fun h => by cases h
  | none =>
    rw [keepUntil]
    cases hattempt : attempt p text d with
    | error f => exact (prepares_keep hd hattempt).isWhole fun _ => ⟨f, hattempt⟩
    | ok e =>
      rw [keep_of_attempt hattempt]
      exact isWhole_of_attempt hd hattempt

/-! ## What is in the way -/

/-- An attempt fails exactly when the place is blocked. -/
theorem attempt_isOk (p : Path) (text : String) (d : Disk) :
    (∃ e, attempt p text d = .ok e) ↔ ¬ IsBlocked d p := by
  constructor
  · rintro ⟨e, h⟩ hblocked
    obtain ⟨d₁, d₂, hmake, hwrite, hmove⟩ := attempt_eq_ok.1 h
    obtain ⟨hfree, -⟩ := Disk.makeFolders_eq_ok.1 hmake
    obtain ⟨-, hfolder, -⟩ := Disk.writeFile_eq_ok.1 hwrite
    obtain ⟨c, -, htarget, -⟩ := Disk.moveFile_eq_ok.1 hmove
    cases hblocked with
    | way hpre hfile => exact hfree _ _ hpre hfile
    | sibling hsibling =>
      refine hfolder ?_
      rw [Disk.find?_of_makeFolders hmake, hsibling, Option.some_or]
    | place hplace =>
      refine htarget ?_
      rw [(Disk.find?_of_writeFile hwrite).2, if_neg (sibling_ne p).symm,
        Disk.find?_of_makeFolders hmake, hplace, Option.some_or]
  · intro h
    obtain ⟨d₁, hmake⟩ : ∃ d₁, d.makeFolders p.dropLast = .ok d₁ :=
      ⟨_, Disk.makeFolders_eq_ok.2 ⟨fun q c hpre hfile => h (.way hpre hfile), rfl⟩⟩
    obtain ⟨d₂, hwrite⟩ := Disk.exists_writeFile (by rwa [dropLast_sibling]) (sibling_ne_nil p)
      (fun hfolder => h (.sibling hfolder)) (.text text)
    have hfind := (Disk.find?_of_writeFile hwrite).2
    have hsource : d₂.find? (sibling p) = some (.file (.text text)) := by rw [hfind, if_pos rfl]
    have htarget : d₂.find? p ≠ some .folder := by
      have hp : p ≠ [] := by
        rintro rfl
        exact h (.place rfl)
      rw [hfind, if_neg (sibling_ne p).symm, Disk.find?_of_makeFolders hmake,
        if_neg (Path.not_prefix_dropLast hp), Option.or_none]
      exact fun hfolder => h (.place hfolder)
    exact ⟨_, attempt_eq_ok.2 ⟨_, _, hmake, hwrite,
      Disk.moveFile_eq_ok.2 ⟨_, hsource, htarget, rfl⟩⟩⟩

/-! ## The way to a place -/

/-- No file is on the way to a place. -/
def IsOpen (d : Disk) (p : Path) : Prop :=
  ∀ q c, q <+: p.dropLast → d.find? q ≠ some (.file c)

theorem isOk_makeFolders_iff : (d.makeFolders p.dropLast).isOk = true ↔ IsOpen d p := by
  constructor
  · intro h
    cases hmake : d.makeFolders p.dropLast with
    | error f =>
      rw [hmake] at h
      cases h
    | ok e => exact (Disk.makeFolders_eq_ok.1 hmake).1
  · intro h
    rw [Disk.makeFolders_eq_ok.2 ⟨h, rfl⟩]
    rfl

theorem IsOpen.makeFolders {target : Path} (h : IsOpen d p) (hmake : d.makeFolders target = .ok e) :
    IsOpen e p :=
  fun q c hpre hfile => h q c hpre ((Disk.file_of_makeFolders hmake).1 hfile)

theorem IsOpen.writeFile (h : IsOpen d p) (hwrite : d.writeFile (sibling p) c = .ok e) :
    IsOpen e p := by
  intro q c' hpre hfile
  rw [(Disk.find?_of_writeFile hwrite).2, if_neg] at hfile
  · exact h q c' hpre hfile
  · rintro rfl
    exact not_sibling_prefix p hpre

theorem IsOpen.moveFile (h : IsOpen d p) (hmove : d.moveFile (sibling p) p = .ok e) :
    IsOpen e p := by
  obtain ⟨c, -, htarget, rfl⟩ := Disk.moveFile_eq_ok.1 hmove
  intro q c' hpre hfile
  have hp : p ≠ [] := by
    rintro rfl
    exact htarget rfl
  have hne : p ≠ q := by
    rintro rfl
    exact Path.not_prefix_dropLast hp hpre
  rw [Disk.find?_set_of_ne _ hne, Disk.find?_remove d (sibling_ne_nil p)] at hfile
  split at hfile
  · cases hfile
  · exact h q c' hpre hfile

/-- An attempt to keep a text leaves the way to its place open or closed. -/
theorem isOpen_keep (p : Path) (text : String) (d : Disk) :
    IsOpen (keep p text d) p ↔ IsOpen d p := by
  unfold keep
  split
  · rfl
  · next d₁ hmake =>
    have hopen : IsOpen d p := (Disk.makeFolders_eq_ok.1 hmake).1
    refine iff_of_true ?_ hopen
    split
    · exact hopen.makeFolders hmake
    · next d₂ hwrite =>
      split
      · exact (hopen.makeFolders hmake).writeFile hwrite
      · next e hmove => exact ((hopen.makeFolders hmake).writeFile hwrite).moveFile hmove

theorem isOpen_prepare (p : Path) (d : Disk) : IsOpen (prepare p d) p ↔ IsOpen d p := by
  unfold prepare
  split
  · rfl
  · next e hmake =>
    have hopen : IsOpen d p := (Disk.makeFolders_eq_ok.1 hmake).1
    exact iff_of_true (hopen.makeFolders hmake) hopen

/-- Whether keeping a model breaks off is the same before and after another one was kept. -/
theorem breaksOff_replace (s : ModelStore) (b b' : Backend) (persist : Bool) (d : Disk) :
    (s.replace b persist d).1.breaksOff b' (s.replace b persist d).2 = s.breaksOff b' d := by
  cases hfile : s.file with
  | none => simp only [breaksOff, replace, hfile]
  | some p =>
    have hopen : IsOpen (s.replace b persist d).2 p ↔ IsOpen d p := by
      simp only [replace, hfile]
      split
      · split
        · exact isOpen_keep p _ d
        · exact isOpen_prepare p d
      · rfl
    rw [← isOk_makeFolders_iff, ← isOk_makeFolders_iff, ← Bool.eq_iff_iff] at hopen
    have hsame : (s.replace b persist d).1.file = some p := hfile
    simp only [breaksOff, hsame, hfile, hopen]

end Nanoservice.ModelStore
