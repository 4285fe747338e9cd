import Nanoservice.Disk.Output

/-!
# What changes of a disk do

Making folders and writing a file are described by what must not be in their way
(`Disk.makeFolders_eq_ok`, `Disk.writeFile_eq_ok`) and by what is found at every place afterwards
(`Disk.find?_of_makeFolders`, `Disk.find?_of_writeFile`). No later proof looks at the entries of a
disk.
-/

namespace Nanoservice

namespace Path

/-- The stations of a place are the places above it and itself, but for the top. -/
theorem mem_stations {p q : Path} : q ∈ p.stations ↔ q ≠ [] ∧ q <+: p := by
  simp only [stations, List.mem_map, List.mem_range]
  constructor
  · rintro ⟨n, hn, rfl⟩
    refine ⟨?_, List.take_prefix _ _⟩
    intro he
    have hlen := congrArg List.length he
    simp only [List.length_take, List.length_nil] at hlen
    omega
  · rintro ⟨hne, hpre⟩
    have hpos := List.length_pos_iff.2 hne
    have hle := hpre.length_le
    refine ⟨q.length - 1, by omega, ?_⟩
    rw [Nat.sub_add_cancel hpos]
    exact (List.prefix_iff_eq_take.1 hpre).symm

/-- A place is above another one but for its last name, or it is the place itself. -/
theorem prefix_dropLast_or_eq {p q : Path} (h : q <+: p) : q <+: p.dropLast ∨ q = p := by
  obtain ⟨t, rfl⟩ := h
  rcases List.eq_nil_or_concat t with rfl | ⟨t, a, rfl⟩
  · exact .inr (List.append_nil q).symm
  · refine .inl ⟨t, ?_⟩
    rw [List.concat_eq_append, ← List.append_assoc, List.dropLast_concat]

/-- A place with a name does not lead to the place above it. -/
theorem not_prefix_dropLast {p : Path} (h : p ≠ []) : ¬ p <+: p.dropLast := by
  intro hpre
  have hle := hpre.length_le
  have hpos := List.length_pos_iff.2 h
  rw [List.length_dropLast] at hle
  omega

end Path

namespace Disk

/-- At the top there is a folder. -/
@[simp] theorem find?_nil (d : Disk) : d.find? [] = some .folder := rfl

/-! ## Making folders -/

/-- A place is cut off when there is a file above it. -/
theorem isCutOff_iff {d : Disk} {p : Path} :
    d.isCutOff p = true ↔ ∃ q c, q <+: p.dropLast ∧ d.find? q = some (.file c) := by
  simp only [isCutOff, List.any_eq_true]
  constructor
  · rintro ⟨q, hq, hfile⟩
    split at hfile
    · next c hc => exact ⟨q, c, (Path.mem_stations.1 hq).2, hc⟩
    · cases hfile
  · rintro ⟨q, c, hpre, hc⟩
    have hne : q ≠ [] := by
      rintro rfl
      cases hc
    refine ⟨q, Path.mem_stations.2 ⟨hne, hpre⟩, ?_⟩
    simp [hc]

/-- A folder is added where nothing is. -/
theorem find?_addFolder (d : Disk) (p q : Path) :
    (d.addFolder p).find? q = (d.find? q).or (if q = p then some .folder else none) := by
  unfold addFolder
  split
  · next hsome =>
    by_cases hq : q = p
    · subst hq
      obtain ⟨e, he⟩ := Option.isSome_iff_exists.1 hsome
      simp [he]
    · simp [hq]
  · next hnone =>
    have hnone : d.find? p = none := by simpa using hnone
    have hp : p ≠ [] := by
      rintro rfl
      cases hnone
    by_cases hq : q = p
    · subst hq
      rw [find?_set_self d hp, hnone]
      simp
    · rw [find?_set_of_ne d (Ne.symm hq)]
      simp [hq]

/-- Folders are added where nothing is. -/
theorem find?_foldl_addFolder (ps : List Path) (d : Disk) (q : Path) :
    (ps.foldl addFolder d).find? q = (d.find? q).or (if q ∈ ps then some .folder else none) := by
  induction ps generalizing d with
  | nil => simp
  | cons p ps ih =>
    rw [List.foldl_cons, ih, find?_addFolder, Option.or_assoc]
    congr 1
    by_cases hq : q = p <;> simp [hq]

/-- Folders are made unless a file is on the way or at the end of it. -/
theorem makeFolders_eq_ok {d e : Disk} {p : Path} :
    d.makeFolders p = .ok e ↔
      (∀ q c, q <+: p → d.find? q ≠ some (.file c)) ∧ e = p.stations.foldl addFolder d := by
  unfold makeFolders
  split
  · next hcut =>
    obtain ⟨q, c, hpre, hc⟩ := isCutOff_iff.1 hcut
    constructor
    · intro h
      cases h
    · intro h
      exact absurd hc (h.1 q c (hpre.trans (List.dropLast_prefix p)))
  · next hcut =>
    split
    · next c hc =>
      constructor
      · intro h
        cases h
      · intro h
        exact absurd hc (h.1 p c (List.prefix_refl p))
    · next hfile =>
      rw [Except.ok.injEq, eq_comm]
      refine ⟨fun h => ⟨fun q c hpre hc => ?_, h⟩, fun h => h.2⟩
      rcases Path.prefix_dropLast_or_eq hpre with hpre | rfl
      · exact hcut (isCutOff_iff.2 ⟨q, c, hpre, hc⟩)
      · exact hfile c hc

/-- After folders were made there is one at every place on the way where nothing was. -/
theorem find?_of_makeFolders {d e : Disk} {p : Path} (h : d.makeFolders p = .ok e) (q : Path) :
    e.find? q = (d.find? q).or (if q <+: p then some .folder else none) := by
  obtain ⟨-, rfl⟩ := makeFolders_eq_ok.1 h
  rw [find?_foldl_addFolder]
  by_cases hq : q = []
  · subst hq
    rfl
  · simp only [Path.mem_stations, ne_eq, hq, not_false_eq_true, true_and]

/-- No file is made or lost when folders are made. -/
theorem file_of_makeFolders {d e : Disk} {p q : Path} {c : Content} (h : d.makeFolders p = .ok e) :
    e.find? q = some (.file c) ↔ d.find? q = some (.file c) := by
  rw [find?_of_makeFolders h]
  cases d.find? q <;> simp

/-! ## Writing a file -/

/-- A file is written unless a file is on the way, a folder is in its place or nothing is above
it. -/
theorem writeFile_eq_ok {d e : Disk} {p : Path} {c : Content} :
    d.writeFile p c = .ok e ↔
      (∀ q c', q <+: p.dropLast → d.find? q ≠ some (.file c')) ∧ d.find? p ≠ some .folder ∧
        (d.find? p.dropLast).isSome ∧ e = d.set p (.file c) := by
  unfold writeFile
  split
  · next hcut =>
    obtain ⟨q, c', hpre, hc⟩ := isCutOff_iff.1 hcut
    constructor
    · intro h
      cases h
    · intro h
      exact absurd hc (h.1 q c' hpre)
  · next hcut =>
    have hfree : ∀ q c', q <+: p.dropLast → d.find? q ≠ some (.file c') :=
      fun q c' hpre hc => hcut (isCutOff_iff.2 ⟨q, c', hpre, hc⟩)
    split
    · next hfolder =>
      constructor
      · intro h
        cases h
      · intro h
        exact absurd hfolder h.2.1
    · next hnone _ =>
      constructor
      · intro h
        cases h
      · intro h
        simp [hnone] at h
    · next e' habove hfolder =>
      rw [Except.ok.injEq, eq_comm]
      exact ⟨fun h => ⟨hfree, hfolder, by simp [habove], h⟩, fun h => h.2.2.2⟩

/-- After a file was written it is in its place, and all else is as it was. -/
theorem find?_of_writeFile {d e : Disk} {p : Path} {c : Content} (h : d.writeFile p c = .ok e) :
    p ≠ [] ∧ ∀ q, e.find? q = if q = p then some (.file c) else d.find? q := by
  obtain ⟨-, hfolder, -, rfl⟩ := writeFile_eq_ok.1 h
  have hp : p ≠ [] := by
    rintro rfl
    exact hfolder rfl
  refine ⟨hp, fun q => ?_⟩
  by_cases hq : q = p
  · subst hq
    rw [find?_set_self d hp, if_pos rfl]
  · rw [find?_set_of_ne d (Ne.symm hq), if_neg hq]

/-- Where the folders on the way were made, a file is written unless a folder is in its place. -/
theorem exists_writeFile {d d₁ : Disk} {p : Path} (hmake : d.makeFolders p.dropLast = .ok d₁)
    (hp : p ≠ []) (hfolder : d.find? p ≠ some .folder) (c : Content) :
    ∃ e, d₁.writeFile p c = .ok e := by
  obtain ⟨hfree, -⟩ := makeFolders_eq_ok.1 hmake
  refine ⟨_, writeFile_eq_ok.2 ⟨fun q c' hpre hc => ?_, ?_, ?_, rfl⟩⟩
  · exact hfree q c' hpre ((file_of_makeFolders hmake).1 hc)
  · rw [find?_of_makeFolders hmake, if_neg (Path.not_prefix_dropLast hp), Option.or_none]
    exact hfolder
  · rw [find?_of_makeFolders hmake, if_pos (List.prefix_refl _)]
    cases d.find? p.dropLast <;> rfl

/-! ## Empty folders -/

/-- An empty folder, or a place where one can be made: no file is on the way there, and nothing is
below. -/
structure IsEmptyFolder (d : Disk) (p : Path) : Prop where
  reached : ∀ q c, q <+: p → d.find? q ≠ some (.file c)
  empty : ∀ q, q.isBelow p = true → d.find? q = none

namespace IsEmptyFolder

variable {d e : Disk} {root p : Path}

/-- A folder stays empty when folders are made that do not lie in it. -/
theorem makeFolders (h : d.IsEmptyFolder root) (hmake : d.makeFolders p = .ok e)
    (hout : ¬ root <+: p) : e.IsEmptyFolder root where
  reached q c hpre hc := h.reached q c hpre ((file_of_makeFolders hmake).1 hc)
  empty q hq := by
    have hpre : ¬ q <+: p := fun hpre => hout ((Path.isBelow_iff.1 hq).1.trans hpre)
    rw [find?_of_makeFolders hmake, h.empty q hq, if_neg hpre]
    rfl

/-- A folder stays empty when a file is written that lies neither in it nor on the way there. -/
theorem writeFile {c : Content} (h : d.IsEmptyFolder root) (hwrite : d.writeFile p c = .ok e)
    (habove : ¬ p <+: root) (hbelow : p.isBelow root = false) : e.IsEmptyFolder root where
  reached q c' hpre hc := by
    have hne : q ≠ p := by
      rintro rfl
      exact habove hpre
    rw [(find?_of_writeFile hwrite).2, if_neg hne] at hc
    exact h.reached q c' hpre hc
  empty q hq := by
    have hne : q ≠ p := by
      rintro rfl
      rw [hq] at hbelow
      cases hbelow
    rw [(find?_of_writeFile hwrite).2, if_neg hne, h.empty q hq]

end IsEmptyFolder

end Disk

end Nanoservice
