import Nanoservice.Proofs.Disk.Change

/-!
# Disks as trees

On the disks that there are, everything stands in folders (`Disk.IsTree`), so nothing is below a
file, and a file can be moved without anything else (`Disk.find?_of_moveFile`). Making folders,
writing a file and putting it in the place of a sibling keep it that way.
-/

namespace Nanoservice.Disk

variable {d e : Disk} {p q source target : Path} {c : Content}

/-- Above everything on a disk there are folders. -/
def IsTree (d : Disk) : Prop :=
  ∀ p q, p <+: q → p ≠ q → (d.find? q).isSome → d.find? p = some .folder

/-- The disk on which nothing is. -/
theorem isTree_empty : IsTree ⟨[]⟩ := by
  intro p q hpre hne hsome
  by_cases hq : q = []
  · subst hq
    exact absurd (List.prefix_nil.1 hpre) hne
  · simp [find?, hq, Table.get?] at hsome

/-- Nothing is below a file. -/
theorem IsTree.find?_below_file (hd : d.IsTree) (hfile : d.find? p = some (.file c))
    (hpre : p <+: q) (hne : p ≠ q) : d.find? q = none := by
  rw [← Option.not_isSome_iff_eq_none]
  intro hsome
  rw [hd p q hpre hne hsome] at hfile
  cases hfile

/-! ## Folders and files -/

theorem IsTree.makeFolders (hd : d.IsTree) (h : d.makeFolders target = .ok e) : e.IsTree := by
  obtain ⟨hfree, -⟩ := makeFolders_eq_ok.1 h
  intro p q hpre hne hsome
  rw [find?_of_makeFolders h] at hsome ⊢
  cases hq : d.find? q with
  | some entry => rw [hd p q hpre hne (by rw [hq]; rfl), Option.some_or]
  | none =>
    -- The place was made on the way, so what is above it is on the way too.
    rw [hq, Option.none_or] at hsome
    split at hsome
    · next hway =>
      rw [if_pos (hpre.trans hway)]
      cases hp : d.find? p with
      | none => rfl
      | some entry =>
        cases entry with
        | folder => rfl
        | file c => exact absurd hp (hfree p c (hpre.trans hway))
    · cases hsome

theorem IsTree.writeFile (hd : d.IsTree) (h : d.writeFile target c = .ok e) : e.IsTree := by
  obtain ⟨hfree, hfolder, habove, -⟩ := writeFile_eq_ok.1 h
  obtain ⟨-, hfind⟩ := find?_of_writeFile h
  intro p q hpre hne hsome
  -- What is above anything else on the disk was a folder, so it is not the file.
  have hkept : d.find? p = some .folder → e.find? p = some .folder := by
    intro hp
    rw [hfind, if_neg, hp]
    rintro rfl
    exact hfolder hp
  rw [hfind] at hsome
  split at hsome
  · next hq =>
    subst hq
    have hdrop := (Path.prefix_dropLast_or_eq hpre).resolve_right hne
    refine hkept ?_
    by_cases hparent : p = q.dropLast
    · subst hparent
      obtain ⟨entry, hentry⟩ := Option.isSome_iff_exists.1 habove
      cases entry with
      | folder => exact hentry
      | file c' => exact absurd hentry (hfree _ c' (List.prefix_refl _))
    · exact hd p _ hdrop hparent habove
  · exact hkept (hd p q hpre hne hsome)

/-! ## Moving a file -/

/-- Removing a place leaves everything that is neither there nor below it. -/
theorem find?_remove (d : Disk) (hp : p ≠ []) (q : Path) :
    (d.remove p).find? q = if p <+: q then none else d.find? q := by
  have hget : ∀ entries : List (Path × Entry),
      Table.get? q (entries.filter fun e => !p.isPrefixOf e.1) =
        if p <+: q then none else Table.get? q entries := by
    intro entries
    induction entries with
    | nil => simp [Table.get?]
    | cons entry entries ih =>
      by_cases hbelow : p <+: entry.1
      · rw [List.filter_cons_of_neg (by simpa using hbelow), ih, Table.get?]
        by_cases hq : entry.1 = q
        · rw [if_pos (hq ▸ hbelow), if_pos (hq ▸ hbelow)]
        · rw [if_neg hq]
      · have hkeep : (!p.isPrefixOf entry.1) = true := by
          rwa [Bool.not_eq_true', Bool.eq_false_iff, ne_eq, List.isPrefixOf_iff_prefix]
        rw [List.filter_cons_of_pos (by exact hkeep), Table.get?, ih, Table.get?]
        by_cases hq : entry.1 = q
        · rw [if_pos hq, if_neg (hq ▸ hbelow), if_pos hq]
        · rw [if_neg hq, if_neg hq]
  by_cases hq : q = []
  · subst hq
    rw [find?_nil, find?_nil, if_neg (fun h => hp (List.prefix_nil.1 h))]
  · rw [find?, if_neg hq, remove, hget, find?, if_neg hq]

/-- A file is moved unless none is there to be moved or a folder is where it goes. -/
theorem moveFile_eq_ok : d.moveFile source target = .ok e ↔
    ∃ c, d.find? source = some (.file c) ∧ d.find? target ≠ some .folder ∧
      e = (d.remove source).set target (.file c) := by
  unfold moveFile
  split
  · next hfolder => simp [hfolder]
  · next c hsource htarget =>
    rw [Except.ok.injEq, hsource]
    constructor
    · rintro rfl
      exact ⟨c, rfl, htarget, rfl⟩
    · rintro ⟨c', hc, -, rfl⟩
      cases hc
      rfl
  · next hsource => simp [hsource]
  · next hsource => simp [hsource]

/-- After a file was moved it is in its new place and not in the old one, and all else is as it
was. -/
theorem find?_of_moveFile (hd : d.IsTree) (h : d.moveFile source target = .ok e) :
    ∃ c, d.find? source = some (.file c) ∧ d.find? target ≠ some .folder ∧
      ∀ q, e.find? q =
        if q = target then some (.file c) else if q = source then none else d.find? q := by
  obtain ⟨c, hsource, htarget, rfl⟩ := moveFile_eq_ok.1 h
  have hne : source ≠ [] := by
    rintro rfl
    cases hsource
  have hne' : target ≠ [] := by
    rintro rfl
    exact htarget rfl
  refine ⟨c, hsource, htarget, fun q => ?_⟩
  by_cases hq : q = target
  · subst hq
    rw [find?_set_self _ hne', if_pos rfl]
  · rw [find?_set_of_ne _ (Ne.symm hq), if_neg hq, find?_remove d hne]
    by_cases hq' : q = source
    · rw [if_pos hq', if_pos (hq' ▸ List.prefix_refl _)]
    · rw [if_neg hq']
      by_cases hpre : source <+: q
      · rw [if_pos hpre, hd.find?_below_file hsource hpre (Ne.symm hq')]
      · rw [if_neg hpre]

/-- A file can take the place of its sibling. -/
theorem IsTree.moveFile (hd : d.IsTree) (h : d.moveFile source target = .ok e)
    (hparent : source.dropLast = target.dropLast) : e.IsTree := by
  obtain ⟨c, hsource, htarget, hfind⟩ := find?_of_moveFile hd h
  intro p q hpre hne hsome
  have hkept : d.find? p = some .folder → e.find? p = some .folder := by
    intro hp
    rw [hfind, if_neg, if_neg, hp]
    · rintro rfl
      rw [hsource] at hp
      cases hp
    · rintro rfl
      exact htarget hp
  rw [hfind] at hsome
  split at hsome
  · next hq =>
    subst hq
    have hdrop := (Path.prefix_dropLast_or_eq hpre).resolve_right hne
    rw [← hparent] at hdrop
    refine hkept (hd p source (hdrop.trans (List.dropLast_prefix _)) ?_ (by rw [hsource]; rfl))
    rintro rfl
    refine Path.not_prefix_dropLast ?_ hdrop
    rintro rfl
    cases hsource
  · split at hsome
    · cases hsome
    · exact hkept (hd p q hpre hne hsome)

end Nanoservice.Disk
