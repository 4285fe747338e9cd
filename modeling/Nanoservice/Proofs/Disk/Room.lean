import Nanoservice.Proofs.Disk.Output
import Nanoservice.Proofs.Disk.Tree

/-!
# Room for files

A disk admits a file at a place when no file is above the place and no folder is there
(`Disk.Admits`). Writing another file leaves room for it unless one of the two places is on the way
to the other (`Output.admits_place`), so files are all written that have room and do not stand in
each other's way (`Output.exists_write`). In an empty folder there is room for every file
(`Disk.IsEmptyFolder.admits`).
-/

namespace Nanoservice

namespace Disk

variable {d e : Disk} {p q target root : Path} {c : Content}

/-- A file can be written to a place: no file is above it, and no folder is there. -/
structure Admits (d : Disk) (p : Path) : Prop where
  way : ∀ q c, q <+: p.dropLast → d.find? q ≠ some (.file c)
  place : d.find? p ≠ some .folder

namespace Admits

theorem ne_nil (h : d.Admits p) : p ≠ [] := by
  rintro rfl
  exact h.place rfl

/-- There is still room when folders are made on another way. -/
theorem makeFolders (h : d.Admits p) (hmake : d.makeFolders target = .ok e)
    (hout : ¬ p <+: target) : e.Admits p where
  way q c hpre hc := h.way q c hpre ((file_of_makeFolders hmake).1 hc)
  place := by
    rw [find?_of_makeFolders hmake, if_neg hout, Option.or_none]
    exact h.place

/-- There is still room when a file is written that is not on the way. -/
theorem writeFile (h : d.Admits p) (hwrite : d.writeFile q c = .ok e) (hout : ¬ q <+: p.dropLast) :
    e.Admits p where
  way r c' hpre hc := by
    rw [(find?_of_writeFile hwrite).2, if_neg] at hc
    · exact h.way r c' hpre hc
    · rintro rfl
      exact hout hpre
  place hfolder := by
    rw [(find?_of_writeFile hwrite).2] at hfolder
    split at hfolder
    · cases hfolder
    · exact h.place hfolder

end Admits

/-- There is room everywhere on the disk on which nothing is. -/
theorem admits_empty (hp : p ≠ []) : Admits {} p where
  way q c _ hc := by
    rw [find?] at hc
    split at hc <;> cases hc
  place hfolder := by
    rw [find?, if_neg hp] at hfolder
    cases hfolder

/-- Every folder is empty on the disk on which nothing is. -/
theorem isEmptyFolder_empty (root : Path) : IsEmptyFolder {} root where
  reached q c _ hc := by
    rw [find?] at hc
    split at hc <;> cases hc
  empty q hq := by
    have hlength := (Path.isBelow_iff.1 hq).2
    exact if_neg (List.length_pos_iff.1 (by omega))

/-- Every place below an empty folder has room. -/
theorem IsEmptyFolder.admits (h : d.IsEmptyFolder root) (hp : p.isBelow root = true) :
    d.Admits p where
  way q c hpre hc := by
    -- Both the folder and the place above the file lie on the way to the file.
    have hpre' : q <+: p := hpre.trans (List.dropLast_prefix p)
    rcases List.prefix_or_prefix_of_prefix hpre' (Path.isBelow_iff.1 hp).1 with hq | hq
    · exact h.reached q c hq hc
    · rcases Nat.lt_or_ge root.length q.length with hlt | hge
      · rw [h.empty q (Path.isBelow_iff.2 ⟨hq, hlt⟩)] at hc
        cases hc
      · exact h.reached q c (hq.eq_of_length_le hge ▸ List.prefix_refl _) hc
  place := by
    rw [h.empty p hp]
    simp

end Disk

namespace Output

open Disk (Admits)

variable {root p q : Path} {d e : Disk} {s : String} {ts : List (Path × String)}
  {files : List OutputFile}

/-! ## Writing other files -/

/-- There is still room after a text was written, or not, to a place on another way. -/
theorem admits_place (h : d.Admits q) (habove : ¬ p <+: q.dropLast) (hbelow : ¬ q <+: p.dropLast) :
    (place d p s).1.Admits q := by
  unfold place
  split
  · exact h
  · next d₁ hmake =>
    have h₁ := h.makeFolders hmake hbelow
    split
    · exact h₁
    · next d₂ hwrite => exact h₁.writeFile hwrite habove

/-- There is still room after texts were written, or not, to places on other ways. -/
theorem admits_placeAll (h : d.Admits q)
    (hapart : ∀ t ∈ ts, ¬ t.1 <+: q.dropLast ∧ ¬ q <+: t.1.dropLast) :
    (placeAll d ts).1.Admits q := by
  induction ts generalizing d with
  | nil => exact h
  | cons t ts ih =>
    obtain ⟨p, s⟩ := t
    rw [List.forall_mem_cons] at hapart
    have hplace : (place d p s).1.Admits q := admits_place h hapart.1.1 hapart.1.2
    rw [placeAll]
    split
    · next d₁ hd =>
      rw [hd] at hplace
      exact ih hplace hapart.2
    · next d₁ f hd =>
      rw [hd] at hplace
      exact hplace

/-- There is still room after files were written, or not, on other ways. -/
theorem admits_write (h : d.Admits q) (htargets : targets root files = .ok ts)
    (hroot : ¬ q <+: root) (hapart : ∀ t ∈ ts, ¬ t.1 <+: q.dropLast ∧ ¬ q <+: t.1.dropLast) :
    (write root files d).1.Admits q := by
  cases hmake : d.makeFolders root with
  | error f => simpa only [write, htargets, hmake] using h
  | ok d₁ =>
    have hplaced : (placeAll d₁ ts).1.Admits q :=
      admits_placeAll (h.makeFolders hmake hroot) hapart
    simp only [write, htargets, hmake]
    cases hplace : placeAll d₁ ts with
    | mk d₂ fault =>
      rw [hplace] at hplaced
      cases fault <;> exact hplaced

/-! ## Trees -/

theorem isTree_place (hd : d.IsTree) (p : Path) (s : String) : (place d p s).1.IsTree := by
  unfold place
  split
  · exact hd
  · next d₁ hmake =>
    split
    · exact hd.makeFolders hmake
    · next d₂ hwrite => exact (hd.makeFolders hmake).writeFile hwrite

theorem isTree_placeAll (hd : d.IsTree) (ts : List (Path × String)) :
    (placeAll d ts).1.IsTree := by
  induction ts generalizing d with
  | nil => exact hd
  | cons t ts ih =>
    obtain ⟨p, s⟩ := t
    have hplace := isTree_place hd p s
    rw [placeAll]
    split
    · next d₁ h =>
      rw [h] at hplace
      exact ih hplace
    · next d₁ f h =>
      rw [h] at hplace
      exact hplace

/-- A disk stays a tree whatever becomes of files that are written. -/
theorem isTree_write (hd : d.IsTree) (root : Path) (files : List OutputFile) :
    (write root files d).1.IsTree := by
  unfold write
  split
  · exact hd
  · next ts _ =>
    split
    · exact hd
    · next d₁ hmake =>
      have hplaced := isTree_placeAll (hd.makeFolders hmake) ts
      split
      · next d₂ h =>
        rw [h] at hplaced
        exact hplaced
      · next d₂ f h =>
        rw [h] at hplaced
        exact hplaced

/-! ## Files that have room -/

/-- All files are written when their targets have room, the output folder can be made, and no path
leads through the target of another. -/
theorem exists_write (h : targets root files = .ok ts)
    (hroot : ∀ q c, q <+: root → d.find? q ≠ some (.file c)) (hadmits : ∀ t ∈ ts, d.Admits t.1)
    (hapart : ts.Pairwise fun t u => ¬ t.1 <+: u.1.dropLast ∧ ¬ u.1 <+: t.1.dropLast) :
    ∃ e, write root files d = (e, .ok (ts.map Prod.fst)) := by
  have hmake := Disk.makeFolders_eq_ok.2 ⟨hroot, rfl⟩
  generalize root.stations.foldl Disk.addFolder d = d₁ at hmake
  have hroom : ∀ t ∈ ts, d₁.Admits t.1 := by
    obtain ⟨hfiles, rfl⟩ := targets_eq_ok.1 h
    intro t ht
    refine (hadmits t ht).makeFolders hmake fun hpre => ?_
    obtain ⟨f, hf, rfl⟩ := List.mem_map.1 ht
    have hlength := (Path.isBelow_iff.1 (hfiles f hf).2).2
    have hle : (Path.resolve root f.path).length ≤ root.length := hpre.length_le
    omega
  obtain ⟨e, he⟩ := exists_placeAll (fun t ht => (hroom t ht).ne_nil) (fun t ht => (hroom t ht).way)
    (fun t ht => (hroom t ht).place) hapart
  exact ⟨e, by simp only [write, h, hmake, he]⟩

end Output

end Nanoservice
