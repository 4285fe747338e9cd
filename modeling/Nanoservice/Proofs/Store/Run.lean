import Mathlib.Logic.Function.Basic
import Nanoservice.Proofs.Store.Keeping

/-!
# Runs of stores

Stores over one disk make models current, keep and load them, and are opened again, while the disk
may be changed from outside between any two acts, and may give out during one. What each act does is
the same at every point of every run (`Stores.run_isLawful`): a model that was put in is current
whether or not it could be kept, a load makes current what it returns and touches no disk, and the
file of a store holds what it held before or the whole text of the model. So a file that no one else
has written holds the whole text of a model that was put in (`Stores.file_run`).
-/

namespace Nanoservice

open ModelStore (Breakdown IsWhole keepUntil)

/-- Stores over one disk, each under a number. -/
structure Stores where
  store : Nat → ModelStore
  disk : Disk
  tree : disk.IsTree

/-- What happens to stores and their disk. -/
inductive StoreAct where
  /-- A model is put in, and kept if that is asked for; the disk may give out at this. -/
  | replace (i : Nat) (b : Backend) (persist : Bool) (stop : Option Breakdown)
  /-- The kept model is loaded. -/
  | load (i : Nat) (freshId : String)
  /-- A new store takes the number, with nothing current. -/
  | reopen (i : Nat) (file : Option Path)
  /-- The disk is changed from outside. -/
  | outside (d : Disk) (hd : d.IsTree)

/-- How far an attempt to keep a model comes: one that cannot be encoded ends when the folders on
the way are made, unless the disk gives out before. -/
def Backend.stop? (b : Backend) (p : Path) (stop : Option Breakdown) : Option Breakdown :=
  if b.isEncodable then stop
  else match stop with
    | some (.folders made) => some (.folders made)
    | _ => some (.folders p.length)

theorem Backend.stop?_of_isEncodable {b : Backend} (h : b.isEncodable = true) (p : Path)
    (stop : Option Breakdown) : b.stop? p stop = stop :=
  if_pos h

/-- Makes a model current, and keeps it if that is asked for and as far as the disk does not give
out. -/
def ModelStore.replaceUntil (s : ModelStore) (b : Backend) (persist : Bool)
    (stop : Option Breakdown) (d : Disk) : ModelStore × Disk :=
  (⟨s.file, some b⟩,
    match s.file with
    | some p => if persist then keepUntil p b.persistedText d (b.stop? p stop) else d
    | none => d)

/-- On a disk that does not give out this is what putting in a model does. -/
theorem ModelStore.replaceUntil_none (s : ModelStore) (b : Backend) (persist : Bool) (d : Disk) :
    s.replaceUntil b persist none d = s.replace b persist d := by
  have hprepare (p : Path) : brokenOff p d (.folders p.length) = prepare p d := by
    have htake : p.dropLast.take p.length = p.dropLast := List.take_of_length_le (by simp)
    cases hmade : d.makeFolders p.dropLast <;> simp [brokenOff, prepare, htake, hmade]
  cases hfile : s.file with
  | none => simp only [replaceUntil, replace, hfile]
  | some p =>
    cases hencodable : b.isEncodable <;>
      simp [replaceUntil, replace, hfile, Backend.stop?, hencodable, keepUntil, hprepare]

namespace Stores

theorem isTree_replaceUntil {d : Disk} (hd : d.IsTree) (s : ModelStore) (b : Backend)
    (persist : Bool) (stop : Option Breakdown) : (s.replaceUntil b persist stop d).2.IsTree := by
  unfold ModelStore.replaceUntil
  split
  · split
    · exact (ModelStore.keepUntil_isWhole hd _ _ _).tree
    · exact hd
  · exact hd

/-- What stores and their disk are after an act. -/
def step (w : Stores) : StoreAct → Stores
  | .replace i b persist stop =>
    { store := Function.update w.store i ((w.store i).replaceUntil b persist stop w.disk).1
      disk := ((w.store i).replaceUntil b persist stop w.disk).2
      tree := isTree_replaceUntil w.tree _ _ _ _ }
  | .load i freshId =>
    { w with store := Function.update w.store i ((w.store i).load freshId w.disk).2 }
  | .reopen i file => { w with store := Function.update w.store i ⟨file, none⟩ }
  | .outside d hd => ⟨w.store, d, hd⟩

/-- What stores and their disk are after acts. -/
def run (w : Stores) (acts : List StoreAct) : Stores :=
  acts.foldl step w

theorem run_concat (w : Stores) (acts : List StoreAct) (act : StoreAct) :
    w.run (acts ++ [act]) = (w.run acts).step act := by
  rw [run, List.foldl_append]
  rfl

/-! ## What acts do -/

/-- Only the store with a number may have changed. -/
def OnlyAt (i : Nat) (w w' : Stores) : Prop :=
  ∀ j, j ≠ i → w'.store j = w.store j

/-- A model was put in. -/
structure IsReplaced (i : Nat) (b : Backend) (persist : Bool) (stop : Option Breakdown)
    (w w' : Stores) : Prop where
  current : w'.store i = ⟨(w.store i).file, some b⟩
  others : OnlyAt i w w'
  kept : ∀ p, (w.store i).file = some p → persist = true →
    IsWhole p b.persistedText (b.stop? p stop) w.disk w'.disk
  untouched : (w.store i).file = none ∨ persist = false → w'.disk = w.disk

/-- A load returned what it found. -/
structure IsLoaded (i : Nat) (found : Option Backend) (w w' : Stores) : Prop where
  missing : found = none → w'.store i = w.store i
  current : ∀ b, found = some b → w'.store i = ⟨(w.store i).file, some b⟩
  others : OnlyAt i w w'
  disk : w'.disk = w.disk

/-- What an act does to stores and their disk. -/
def IsLawful (w : Stores) : StoreAct → Stores → Prop
  | .replace i b persist stop, w' => IsReplaced i b persist stop w w'
  | .load i freshId, w' => IsLoaded i ((w.store i).load freshId w.disk).1 w w'
  | .reopen i file, w' => w'.store i = ⟨file, none⟩ ∧ OnlyAt i w w' ∧ w'.disk = w.disk
  | .outside d _, w' => w'.disk = d ∧ w'.store = w.store

theorem onlyAt_update {i : Nat} {s : ModelStore} {w w' : Stores}
    (h : w'.store = Function.update w.store i s) : OnlyAt i w w' := by
  intro j hj
  rw [h, Function.update_of_ne hj]

theorem isReplaced_step (w : Stores) (i : Nat) (b : Backend) (persist : Bool)
    (stop : Option Breakdown) :
    IsReplaced i b persist stop w (w.step (.replace i b persist stop)) where
  current := Function.update_self _ _ _
  others := onlyAt_update rfl
  kept p hp hpersist := by
    have hwhole := ModelStore.keepUntil_isWhole w.tree p b.persistedText (b.stop? p stop)
    simpa [step, ModelStore.replaceUntil, hp, hpersist] using hwhole
  untouched h := by
    rcases h with h | h
    · simp [step, ModelStore.replaceUntil, h]
    · cases hfile : (w.store i).file <;> simp [step, ModelStore.replaceUntil, h, hfile]

theorem isLoaded_step (w : Stores) (i : Nat) (freshId : String) :
    IsLoaded i ((w.store i).load freshId w.disk).1 w (w.step (.load i freshId)) where
  missing h := by
    have hsame : ((w.store i).load freshId w.disk).2 = w.store i := by
      unfold ModelStore.load at h ⊢
      split at h
      · cases h
      · rfl
    exact (Function.update_self _ _ _).trans hsame
  current b h := by
    have hfound : ((w.store i).load freshId w.disk).2 = ⟨(w.store i).file, some b⟩ := by
      unfold ModelStore.load at h ⊢
      split at h
      · cases h
        rfl
      · cases h
    exact (Function.update_self _ _ _).trans hfound
  others := onlyAt_update rfl
  disk := rfl

/-- Every act does what it should. -/
theorem isLawful_step (w : Stores) (act : StoreAct) : IsLawful w act (w.step act) := by
  cases act with
  | replace i b persist stop => exact isReplaced_step w i b persist stop
  | load i freshId => exact isLoaded_step w i freshId
  | reopen i file => exact ⟨Function.update_self _ _ _, onlyAt_update rfl, rfl⟩
  | outside d hd => exact ⟨rfl, rfl⟩

/-- At every point of every run an act does what it should, whatever came before it. -/
theorem run_isLawful (w : Stores) (before : List StoreAct) (act : StoreAct) :
    IsLawful (w.run before) act (w.run (before ++ [act])) := by
  rw [run_concat]
  exact isLawful_step _ act

/-! ## What files hold -/

/-- A file that is none of the siblings was there before an act, came from outside, or holds the
whole text of the model that was put in. -/
theorem file_step {w : Stores} {act : StoreAct} {p : Path} {c : Content}
    (hp : ∀ q, p ≠ ModelStore.sibling q) (h : (w.step act).disk.find? p = some (.file c)) :
    w.disk.find? p = some (.file c) ∨ (∃ d hd, act = .outside d hd ∧ d.find? p = some (.file c)) ∨
      ∃ i b stop, act = .replace i b true stop ∧ c = .text b.persistedText := by
  have hlawful := isLawful_step w act
  cases act with
  | replace i b persist stop =>
    by_cases huntouched : (w.store i).file = none ∨ persist = false
    · rw [hlawful.untouched huntouched] at h
      exact .inl h
    · obtain ⟨hfile, hpersist⟩ := not_or.1 huntouched
      obtain ⟨file, hfile⟩ := Option.ne_none_iff_exists'.1 hfile
      have hwhole := hlawful.kept file hfile (by simpa using hpersist)
      by_cases hplace : p = file
      · subst hplace
        rcases hwhole.whole with hsame | htext
        · rw [hsame] at h
          exact .inl h
        · rw [htext] at h
          cases h
          exact .inr (.inr ⟨i, b, stop, by simpa using hpersist, rfl⟩)
      · exact .inl ((hwhole.files p c hplace (hp file)).1 h)
  | load i freshId =>
    rw [hlawful.disk] at h
    exact .inl h
  | reopen i file =>
    rw [hlawful.2.2] at h
    exact .inl h
  | outside d hd =>
    rw [hlawful.1] at h
    exact .inr (.inl ⟨d, hd, rfl, h⟩)

/-- After a run, a file that is none of the siblings was there at the start, came from outside, or
holds the whole text of a model that was put in to be kept. -/
theorem file_run {w : Stores} {acts : List StoreAct} {p : Path} {c : Content}
    (hp : ∀ q, p ≠ ModelStore.sibling q) (h : (w.run acts).disk.find? p = some (.file c)) :
    w.disk.find? p = some (.file c) ∨
      (∃ d hd, .outside d hd ∈ acts ∧ d.find? p = some (.file c)) ∨
      ∃ i b stop, .replace i b true stop ∈ acts ∧ c = .text b.persistedText := by
  induction acts generalizing w with
  | nil => exact .inl h
  | cons act acts ih =>
    rcases ih h with hstart | ⟨d, hd, hmem, hfile⟩ | ⟨i, b, stop, hmem, htext⟩
    · rcases file_step hp hstart with hfile | ⟨d, hd, rfl, hfile⟩ | ⟨i, b, stop, rfl, htext⟩
      · exact .inl hfile
      · exact .inr (.inl ⟨d, hd, List.mem_cons_self, hfile⟩)
      · exact .inr (.inr ⟨i, b, stop, List.mem_cons_self, htext⟩)
    · exact .inr (.inl ⟨d, hd, List.mem_cons_of_mem _ hmem, hfile⟩)
    · exact .inr (.inr ⟨i, b, stop, List.mem_cons_of_mem _ hmem, htext⟩)

end Stores

end Nanoservice
