import Nanoservice.Backend.Encoding
import Nanoservice.Disk.Basic

/-!
# The store of the current model

A store holds the model that is current and may keep it in a file. The model is written to a
sibling of the file first, which then takes the file's place, so the file never holds a part of a
text. What is in the way of keeping a model is no fault of the store: the model is current all the
same. A model that cannot be encoded is current as well, but keeping it breaks off in front of the
writing, and with it whatever asked for it. A file that holds no model is taken for none.
-/

namespace Nanoservice

/-- The current model and the place where it is kept. -/
structure ModelStore where
  file : Option Path
  current : Option Backend := none

namespace ModelStore

/-- The sibling of a place to which a text is written first. -/
def sibling (p : Path) : Path :=
  p.dropLast ++ [(p.getLast?.getD "") ++ ".tmp"]

/-- The disk after an attempt to keep a text at a place. -/
def keep (p : Path) (text : String) (d : Disk) : Disk :=
  match d.makeFolders p.dropLast with
  | .error _ => d
  | .ok d =>
    match d.writeFile (sibling p) (.text text) with
    | .error _ => d
    | .ok d =>
      match d.moveFile (sibling p) p with
      | .error _ => d
      | .ok d => d

/-- The disk after the folders on the way to a place are made, if nothing is in their way. -/
def prepare (p : Path) (d : Disk) : Disk :=
  match d.makeFolders p.dropLast with
  | .error _ => d
  | .ok d => d

/-- Keeping a model breaks off: the folders on the way are there, but the model cannot be
encoded. -/
def breaksOff (s : ModelStore) (b : Backend) (d : Disk) : Bool :=
  match s.file with
  | some p => (d.makeFolders p.dropLast).isOk && !b.isEncodable
  | none => false

/-- Makes a model current, and keeps it if that is asked for. -/
def replace (s : ModelStore) (b : Backend) (persist : Bool) (d : Disk) : ModelStore × Disk :=
  (⟨s.file, some b⟩,
    match s.file with
    | some p =>
      if persist then if b.isEncodable then keep p b.persistedText d else prepare p d else d
    | none => d)

/-- The model that is kept at a place. -/
def kept? (freshId : String) (p : Path) (d : Disk) : Option Backend :=
  match d.readText p with
  | .ok s => Backend.ofText? freshId s
  | .error _ => none

/-- Makes the kept model current, if there is one, and returns it. -/
def load (freshId : String) (s : ModelStore) (d : Disk) : Option Backend × ModelStore :=
  match s.file.bind fun p => kept? freshId p d with
  | some b => (some b, ⟨s.file, some b⟩)
  | none => (none, s)

end ModelStore

end Nanoservice
