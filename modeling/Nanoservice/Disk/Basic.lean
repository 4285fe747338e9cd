import Nanoservice.Disk.Path
import Nanoservice.Table
import Nanoservice.Text.NewLine
import Nanoservice.Text.Utf8

/-!
# The disk

A disk holds files and folders at places. The top is always a folder. Each operation either changes
the disk or says what was in its way; an operation that fails changes nothing.
-/

namespace Nanoservice

/-- The content of a file: a text, or bytes that are no text. -/
inductive Content where
  | text (s : String)
  | raw (bytes : List UInt8)
  deriving DecidableEq, Repr

namespace Content

/-- The content that bytes make. -/
def ofBytes (bytes : List UInt8) : Content :=
  match Text.Utf8.decode? bytes with
  | some s => .text s
  | none => .raw bytes

/-- The shown form of a content, with U+FFFD for what is unreadable. -/
def shown : Content → String
  | .text s => s
  | .raw bytes => Text.Utf8.decodeShown bytes

end Content

/-- What is at a place. -/
inductive Entry where
  | folder
  | file (content : Content)
  deriving DecidableEq, Repr

/-- What is in the way of an operation. -/
inductive Obstacle where
  /-- Something is there that is no folder. -/
  | occupied
  /-- A folder is there. -/
  | folder
  /-- What should be a folder on the way is a file. -/
  | notFolder
  /-- Nothing is there. -/
  | missing
  /-- What is there is no text. -/
  | notText
  deriving DecidableEq, Repr

/-- An obstacle and the place where an operation met it. -/
structure DiskFault where
  obstacle : Obstacle
  place : Path
  deriving DecidableEq, Repr

/-- Files and folders at places. -/
structure Disk where
  entries : List (Path × Entry) := []
  deriving DecidableEq, Repr

namespace Disk

/-- What is at a place. -/
def find? (d : Disk) (p : Path) : Option Entry :=
  if p = [] then some .folder else Table.get? p d.entries

/-- The disk with something at a place. -/
def set (d : Disk) (p : Path) (e : Entry) : Disk :=
  ⟨Table.put p e d.entries⟩

/-- The disk without a place and all places below it. -/
def remove (d : Disk) (p : Path) : Disk :=
  ⟨d.entries.filter fun e => !p.isPrefixOf e.1⟩

/-- The files and their contents. -/
def files (d : Disk) : List (Path × Content) :=
  d.entries.filterMap fun
    | (p, .file c) => some (p, c)
    | (_, .folder) => none

/-- The files below a place, by their ways from it in ascending order. -/
def filesBelow (d : Disk) (root : Path) : List (String × Content) :=
  ((d.files.filter fun f => f.1.isBelow root).map fun f => (Path.relative root f.1, f.2)).mergeSort
    fun a b => a.1 ≤ b.1

/-- A file stands on the way to a place. -/
def isCutOff (d : Disk) (p : Path) : Bool :=
  (Path.stations p.dropLast).any fun q =>
    match d.find? q with
    | some (.file _) => true
    | _ => false

/-- The disk with a folder at a place where nothing is. -/
def addFolder (d : Disk) (p : Path) : Disk :=
  if (d.find? p).isSome then d else d.set p .folder

/-- Makes a place a folder, with the folders on the way to it. -/
def makeFolders (d : Disk) (p : Path) : Except DiskFault Disk :=
  if d.isCutOff p then .error ⟨.notFolder, p⟩
  else match d.find? p with
    | some (.file _) => .error ⟨.occupied, p⟩
    | _ => .ok (p.stations.foldl addFolder d)

/-- Writes a file into a folder that is there. -/
def writeFile (d : Disk) (p : Path) (c : Content) : Except DiskFault Disk :=
  if d.isCutOff p then .error ⟨.notFolder, p⟩
  else match d.find? p, d.find? p.dropLast with
    | some .folder, _ => .error ⟨.folder, p⟩
    | _, none => .error ⟨.missing, p⟩
    | _, some _ => .ok (d.set p (.file c))

/-- Puts a file in the place of another one or of none. -/
def moveFile (d : Disk) (source target : Path) : Except DiskFault Disk :=
  match d.find? source, d.find? target with
  | some (.file _), some .folder => .error ⟨.folder, target⟩
  | some (.file c), _ => .ok ((d.remove source).set target (.file c))
  | some .folder, _ => .error ⟨.folder, source⟩
  | none, _ => .error ⟨.missing, source⟩

/-- Reads a text, with line feeds for its line ends. -/
def readText (d : Disk) (p : Path) : Except DiskFault String :=
  match d.find? p with
  | some (.file (.text s)) => .ok (String.ofList (Text.lineFeeds s.toList))
  | some (.file (.raw _)) => .error ⟨.notText, p⟩
  | some .folder => .error ⟨.folder, p⟩
  | none => .error ⟨if d.isCutOff p then .notFolder else .missing, p⟩

/-! ## What a change leaves alone -/

theorem find?_set_self (d : Disk) {p : Path} (h : p ≠ []) (e : Entry) :
    (d.set p e).find? p = some e := by
  simp [find?, set, h, Table.get?_put]

theorem find?_set_of_ne (d : Disk) {p q : Path} (h : p ≠ q) (e : Entry) :
    (d.set p e).find? q = d.find? q := by
  simp [find?, set, h, Table.get?_put]

end Disk

end Nanoservice
