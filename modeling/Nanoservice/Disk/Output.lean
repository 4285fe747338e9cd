import Nanoservice.Disk.Basic
import Nanoservice.OutputFile

/-!
# Writing generated files

Generated files are written below an output folder. The target of every file is found first, and a
target that does not lie below the folder keeps all files from being written. After that the files
are written in order; what is in the way of one of them stops the writing there.
-/

namespace Nanoservice

/-- Why generated files are not all written. -/
inductive OutputFault where
  /-- A path leads out of the output folder. -/
  | outside (path : String)
  /-- A path has a zero character, which no name has. -/
  | zeroCharacter
  /-- Something is in the way of a file. -/
  | disk (fault : DiskFault)
  deriving DecidableEq, Repr

namespace Output

/-- A path has a zero character. -/
def hasZero (path : String) : Bool :=
  path.toList.contains '\x00'

/-- The target of a path below an output folder. -/
def target (root : Path) (path : String) : Except OutputFault Path :=
  let p := Path.resolve root path
  if hasZero path then .error .zeroCharacter
  else if p.isBelow root then .ok p
  else .error (.outside path)

/-- The files at their targets, or the fault of the first file that has none. -/
def targets (root : Path) : List OutputFile → Except OutputFault (List (Path × String))
  | [] => .ok []
  | f :: fs =>
    match target root f.path with
    | .error e => .error e
    | .ok p => (targets root fs).map ((p, f.content) :: ·)

/-- Writes a text to a place, with the folders on the way. -/
def place (d : Disk) (p : Path) (s : String) : Disk × Option DiskFault :=
  match d.makeFolders p.dropLast with
  | .error f => (d, some f)
  | .ok e =>
    match e.writeFile p (.text s) with
    | .error f => (e, some f)
    | .ok e => (e, none)

/-- Writes texts to places in order, up to the first fault. -/
def placeAll : Disk → List (Path × String) → Disk × Option DiskFault
  | d, [] => (d, none)
  | d, (p, s) :: rest =>
    match place d p s with
    | (d, none) => placeAll d rest
    | (d, some f) => (d, some f)

/-- Writes generated files below an output folder; the targets are returned in order. -/
def write (root : Path) (files : List OutputFile) (d : Disk) :
    Disk × Except OutputFault (List Path) :=
  match targets root files with
  | .error e => (d, .error e)
  | .ok ts =>
    match d.makeFolders root with
    | .error f => (d, .error (.disk f))
    | .ok d =>
      match placeAll d ts with
      | (d, none) => (d, .ok (ts.map Prod.fst))
      | (d, some f) => (d, .error (.disk f))

end Output

/-- The wording of the fault of a path that leads out of the output folder, whose name is given. -/
def OutputFault.outsideMessage (root path : String) : String :=
  "Refusing to write outside " ++ root ++ ": " ++ path

end Nanoservice
