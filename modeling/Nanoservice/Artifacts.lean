import Nanoservice.Backend.Encoding
import Nanoservice.Disk.Output
import Nanoservice.OpenApi.Sheet
import Nanoservice.Page.Store
import Nanoservice.Service.Source

/-!
# Artifacts

Everything that is derived from a model: the model itself, its OpenAPI document in two formats, its
documentation page and the sources of its service, which stand in a folder of their own. The page is
made first; a model that cannot be encoded has a page, but no artifacts, and neither has one whose
document holds an integer that is too long for a decimal text.
-/

namespace Nanoservice

namespace OutputFile

/-- A file inside a folder. -/
def inside (folder : String) (f : OutputFile) : OutputFile :=
  ⟨folder ++ "/" ++ f.path, f.content⟩

end OutputFile

/-- Why the artifacts of a model are not all written. -/
inductive ArtifactFault where
  | encoding (f : EncodingFault)
  /-- An integer of the document is too long for a decimal text. -/
  | longInteger
  | output (f : OutputFault)
  deriving DecidableEq, Repr

namespace Backend

/-- The folder of the generated service. -/
def serviceFolder : String := "service"

/-- The artifacts of a model whose documentation page is given. -/
def artifacts (b : Backend) (page : String) : List OutputFile :=
  let document := OpenApi.project b
  [⟨"backend.json", b.persistedText⟩, ⟨"openapi.json", document.json⟩,
    ⟨"openapi.yaml", document.yaml⟩, ⟨"docs.html", page⟩] ++
    b.serviceFiles.map (OutputFile.inside serviceFolder)

/-- What keeps the artifacts of a model from being made. -/
def artifactFault? (b : Backend) : Option ArtifactFault :=
  match b.encodingFault? with
  | some f => some (.encoding f)
  | none => if (OpenApi.project b).toJson.hasShortIntegers then none else some .longInteger

/-- Makes the documentation page of a model, and all artifacts with it. -/
def makeArtifacts (b : Backend) (templates : Path) (date : String) (d : Disk) :
    Disk × Except ArtifactFault (List OutputFile) :=
  let (d, page) := b.page templates date d
  match b.artifactFault? with
  | some f => (d, .error f)
  | none => (d, .ok (b.artifacts page))

/-- Makes the artifacts of a model and writes them below an output folder. -/
def writeArtifacts (b : Backend) (root templates : Path) (date : String) (d : Disk) :
    Disk × Except ArtifactFault (List OutputFile) :=
  match b.makeArtifacts templates date d with
  | (d, .error f) => (d, .error f)
  | (d, .ok files) =>
    match Output.write root files d with
    | (d, .ok _) => (d, .ok files)
    | (d, .error f) => (d, .error (.output f))

end Backend

end Nanoservice
