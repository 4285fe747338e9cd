import Nanoservice.Disk.Fault
import Nanoservice.Page.Template

/-!
# Stored templates

Templates are kept in a folder. One that is asked for and not there is written first, with the text
of the built-in template, so it can be edited from then on.
-/

namespace Nanoservice.Page

/-- The text of a stored template; the built-in one is stored under a name that has none. -/
def loadTemplate (folder : Path) (name : String) (d : Disk) : Disk × Except DiskFault String :=
  let p := Path.resolve folder name
  if (d.find? p).isSome then (d, d.readText p)
  else match d.makeFolders p.dropLast with
    | .error f => (d, .error f)
    | .ok d =>
      match d.writeFile p (.text builtInTemplate) with
      | .error f => (d, .error f)
      | .ok d => (d, d.readText p)

end Nanoservice.Page

namespace Nanoservice

namespace Backend

/-- The pieces of the documentation page of a model by the stored template. -/
def pagePieces (b : Backend) (folder : Path) (date : String) (d : Disk) :
    Disk × List Page.Piece :=
  match Page.loadTemplate folder Page.templateName d with
  | (d, .ok source) => (d, Page.pieces b date source)
  | (d, .error f) => (d, Page.errorPieces (f.message Path.text))

/-- The documentation page of a model by the stored template. -/
def page (b : Backend) (folder : Path) (date : String) (d : Disk) : Disk × String :=
  ((b.pagePieces folder date d).1, Page.ofPieces (b.pagePieces folder date d).2)

end Backend

end Nanoservice
