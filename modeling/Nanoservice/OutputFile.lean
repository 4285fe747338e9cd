/-!
# Generated files

A file that the program is about to write: its path below the output directory and its text.
-/

namespace Nanoservice

/-- A generated file. -/
structure OutputFile where
  path : String
  content : String
  deriving DecidableEq, Repr

namespace OutputFile

/-- A text from its lines. -/
def ofLines (lines : List String) : String :=
  String.intercalate "\n" lines

end OutputFile

end Nanoservice
