import Nanoservice.CommandLine.Command

/-!
# Help

The pages that describe the program and its commands.
-/

namespace Nanoservice.CommandLine

/-- The lines that describe the program. -/
def wholeHelp : List String :=
  [
    "usage: genbackend [-h] \x7bgenerate,serve\x7d ...",
    "",
    "Generate backend services from natural-language descriptions",
    "",
    "positional arguments:",
    "  \x7bgenerate,serve\x7d",
    "    generate        Generate a backend from a prompt",
    "    serve           Serve the last generated backend",
    "",
    "options:",
    "  -h, --help        show this help message and exit"
  ]

/-- The lines that describe the generation of a backend; the default model is part of them. -/
def generateHelp (model : String) : List String :=
  [
    "usage: genbackend generate [-h] [-o OUTPUT] [-m MODEL] [-v] [-s] [--host HOST]",
    "                           [--port PORT]",
    "                           prompt",
    "",
    "positional arguments:",
    "  prompt                Natural-language description of the backend",
    "",
    "options:",
    "  -h, --help            show this help message and exit",
    "  -o OUTPUT, --output OUTPUT",
    "                        Output directory",
    "  -m MODEL, --model MODEL",
    "                        Model to use (default: " ++ model ++ ")",
    "  -v, --verbose         Verbose output",
    "  -s, --serve           Start the server after generation",
    "  --host HOST",
    "  --port PORT"
  ]

/-- The lines that describe serving. -/
def serveHelp : List String :=
  [
    "usage: genbackend serve [-h] [--host HOST] [--port PORT] [-v]",
    "",
    "options:",
    "  -h, --help     show this help message and exit",
    "  --host HOST",
    "  --port PORT",
    "  -v, --verbose  Verbose output"
  ]

/-- The help page of a part of the program. -/
def helpText (settings : Settings) (program : Program) : String :=
  let lines := match program with
    | .whole => wholeHelp
    | .generate => generateHelp settings.model
    | .serve => serveHelp
  String.intercalate "\n" lines ++ "\n"

end Nanoservice.CommandLine
