import Nanoservice.Ambient
import Nanoservice.Artifacts
import Nanoservice.CommandLine.Help
import Nanoservice.Generation.Assembly
import Nanoservice.LogRecord
import Nanoservice.ModelStore

/-!
# Running a command

A generation checks its input, makes a model of the prompt, writes all artifacts and keeps the
model; if it stops before the artifacts, the disk stays as it is. The documentation page comes first
among the artifacts, so a model that cannot be written may leave a template behind. Serving takes
the model that was kept. A server is not run here: what it would be started with is part of the
result.
-/

namespace Nanoservice.CommandLine

/-- What a server is started with. -/
structure Server where
  host : String
  port : Int
  title : String
  store : ModelStore

/-- What a run has to show, apart from the disk. -/
structure Report where
  exitCode : Nat
  output : String := ""
  errors : RawText := ""
  /-- The level from which records are logged, once that is decided. -/
  level : Option LogLevel := none
  /-- The clients that were made for completions. -/
  clients : List ChatClient := []
  sent : List CompletionRequest := []
  servers : List Server := []

/-- Why a run broke off without a report. -/
inductive Crash where
  | generation (i : Interruption)
  | artifacts (f : ArtifactFault)
  deriving DecidableEq, Repr

/-- The exit code of a run; a run that breaks off has the same as one that stops. -/
def exitCode : Except Crash Report → Nat
  | .ok r => r.exitCode
  | .error _ => 1

/-- The store that settings describe; the program runs at a place of the disk. -/
def storeOf (here : Path) (settings : Settings) : ModelStore :=
  ⟨match settings.stateFile with
    | some f => if f.isEmpty then none else some (Path.resolve here f)
    | none => none, none⟩

/-- The client that settings describe. -/
def clientOf (settings : Settings) : ChatClient :=
  ⟨settings.apiKey.getD "", settings.apiBase, settings.timeout⟩

/-- The lines that sum up a generation. -/
def summary (b : Backend) (fileCount : Nat) (written : String) : String :=
  "Generated backend: " ++ b.name ++ "\n" ++
    "  Nodes:     " ++ toString b.nodes.length ++ "\n" ++
    "  Workflows: " ++ toString b.workflows.length ++ "\n" ++
    "  Endpoints: " ++ toString b.endpoints.length ++ "\n" ++
    "  Files:     " ++ toString fileCount ++ " written to " ++ written ++ "\n"

/-- The server of a store. -/
def serverOf (settings : Settings) (o : Options) (store : ModelStore) : Server :=
  ⟨o.host, o.port, settings.appName, store⟩

/-- The report of a generation that stopped. -/
def stopped (o : Options) (message : RawText) (clients : List ChatClient)
    (sent : List CompletionRequest) : Report :=
  { exitCode := 1, errors := .plain "Error: " ++ message ++ .plain "\n",
    level := some (.threshold o.verbose), clients, sent }

/-- Writes the artifacts of a model and keeps the model. -/
def deliver (ambient : Ambient) (here : Path) (settings : Settings) (o : Options)
    (sent : List CompletionRequest) (b : Backend) (d : Disk) : Disk × Except Crash Report :=
  let templates := Path.resolve here settings.templatesDir
  if Output.hasZero o.output then
    match b.makeArtifacts templates ambient.date d with
    | (d, .error f) => (d, .error (.artifacts f))
    | (d, .ok _) => (d, .error (.artifacts (.output .zeroCharacter)))
  else
    match b.writeArtifacts (Path.resolve here o.output) templates ambient.date d with
    | (d, .error f) => (d, .error (.artifacts f))
    | (d, .ok files) =>
      let (store, d) := (storeOf here settings).replace b true d
      (d, .ok {
        exitCode := 0
        output := summary b files.length (Path.tidy o.output)
        level := some (.threshold o.verbose)
        clients := [clientOf settings]
        sent
        servers := if o.serve then [serverOf settings o store] else [] })

/-- Runs a generation. -/
def generate (ambient : Ambient) (here : Path) (settings : Settings)
    (respond : CompletionRequest → Completion) (prompt : String) (o : Options) (d : Disk) :
    Disk × Except Crash Report :=
  match Prompt.inputFailure? (some prompt) settings.apiKey with
  | some f => (d, .ok (stopped o f.message [] []))
  | none =>
    match Generation.assemble ambient.modelId settings prompt o.model respond with
    | (_, .error i) => (d, .error (.generation i))
    | (sent, .ok (.error s)) => (d, .ok (stopped o s.failure.message [clientOf settings] sent))
    | (sent, .ok (.ok b)) => deliver ambient here settings o sent b d

/-- Serves the model that was kept. -/
def serve (ambient : Ambient) (here : Path) (settings : Settings) (o : Options) (d : Disk) :
    Report :=
  let (_, store) := (storeOf here settings).load ambient.modelId d
  { exitCode := 0, level := some (.threshold o.verbose), servers := [serverOf settings o store] }

/-- The report of a command line that leads to no command. -/
def halted (settings : Settings) : Halt → Report
  | .help program => { exitCode := 0, output := helpText settings program }
  | .refused program r =>
    { exitCode := 2, errors := .plain (program.name ++ ": error: " ++ r.message) }

/-- Runs a command line at a place of the disk; `respond` says what becomes of a completion
request. -/
def run (ambient : Ambient) (here : Path) (settings : Settings)
    (respond : CompletionRequest → Completion) (words : List String) (d : Disk) :
    Disk × Except Crash Report :=
  match Command.ofWords settings words with
  | .error h => (d, .ok (halted settings h))
  | .ok (.serve o) => (d, .ok (serve ambient here settings o d))
  | .ok (.generate prompt o) => generate ambient here settings respond prompt o d

end Nanoservice.CommandLine
