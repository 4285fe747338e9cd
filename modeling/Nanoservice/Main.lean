import Nanoservice.CommandLine.Run
import Nanoservice.Http.App

/-!
# The program

The outer layer of the command line: it reads settings from the environment and files from the disk,
runs the command line, and writes the files that changed. It has no network. A completion is read
from the standard input, and a server takes its requests there, one in a line: the method, the
target and, if there is one, the body. Everything that is decided is decided in
`Nanoservice.CommandLine.run` and `Nanoservice.Http.App.handle`.
-/

namespace Nanoservice.Main

open CommandLine

/-- The names of the environment variables that are settings. -/
def variableNames : List String :=
  (({} : Settings).toJson.fields.map fun f => f.1.shown).flatMap fun n => [n, n.toUpper]

/-- The environment variables that are set. -/
def environment : IO (List (String × String)) := do
  let found ← variableNames.mapM fun n => do
    let value ← IO.getEnv n
    pure (value.map fun v => (n, v))
  pure (found.filterMap id)

/-- The place where the program runs. -/
def currentPlace : IO Path := do
  let d ← IO.currentDir
  pure (Path.resolve [] d.toString)

/-- A disk with the file at a place, if it is there. -/
def withFile (d : Disk) (p : Path) : IO Disk := do
  try
    let bytes ← IO.FS.readBinFile p.text
    let d := (d.makeFolders p.dropLast).toOption.getD d
    pure (d.set p (.file (Content.ofBytes bytes.toList)))
  catch _ => pure d

/-- The part of the disk that the program reads. -/
def readDisk (here : Path) (settings : Settings) : IO Disk := do
  let templates := Path.resolve here settings.templatesDir
  let d ← withFile {} (templates ++ [Page.templateName])
  match (storeOf here settings).file with
  | some p => withFile d p
  | none => pure d

/-- Writes the files that differ between two states of the disk. -/
def writeChanges (before after : Disk) : IO Unit := do
  for (p, c) in after.files do
    unless before.find? p = some (.file c) do
      IO.FS.createDirAll (Path.text p.dropLast)
      match c with
      | .text s => IO.FS.writeFile p.text s
      | .raw bytes => IO.FS.writeBinFile p.text (ByteArray.mk bytes.toArray)

/-- Fresh identities, drawn at random, and a clock that shows no time. -/
def freshAmbient : IO Ambient := do
  let seed ← IO.rand 0 (Nat.pow 16 12 - 1)
  let digits (width n : Nat) := String.ofList (Literal.hexDigits width n)
  pure
    { modelId := digits 32 seed
      jobId := fun n => "00000000-0000-0000-" ++ digits 4 n ++ "-" ++ digits 12 seed
      now := "1970-01-01T00:00:00Z"
      date := "1970-01-01" }

/-- What is left of the standard input. -/
def restOfInput : IO String := do
  let input ← IO.getStdin
  input.readToEnd

/-- What becomes of a completion request before the reply is known. -/
def noReply : CompletionRequest → Completion :=
  fun _ => .failure "no reply"

/-- The text of a response. -/
def responseText (r : Http.Response) : String :=
  let body := match r.body with
    | .json v => v.write .line
    | .html s | .plain s => s
    | .explorer title address => title ++ " " ++ address
  toString r.status ++ " " ++ r.contentType ++ "\n" ++ body

/-- The request in a line of input. -/
def requestOfLine (origin line : String) : Http.Request :=
  let words := (line.toList.takeWhile (· ≠ '\n')).splitBy fun a b => a ≠ ' ' && b ≠ ' '
  match (words.filter (· ≠ [' '])).map String.ofList with
  | [] => ⟨origin, "GET", "/", none⟩
  | [target] => ⟨origin, "GET", target, none⟩
  | [method, target] => ⟨origin, method, target, none⟩
  | method :: target :: body => ⟨origin, method, target, some (String.intercalate " " body)⟩

/-- Answers the requests in the standard input until it ends. A completion that a request leads to
is the line that follows it. -/
partial def answerRequests (ambient : Ambient) (origin : String) (a : Http.App) : IO Unit := do
  let input ← IO.getStdin
  let line ← input.getLine
  unless line.isEmpty do
    let request := requestOfLine origin line
    let tried := (a.handle ambient noReply request).1
    let reply ← if a.sent.length < tried.sent.length then input.getLine else pure ""
    let (a, response) := a.handle ambient (fun _ => .reply reply) request
    IO.println (responseText response)
    answerRequests ambient origin a

/-- Serves a store. -/
def serve (ambient : Ambient) (here : Path) (settings : Settings) (d : Disk) (s : Server) :
    IO Unit := do
  let templates := Path.resolve here settings.templatesDir
  let app := Http.App.start ambient settings templates s.store d
  answerRequests ambient ("http://" ++ s.host ++ ":" ++ toString s.port) app

/-- The wording of a crash. -/
def crashMessage (root : String) : Crash → String
  | .generation i => i.message.shown
  | .artifacts (.encoding f) => f.message
  | .artifacts .longInteger => Text.longIntegerMessage
  | .artifacts (.output (.outside path)) => OutputFault.outsideMessage root path
  | .artifacts (.output .zeroCharacter) => "embedded null byte"
  | .artifacts (.output (.disk f)) => f.obstacle.wording ++ ": " ++ Path.text f.place

/-- Runs a command line with settings. -/
def runWith (settings : Settings) (words : List String) : IO UInt32 := do
  let here ← currentPlace
  let ambient ← freshAmbient
  let before ← readDisk here settings
  let asked := match CommandLine.run ambient here settings noReply words before with
    | (_, .ok r) => !r.sent.isEmpty
    | (_, .error _) => false
  let reply ← if asked then restOfInput else pure ""
  let (after, outcome) := CommandLine.run ambient here settings (fun _ => .reply reply) words before
  writeChanges before after
  match outcome with
  | .ok r =>
    IO.print r.output
    unless r.errors.isEmpty do IO.eprintln r.errors.shown
    for s in r.servers do serve ambient here settings after s
  | .error c => IO.eprintln (crashMessage (Path.text here) c)
  pure (UInt32.ofNat (exitCode outcome))

end Nanoservice.Main

/-- Runs the program. -/
def main (words : List String) : IO UInt32 := do
  match Nanoservice.Settings.ofEnvironment (← Nanoservice.Main.environment) with
  | .ok settings => Nanoservice.Main.runWith settings words
  | .error issues =>
    IO.eprintln (Nanoservice.Issue.report issues)
    pure 1
