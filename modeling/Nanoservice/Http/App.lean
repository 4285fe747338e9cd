import Nanoservice.Ambient
import Nanoservice.Http.Generate
import Nanoservice.Http.Message
import Nanoservice.Job.Run
import Nanoservice.OpenApi.Sheet
import Nanoservice.Page.Store

/-!
# The HTTP service

The service shows the current model in several forms and takes requests for generations. A request
for a generation is answered at once, with the record of a queued job; the job is run after that.
A path that differs from a known one by a slash at its end leads there.
-/

namespace Nanoservice.Http

/-! ## Resources -/

/-- What a path stands for. -/
inductive Resource where
  | health
  | index
  | preview
  | documentation
  | specification
  | explorer
  | generate
  | generation (id : String)
  deriving DecidableEq, Repr

namespace Resource

/-- The resource of a path. -/
def ofPath? (path : String) : Option Resource :=
  match Path.segments path.toList |>.map String.ofList with
  | ["", "v1", ""] => some .index
  | ["", "v1", "health"] => some .health
  | ["", "v1", "preview"] => some .preview
  | ["", "v1", "docs"] => some .documentation
  | ["", "v1", "openapi.json"] => some .specification
  | ["", "v1", "api-docs"] => some .explorer
  | ["", "v1", "generate"] => some .generate
  | ["", "v1", "generations", id] => if id.isEmpty then none else some (.generation id)
  | _ => none

/-- The method of requests for a resource. -/
def method : Resource → String
  | .generate => "POST"
  | _ => "GET"

/-- A path with a slash at its end, if it has none, and without, if it has one. -/
def toggled (path : String) : String :=
  let cs := path.toList
  if cs.getLast? = some '/' then String.ofList (Text.dropEndWhile (· == '/') cs) else path ++ "/"

/-- The resource of a path or of the path that differs by a slash at its end. -/
def find? (path : String) : Option Resource :=
  (ofPath? path).or (if path = "/" then none else ofPath? (toggled path))

end Resource

/-! ## The service -/

/-- The state of the service. -/
structure App where
  settings : Settings
  /-- The folder of the templates. -/
  templates : Path
  workshop : Workshop
  /-- The completion requests that were made so far. -/
  sent : List CompletionRequest := []
  /-- What keeps jobs from being created. -/
  creationFault : Option String := none

namespace App

/-- The service at its start: a store without a model takes the one that is kept in its file. -/
def start (ambient : Ambient) (settings : Settings) (templates : Path) (store : ModelStore)
    (disk : Disk) : App :=
  let store := match store.current with
    | some _ => store
    | none => (store.load ambient.modelId disk).2
  { settings, templates,
    workshop := { registry := { limit := settings.maxGenerations }, store, disk } }

/-- The current model. -/
def current (a : App) : Option Backend :=
  a.workshop.store.current

/-- A text or null. -/
def orNull (s : Option String) : Json :=
  (s.map Json.str).getD .null

/-- A raw text or null. -/
def rawOrNull (t : Option RawText) : Json :=
  (t.map Json.ofText).getD .null

/-- The JSON value of a job's record. -/
def jobJson (j : Job) : Json :=
  .obj [("id", .str j.id), ("prompt", .ofText j.request.prompt),
    ("model", rawOrNull j.request.model), ("identity", rawOrNull j.request.identity),
    ("stage", .str j.stage.name), ("status", .str j.status.name),
    ("error_code", orNull (j.errorCode.map FailureCode.name)),
    ("error_message", rawOrNull j.errorMessage), ("backend_id", rawOrNull j.backendId),
    ("backend_name", orNull j.backendName), ("created_at", .str j.createdAt),
    ("updated_at", .str j.updatedAt)]

/-- The address of a path of the service. -/
def address (origin path : String) : String :=
  origin ++ "/v1/" ++ path

/-- The overview of the service. -/
def overview (a : App) (origin : String) : Json :=
  .obj [("service", .str a.settings.appName), ("backend", orNull (a.current.map Backend.name)),
    ("links", .obj [("preview", .str (address origin "preview")),
      ("docs", .str (address origin "docs")), ("openapi", .str (address origin "openapi.json")),
      ("api_docs", .str (address origin "api-docs")),
      ("generate", .str (address origin "generate"))])]

/-- What a request leads to: the service after it, the response, and the job that was created. -/
structure Answer where
  app : App
  response : Response
  job : Option String := none

/-- The job that is run behind a response; there is none behind one that does not show its job. -/
def Answer.left? (x : Answer) : Option String :=
  if x.response.status = 202 then x.job else none

/-- The answer with the current model in some form. -/
def withModel (a : App) (f : Backend → App × Response) : Answer :=
  match a.current with
  | some b => ⟨(f b).1, (f b).2, none⟩
  | none => ⟨a, .refused 404 (.str "No backend generated yet"), none⟩

/-- The service after the documentation page was made, and the response with it. -/
def documentation (a : App) (date : String) (b : Backend) : App × Response :=
  let (disk, pieces) := b.pagePieces a.templates date a.workshop.disk
  ({ a with workshop := { a.workshop with disk } },
    if pieces.all Page.Piece.isWhole then ⟨200, .html (Page.ofPieces pieces)⟩ else .brokenDown)

/-- Creates a job for a request; the response shows the job as it was created. A job that cannot be
shown is created all the same. -/
def schedule (ambient : Ambient) (r : JobRequest) (a : App) : Answer :=
  let id := ambient.jobId a.workshop.registry.count
  let job := Job.queued id ambient.now r
  let workshop := { a.workshop with registry := a.workshop.registry.add job }
  ⟨{ a with workshop }, .sending 202 (jobJson job), some id⟩

/-- The answer to a request for a generation. -/
def generate (ambient : Ambient) (body : Option String) (a : App) : Answer :=
  match readBody body with
  | .error .unconvertible => ⟨a, .refused 400 (.str "There was an error parsing the body"), none⟩
  | .error (.flawed details) =>
    ⟨a, .sending 422 (.obj [("detail", .arr (details.map BodyDetail.toJson))]), none⟩
  | .ok r =>
    match Prompt.inputFailure? (some r.prompt) a.settings.apiKey with
    | some f =>
      ⟨a, .refused 400 (.obj [("code", .str f.code.name), ("message", .ofText f.message)]), none⟩
    | none =>
      match a.creationFault with
      | some m => ⟨a, .refused 500 (.str ("Failed to schedule generation: " ++ m)), none⟩
      | none => schedule ambient r a

/-- The answer of a resource to a request of its method. -/
def serve (ambient : Ambient) (r : Request) (a : App) : Resource → Answer
  | .health => ⟨a, .ok (.obj [("status", .str "ok")]), none⟩
  | .index => ⟨a, .ok (a.overview r.origin), none⟩
  | .preview => a.withModel fun b =>
      (a, match b.dump? with
        | some v => .sending 200 v
        | none => .brokenDown)
  | .documentation => a.withModel (documentation a ambient.date)
  | .specification => a.withModel fun b =>
      (a, .sending 200 (OpenApi.project b).toJson)
  | .explorer => a.withModel fun b =>
      (a, ⟨200, .explorer (b.name ++ " - API Documentation") (address r.origin "openapi.json")⟩)
  | .generate => generate ambient r.body a
  | .generation id =>
    match a.workshop.registry.find? id with
    | some j => ⟨a, .sending 200 (jobJson j), none⟩
    | none => ⟨a, .refused 404 (.str "Generation not found"), none⟩

/-- The answer to a request, in front of the job that it leaves to be run. -/
def answer (ambient : Ambient) (r : Request) (a : App) : Answer :=
  match Resource.find? (pathOf r.target) with
  | none => ⟨a, .refused 404 (.str "Not Found"), none⟩
  | some resource =>
    if r.method = resource.method then serve ambient r a resource
    else ⟨a, .refused 405 (.str "Method Not Allowed"), none⟩

/-- The service after the run of a job; `respond` says what becomes of a completion request. -/
def runJob (ambient : Ambient) (respond : CompletionRequest → Completion) (id : String) (a : App) :
    App :=
  let (workshop, sent, _) := a.workshop.run a.settings ambient.modelId ambient.now id respond
  { a with workshop, sent := a.sent ++ sent }

/-- The service after a request and the job that it left to be run, and the response to it. -/
def handle (ambient : Ambient) (respond : CompletionRequest → Completion) (r : Request) (a : App) :
    App × Response :=
  let answer := a.answer ambient r
  (match answer.left? with
    | some id => answer.app.runJob ambient respond id
    | none => answer.app, answer.response)

end App

end Nanoservice.Http
