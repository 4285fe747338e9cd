import Nanoservice.Backend.Basic
import Nanoservice.Service.Name
import Nanoservice.Table

/-!
# Routes

A backend has one route for each method and path of its endpoints. The last endpoint with a method
and path describes the route, the first such endpoint gives it its place, and the first workflow
that lists such an endpoint serves it.
-/

namespace Nanoservice

/-- A route of the generated service. -/
structure Route where
  path : RawText
  method : Method
  handler : String
  description : RawText
  status : Int
  workflow : Option String
  deriving DecidableEq, Repr

namespace Endpoint

/-- What tells one route from another. -/
def key (e : Endpoint) : Method × RawText :=
  (e.method, e.path)

/-- The status of success: that of the first response between 200 and 299, or 200. -/
def successStatus (e : Endpoint) : Int :=
  ((e.responses.map Response.status).find? fun s => 200 ≤ s && s < 300).getD 200

end Endpoint

namespace Backend

/-- The first workflow that lists each method and path. -/
def servedBy (b : Backend) : List ((Method × RawText) × String) :=
  Table.ofFirst (b.workflows.flatMap fun w => w.endpoints.map fun e => (e.key, w.name))

/-- The endpoint that describes each method and path. -/
def described (b : Backend) : List ((Method × RawText) × Endpoint) :=
  Table.ofLast (b.endpoints.map fun e => (e.key, e))

/-- The routes of a backend. -/
def routes (b : Backend) : List Route :=
  let endpoints := b.described.map Prod.snd
  let handlers := (Name.uniqueAll [] (endpoints.map fun e =>
    Name.handler e.method.keyword e.path.shown)).1
  (endpoints.zip handlers).map fun (e, handler) =>
    { path := e.path
      method := e.method
      handler := handler
      description := e.description
      status := e.successStatus
      workflow := Table.get? e.key b.servedBy }

end Backend

end Nanoservice
