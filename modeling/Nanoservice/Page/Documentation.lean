import Nanoservice.Backend.Basic
import Nanoservice.Page.BuiltIn
import Nanoservice.Page.Markup
import Nanoservice.Page.Status

/-!
# The documentation page

The page that the built-in template stands for: the head of the backend, then its endpoints, nodes
and workflows, each part with a note in place of an empty list. Everything that comes from the
model is a text piece, except keywords and status classes, which are fixed words.
-/

namespace Nanoservice.Page

open Piece (line)

/-- A line of markup around a text. -/
def around (before : String) (t : RawText) (after : String) : List Piece :=
  [.markup before, .text t, line after]

/-- The title of a backend's page. -/
def pageTitle (b : Backend) : String :=
  b.name ++ " API Documentation"

/-- A table with head cells in a line and rows. -/
def table (head : String) (rows : List Piece) : List Piece :=
  [line "      <table>", line "        <thead>", line ("          <tr>" ++ head ++ "</tr>"),
    line "        </thead>", line "        <tbody>"] ++ rows ++
    [line "        </tbody>", line "      </table>"]

/-- The pieces of parts in order, or a note if there are none. -/
def orNote {α : Type} (note : String) (pieces : α → List Piece) (parts : List α) : List Piece :=
  if parts.isEmpty then [line ("    <p>" ++ note ++ "</p>")] else parts.flatMap pieces

/-! ## Endpoints -/

/-- The row of a parameter. -/
def parameterRow (p : Parameter) : List Piece :=
  [line "          <tr>"] ++
    around "            <td><code>" p.name "</code></td>" ++
    [line ("            <td>" ++ p.location.keyword ++ "</td>"),
      line ("            <td><code>" ++ p.type.keyword ++ "</code></td>"),
      line ("            <td>" ++ (if p.required then "Yes" else "No") ++ "</td>")] ++
    around "            <td>" p.description "</td>" ++
    [line "          </tr>"]

/-- The row of a response. -/
def responseRow (r : Response) : List Piece :=
  [line "          <tr>",
    line ("            <td><span class=\"response-code " ++ statusClass r.status ++ "\">" ++
      String.ofList (Text.intChars r.status) ++ "</span></td>")] ++
    around "            <td>" r.description "</td>" ++
    [line "          </tr>"]

/-- The section of an endpoint. -/
def endpointSection (e : Endpoint) : List Piece :=
  [line "    <div class=\"endpoint\">",
    line "      <h3>",
    line ("        <span class=\"method " ++ e.method.lowerName ++ "\">" ++ e.method.keyword ++
      "</span>")] ++
    around "        <span class=\"path\">" e.path "</span>" ++
    [line "      </h3>"] ++
    around "      <p>" e.description "</p>" ++
    (if e.parameters.isEmpty then []
      else line "      <h4>Parameters</h4>" :: table
        ("<th>Name</th><th>Located in</th><th>Type</th><th>Required</th>" ++
          "<th>Description</th>") (e.parameters.flatMap parameterRow)) ++
    (if e.responses.isEmpty then []
      else line "      <h4>Responses</h4>" :: table "<th>Status</th><th>Description</th>"
        (e.responses.flatMap responseRow)) ++
    [line "    </div>"]

/-! ## Nodes -/

/-- The row of an input or output. -/
def fieldRow (direction : String) (f : Field) : List Piece :=
  [.markup ("          <tr><td>" ++ direction ++ "</td><td><code>"), .text f.name,
    .markup ("</code></td><td><code>" ++ f.type.keyword ++ "</code></td><td>"),
    .text f.description, line "</td></tr>"]

/-- The section of a node. -/
def nodeSection (n : Node) : List Piece :=
  [line "    <div class=\"node\">", .markup "      <h3>", .text n.name,
    line (" <span class=\"node-type\">(" ++ n.kind.keyword ++ ")</span></h3>")] ++
    around "      <p>" n.description "</p>" ++
    (if n.inputs.isEmpty && n.outputs.isEmpty then []
      else table "<th>Direction</th><th>Name</th><th>Type</th><th>Description</th>"
        (n.inputs.flatMap (fieldRow "input") ++ n.outputs.flatMap (fieldRow "output"))) ++
    [line "    </div>"]

/-! ## Workflows -/

/-- Texts with an arrow between them. -/
def arrows : List RawText → List Piece
  | [] => []
  | [t] => [.text t]
  | t :: ts => .text t :: .markup " &rarr; " :: arrows ts

/-- The methods and paths of endpoints with commas between them. -/
def served : List Endpoint → List Piece
  | [] => []
  | [e] => [.markup ("<code>" ++ e.method.keyword ++ " "), .text e.path, .markup "</code>"]
  | e :: es =>
    [.markup ("<code>" ++ e.method.keyword ++ " "), .text e.path, .markup "</code>, "] ++ served es

/-- The section of a workflow. -/
def workflowSection (w : Workflow) : List Piece :=
  [line "    <div class=\"workflow\">"] ++
    around "      <h3>" w.name "</h3>" ++
    around "      <p>" w.description "</p>" ++
    (if w.nodes.isEmpty then []
      else .markup "      <p><strong>Steps:</strong> " :: (arrows w.nodes ++ [line "</p>"])) ++
    (if w.endpoints.isEmpty then []
      else
        line "      <p><strong>Serves:</strong>" :: (served w.endpoints ++ [line "      </p>"])) ++
    [line "    </div>"]

/-! ## The page -/

/-- The head of the page, up to the endpoints. -/
def headPieces (b : Backend) (date : String) : List Piece :=
  [line "<!DOCTYPE html>", line "<html lang=\"en\">", line "<head>",
    line "  <meta charset=\"UTF-8\">",
    line "  <meta name=\"viewport\" content=\"width=device-width, initial-scale=1.0\">"] ++
    around "  <title>" (pageTitle b) "</title>" ++
    styleLines.map line ++
    [line "</head>", line "<body>", line "  <header>"] ++
    around "    <h1>" b.name " API Documentation</h1>" ++
    around "    <p>" b.description "</p>" ++
    [.markup "    <p><strong>Version:</strong> ", .text b.version,
      .markup " | <strong>Generated:</strong> ", .text date, line "</p>"] ++
    [line "  </header>", line "", line "  <main>"]

/-- The pieces of the page of a backend. -/
def documentationPieces (b : Backend) (date : String) : List Piece :=
  headPieces b date ++
    [line "    <h2>API Endpoints</h2>"] ++
    orNote "No endpoints defined yet." endpointSection b.endpoints ++
    [line "", line "    <h2>Nodes</h2>"] ++
    orNote "No nodes defined yet." nodeSection b.nodes ++
    [line "", line "    <h2>Workflows</h2>"] ++
    orNote "No workflows defined yet." workflowSection b.workflows ++
    [line "  </main>", line "", line "  <footer>", line "    <p>Generated by genbackend</p>",
      line "  </footer>", line "</body>", .markup "</html>"]

/-! ## The page in place of one that cannot be made -/

/-- The pieces of the page that reports why there is no documentation. -/
def errorPieces (message : String) : List Piece :=
  [line "<!DOCTYPE html>", line "<html>", line "  <head>",
    line "    <title>Error - API Documentation</title>", line "    <style>",
    line ("      body \x7b font-family: Arial, sans-serif; margin: 40px; " ++
      "line-height: 1.6; \x7d"),
    line ("      .error \x7b color: red; border: 1px solid red; padding: 20px; " ++
      "border-radius: 5px; \x7d"),
    line "    </style>", line "  </head>", line "  <body>",
    line "    <h1>Error Generating Documentation</h1>", line "    <div class=\"error\">",
    line "      <p>There was an error generating the documentation:</p>"] ++
    around "      <p>" message "</p>" ++
    [line "    </div>", line "    <p>Please check the server logs for more information.</p>",
      line "  </body>", line "</html>"]

end Nanoservice.Page
