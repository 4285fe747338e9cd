import Nanoservice.Literal
import Nanoservice.OutputFile
import Nanoservice.Service.Route

/-!
# The sources of the generated service

The files of a runnable service: a module for each node and each workflow, the registries that map
names to them, the routes and a read-me. Texts of the model stand in the code as literals, so each
statement keeps to its line whatever the texts hold; only the docstring of the package and the
read-me show a text in itself.
-/

namespace Nanoservice

/-- A node with the names it has in the generated service. -/
structure NodeSource where
  node : Node
  module : String
  className : String

/-- A workflow with the name it has in the generated service. -/
structure WorkflowSource where
  workflow : Workflow
  module : String

namespace Source

/-- A list of texts as a literal. -/
def texts (ss : List RawText) : String :=
  Literal.ofJson (.arr (ss.map Json.ofText))

/-- The value that a node gives for an output of a type until it does its work. -/
def placeholder : ValueType → Json
  | .string => .str ""
  | .number => .int 0
  | .boolean => .bool false
  | .object => .obj []

/-- The module of the application. -/
def application (b : Backend) : List String :=
  ["from fastapi import FastAPI",
    "from app.api.routes import router",
    "",
    "app = FastAPI(title=" ++ Literal.quote b.name ++ ", description=" ++
      Literal.quoteRaw b.description ++ ", version=" ++ Literal.quoteRaw b.version ++ ")",
    "app.include_router(router)",
    "",
    "",
    "@app.get(\"/health\")",
    "def health():",
    "    return \x7b\"status\": \"ok\"\x7d",
    ""]

/-- A module that holds a docstring and nothing else. -/
def docstring (doc : String) : String :=
  "\"\"\"" ++ doc ++ "\"\"\"\n"

/-- The module of a node. -/
def nodeModule (s : NodeSource) : List String :=
  let outputs := Table.ofLast
    (s.node.outputs.map fun f => (RawText.plain f.name, placeholder f.type))
  ["import copy",
    "from typing import Any, Dict",
    "",
    "",
    "class " ++ s.className ++ ":",
    "    NAME = " ++ Literal.quote s.node.name,
    "    TYPE = " ++ Literal.quote s.node.kind.keyword,
    "    DESCRIPTION = " ++ Literal.quoteRaw s.node.description,
    "    INPUTS = " ++ texts (s.node.inputs.map fun f => RawText.plain f.name),
    "    OUTPUTS = " ++ Literal.ofJson (.obj outputs),
    "",
    "    async def run(self, inputs: Dict[str, Any]) -> Dict[str, Any]:",
    "        # Placeholder behaviour: echo matching inputs, typed defaults otherwise.",
    "        return \x7b",
    "            key: inputs.get(key, copy.deepcopy(default))",
    "            for key, default in self.OUTPUTS.items()",
    "        \x7d",
    ""]

/-- The registry of the nodes. -/
def nodeRegistry (nodes : List NodeSource) : List String :=
  ["\"\"\"Generated nodes.\"\"\""] ++
    nodes.map (fun s => "from app.nodes." ++ s.module ++ " import " ++ s.className) ++
    ["", "NODE_REGISTRY = \x7b"] ++
    nodes.map (fun s => "    " ++ Literal.quote s.node.name ++ ": " ++ s.className ++ "(),") ++
    ["\x7d", ""]

/-- The module of a workflow. -/
def workflowModule (w : Workflow) : List String :=
  ["from typing import Any, Dict",
    "from app.nodes import NODE_REGISTRY",
    "",
    "NAME = " ++ Literal.quote w.name,
    "DESCRIPTION = " ++ Literal.quoteRaw w.description,
    "STEPS = " ++ texts w.nodes,
    "",
    "",
    "async def execute(context: Dict[str, Any]) -> Dict[str, Any]:",
    "    \"\"\"Run each node in order, merging its outputs into the context.\"\"\"",
    "    for step in STEPS:",
    "        outputs = await NODE_REGISTRY[step].run(context)",
    "        context = \x7b**context, **outputs\x7d",
    "    return context",
    ""]

/-- The registry of the workflows. -/
def workflowRegistry (workflows : List WorkflowSource) : List String :=
  ["\"\"\"Generated workflows.\"\"\""] ++
    workflows.map (fun s => "from app.workflows import " ++ s.module) ++
    ["", "WORKFLOWS = \x7b"] ++
    workflows.map (fun s => "    " ++ Literal.quote s.workflow.name ++ ": " ++ s.module ++
      ".execute,") ++
    ["\x7d", ""]

/-- The lines in front of the routes. -/
def routesHeader : List String :=
  ["from typing import Any, Dict",
    "from fastapi import APIRouter, Request",
    "from fastapi.responses import JSONResponse",
    "from app.workflows import WORKFLOWS",
    "",
    "router = APIRouter()",
    "",
    "",
    "async def _context(request: Request) -> Dict[str, Any]:",
    "    \"\"\"Merge query, path and JSON body values into one workflow context.\"\"\"",
    "    context: Dict[str, Any] = dict(request.query_params)",
    "    context.update(request.path_params)",
    "    if await request.body():",
    "        try:",
    "            payload = await request.json()",
    "        except ValueError:",
    "            payload = None",
    "        if isinstance(payload, dict):",
    "            context.update(payload)",
    "    return context",
    ""]

/-- The line that binds a route to its method and path. -/
def routeBinding (r : Route) : String :=
  "@router." ++ r.method.lowerName ++ "(" ++ Literal.quoteRaw r.path ++ ", status_code=" ++
    String.ofList (Text.intChars r.status) ++ ", summary=" ++ Literal.quoteRaw r.description ++ ")"

/-- The line that answers a request to a route. -/
def routeAnswer (r : Route) : String :=
  match r.workflow with
  | none =>
    "    return JSONResponse(status_code=501, content=\x7b\"detail\": " ++
      "\"No workflow serves this endpoint\"\x7d)"
  | some w => "    return await WORKFLOWS[" ++ Literal.quote w ++ "](await _context(request))"

/-- The four lines of a route. -/
def routeLines (r : Route) : List String :=
  ["", routeBinding r, "async def " ++ r.handler ++ "(request: Request):", routeAnswer r]

/-- The module of the routes. -/
def routesModule (routes : List Route) : List String :=
  routesHeader ++ routes.flatMap routeLines ++ [""]

/-- The packages that the service needs. -/
def requirements : String :=
  "fastapi==0.115.6\nuvicorn[standard]==0.30.6\n"

/-- The line of the read-me for a route. -/
def readmeLine (r : Route) : String :=
  let servedBy := match r.workflow with
    | some w => if w.isEmpty then "" else " (workflow `" ++ w ++ "`)"
    | none => ""
  "- `" ++ r.method.keyword ++ " " ++ r.path.shown ++ "`: " ++ r.description.shown ++ servedBy

/-- The read-me. -/
def readme (b : Backend) (routes : List Route) : List String :=
  ["# " ++ b.name,
    "",
    b.description.shown,
    "",
    "Version " ++ b.version.shown ++ ". Generated by genbackend.",
    "",
    "## Run",
    "",
    "```bash",
    "pip install -r requirements.txt",
    "uvicorn app.main:app --reload",
    "```",
    "",
    "## Endpoints",
    ""] ++
    (if routes.isEmpty then ["No endpoints defined."] else routes.map readmeLine) ++ [""]

end Source

namespace Backend

/-- The nodes of a backend with distinct module and class names. -/
def nodeSources (b : Backend) : List NodeSource :=
  let modules := (Name.uniqueAll [] (b.nodes.map fun n => Name.identifier .node n.name)).1
  let classes := (Name.uniqueAll [] (b.nodes.map fun n => Name.pascalCase n.name ++ "Node")).1
  (b.nodes.zip (modules.zip classes)).map fun (node, module, className) =>
    ⟨node, module, className⟩

/-- The workflows of a backend with distinct module names. -/
def workflowSources (b : Backend) : List WorkflowSource :=
  let modules := (Name.uniqueAll [] (b.workflows.map fun w => Name.identifier .workflow w.name)).1
  (b.workflows.zip modules).map fun (workflow, module) => ⟨workflow, module⟩

/-- The files of the generated service, in order. -/
def serviceFiles (b : Backend) : List OutputFile :=
  let nodes := b.nodeSources
  let workflows := b.workflowSources
  let routes := b.routes
  [⟨"app/__init__.py", Source.docstring (b.name ++ " service.")⟩,
    ⟨"app/main.py", OutputFile.ofLines (Source.application b)⟩,
    ⟨"app/api/__init__.py", Source.docstring "API routes package."⟩,
    ⟨"app/api/routes.py", OutputFile.ofLines (Source.routesModule routes)⟩,
    ⟨"app/nodes/__init__.py", OutputFile.ofLines (Source.nodeRegistry nodes)⟩,
    ⟨"app/workflows/__init__.py", OutputFile.ofLines (Source.workflowRegistry workflows)⟩,
    ⟨"requirements.txt", Source.requirements⟩,
    ⟨"README.md", OutputFile.ofLines (Source.readme b routes)⟩] ++
    nodes.map (fun s =>
      ⟨"app/nodes/" ++ s.module ++ ".py", OutputFile.ofLines (Source.nodeModule s)⟩) ++
    workflows.map fun s =>
      ⟨"app/workflows/" ++ s.module ++ ".py", OutputFile.ofLines (Source.workflowModule s.workflow)⟩

end Backend

end Nanoservice
