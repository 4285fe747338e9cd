/-!
# The built-in documentation template

The text of the template that is stored for pages of documentation when no other is there, line by
line. `Nanoservice.Page.Documentation` builds the page that this template stands for.
-/

namespace Nanoservice.Page

/-- The name under which the template is stored. -/
def templateName : String := "documentation.html.j2"

/-- The styles of a page, which the template holds as they are. -/
def styleLines : List String :=
  [
    "  <style>",
    "    body \x7b font-family: -apple-system, BlinkMacSystemFont, \"Segoe UI\", Roboto, Helvetica, Arial, sans-serif; line-height: 1.6; color: #333; max-width: 1200px; margin: 0 auto; padding: 20px; \x7d",
    "    header \x7b background-color: #f8f9fa; padding: 20px; border-radius: 5px; margin-bottom: 30px; border-left: 5px solid #0366d6; \x7d",
    "    h1, h2, h3 \x7b color: #0366d6; \x7d",
    "    h1 \x7b margin-top: 0; \x7d",
    "    h2 \x7b margin-top: 40px; padding-bottom: 10px; border-bottom: 1px solid #eaecef; \x7d",
    "    .endpoint, .node, .workflow \x7b background-color: #f8f9fa; padding: 20px; border-radius: 5px; margin-bottom: 20px; \x7d",
    "    .endpoint \x7b border-left: 5px solid #28a745; \x7d",
    "    .node \x7b border-left: 5px solid #6f42c1; \x7d",
    "    .workflow \x7b border-left: 5px solid #f9c513; \x7d",
    "    .endpoint h3, .node h3, .workflow h3 \x7b margin-top: 0; \x7d",
    "    .method \x7b display: inline-block; padding: 5px 10px; border-radius: 5px; color: white; font-weight: bold; margin-right: 10px; min-width: 60px; text-align: center; \x7d",
    "    .get \x7b background-color: #0366d6; \x7d",
    "    .post \x7b background-color: #28a745; \x7d",
    "    .put \x7b background-color: #f9c513; \x7d",
    "    .delete \x7b background-color: #d73a49; \x7d",
    "    .path \x7b font-family: monospace; font-size: 1.1em; \x7d",
    "    .node-type \x7b font-size: 0.8em; color: #6a737d; font-weight: normal; \x7d",
    "    table \x7b width: 100%; border-collapse: collapse; margin: 20px 0; \x7d",
    "    th, td \x7b text-align: left; padding: 12px; border-bottom: 1px solid #eaecef; \x7d",
    "    th \x7b background-color: #f1f3f5; \x7d",
    "    code \x7b font-family: SFMono-Regular, Consolas, \"Liberation Mono\", Menlo, monospace; background-color: #f6f8fa; padding: 2px 5px; border-radius: 3px; \x7d",
    "    .response-code \x7b display: inline-block; padding: 2px 8px; border-radius: 3px; color: white; font-weight: bold; min-width: 40px; text-align: center; \x7d",
    "    .code-2xx \x7b background-color: #28a745; \x7d",
    "    .code-4xx \x7b background-color: #f9c513; \x7d",
    "    .code-5xx \x7b background-color: #d73a49; \x7d",
    "    .code-other \x7b background-color: #6a737d; \x7d",
    "    footer \x7b margin-top: 50px; padding-top: 20px; border-top: 1px solid #eaecef; text-align: center; color: #6a737d; \x7d",
    "  </style>"
  ]

/-- The lines of the template in front of its styles. -/
def openingLines : List String :=
  [
    "<!DOCTYPE html>",
    "<html lang=\"en\">",
    "<head>",
    "  <meta charset=\"UTF-8\">",
    "  <meta name=\"viewport\" content=\"width=device-width, initial-scale=1.0\">",
    "  <title>\x7b\x7b title \x7d\x7d</title>"
  ]

/-- The lines of the template behind its styles. -/
def closingLines : List String :=
  [
    "</head>",
    "<body>",
    "  <header>",
    "    <h1>\x7b\x7b backend.name \x7d\x7d API Documentation</h1>",
    "    <p>\x7b\x7b backend.description \x7d\x7d</p>",
    "    <p><strong>Version:</strong> \x7b\x7b backend.version \x7d\x7d | <strong>Generated:</strong> \x7b\x7b date \x7d\x7d</p>",
    "  </header>",
    "",
    "  <main>",
    "    <h2>API Endpoints</h2>",
    "    \x7b% for endpoint in backend.endpoints %\x7d",
    "    <div class=\"endpoint\">",
    "      <h3>",
    "        <span class=\"method \x7b\x7b endpoint.method | lower \x7d\x7d\">\x7b\x7b endpoint.method \x7d\x7d</span>",
    "        <span class=\"path\">\x7b\x7b endpoint.path \x7d\x7d</span>",
    "      </h3>",
    "      <p>\x7b\x7b endpoint.description \x7d\x7d</p>",
    "      \x7b% if endpoint.parameters %\x7d",
    "      <h4>Parameters</h4>",
    "      <table>",
    "        <thead>",
    "          <tr><th>Name</th><th>Located in</th><th>Type</th><th>Required</th><th>Description</th></tr>",
    "        </thead>",
    "        <tbody>",
    "          \x7b% for param in endpoint.parameters %\x7d",
    "          <tr>",
    "            <td><code>\x7b\x7b param.name \x7d\x7d</code></td>",
    "            <td>\x7b\x7b param.location \x7d\x7d</td>",
    "            <td><code>\x7b\x7b param.type \x7d\x7d</code></td>",
    "            <td>\x7b\x7b \"Yes\" if param.required else \"No\" \x7d\x7d</td>",
    "            <td>\x7b\x7b param.description \x7d\x7d</td>",
    "          </tr>",
    "          \x7b% endfor %\x7d",
    "        </tbody>",
    "      </table>",
    "      \x7b% endif %\x7d",
    "      \x7b% if endpoint.responses %\x7d",
    "      <h4>Responses</h4>",
    "      <table>",
    "        <thead>",
    "          <tr><th>Status</th><th>Description</th></tr>",
    "        </thead>",
    "        <tbody>",
    "          \x7b% for response in endpoint.responses %\x7d",
    "          <tr>",
    "            <td><span class=\"response-code \x7b\x7b response.status | status_class \x7d\x7d\">\x7b\x7b response.status \x7d\x7d</span></td>",
    "            <td>\x7b\x7b response.description \x7d\x7d</td>",
    "          </tr>",
    "          \x7b% endfor %\x7d",
    "        </tbody>",
    "      </table>",
    "      \x7b% endif %\x7d",
    "    </div>",
    "    \x7b% else %\x7d",
    "    <p>No endpoints defined yet.</p>",
    "    \x7b% endfor %\x7d",
    "",
    "    <h2>Nodes</h2>",
    "    \x7b% for node in backend.nodes %\x7d",
    "    <div class=\"node\">",
    "      <h3>\x7b\x7b node.name \x7d\x7d <span class=\"node-type\">(\x7b\x7b node.type \x7d\x7d)</span></h3>",
    "      <p>\x7b\x7b node.description \x7d\x7d</p>",
    "      \x7b% if node.inputs or node.outputs %\x7d",
    "      <table>",
    "        <thead>",
    "          <tr><th>Direction</th><th>Name</th><th>Type</th><th>Description</th></tr>",
    "        </thead>",
    "        <tbody>",
    "          \x7b% for field in node.inputs %\x7d",
    "          <tr><td>input</td><td><code>\x7b\x7b field.name \x7d\x7d</code></td><td><code>\x7b\x7b field.type \x7d\x7d</code></td><td>\x7b\x7b field.description \x7d\x7d</td></tr>",
    "          \x7b% endfor %\x7d",
    "          \x7b% for field in node.outputs %\x7d",
    "          <tr><td>output</td><td><code>\x7b\x7b field.name \x7d\x7d</code></td><td><code>\x7b\x7b field.type \x7d\x7d</code></td><td>\x7b\x7b field.description \x7d\x7d</td></tr>",
    "          \x7b% endfor %\x7d",
    "        </tbody>",
    "      </table>",
    "      \x7b% endif %\x7d",
    "    </div>",
    "    \x7b% else %\x7d",
    "    <p>No nodes defined yet.</p>",
    "    \x7b% endfor %\x7d",
    "",
    "    <h2>Workflows</h2>",
    "    \x7b% for workflow in backend.workflows %\x7d",
    "    <div class=\"workflow\">",
    "      <h3>\x7b\x7b workflow.name \x7d\x7d</h3>",
    "      <p>\x7b\x7b workflow.description \x7d\x7d</p>",
    "      \x7b% if workflow.nodes %\x7d",
    "      <p><strong>Steps:</strong> \x7b\x7b workflow.nodes | join(\" &rarr; \" | safe) \x7d\x7d</p>",
    "      \x7b% endif %\x7d",
    "      \x7b% if workflow.endpoints %\x7d",
    "      <p><strong>Serves:</strong>",
    "        \x7b% for endpoint in workflow.endpoints %\x7d<code>\x7b\x7b endpoint.method \x7d\x7d \x7b\x7b endpoint.path \x7d\x7d</code>\x7b% if not loop.last %\x7d, \x7b% endif %\x7d\x7b% endfor %\x7d",
    "      </p>",
    "      \x7b% endif %\x7d",
    "    </div>",
    "    \x7b% else %\x7d",
    "    <p>No workflows defined yet.</p>",
    "    \x7b% endfor %\x7d",
    "  </main>",
    "",
    "  <footer>",
    "    <p>Generated by genbackend</p>",
    "  </footer>",
    "</body>",
    "</html>"
  ]

/-- The text of the built-in template. -/
def builtInTemplate : String :=
  String.intercalate "\n" (openingLines ++ styleLines ++ closingLines) ++ "\n"

end Nanoservice.Page
