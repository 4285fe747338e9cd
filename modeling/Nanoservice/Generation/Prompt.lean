import Nanoservice.Generation.Failure
import Nanoservice.Settings
import Nanoservice.Text.Blank

/-!
# The conversation with the completion service

A request shows the service its instructions and the user's prompt without blank margins. A prompt
or a credential that is blank is refused before anything is sent.
-/

namespace Nanoservice

/-- A message of a conversation. -/
structure Message where
  role : String
  content : RawText
  deriving DecidableEq, Repr

namespace Prompt

/-- The instructions, line by line. -/
def instructionLines : List String :=
  [
    "You are a senior backend architect. Break the user's request down into a backend built from small nanoservices.",
    "Identify:",
    "1. Nodes: single-responsibility units of logic (validation, transformation, storage, calls to external APIs).",
    "2. Workflows: ordered sequences of nodes that fulfil a request. The node order is the execution order.",
    "3. Endpoints: the HTTP operations each workflow exposes.",
    "",
    "Reply with a single JSON object and nothing else, using exactly this shape:",
    "\x7b",
    "  \"name\": \"short-service-name\",",
    "  \"description\": \"What the service does\",",
    "  \"nodes\": [",
    "    \x7b",
    "      \"name\": \"node-name\",",
    "      \"type\": \"data-processor|validator|external-api|database|transformer\",",
    "      \"description\": \"What the node does\",",
    "      \"inputs\": [\x7b\"name\": \"inputName\", \"type\": \"string|number|boolean|object\", \"description\": \"Purpose of the input\"\x7d],",
    "      \"outputs\": [\x7b\"name\": \"outputName\", \"type\": \"string|number|boolean|object\", \"description\": \"Meaning of the output\"\x7d]",
    "    \x7d",
    "  ],",
    "  \"workflows\": [",
    "    \x7b",
    "      \"name\": \"workflow-name\",",
    "      \"description\": \"What the workflow does\",",
    "      \"nodes\": [\"node-name\"],",
    "      \"endpoints\": [",
    "        \x7b",
    "          \"path\": \"/api/resource\",",
    "          \"method\": \"GET|POST|PUT|DELETE\",",
    "          \"description\": \"What the endpoint does\",",
    "          \"parameters\": [",
    "            \x7b\"name\": \"paramName\", \"in\": \"path|query|body|header\", \"required\": true, \"type\": \"string|number|boolean|object\", \"description\": \"Purpose of the parameter\"\x7d",
    "          ],",
    "          \"responses\": [",
    "            \x7b\"status\": 200, \"description\": \"Successful response\", \"schema\": \x7b\"type\": \"object\", \"properties\": \x7b\"key\": \x7b\"type\": \"string\"\x7d\x7d\x7d\x7d",
    "          ]",
    "        \x7d",
    "      ]",
    "    \x7d",
    "  ]",
    "\x7d",
    "Every name listed in a workflow's \"nodes\" must be the name of a node defined in \"nodes\"."
  ]

/-- The instructions that open every conversation. -/
def instructions : String :=
  String.intercalate "\n" instructionLines

/-- The conversation for a prompt. -/
def messages (prompt : RawText) : List Message :=
  [⟨"system", instructions⟩, ⟨"user", prompt.trim⟩]

/-- The failure of a request whose prompt or credential is blank. -/
def inputFailure? (prompt : Option RawText) (apiKey : Option String) : Option Failure :=
  if (prompt.getD "").isBlank then
    some ⟨.emptyPrompt, "Empty prompt provided", .checkInput⟩
  else if Text.isBlankText (apiKey.getD "") then
    some ⟨.missingCredential, "A text-generation API key is required (set OPENAI_API_KEY)",
      .checkInput⟩
  else none

end Prompt

end Nanoservice
