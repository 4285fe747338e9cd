import Nanoservice.Backend.Reading

/-!
# Settings

The settings of the program, their defaults and how they are read from named values. A value for a
number may be a text that spells it, so environment variables are read like any other values; their
names are taken without regard to letter case.
-/

namespace Nanoservice

open Nanoservice.Decimal (Double)

/-- The settings of the program. -/
structure Settings where
  appName : String := "genbackend"
  apiHost : String := "0.0.0.0"
  apiPort : Int := 4000
  apiKey : Option String := none
  apiBase : String := "https://api.openai.com/v1"
  model : String := "gpt-4o"
  temperature : Double := .ofDecimal false 2 (-1)
  maxTokens : Int := 2500
  timeout : Double := .ofDecimal false 120 0
  outputDir : String := "./generated"
  templatesDir : String := "./templates"
  stateFile : Option String := some "./generated/backend.json"
  maxGenerations : Int := 1000
  deriving DecidableEq, Repr

namespace Rule

/-- A number: one as it is, a boolean, or a text that spells one. -/
def number : Json → Reading Double
  | .float x => .ok x
  | .int n => .ok (.ofInt n)
  | .bool b => .ok (.ofInt (if b then 1 else 0))
  | .str s =>
    match Text.fractionNumber? s with
    | some x => .ok x
    | none => .fail .unclearNumber
  | .broken _ => .fail .brokenText
  | _ => .fail .notNumber

/-- A text or none. -/
def optionalText : Json → Reading (Option String)
  | .null => .ok none
  | v => (text v).map some

end Rule

namespace Settings

open Reading

/-- Settings with the values of some fields in place of those of `base`. -/
def ofFields (base : Settings) (fs : List (RawText × Json)) : Reading Settings :=
  (optional Rule.text base.appName "app_name" fs).both
    ((optional Rule.text base.apiHost "api_host" fs).both
    ((optional Rule.integer base.apiPort "api_port" fs).both
    ((optional Rule.optionalText base.apiKey "openai_api_key" fs).both
    ((optional Rule.text base.apiBase "llm_api_base" fs).both
    ((optional Rule.text base.model "llm_model" fs).both
    ((optional Rule.number base.temperature "llm_temperature" fs).both
    ((optional Rule.integer base.maxTokens "llm_max_tokens" fs).both
    ((optional Rule.number base.timeout "llm_timeout" fs).both
    ((optional Rule.text base.outputDir "output_dir" fs).both
    ((optional Rule.text base.templatesDir "templates_dir" fs).both
    ((optional Rule.optionalText base.stateFile "state_file" fs).both
    (optional Rule.integer base.maxGenerations "max_generations" fs))))))))))))
  |>.map fun (appName, apiHost, apiPort, apiKey, apiBase, model, temperature, maxTokens, timeout,
      outputDir, templatesDir, stateFile, maxGenerations) =>
    { appName, apiHost, apiPort, apiKey, apiBase, model, temperature, maxTokens, timeout,
      outputDir, templatesDir, stateFile, maxGenerations }

/-- The fields that environment variables set; of two spellings of one name the later counts. -/
def environmentFields (given : List (String × String)) : List (RawText × Json) :=
  given.foldl (fun fs p => Table.put (.plain (Text.lower p.1)) (.str p.2) fs) []

/-- The settings of an environment. -/
def ofEnvironment (given : List (String × String)) : Reading Settings :=
  ofFields {} (environmentFields given)

/-- The fields of settings with their values. -/
def toJson (s : Settings) : Json :=
  let orNull (t : Option String) : Json := (t.map Json.str).getD .null
  .obj [("app_name", .str s.appName), ("api_host", .str s.apiHost), ("api_port", .int s.apiPort),
    ("openai_api_key", orNull s.apiKey), ("llm_api_base", .str s.apiBase),
    ("llm_model", .str s.model), ("llm_temperature", .float s.temperature),
    ("llm_max_tokens", .int s.maxTokens), ("llm_timeout", .float s.timeout),
    ("output_dir", .str s.outputDir), ("templates_dir", .str s.templatesDir),
    ("state_file", orNull s.stateFile), ("max_generations", .int s.maxGenerations)]

end Settings

end Nanoservice
