import Nanoservice.Text.Blank

/-!
# Endpoint paths

The normal form of an endpoint's path: no blank margins, a leading slash, and parameters in braces.
A parameter written with a colon at the start of a segment, `/:id`, becomes `/{id}`; its name is the
longest run of ASCII letters, digits and underscores that starts with no digit, and what follows the
name stays behind the closing brace.
-/

namespace Nanoservice.EndpointPath

/-- A character that may start the name of a colon parameter. -/
def isNameStart (c : Char) : Bool :=
  ('a' ≤ c && c ≤ 'z') || ('A' ≤ c && c ≤ 'Z') || c == '_'

/-- A character that may continue the name of a colon parameter. -/
def isNameChar (c : Char) : Bool :=
  isNameStart c || ('0' ≤ c && c ≤ '9')

/-- Puts the colon parameters of a path into braces, from left to right. -/
def braceParameters : List Char → List Char
  | [] => []
  | '/' :: ':' :: c :: cs =>
    if isNameStart c then
      '/' :: '\x7b' :: c :: (cs.takeWhile isNameChar ++
        '\x7d' :: braceParameters (cs.dropWhile isNameChar))
    else '/' :: braceParameters (':' :: c :: cs)
  | c :: cs => c :: braceParameters cs
termination_by cs => cs.length
decreasing_by
  all_goals simp only [List.length_cons]
  · have := (List.dropWhile_sublist (l := cs) isNameChar).length_le
    omega
  · omega
  · omega

/-- A path that starts with a slash. -/
def withSlash (cs : List Char) : List Char :=
  match cs with
  | '/' :: _ => cs
  | _ => '/' :: cs

/-- The normal form of a path that is not blank. -/
def normalize (s : String) : String :=
  String.ofList (braceParameters (withSlash (Text.trimChars Text.isBlank s.toList)))

end Nanoservice.EndpointPath
