import Nanoservice.Json.Reader
import Nanoservice.Text.Utf8

/-!
# Requests and responses

What goes over the wire. A request names its target with a path in percent encoding and may have a
body of text; a response has a status and a body of one of a few kinds.
-/

namespace Nanoservice.Http

/-- A request to the service. -/
structure Request where
  /-- The scheme and host at which the service was addressed. -/
  origin : String
  method : String
  target : String
  body : Option String := none
  deriving DecidableEq, Repr

/-- The body of a response. -/
inductive Body where
  | json (v : Json)
  | html (s : String)
  /-- A page that explores the API whose specification is at the address. -/
  | explorer (title address : String)
  | plain (s : String)

/-- A response of the service. -/
structure Response where
  status : Nat
  body : Body

namespace Response

/-- The type of a response's body. -/
def contentType (r : Response) : String :=
  match r.body with
  | .json _ => "application/json"
  | .html _ | .explorer _ _ => "text/html; charset=utf-8"
  | .plain _ => "text/plain; charset=utf-8"

/-- A successful response. -/
def ok (v : Json) : Response :=
  ⟨200, .json v⟩

/-- A response that says why there is no other. -/
def refused (status : Nat) (detail : Json) : Response :=
  ⟨status, .json (.obj [("detail", detail)])⟩

/-- The response to a request that the service broke down on. -/
def brokenDown : Response :=
  ⟨500, .plain "Internal Server Error"⟩

/-- The response of a status with a JSON value that may be anything. -/
def sending (status : Nat) (v : Json) : Response :=
  if v.isSendable then ⟨status, .json v⟩ else .brokenDown

end Response

/-! ## Paths of requests -/

/-- The bytes that characters stand for: two digits behind a percent sign are one byte. -/
def percentBytes : List Char → List UInt8
  | '%' :: a :: b :: cs =>
    match Json.hexValue? a, Json.hexValue? b with
    | some x, some y => UInt8.ofNat (16 * x + y) :: percentBytes cs
    | _, _ => 37 :: percentBytes (a :: b :: cs)
  | c :: cs => (String.singleton c).toUTF8.toList ++ percentBytes cs
  | [] => []

/-- The path of a target, without its query and in plain characters. -/
def pathOf (target : String) : String :=
  Text.Utf8.decodeShown (percentBytes (target.toList.takeWhile fun c => c != '?' && c != '#'))

end Nanoservice.Http
