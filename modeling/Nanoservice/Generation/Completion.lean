import Nanoservice.Generation.Prompt
import Nanoservice.Json.Reader
import Nanoservice.Json.Writer
import Nanoservice.Literal

/-!
# Completions

A completion request goes to a chat service as one HTTP request; the answer's envelope holds the
completion's text. Every way in which that can go wrong ends in one of five failures. The text is
freed of a Markdown fence around it.
-/

namespace Nanoservice

open Nanoservice.Decimal (Double)

/-- A request for a completion. The numbers are sent as they are given. -/
structure CompletionRequest where
  messages : List Message
  model : RawText
  temperature : Json
  maxTokens : Json
  jsonMode : Bool

/-- What became of a completion request. -/
inductive Completion where
  /-- The service answered with a text. -/
  | reply (text : String)
  /-- The service could not be used. -/
  | failure (message : RawText)
  /-- The client broke off for a reason of its own. -/
  | crash (message : RawText)
  deriving DecidableEq, Repr

/-! ## Fences -/

namespace Fence

/-- What is left of a text behind an opening fence and the blanks that follow it. -/
def afterOpening (cs : List Char) : List Char :=
  match cs with
  | '\x60' :: '\x60' :: '\x60' :: 'j' :: 's' :: 'o' :: 'n' :: rest => rest.dropWhile Text.isBlank
  | '\x60' :: '\x60' :: '\x60' :: rest => rest.dropWhile Text.isBlank
  | _ => cs

/-- Three backticks end a text. -/
def isClosed (cs : List Char) : Bool :=
  cs.drop (cs.length - 3) == ['\x60', '\x60', '\x60']

/-- What is left of a text before a closing fence and the blanks in front of it. -/
def beforeClosing (cs : List Char) : List Char :=
  if isClosed cs then Text.dropEndWhile Text.isBlank (cs.take (cs.length - 3)) else cs

/-- A text without blank margins and without a fence around it. -/
def strip (s : String) : String :=
  let trimmed := Text.trimChars Text.isBlank
  String.ofList (beforeClosing (trimmed (afterOpening (trimmed s.toList))))

end Fence

/-- A raw text without blank margins and without a fence around it. -/
def RawText.withoutFence (t : RawText) : RawText :=
  t.rewrite Fence.strip

/-! ## Replies -/

namespace Reply

/-- The characters of symbols with the escape of JSON for each half; `escaping` says whether a
backslash in front waits for the character that it escapes. A half is none that can be escaped. -/
def spellSymbols (escaping : Bool) : List Symbol → List Char
  | [] => []
  | .char c :: symbols => c :: spellSymbols (!escaping && c == '\\') symbols
  | .half s :: symbols =>
    (if escaping then [Symbol.replacement] else Literal.codeEscape s.unit) ++
      spellSymbols false symbols

/-- The text of characters that reads in JSON as a raw text does, but for a first half right in
front of the escape of a second one: in what is spelled these two are a pair. -/
def spell : RawText → String
  | .plain s => s
  | .broken symbols => String.ofList (spellSymbols false symbols)

end Reply

/-! ## Subscripts -/

/-- Why a subscript finds nothing in a value. -/
inductive Missing where
  /-- The value is an object without the key. -/
  | key
  /-- The value is an array or a text without the place. -/
  | index
  /-- The value takes no subscripts, or none of this kind. -/
  | kind
  deriving DecidableEq, Repr

namespace Json

/-- What a text finds in a value as a subscript. -/
def atKey (key : String) : Json → Except Missing Json
  | .obj fields =>
    match fields.lookup (.plain key) with
    | some v => .ok v
    | none => .error .key
  | _ => .error .kind

/-- What zero finds in a value as a subscript. It is no key of an object, since those are texts, and
in a text it finds the first character. -/
def atZero : Json → Except Missing Json
  | .arr (v :: _) => .ok v
  | .arr [] => .error .index
  | .str s =>
    match s.toList with
    | c :: _ => .ok (.str (String.ofList [c]))
    | [] => .error .index
  | .broken (symbol :: _) => .ok (ofText (.ofSymbols [symbol]))
  | .broken [] => .error .index
  | .obj _ => .error .key
  | _ => .error .kind

end Json

/-! ## The chat service -/

/-- How the chat service is reached. -/
structure ChatClient where
  apiKey : String
  apiBase : String
  timeout : Double
  deriving DecidableEq, Repr

/-- An HTTP request to the chat service. -/
structure ChatCall where
  method : String
  url : String
  authorization : String
  contentType : String
  body : Json

/-- What came back from the chat service. -/
inductive ChatAnswer where
  /-- A response whose body is a text. -/
  | response (status : Int) (body : String)
  /-- A response whose body is no text in any encoding of JSON. -/
  | garbled (status : Int)
  /-- No response came. -/
  | unreachable (message : String)
  deriving DecidableEq, Repr

/-- Why a chat answer holds no completion. -/
inductive ChatFailure where
  | status (code : Int)
  | unreachable (message : String)
  | notJson
  | noContent
  deriving DecidableEq, Repr

namespace ChatFailure

/-- The wording of a chat failure. -/
def message : ChatFailure → String
  | .status code => s!"text-generation service returned HTTP {code}"
  | .unreachable m => "text-generation service unreachable: " ++ m
  | .notJson => "text-generation service returned a non-JSON envelope"
  | .noContent => "No content in text-generation response"

end ChatFailure

/-- A request that HTTP can carry: its headers are ASCII, and its body can be sent. -/
def ChatCall.isSendable (c : ChatCall) : Bool :=
  c.authorization.toList.all (·.toNat < 128) && c.body.isSendable

namespace ChatClient

/-- The address of the service: the base without trailing slashes, and the resource. -/
def url (c : ChatClient) : String :=
  String.ofList (Text.dropEndWhile (· == '/') c.apiBase.toList) ++ "/chat/completions"

/-- The body of a request. -/
def body (r : CompletionRequest) : Json :=
  let messages := r.messages.map fun m =>
    Json.obj [("role", .str m.role), ("content", .ofText m.content)]
  let format : List (RawText × Json) :=
    if r.jsonMode then [("response_format", .obj [("type", .str "json_object")])] else []
  .obj ([(RawText.plain "model", Json.ofText r.model), (RawText.plain "messages", .arr messages),
    (RawText.plain "temperature", r.temperature),
    (RawText.plain "max_tokens", r.maxTokens)] ++ format)

/-- The one HTTP request that a completion takes. -/
def call (c : ChatClient) (r : CompletionRequest) : ChatCall :=
  ⟨"POST", c.url, "Bearer " ++ c.apiKey, "application/json", body r⟩

end ChatClient

namespace ChatAnswer

/-- The text of a document as it was sent: a byte order mark in front is no part of it. -/
def withoutMark (s : String) : String :=
  match s.toList with
  | '\ufeff' :: cs => String.ofList cs
  | _ => s

/-- What is found in an envelope where a completion stands: the content of the message of the first
choice. -/
def value (envelope : Json) : Except Missing Json := do
  let choices ← envelope.atKey "choices"
  let choice ← choices.atZero
  let message ← choice.atKey "message"
  message.atKey "content"

/-- The text inside an envelope. What is missing is no text. -/
def content? (envelope : Json) : Option RawText :=
  match value envelope with
  | .ok v => v.rawText?
  | .error _ => none

/-- The completion that an answer holds. -/
def completion : ChatAnswer → Except ChatFailure RawText
  | .unreachable m => .error (.unreachable m)
  | .garbled status =>
    if status < 200 ∨ 300 ≤ status then .error (.status status) else .error .notJson
  | .response status text =>
    if status < 200 ∨ 300 ≤ status then .error (.status status)
    else match Json.read (withoutMark text) with
      | .error _ => .error .notJson
      | .ok envelope =>
        match content? envelope with
        | none => .error .noContent
        | some t => if t.isBlank then .error .noContent else .ok t.withoutFence

end ChatAnswer

/-- The completion that a chat client comes to. -/
def Completion.ofChat : Except ChatFailure RawText → Completion
  | .ok t => .reply (Reply.spell t)
  | .error f => .failure f.message

namespace ChatClient

/-- The HTTP requests that a completion request makes, and its completion. One that HTTP cannot
carry makes none, and fails as if the envelope could not be read. -/
def complete (c : ChatClient) (send : ChatCall → ChatAnswer) (r : CompletionRequest) :
    List ChatCall × Except ChatFailure RawText :=
  if (c.call r).isSendable then ([c.call r], (send (c.call r)).completion)
  else ([], .error .notJson)

/-- What becomes of a completion request that is sent over a transport. -/
def respond (c : ChatClient) (send : ChatCall → ChatAnswer) (r : CompletionRequest) :
    Completion :=
  .ofChat (c.complete send r).2

end ChatClient

end Nanoservice
