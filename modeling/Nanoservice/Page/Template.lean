import Nanoservice.Backend.Shown
import Nanoservice.Page.Documentation
import Nanoservice.Text.NewLine

/-!
# Templates of documentation pages

A template is a text with places and comments. A place is a name, or a name with attributes, between
double braces; the value found there is escaped and stands in its stead. A comment stands between
braces with number signs and leaves nothing; alone on a line it takes the line with it. A minus sign
inside a place or comment cuts the blanks on that side of it.

The whole template is read before anything is filled in. A page that cannot be made is replaced by
one that says why.
-/

namespace Nanoservice.Page

/-! ## Faults -/

/-- Why there is no page for a template. -/
inductive TemplateFault where
  /-- The template ends inside a place. -/
  | endInPlace
  /-- The template ends where a place should name something. -/
  | endForName
  /-- A place is empty. -/
  | emptyPlace
  /-- A place begins with something else than a name, or a bracket closes that was not opened. -/
  | unexpected (found : String)
  /-- No name follows a dot. -/
  | noAttributeName
  /-- Something else than a dot follows a name. -/
  | notEnd (found : String)
  /-- A comment is not closed. -/
  | endInComment
  /-- A tag is none that templates have. -/
  | unknownTag (name : String)
  /-- There is no value of a name. -/
  | undefinedName (name : String)
  /-- A value has no such attribute. -/
  | noAttribute (kind name : String)
  /-- An integer is too long for a decimal text. -/
  | longInteger
  deriving DecidableEq, Repr

/-- The wording of a fault. -/
def TemplateFault.message : TemplateFault → String
  | .endInPlace => "unexpected end of template, expected 'end of print statement'."
  | .endForName => "unexpected 'end of template'"
  | .emptyPlace => "Expected an expression, got 'end of print statement'"
  | .unexpected s => "unexpected " ++ Literal.quote s
  | .noAttributeName => "expected name or number"
  | .notEnd s => "expected token 'end of print statement', got " ++ Literal.quote s
  | .endInComment => "Missing end of comment tag"
  | .unknownTag s => "Encountered unknown tag " ++ Literal.quote s ++ "."
  | .undefinedName s => Literal.quote s ++ " is undefined"
  | .noAttribute kind s => Literal.quote kind ++ " has no attribute " ++ Literal.quote s
  | .longInteger => Text.longIntegerMessage

/-! ## Values -/

/-- A value that a place can show; a sequence with an integer too long for a decimal text is not
shown. -/
inductive Value where
  | text (t : RawText)
  | count (n : Nat)
  | sequence (shown : Option String)
  | model (b : Backend)

namespace Value

/-- What messages call a value. -/
def kind : Value → String
  | .text _ => "str object"
  | .count _ => "int object"
  | .sequence _ => "tuple object"
  | .model _ => "genbackend.schemas.backend.BackendModel object"

/-- The text of a value, if it can be shown. -/
def shown? : Value → Option RawText
  | .text t => some t
  | .count n => some (toString n)
  | .sequence s => s.map .plain
  | .model b => if b.hasShortIntegers then some b.shown else none

/-- The attribute of a model. -/
def modelAttribute? (b : Backend) (name : String) : Option Value :=
  match name with
  | "id" => some (.text b.id)
  | "name" => some (.text b.name)
  | "description" => some (.text b.description)
  | "version" => some (.text b.version)
  | "nodes" => some (.sequence (some (Shown.sequence (b.nodes.map Node.shown))))
  | "workflows" =>
    some (.sequence (if b.workflows.all fun w => w.endpoints.all Endpoint.hasShortIntegers then
      some (Shown.sequence (b.workflows.map Workflow.shown)) else none))
  | "endpoints" =>
    some (.sequence (if b.endpoints.all Endpoint.hasShortIntegers then
      some (Shown.sequence (b.endpoints.map Endpoint.shown)) else none))
  | "node_count" => some (.count b.nodes.length)
  | "workflow_count" => some (.count b.workflows.length)
  | "endpoint_count" => some (.count b.endpoints.length)
  | _ => none

/-- The attribute of a value. -/
def member (v : Value) (name : String) : Except TemplateFault Value :=
  let found := match v with
    | .model b => modelAttribute? b name
    | _ => none
  match found with
  | some w => .ok w
  | none => .error (.noAttribute v.kind name)

/-- The value of a name in the page of a model. -/
def ofName (b : Backend) (date : String) (name : String) : Except TemplateFault Value :=
  match name with
  | "backend" => .ok (.model b)
  | "title" => .ok (.text (pageTitle b))
  | "description" => .ok (.text b.description)
  | "version" => .ok (.text b.version)
  | "date" => .ok (.text date)
  | _ => .error (.undefinedName name)

end Value

/-! ## Reading a template -/

/-- A part of a template: plain text, or a name with the attributes that lead from it. -/
inductive TemplatePart where
  | plain (cs : List Char)
  | place (name : String) (attributes : List String)
  deriving DecidableEq, Repr

/-- A character of names. -/
def isNameChar (c : Char) : Bool :=
  c.isAlphanum || c == '_' || (0x80 ≤ c.toNat && !Text.isBlank c)

/-- The words and signs of a place, without the blanks between them. -/
def placeTokens (cs : List Char) : List String :=
  ((cs.splitBy fun a b => isNameChar a && isNameChar b).filter fun t => !t.all Text.isBlank).map
    String.ofList

/-- A token that is a name. -/
def isName (t : String) : Bool :=
  t.toList.all isNameChar

/-- A token that closes a bracket. -/
def isClosing (t : String) : Bool :=
  t = "\x7d" || t = ")" || t = "]"

/-- The fault of a token that does not continue a name. -/
def faultBehindName (t : String) : TemplateFault :=
  if isClosing t then .unexpected t else .notEnd t

/-- The fault of a token that should be a name behind a dot. -/
def faultBehindDot (t : String) : TemplateFault :=
  if isClosing t then .unexpected t else .noAttributeName

/-- The attributes behind a name; `closed` says whether the place is closed behind the tokens. -/
def attributesOf (closed : Bool) : List String → Except TemplateFault (List String)
  | [] => if closed then .ok [] else .error .endInPlace
  | [t] => .error (if t = "." then .noAttributeName else faultBehindName t)
  | t :: name :: more =>
    if t = "." then
      if isName name then (attributesOf closed more).map (name :: ·)
      else .error (faultBehindDot name)
    else .error (faultBehindName t)

/-- The part that the tokens of a place stand for. -/
def placeOf (closed : Bool) : List String → Except TemplateFault TemplatePart
  | [] => .error (if closed then .emptyPlace else .endForName)
  | t :: more =>
    if isName t then (attributesOf closed more).map (.place t) else .error (.unexpected t)

/-- The text in front of the first opening mark, and the rest from the mark on. -/
def splitAtOpening : List Char → List Char × List Char
  | [] => ([], [])
  | [c] => ([c], [])
  | c :: d :: cs =>
    if c = '\x7b' ∧ (d = '\x7b' ∨ d = '#' ∨ d = '%') then ([], c :: d :: cs)
    else
      let (text, rest) := splitAtOpening (d :: cs)
      (c :: text, rest)

/-- The text in front of a closing mark of two characters, and what follows the mark if it is
there. -/
def splitAtClosing (a b : Char) : List Char → List Char × Option (List Char)
  | [] => ([], none)
  | [c] => ([c], none)
  | c :: d :: cs =>
    if c = a ∧ d = b then ([], some cs)
    else
      let (inside, rest) := splitAtClosing a b (d :: cs)
      (c :: inside, rest)

/-- The text of a line in front of a comment is dropped if it is blank; `lineStart` says whether
the text begins a line. -/
def withoutIndentation (lineStart : Bool) (text : List Char) : List Char :=
  let line := (text.reverse.takeWhile (· ≠ '\n')).reverse
  let before := text.take (text.length - line.length)
  if (lineStart || !before.isEmpty) && line.all Text.isBlank then before else text

/-- The text in front of something whose inside is given: a minus sign cuts the blanks. -/
def textBefore (inside text : List Char) : List Char :=
  if inside.head? = some '-' then Text.dropEndWhile Text.isBlank text else text

/-- The text behind something whose inside is given: a minus sign cuts the blanks. -/
def textBehind (inside rest : List Char) : List Char :=
  if inside.getLast? = some '-' then rest.dropWhile Text.isBlank else rest

/-- The inside of a place without minus signs at its ends. -/
def withoutSigns (inside : List Char) : List Char :=
  Text.dropEndWhile (· == '-') (inside.dropWhile (· == '-'))

/-- The text behind a comment: a line feed right behind it is dropped. -/
def behindComment (inside rest : List Char) : List Char :=
  match inside.getLast?, rest with
  | some '-', _ => rest.dropWhile Text.isBlank
  | some '+', _ => rest
  | _, '\n' :: more => more
  | _, _ => rest

/-- What lies between a rest and the rest that is left of it ends a line. -/
def endsLine (rest left : List Char) : Bool :=
  (rest.take (rest.length - left.length)).getLast? == some '\n'

/-- The parts of a template, read in at most `fuel` steps from mark to mark. -/
def partsOf : (fuel : Nat) → (lineStart : Bool) → List Char →
    Except TemplateFault (List TemplatePart)
  | 0, _, _ => .ok []
  | fuel + 1, lineStart, cs =>
    match splitAtOpening cs with
    | (text, '\x7b' :: '\x7b' :: body) =>
      let (inside, rest?) := splitAtClosing '\x7d' '\x7d' body
      match placeOf rest?.isSome (placeTokens (withoutSigns inside)) with
      | .error f => .error f
      | .ok place =>
        let rest := rest?.getD []
        let left := textBehind inside rest
        (partsOf fuel (endsLine rest left) left).map fun ps =>
          .plain (textBefore inside text) :: place :: ps
    | (text, '\x7b' :: '#' :: body) =>
      match splitAtClosing '#' '\x7d' body with
      | (_, none) => .error .endInComment
      | (inside, some rest) =>
        let left := behindComment inside rest
        let before := match inside.head? with
          | some '-' | some '+' => textBefore inside text
          | _ => withoutIndentation lineStart text
        (partsOf fuel (endsLine rest left) left).map (.plain before :: ·)
    | (_, '\x7b' :: '%' :: body) =>
      .error (.unknownTag (((placeTokens (body.takeWhile (· ≠ '%'))).head?).getD ""))
    | (text, _) => .ok [.plain text]

/-- The parts of a template. A line feed at its end is no part of it. -/
def templateParts (source : String) : Except TemplateFault (List TemplatePart) :=
  let cs := Text.withoutFinalLineFeed (Text.lineFeeds source.toList)
  partsOf (cs.length + 1) true cs

/-! ## Filling a template -/

/-- The piece of a page that a part stands for. -/
def pieceOf (b : Backend) (date : String) : TemplatePart → Except TemplateFault Piece
  | .plain cs => .ok (.markup (String.ofList cs))
  | .place name attributes => do
    let value ← Value.ofName b date name
    let value ← attributes.foldlM Value.member value
    match value.shown? with
    | some s => pure (.text s)
    | none => throw .longInteger

/-- The pieces of the page of a model by a template. -/
def fill (b : Backend) (date : String) (source : String) : Except TemplateFault (List Piece) := do
  let parts ← templateParts source
  parts.mapM (pieceOf b date)

/-- The pieces of the page of a model by the built-in template, which shows the statuses of all
endpoints. -/
def fillBuiltIn (b : Backend) (date : String) : Except TemplateFault (List Piece) :=
  if b.endpoints.all Endpoint.hasShortStatuses then .ok (documentationPieces b date)
  else .error .longInteger

/-- The pieces of the page of a model by a template, or of the page that says why there is none. -/
def pieces (b : Backend) (date : String) (source : String) : List Piece :=
  match if source = builtInTemplate then fillBuiltIn b date else fill b date source with
  | .ok ps => ps
  | .error f => errorPieces f.message

end Nanoservice.Page
