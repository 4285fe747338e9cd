import Nanoservice.Backend.Basic
import Nanoservice.Backend.EndpointPath
import Nanoservice.Backend.Issue
import Nanoservice.Text.Case
import Nanoservice.Text.Numeral

/-!
# Rules for single values

How a JSON value is read as a text, a keyword, a switch, an integer or a path. The rules are
lenient where a sender's intent is clear: keywords may have blank margins and any letter case, a
switch may be spelled as a word or a number, and an integer may be a text or a number without a
fraction. Half of a surrogate pair is refused in names and keywords, and kept in all other texts.
-/

namespace Nanoservice.Rule

open Nanoservice.Decimal (Double)

/-- A text that is a sequence of characters. -/
def text : Json → Reading String
  | .str s => .ok s
  | .broken _ => .fail .brokenText
  | _ => .fail .notText

/-- A text with at least one character. -/
def name (v : Json) : Reading String :=
  match text v with
  | .ok s => if s.isEmpty then .fail .emptyText else .ok s
  | .error issues => .error issues

/-- A text with at least one character that is not a blank margin. -/
def title : Json → Reading String
  | .str s => name (.str (Text.trim s))
  | v => name v

/-- A text of any symbols. -/
def rawText (v : Json) : Reading RawText :=
  match v.rawText? with
  | some t => .ok t
  | none => .fail .notText

/-- A text that null leaves empty. -/
def description : Json → Reading RawText
  | .null => .ok ""
  | v => rawText v

/-- A version, the default one in place of null or a blank text. -/
def version : Json → Reading RawText
  | .null => .ok Backend.defaultVersion
  | v =>
    match rawText v with
    | .ok t => if t.isBlank then .ok Backend.defaultVersion else .ok t
    | .error issues => .error issues

/-- One of the choices, by its keyword after `fold`. -/
def keyword {α : Type} (fold : String → String) (spelling : α → String) (choices : List α) :
    Json → Reading α
  | .str s =>
    match choices.find? fun a => spelling a == fold s with
    | some a => .ok a
    | none => .fail (.notOneOf (choices.map spelling))
  | .broken _ => .fail .brokenText
  | _ => .fail (.notOneOf (choices.map spelling))

/-- Blank margins and letter case do not matter in a lower-case keyword. -/
def foldLower (s : String) : String :=
  Text.lower (Text.trim s)

/-- Blank margins and letter case do not matter in an upper-case keyword. -/
def foldUpper (s : String) : String :=
  Text.upper (Text.trim s)

/-- The kind of a node. -/
def nodeKind : Json → Reading NodeKind :=
  keyword foldLower NodeKind.keyword NodeKind.all

/-- The type of a value. -/
def valueType : Json → Reading ValueType :=
  keyword foldLower ValueType.keyword ValueType.all

/-- The location of a parameter. -/
def location : Json → Reading Location :=
  keyword foldLower Location.keyword Location.all

/-- The method of an endpoint. -/
def method : Json → Reading Method :=
  keyword foldUpper Method.keyword Method.all

/-- The path of an endpoint in normal form. -/
def path (v : Json) : Reading RawText :=
  match rawText v with
  | .ok t => if t.isBlank then .fail .blankPath else .ok (t.rewrite EndpointPath.normalize)
  | .error issues => .error issues

/-! ## Switches and integers -/

/-- The words that switch off. -/
def offWords : List String := ["0", "off", "f", "false", "n", "no"]

/-- The words that switch on. -/
def onWords : List String := ["1", "on", "t", "true", "y", "yes"]

/-- The integers of 64 bits with a sign. -/
def fitsWord (n : Int) : Bool :=
  -9223372036854775808 ≤ n && n < 9223372036854775808

/-- The integers that a number without a fraction may stand for. -/
def isMeasured (n : Int) : Bool :=
  n.natAbs < 9223372036854775808

/-- A switch from an integer. -/
def switchOfInt (n : Int) : Reading Bool :=
  if n = 0 then .ok false else if n = 1 then .ok true else .fail .unclearSwitch

/-- A switch: a boolean, a zero or a one, or a word for either. -/
def switch : Json → Reading Bool
  | .bool b => .ok b
  | .int n => if fitsWord n then switchOfInt n else .fail .notSwitch
  | .float x =>
    match x.toInt? with
    | some n => if fitsWord n then switchOfInt n else .fail .notSwitch
    | none => .fail .notSwitch
  | .str s =>
    let word := String.ofList (s.toList.map Char.toLower)
    if offWords.contains word then .ok false
    else if onWords.contains word then .ok true
    else .fail .unclearSwitch
  | .broken _ => .fail .brokenText
  | _ => .fail .notSwitch

/-- An integer: a number without a fraction, a boolean, or a text that spells an integer. -/
def integer : Json → Reading Int
  | .bool b => .ok (if b then 1 else 0)
  | .int n => .ok n
  | .float x =>
    if x.isFinite then
      match x.toInt? with
      | some n => if isMeasured n then .ok n else .fail .hugeInteger
      | none => .fail .fractionalInteger
    else .fail .endlessInteger
  | .str s =>
    match Text.roundedNumber s with
    | .ok n => .ok n
    | .error .malformed => .fail .unclearInteger
    | .error (.tooLong _) => .fail .hugeInteger
  | .broken _ => .fail .brokenText
  | _ => .fail .notInteger

/-- A schema: a JSON object, or none. -/
def schema : Json → Reading (Option (List (RawText × Json)))
  | .null => .ok none
  | .obj fs => .ok (some fs)
  | _ => .fail .notObject

end Nanoservice.Rule
