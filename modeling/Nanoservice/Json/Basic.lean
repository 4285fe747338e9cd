import Nanoservice.Decimal.Double
import Nanoservice.Table
import Nanoservice.Text.Numeral
import Nanoservice.Text.Raw

/-!
# JSON values

A JSON value keeps the order of object fields and tells integers of any size from binary64 numbers.
A text with half of a surrogate pair is a value of its own kind, and keys may hold halves as well.
-/

namespace Nanoservice

open Nanoservice.Decimal (Double)

/-- A JSON value. -/
inductive Json where
  | null
  | bool (b : Bool)
  | int (n : Int)
  | float (x : Double)
  | str (s : String)
  | broken (symbols : List Symbol)
  | arr (items : List Json)
  | obj (fields : List (RawText × Json))
  deriving Inhabited, Repr

namespace Json

/-- The fields of an object, and none for any other value. -/
def fields : Json → List (RawText × Json)
  | .obj fs => fs
  | _ => []

/-- The items of an array. -/
def items? : Json → Option (List Json)
  | .arr xs => some xs
  | _ => none

/-- The text of a well-formed string. -/
def text? : Json → Option String
  | .str s => some s
  | _ => none

/-- The value stored under a key of an object. -/
def field? (key : String) (v : Json) : Option Json :=
  v.fields.lookup (.plain key)

/-- The value of a text. -/
def ofText : RawText → Json
  | .plain s => .str s
  | .broken symbols => .broken symbols

/-- The text that a value is. -/
def rawText? : Json → Option RawText
  | .str s => some (.plain s)
  | .broken symbols => some (.broken symbols)
  | _ => none

@[simp] theorem rawText?_ofText (t : RawText) : (ofText t).rawText? = some t := by
  cases t <;> rfl

/-- A value that counts as absent: null, false, a zero, or empty text, array or object. -/
def isFalsy : Json → Bool
  | .null => true
  | .bool b => !b
  | .int n => n == 0
  | .float x => x.isZero
  | .str s => s.isEmpty
  | .broken symbols => symbols.isEmpty
  | .arr xs => xs.isEmpty
  | .obj fs => fs.isEmpty

/-! ## Values without special numbers -/

mutual
/-- A value with null in place of every infinity and not-a-number. -/
def finite : Json → Json
  | .float x => if x.isFinite then .float x else .null
  | .arr xs => .arr (finiteItems xs)
  | .obj fs => .obj (finiteFields fs)
  | v => v

/-- Array items with null in place of every infinity and not-a-number. -/
def finiteItems : List Json → List Json
  | [] => []
  | v :: vs => finite v :: finiteItems vs

/-- Object fields with null in place of every infinity and not-a-number. -/
def finiteFields : List (RawText × Json) → List (RawText × Json)
  | [] => []
  | (k, v) :: fs => (k, finite v) :: finiteFields fs
end

mutual
/-- No infinity and no not-a-number occurs in a value. -/
def isFinite : Json → Bool
  | .float x => x.isFinite
  | .arr xs => isFiniteItems xs
  | .obj fs => isFiniteFields fs
  | _ => true

/-- No infinity and no not-a-number occurs in array items. -/
def isFiniteItems : List Json → Bool
  | [] => true
  | v :: vs => isFinite v && isFiniteItems vs

/-- No infinity and no not-a-number occurs in object fields. -/
def isFiniteFields : List (RawText × Json) → Bool
  | [] => true
  | (_, v) :: fs => isFinite v && isFiniteFields fs
end

/-! ## Keys as they are written -/

mutual
/-- A value with the spelled form of every key. -/
def spelled : Json → Json
  | .arr xs => .arr (spelledItems xs)
  | .obj fs => .obj (spelledFields fs)
  | v => v

/-- Array items with the spelled form of every key. -/
def spelledItems : List Json → List Json
  | [] => []
  | v :: vs => spelled v :: spelledItems vs

/-- Object fields with the spelled form of every key. -/
def spelledFields : List (RawText × Json) → List (RawText × Json)
  | [] => []
  | (k, v) :: fs => (.plain k.spelled, spelled v) :: spelledFields fs
end

mutual
/-- A value in which each key occurs once: of fields with one key the last value counts, at the
place of the first. -/
def merged : Json → Json
  | .arr xs => .arr (mergedItems xs)
  | .obj fs => .obj (Table.ofLast (mergedFields fs))
  | v => v

/-- Array items in which each key occurs once. -/
def mergedItems : List Json → List Json
  | [] => []
  | v :: vs => merged v :: mergedItems vs

/-- Object fields with values in which each key occurs once. -/
def mergedFields : List (RawText × Json) → List (RawText × Json)
  | [] => []
  | (k, v) :: fs => (k, merged v) :: mergedFields fs
end

mutual
/-- No key of a value holds half of a surrogate pair. -/
def hasWholeKeys : Json → Bool
  | .arr xs => itemsHaveWholeKeys xs
  | .obj fs => fieldsHaveWholeKeys fs
  | _ => true

/-- No key in array items holds half of a surrogate pair. -/
def itemsHaveWholeKeys : List Json → Bool
  | [] => true
  | v :: vs => hasWholeKeys v && itemsHaveWholeKeys vs

/-- No key of object fields or in their values holds half of a surrogate pair. -/
def fieldsHaveWholeKeys : List (RawText × Json) → Bool
  | [] => true
  | (k, v) :: fs => k.isWhole && hasWholeKeys v && fieldsHaveWholeKeys fs
end

/-! ## Nesting -/

mutual
/-- The number of arrays and objects that enclose one another, those without items or fields aside.
-/
def levels : Json → Nat
  | .arr xs => if xs.isEmpty then 0 else levelsOfItems xs + 1
  | .obj fs => if fs.isEmpty then 0 else levelsOfFields fs + 1
  | _ => 0

/-- The most levels of an item. -/
def levelsOfItems : List Json → Nat
  | [] => 0
  | v :: vs => max (levels v) (levelsOfItems vs)

/-- The most levels of a field's value. -/
def levelsOfFields : List (RawText × Json) → Nat
  | [] => 0
  | (_, v) :: fs => max (levels v) (levelsOfFields fs)
end

mutual
/-- The number of values that enclose one another, of any kind. -/
def height : Json → Nat
  | .arr xs => heightOfItems xs + 1
  | .obj fs => heightOfFields fs + 1
  | _ => 1

/-- The greatest height of an item. -/
def heightOfItems : List Json → Nat
  | [] => 0
  | v :: vs => max (height v) (heightOfItems vs)

/-- The greatest height of a field's value. -/
def heightOfFields : List (RawText × Json) → Nat
  | [] => 0
  | (_, v) :: fs => max (height v) (heightOfFields fs)
end

/-! ## Long integers -/

mutual
/-- No integer of a value is too long for a decimal text. -/
def hasShortIntegers : Json → Bool
  | .int n => Text.isShortInteger n
  | .arr xs => itemsHaveShortIntegers xs
  | .obj fs => fieldsHaveShortIntegers fs
  | _ => true

/-- No integer in array items is too long for a decimal text. -/
def itemsHaveShortIntegers : List Json → Bool
  | [] => true
  | v :: vs => hasShortIntegers v && itemsHaveShortIntegers vs

/-- No integer in object fields is too long for a decimal text. -/
def fieldsHaveShortIntegers : List (RawText × Json) → Bool
  | [] => true
  | (_, v) :: fs => hasShortIntegers v && fieldsHaveShortIntegers fs
end

/-! ## Values that can be sent -/

mutual
/-- A value that can be sent as JSON: no infinity and no not-a-number occurs in it, for which JSON
has no form, no half of a surrogate pair, for which its encoding has none, and no integer that is
too long for a decimal text. -/
def isSendable : Json → Bool
  | .int n => Text.isShortInteger n
  | .float x => x.isFinite
  | .broken _ => false
  | .arr xs => isSendableItems xs
  | .obj fs => isSendableFields fs
  | _ => true

/-- Array items that can be sent. -/
def isSendableItems : List Json → Bool
  | [] => true
  | v :: vs => isSendable v && isSendableItems vs

/-- Object fields that can be sent. -/
def isSendableFields : List (RawText × Json) → Bool
  | [] => true
  | (k, v) :: fs => k.isWhole && isSendable v && isSendableFields fs
end

end Json

end Nanoservice
