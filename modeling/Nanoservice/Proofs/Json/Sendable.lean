import Nanoservice.Proofs.Json.Finite
import Nanoservice.Proofs.Json.Induction

/-!
# Values that can be sent

A value can be sent when no special number occurs in it, no text and no key with half of a surrogate
pair, and no integer that is too long for a decimal text (`isSendable_iff`). Items and fields can be
sent when each among them can. Null in place of the special numbers leaves none of them
(`isFinite_finite`), and a value that the reader of whole characters gives has whole texts, whole
keys and short integers (`IsRead.whole`).
-/

namespace Nanoservice.Json

@[simp] theorem isSendable_null : null.isSendable = true := rfl

@[simp] theorem isSendable_bool (b : Bool) : (bool b).isSendable = true := rfl

@[simp] theorem isSendable_int (n : Int) : (int n).isSendable = Text.isShortInteger n := rfl

@[simp] theorem isSendable_float (x : Decimal.Double) : (float x).isSendable = x.isFinite := rfl

@[simp] theorem isSendable_str (s : String) : (str s).isSendable = true := rfl

@[simp] theorem isSendable_broken (symbols : List Symbol) :
    (broken symbols).isSendable = false := rfl

@[simp] theorem isSendable_ofText (t : RawText) : (ofText t).isSendable = t.isWhole := by
  cases t <;> rfl

@[simp] theorem isSendable_arr (vs : List Json) : (arr vs).isSendable = isSendableItems vs := rfl

@[simp] theorem isSendable_obj (fs : List (RawText × Json)) :
    (obj fs).isSendable = isSendableFields fs := rfl

@[simp] theorem isSendableItems_nil : isSendableItems [] = true := rfl

@[simp] theorem isSendableItems_cons (v : Json) (vs : List Json) :
    isSendableItems (v :: vs) = (v.isSendable && isSendableItems vs) := rfl

@[simp] theorem isSendableFields_nil : isSendableFields [] = true := rfl

@[simp] theorem isSendableFields_cons (f : RawText × Json) (fs : List (RawText × Json)) :
    isSendableFields (f :: fs) = (f.1.isWhole && f.2.isSendable && isSendableFields fs) := rfl

theorem isSendableItems_iff {vs : List Json} :
    isSendableItems vs = true ↔ ∀ v ∈ vs, v.isSendable = true := by
  induction vs with
  | nil => simp
  | cons v vs ih => simp [ih]

theorem isSendableFields_iff {fs : List (RawText × Json)} :
    isSendableFields fs = true ↔ ∀ f ∈ fs, f.1.isWhole = true ∧ f.2.isSendable = true := by
  induction fs with
  | nil => simp
  | cons f fs ih => simp [ih]

@[simp] theorem isSendableFields_append (fs gs : List (RawText × Json)) :
    isSendableFields (fs ++ gs) = (isSendableFields fs && isSendableFields gs) := by
  induction fs with
  | nil => rfl
  | cons f fs ih => simp [ih, Bool.and_assoc]

/-- Encoded items can be sent when each of them can. -/
theorem isSendableItems_map {α : Type} {encode : α → Json} {as : List α} :
    isSendableItems (as.map encode) = true ↔ ∀ a ∈ as, (encode a).isSendable = true := by
  rw [isSendableItems_iff, List.forall_mem_map]

/-- Encoded fields can be sent when the key and the value of each of them can. -/
theorem isSendableFields_map {α : Type} {encode : α → RawText × Json} {as : List α} :
    isSendableFields (as.map encode) = true ↔
      ∀ a ∈ as, (encode a).1.isWhole = true ∧ (encode a).2.isSendable = true := by
  rw [isSendableFields_iff, List.forall_mem_map]

/-! ## What keeps a value from being sent -/

mutual
/-- No text of a value holds half of a surrogate pair, its keys aside. -/
def hasWholeTexts : Json → Bool
  | .broken _ => false
  | .arr vs => itemsHaveWholeTexts vs
  | .obj fs => fieldsHaveWholeTexts fs
  | _ => true

/-- No text in array items holds half of a surrogate pair. -/
def itemsHaveWholeTexts : List Json → Bool
  | [] => true
  | v :: vs => hasWholeTexts v && itemsHaveWholeTexts vs

/-- No text in the values of object fields holds half of a surrogate pair. -/
def fieldsHaveWholeTexts : List (RawText × Json) → Bool
  | [] => true
  | (_, v) :: fs => hasWholeTexts v && fieldsHaveWholeTexts fs
end

theorem itemsHaveWholeTexts_iff {vs : List Json} :
    itemsHaveWholeTexts vs = true ↔ ∀ v ∈ vs, v.hasWholeTexts = true := by
  induction vs with
  | nil => simp [itemsHaveWholeTexts]
  | cons v vs ih => simp [itemsHaveWholeTexts, ih]

theorem fieldsHaveWholeTexts_iff {fs : List (RawText × Json)} :
    fieldsHaveWholeTexts fs = true ↔ ∀ f ∈ fs, f.2.hasWholeTexts = true := by
  induction fs with
  | nil => simp [fieldsHaveWholeTexts]
  | cons f fs ih => simp [fieldsHaveWholeTexts, ih]

theorem itemsHaveWholeKeys_iff {vs : List Json} :
    itemsHaveWholeKeys vs = true ↔ ∀ v ∈ vs, v.hasWholeKeys = true := by
  induction vs with
  | nil => simp [itemsHaveWholeKeys]
  | cons v vs ih => simp [itemsHaveWholeKeys, ih]

theorem fieldsHaveWholeKeys_iff {fs : List (RawText × Json)} :
    fieldsHaveWholeKeys fs = true ↔ ∀ f ∈ fs, f.1.isWhole = true ∧ f.2.hasWholeKeys = true := by
  induction fs with
  | nil => simp [fieldsHaveWholeKeys]
  | cons f fs ih => simp [fieldsHaveWholeKeys, ih]

theorem itemsHaveShortIntegers_iff {vs : List Json} :
    itemsHaveShortIntegers vs = true ↔ ∀ v ∈ vs, v.hasShortIntegers = true := by
  induction vs with
  | nil => simp [itemsHaveShortIntegers]
  | cons v vs ih => simp [itemsHaveShortIntegers, ih]

theorem fieldsHaveShortIntegers_iff {fs : List (RawText × Json)} :
    fieldsHaveShortIntegers fs = true ↔ ∀ f ∈ fs, f.2.hasShortIntegers = true := by
  induction fs with
  | nil => simp [fieldsHaveShortIntegers]
  | cons f fs ih => simp [fieldsHaveShortIntegers, ih]

theorem isFiniteItems_iff {vs : List Json} :
    isFiniteItems vs = true ↔ ∀ v ∈ vs, v.isFinite = true := by
  induction vs with
  | nil => simp [isFiniteItems]
  | cons v vs ih => simp [isFiniteItems, ih]

theorem isFiniteFields_iff {fs : List (RawText × Json)} :
    isFiniteFields fs = true ↔ ∀ f ∈ fs, f.2.isFinite = true := by
  induction fs with
  | nil => simp [isFiniteFields]
  | cons f fs ih => simp [isFiniteFields, ih]

/-- A value can be sent when its texts and keys are whole, its numbers finite and its integers
short. -/
theorem isSendable_iff (v : Json) : v.isSendable = true ↔
    v.hasWholeTexts = true ∧ v.hasWholeKeys = true ∧ v.isFinite = true ∧
      v.hasShortIntegers = true := by
  induction v using ofParts with
  | arr vs ih =>
    simp only [isSendable_arr, hasWholeTexts, hasWholeKeys, isFinite, hasShortIntegers,
      isSendableItems_iff, itemsHaveWholeTexts_iff, itemsHaveWholeKeys_iff, isFiniteItems_iff,
      itemsHaveShortIntegers_iff, ← forall_and]
    exact forall₂_congr ih
  | obj fs ih =>
    simp only [isSendable_obj, hasWholeTexts, hasWholeKeys, isFinite, hasShortIntegers,
      isSendableFields_iff, fieldsHaveWholeTexts_iff, fieldsHaveWholeKeys_iff, isFiniteFields_iff,
      fieldsHaveShortIntegers_iff, ← forall_and]
    refine forall₂_congr fun f hf => ?_
    rw [ih f hf]
    tauto
  | null | bool | int | float | str | broken =>
    simp [hasWholeTexts, hasWholeKeys, isFinite, hasShortIntegers]

/-! ## Values with null in place of special numbers -/

theorem isFinite_finite (v : Json) : v.finite.isFinite = true := by
  induction v using ofParts with
  | float x =>
    rw [finite]
    split
    · next h => rwa [isFinite]
    · rfl
  | arr vs ih =>
    rw [finite, isFinite, isFiniteItems_iff, finiteItems_eq_map]
    exact List.forall_mem_map.2 ih
  | obj fs ih =>
    rw [finite, isFinite, isFiniteFields_iff, finiteFields_eq_map]
    exact List.forall_mem_map.2 ih
  | null | bool | int | str | broken => simp [finite, isFinite]

/-- A value that the reader can give, and whose texts and keys are whole, is one that the reader of
whole characters can give. -/
theorem IsRead.of_whole {pairsOnly : Bool} {v : Json} (h : IsRead pairsOnly v)
    (htexts : v.hasWholeTexts = true) (hkeys : v.hasWholeKeys = true) : IsRead true v := by
  induction h with
  | broken => simp [hasWholeTexts] at htexts
  | arr _ ih =>
    rw [hasWholeTexts, itemsHaveWholeTexts_iff] at htexts
    rw [hasWholeKeys, itemsHaveWholeKeys_iff] at hkeys
    exact .arr fun v hv => ih v hv (htexts v hv) (hkeys v hv)
  | obj hdistinct _ _ ih =>
    rw [hasWholeTexts, fieldsHaveWholeTexts_iff] at htexts
    rw [hasWholeKeys, fieldsHaveWholeKeys_iff] at hkeys
    refine .obj hdistinct (fun f hf => ?_) fun f hf => ih f hf (htexts f hf) (hkeys f hf).2
    have hwhole := (hkeys f hf).1
    generalize f.1 = key at hwhole
    cases key with
    | plain s => trivial
    | broken symbols => cases hwhole
  | int h => exact .int h
  | null | bool | float | str => constructor

/-- The texts and keys of a value that the reader of whole characters can give are whole, and its
integers short. -/
theorem IsRead.whole {v : Json} (h : IsRead true v) :
    v.hasWholeTexts = true ∧ v.hasWholeKeys = true ∧ v.hasShortIntegers = true := by
  induction h with
  | int h => exact ⟨rfl, rfl, Text.isShortInteger_iff.2 h⟩
  | broken hp => cases hp
  | arr _ ih =>
    rw [hasWholeTexts, hasWholeKeys, hasShortIntegers, itemsHaveWholeTexts_iff,
      itemsHaveWholeKeys_iff, itemsHaveShortIntegers_iff]
    exact ⟨fun v hv => (ih v hv).1, fun v hv => (ih v hv).2.1, fun v hv => (ih v hv).2.2⟩
  | obj _ htexts _ ih =>
    rw [hasWholeTexts, hasWholeKeys, hasShortIntegers, fieldsHaveWholeTexts_iff,
      fieldsHaveWholeKeys_iff, fieldsHaveShortIntegers_iff]
    refine ⟨fun f hf => (ih f hf).1, fun f hf => ⟨?_, (ih f hf).2.1⟩, fun f hf => (ih f hf).2.2⟩
    obtain ⟨s, hs⟩ := (htexts f hf).exists_plain
    rw [hs]
    rfl
  | null | bool | float | str => exact ⟨rfl, rfl, rfl⟩

/-- The integers of a value that the reader can give are short. -/
theorem IsRead.hasShortIntegers {pairsOnly : Bool} {v : Json} (h : IsRead pairsOnly v) :
    v.hasShortIntegers = true := by
  induction h with
  | int h => exact Text.isShortInteger_iff.2 h
  | arr _ ih =>
    rw [Json.hasShortIntegers, itemsHaveShortIntegers_iff]
    exact ih
  | obj _ _ _ ih =>
    rw [Json.hasShortIntegers, fieldsHaveShortIntegers_iff]
    exact ih
  | null | bool | float | str | broken => rfl

end Nanoservice.Json
