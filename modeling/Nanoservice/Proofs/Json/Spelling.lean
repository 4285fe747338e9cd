import Nanoservice.Proofs.Json.Nesting
import Nanoservice.Proofs.Table

/-!
# The spelling of keys

Where a value is written or shown its keys are spelled, and what then has one key is merged. A value
whose keys are whole is spelled as it is (`spelled_eq_self`), and of one without a key twice nothing
is merged (`merged_eq_self`). Whatever is merged, of a value that can be sent the merged form can be
sent as well (`isSendable_merged`).
-/

namespace Nanoservice.Json

theorem mergedItems_eq_map (vs : List Json) : mergedItems vs = vs.map merged := by
  induction vs with
  | nil => rfl
  | cons v vs ih => rw [mergedItems, ih, List.map_cons]

theorem mergedFields_eq_map (fs : List (RawText × Json)) :
    mergedFields fs = fs.map fun f => (f.1, f.2.merged) := by
  induction fs with
  | nil => rfl
  | cons f fs ih => rw [mergedFields, ih, List.map_cons]

/-- A whole text is the plain text of its spelled form. -/
theorem plain_spelled {t : RawText} (h : t.isWhole = true) : .plain t.spelled = t := by
  cases t with
  | plain s => rfl
  | broken symbols => cases h

/-- A value whose keys are whole is spelled as it is. -/
theorem spelled_eq_self (v : Json) (h : v.hasWholeKeys = true) : v.spelled = v := by
  induction v using ofParts with
  | arr vs ih =>
    rw [hasWholeKeys, itemsHaveWholeKeys_iff] at h
    rw [spelled, spelledItems_eq_map, List.map_congr_left fun v hv => ih v hv (h v hv),
      List.map_id']
  | obj fs ih =>
    rw [hasWholeKeys, fieldsHaveWholeKeys_iff] at h
    rw [spelled, spelledFields_eq_map, List.map_congr_left (g := fun f => f) fun f hf => ?_,
      List.map_id']
    rw [plain_spelled (h f hf).1, ih f hf (h f hf).2]
  | null | bool | int | float | str | broken => simp only [spelled]

/-- Fields whose keys are whole are spelled as they are. -/
theorem spelledFields_eq_self {fs : List (RawText × Json)} (h : fieldsHaveWholeKeys fs = true) :
    spelledFields fs = fs := by
  have hobj : (obj fs).spelled = .obj fs := spelled_eq_self (.obj fs) h
  rw [spelled] at hobj
  exact Json.obj.inj hobj

/-- Null in place of special numbers leaves keys whole. -/
theorem hasWholeKeys_finite (v : Json) : v.finite.hasWholeKeys = v.hasWholeKeys := by
  induction v using ofParts with
  | float x => rw [finite]; split <;> rfl
  | arr vs ih =>
    rw [Bool.eq_iff_iff, finite, hasWholeKeys, hasWholeKeys, itemsHaveWholeKeys_iff,
      itemsHaveWholeKeys_iff, finiteItems_eq_map, List.forall_mem_map]
    exact forall₂_congr fun v hv => by rw [ih v hv]
  | obj fs ih =>
    rw [Bool.eq_iff_iff, finite, hasWholeKeys, hasWholeKeys, fieldsHaveWholeKeys_iff,
      fieldsHaveWholeKeys_iff, finiteFields_eq_map, List.forall_mem_map]
    exact forall₂_congr fun f hf => by rw [ih f hf]
  | null | bool | int | str | broken => simp only [finite]

/-- The spelling of keys makes no number special. -/
theorem isFinite_spelled (v : Json) : v.spelled.isFinite = v.isFinite := by
  induction v using ofParts with
  | arr vs ih =>
    rw [Bool.eq_iff_iff, spelled, isFinite, isFinite, isFiniteItems_iff, isFiniteItems_iff,
      spelledItems_eq_map, List.forall_mem_map]
    exact forall₂_congr fun v hv => by rw [ih v hv]
  | obj fs ih =>
    rw [Bool.eq_iff_iff, spelled, isFinite, isFinite, isFiniteFields_iff, isFiniteFields_iff,
      spelledFields_eq_map, List.forall_mem_map]
    exact forall₂_congr fun f hf => by rw [ih f hf]
  | null | bool | int | float | str | broken => simp only [spelled]

/-- Fields with null in place of special numbers and spelled keys have no special number. -/
theorem finiteFields_spelledFields (fs : List (RawText × Json)) :
    finiteFields (spelledFields (finiteFields fs)) = spelledFields (finiteFields fs) := by
  have hfinite : (obj (finiteFields fs)).spelled.isFinite = true := by
    rw [isFinite_spelled]
    exact isFinite_finite (.obj fs)
  exact finiteFields_of_isFinite _ hfinite

/-- A value with null in place of special numbers and spelled keys can be sent when its texts are
whole and its integers short. -/
theorem isSendable_spelled_finite (v : Json) :
    v.finite.spelled.isSendable = true ↔ v.hasWholeTexts = true ∧ v.hasShortIntegers = true := by
  induction v using ofParts with
  | float x =>
    rw [finite]
    split
    · next hx => simp [spelled, hx, hasWholeTexts, hasShortIntegers]
    · simp [spelled, hasWholeTexts, hasShortIntegers]
  | arr vs ih =>
    rw [finite, spelled, isSendable_arr, spelledItems_eq_map, finiteItems_eq_map, List.map_map,
      isSendableItems_map, hasWholeTexts, hasShortIntegers, itemsHaveWholeTexts_iff,
      itemsHaveShortIntegers_iff, ← forall₂_and]
    exact forall₂_congr ih
  | obj fs ih =>
    rw [finite, spelled, isSendable_obj, spelledFields_eq_map, finiteFields_eq_map, List.map_map,
      isSendableFields_map, hasWholeTexts, hasShortIntegers, fieldsHaveWholeTexts_iff,
      fieldsHaveShortIntegers_iff, ← forall₂_and]
    exact forall₂_congr fun f hf => (and_iff_right rfl).trans (ih f hf)
  | null | bool | int | str | broken =>
    simp [finite, spelled, hasWholeTexts, hasShortIntegers]

/-! ## Merging -/

mutual
/-- No object of a value has a key twice. -/
def hasDistinctKeys : Json → Bool
  | .arr vs => itemsHaveDistinctKeys vs
  | .obj fs => decide (fs.map Prod.fst).Nodup && fieldsHaveDistinctKeys fs
  | _ => true

/-- No object in array items has a key twice. -/
def itemsHaveDistinctKeys : List Json → Bool
  | [] => true
  | v :: vs => hasDistinctKeys v && itemsHaveDistinctKeys vs

/-- No object in the values of object fields has a key twice. -/
def fieldsHaveDistinctKeys : List (RawText × Json) → Bool
  | [] => true
  | (_, v) :: fs => hasDistinctKeys v && fieldsHaveDistinctKeys fs
end

theorem itemsHaveDistinctKeys_iff {vs : List Json} :
    itemsHaveDistinctKeys vs = true ↔ ∀ v ∈ vs, v.hasDistinctKeys = true := by
  induction vs with
  | nil => simp [itemsHaveDistinctKeys]
  | cons v vs ih => simp [itemsHaveDistinctKeys, ih]

theorem fieldsHaveDistinctKeys_iff {fs : List (RawText × Json)} :
    fieldsHaveDistinctKeys fs = true ↔ ∀ f ∈ fs, f.2.hasDistinctKeys = true := by
  induction fs with
  | nil => simp [fieldsHaveDistinctKeys]
  | cons f fs ih => simp [fieldsHaveDistinctKeys, ih]

/-- A value that the reader can give has no key twice. -/
theorem IsRead.hasDistinctKeys {pairsOnly : Bool} {v : Json} (h : IsRead pairsOnly v) :
    v.hasDistinctKeys = true := by
  induction h with
  | arr _ ih =>
    rw [Json.hasDistinctKeys, itemsHaveDistinctKeys_iff]
    exact ih
  | obj hkeys _ _ ih =>
    rw [Json.hasDistinctKeys, Bool.and_eq_true, decide_eq_true_eq, fieldsHaveDistinctKeys_iff]
    exact ⟨hkeys, ih⟩
  | null | bool | int | float | str | broken => rfl

/-- Null in place of special numbers leaves keys different. -/
theorem hasDistinctKeys_finite (v : Json) : v.finite.hasDistinctKeys = v.hasDistinctKeys := by
  induction v using ofParts with
  | float x => rw [finite]; split <;> rfl
  | arr vs ih =>
    rw [Bool.eq_iff_iff, finite, hasDistinctKeys, hasDistinctKeys, itemsHaveDistinctKeys_iff,
      itemsHaveDistinctKeys_iff, finiteItems_eq_map, List.forall_mem_map]
    exact forall₂_congr fun v hv => by rw [ih v hv]
  | obj fs ih =>
    have hkeys : ((finiteFields fs).map Prod.fst) = fs.map Prod.fst := by
      rw [finiteFields_eq_map, List.map_map]
      rfl
    have hfields : fieldsHaveDistinctKeys (finiteFields fs) = fieldsHaveDistinctKeys fs := by
      rw [Bool.eq_iff_iff, fieldsHaveDistinctKeys_iff, fieldsHaveDistinctKeys_iff,
        finiteFields_eq_map, List.forall_mem_map]
      exact forall₂_congr fun f hf => by rw [ih f hf]
    rw [finite, hasDistinctKeys, hasDistinctKeys, hkeys, hfields]
  | null | bool | int | str | broken => simp only [finite]

/-- An object without a key twice, of whose values nothing is merged, stays as it is. -/
theorem merged_obj {fs : List (RawText × Json)} (hkeys : (fs.map Prod.fst).Nodup)
    (h : ∀ f ∈ fs, f.2.merged = f.2) : (obj fs).merged = .obj fs := by
  have hfields : mergedFields fs = fs := by
    rw [mergedFields_eq_map, List.map_congr_left (g := fun f => f) fun f hf => by rw [h f hf],
      List.map_id']
  rw [merged, hfields, Table.ofLast_eq_self hkeys]

/-- Encoded items of which nothing is merged stay as they are. -/
theorem merged_arr_map {α : Type} {encode : α → Json} {as : List α}
    (h : ∀ a ∈ as, (encode a).merged = encode a) :
    (arr (as.map encode)).merged = .arr (as.map encode) := by
  rw [merged, mergedItems_eq_map, List.map_map]
  exact congrArg arr (List.map_congr_left h)

@[simp] theorem merged_ofText (t : RawText) : (ofText t).merged = ofText t := by
  cases t <;> simp only [ofText, merged]

/-- Nothing of a value without a key twice is merged. -/
theorem merged_eq_self (v : Json) (h : v.hasDistinctKeys = true) : v.merged = v := by
  induction v using ofParts with
  | arr vs ih =>
    rw [hasDistinctKeys, itemsHaveDistinctKeys_iff] at h
    rw [merged, mergedItems_eq_map, List.map_congr_left fun v hv => ih v hv (h v hv),
      List.map_id']
  | obj fs ih =>
    rw [hasDistinctKeys, Bool.and_eq_true, decide_eq_true_eq, fieldsHaveDistinctKeys_iff] at h
    exact merged_obj h.1 fun f hf => ih f hf (h.2 f hf)
  | null | bool | int | float | str | broken => simp only [merged]

/-- The merged form of a value that can be sent can be sent. -/
theorem isSendable_merged (v : Json) (h : v.isSendable = true) : v.merged.isSendable = true := by
  induction v using ofParts with
  | arr vs ih =>
    rw [isSendable_arr, isSendableItems_iff] at h
    rw [merged, mergedItems_eq_map, isSendable_arr, isSendableItems_map]
    exact fun v hv => ih v hv (h v hv)
  | obj fs ih =>
    rw [isSendable_obj, isSendableFields_iff] at h
    rw [merged, mergedFields_eq_map, isSendable_obj, isSendableFields_iff]
    intro e he
    obtain ⟨f, hf, rfl⟩ := List.mem_map.1 (Table.mem_ofLast he)
    exact ⟨(h f hf).1, ih f hf (h f hf).2⟩
  | null | bool | int | float | str | broken => simpa only [merged] using h

end Nanoservice.Json
