import Nanoservice.Backend.Encoding
import Nanoservice.Proofs.Json.Sendable

/-!
# The nesting of JSON values

How deep the parts of a value lie in it, and what bounds its depth. Neither null in place of special
numbers nor the spelling of keys changes the nesting. A value has no more than one height more than
it has levels, so what the reader of persisted texts takes can be written (`height_le_levels`), and
the writing of a value stops exactly at a text that is not whole or at a height that is out of room
(`fault?_eq_none`).
-/

namespace Nanoservice.Json

/-! ## Levels -/

theorem levelsOfItems_le {vs : List Json} {n : Nat} :
    levelsOfItems vs ≤ n ↔ ∀ v ∈ vs, v.levels ≤ n := by
  induction vs with
  | nil => simp [levelsOfItems]
  | cons v vs ih => simp [levelsOfItems, Nat.max_le, ih]

theorem levelsOfFields_le {fs : List (RawText × Json)} {n : Nat} :
    levelsOfFields fs ≤ n ↔ ∀ f ∈ fs, f.2.levels ≤ n := by
  induction fs with
  | nil => simp [levelsOfFields]
  | cons f fs ih => simp [levelsOfFields, Nat.max_le, ih]

/-- An array has no more levels than more than its items have. -/
theorem levels_arr_le {vs : List Json} {n : Nat} (h : ∀ v ∈ vs, v.levels < n) :
    (arr vs).levels ≤ n := by
  cases n with
  | zero =>
    have hnil : vs = [] := List.eq_nil_iff_forall_not_mem.2 fun v hv => Nat.not_lt_zero _ (h v hv)
    rw [hnil]
    exact Nat.le_refl 0
  | succ n =>
    rw [levels]
    split
    · exact Nat.zero_le _
    · exact Nat.succ_le_succ (levelsOfItems_le.2 fun v hv => Nat.le_of_lt_succ (h v hv))

/-- An object has no more levels than more than its values have. -/
theorem levels_obj_le {fs : List (RawText × Json)} {n : Nat} (h : ∀ f ∈ fs, f.2.levels < n) :
    (obj fs).levels ≤ n := by
  cases n with
  | zero =>
    have hnil : fs = [] := List.eq_nil_iff_forall_not_mem.2 fun f hf => Nat.not_lt_zero _ (h f hf)
    rw [hnil]
    exact Nat.le_refl 0
  | succ n =>
    rw [levels]
    split
    · exact Nat.zero_le _
    · exact Nat.succ_le_succ (levelsOfFields_le.2 fun f hf => Nat.le_of_lt_succ (h f hf))

/-- An item has fewer levels than its array. -/
theorem levels_lt_of_mem_arr {vs : List Json} {v : Json} (h : v ∈ vs) :
    v.levels < (arr vs).levels := by
  rw [levels, if_neg (by simpa [List.isEmpty_iff] using List.ne_nil_of_mem h)]
  exact Nat.lt_succ_of_le (levelsOfItems_le.1 (Nat.le_refl _) v h)

/-- A value has fewer levels than its object. -/
theorem levels_lt_of_mem_obj {fs : List (RawText × Json)} {f : RawText × Json} (h : f ∈ fs) :
    f.2.levels < (obj fs).levels := by
  rw [levels, if_neg (by simpa [List.isEmpty_iff] using List.ne_nil_of_mem h)]
  exact Nat.lt_succ_of_le (levelsOfFields_le.1 (Nat.le_refl _) f h)

/-- A value that is found under a key has fewer levels than the object. -/
theorem levels_lt_of_lookup {fs : List (RawText × Json)} {key : RawText} {v : Json}
    (h : fs.lookup key = some v) : v.levels < (obj fs).levels := by
  obtain ⟨before, after, rfl, -⟩ := List.lookup_eq_some_iff.1 h
  exact levels_lt_of_mem_obj (f := (key, v)) (by simp)

@[simp] theorem levels_ofText (t : RawText) : (ofText t).levels = 0 := by
  cases t <;> rfl

/-! ## Height -/

theorem heightOfItems_le {vs : List Json} {n : Nat} :
    heightOfItems vs ≤ n ↔ ∀ v ∈ vs, v.height ≤ n := by
  induction vs with
  | nil => simp [heightOfItems]
  | cons v vs ih => simp [heightOfItems, Nat.max_le, ih]

theorem heightOfFields_le {fs : List (RawText × Json)} {n : Nat} :
    heightOfFields fs ≤ n ↔ ∀ f ∈ fs, f.2.height ≤ n := by
  induction fs with
  | nil => simp [heightOfFields]
  | cons f fs ih => simp [heightOfFields, Nat.max_le, ih]

/-- A value without parts adds one to the height that its levels give. -/
theorem height_le_levels (v : Json) : v.height ≤ v.levels + 1 := by
  induction v using ofParts with
  | arr vs ih =>
    rw [height]
    refine Nat.succ_le_succ (heightOfItems_le.2 fun v hv => ?_)
    exact Nat.le_trans (ih v hv) (levels_lt_of_mem_arr hv)
  | obj fs ih =>
    rw [height]
    refine Nat.succ_le_succ (heightOfFields_le.2 fun f hf => ?_)
    exact Nat.le_trans (ih f hf) (levels_lt_of_mem_obj hf)
  | null | bool | int | float | str | broken => exact Nat.le_refl 1

/-! ## What keeps the nesting -/

/-- Two lists of values with the same levels one by one. -/
theorem levelsOfItems_map {f : Json → Json} {vs : List Json}
    (h : ∀ v ∈ vs, (f v).levels = v.levels) : levelsOfItems (vs.map f) = levelsOfItems vs := by
  induction vs with
  | nil => rfl
  | cons v vs ih =>
    rw [List.forall_mem_cons] at h
    rw [List.map_cons, levelsOfItems, levelsOfItems, h.1, ih h.2]

theorem levelsOfFields_map {f : RawText × Json → RawText × Json} {fs : List (RawText × Json)}
    (h : ∀ e ∈ fs, (f e).2.levels = e.2.levels) :
    levelsOfFields (fs.map f) = levelsOfFields fs := by
  induction fs with
  | nil => rfl
  | cons e fs ih =>
    rw [List.forall_mem_cons] at h
    rw [List.map_cons, levelsOfFields, levelsOfFields, h.1, ih h.2]

theorem spelledItems_eq_map (vs : List Json) : spelledItems vs = vs.map spelled := by
  induction vs with
  | nil => rfl
  | cons v vs ih => rw [spelledItems, ih, List.map_cons]

theorem spelledFields_eq_map (fs : List (RawText × Json)) :
    spelledFields fs = fs.map fun f => (.plain f.1.spelled, f.2.spelled) := by
  induction fs with
  | nil => rfl
  | cons f fs ih => rw [spelledFields, ih, List.map_cons]

/-- Null in place of special numbers leaves the levels as they are. -/
theorem levels_finite (v : Json) : v.finite.levels = v.levels := by
  induction v using ofParts with
  | float x => rw [finite]; split <;> rfl
  | arr vs ih => rw [finite, finiteItems_eq_map, levels, levels, levelsOfItems_map ih,
      List.isEmpty_map]
  | obj fs ih => rw [finite, finiteFields_eq_map, levels, levels, levelsOfFields_map ih,
      List.isEmpty_map]
  | null | bool | int | str | broken => rw [finite] <;> simp

/-- The spelling of keys leaves the levels as they are. -/
theorem levels_spelled (v : Json) : v.spelled.levels = v.levels := by
  induction v using ofParts with
  | arr vs ih => rw [spelled, spelledItems_eq_map, levels, levels, levelsOfItems_map ih,
      List.isEmpty_map]
  | obj fs ih => rw [spelled, spelledFields_eq_map, levels, levels, levelsOfFields_map ih,
      List.isEmpty_map]
  | null | bool | int | float | str | broken => rw [spelled] <;> simp

/-! ## What stops the writing -/

theorem faultOfItems?_eq_none {room : Nat} {vs : List Json} :
    faultOfItems? room vs = none ↔ ∀ v ∈ vs, v.fault? room = none := by
  induction vs with
  | nil => simp [faultOfItems?]
  | cons v vs ih => simp [faultOfItems?, Option.or_eq_none_iff, ih]

theorem faultOfFields?_eq_none {room : Nat} {fs : List (RawText × Json)} :
    faultOfFields? room fs = none ↔ ∀ f ∈ fs, f.2.fault? room = none := by
  induction fs with
  | nil => simp [faultOfFields?]
  | cons f fs ih => simp [faultOfFields?, Option.or_eq_none_iff, ih]

theorem faultOfItems?_finite {room : Nat} {vs : List Json}
    (h : ∀ v ∈ vs, v.finite.fault? room = v.fault? room) :
    faultOfItems? room (finiteItems vs) = faultOfItems? room vs := by
  induction vs with
  | nil => rfl
  | cons v vs ih =>
    rw [List.forall_mem_cons] at h
    rw [finiteItems, faultOfItems?, faultOfItems?, h.1, ih h.2]

theorem faultOfFields?_finite {room : Nat} {fs : List (RawText × Json)}
    (h : ∀ f ∈ fs, f.2.finite.fault? room = f.2.fault? room) :
    faultOfFields? room (finiteFields fs) = faultOfFields? room fs := by
  induction fs with
  | nil => rfl
  | cons f fs ih =>
    rw [List.forall_mem_cons] at h
    rw [finiteFields, faultOfFields?, faultOfFields?, h.1, ih h.2]

/-- Nothing stops the writing of a value when its texts are whole and it is not out of room. -/
theorem fault?_eq_none (room : Nat) (v : Json) :
    v.fault? room = none ↔ v.hasWholeTexts = true ∧ v.height ≤ room := by
  induction v using ofParts generalizing room with
  | arr vs ih =>
    cases room with
    | zero => simp [fault?, height]
    | succ room =>
      rw [fault?, faultOfItems?_eq_none, hasWholeTexts, itemsHaveWholeTexts_iff, height,
        Nat.succ_le_succ_iff, heightOfItems_le, ← forall₂_and]
      exact forall₂_congr fun v hv => ih v hv room
  | obj fs ih =>
    cases room with
    | zero => simp [fault?, height]
    | succ room =>
      rw [fault?, faultOfFields?_eq_none, hasWholeTexts, fieldsHaveWholeTexts_iff, height,
        Nat.succ_le_succ_iff, heightOfFields_le, ← forall₂_and]
      exact forall₂_congr fun f hf => ih f hf room
  | null | bool | int | float | str | broken =>
    cases room <;> simp [fault?, height, hasWholeTexts]

/-- Nothing stops the writing of fields when their texts are whole and none is out of room. -/
theorem faultOfFields?_eq_none_iff {room : Nat} {fs : List (RawText × Json)} :
    faultOfFields? room fs = none ↔
      fieldsHaveWholeTexts fs = true ∧ heightOfFields fs ≤ room := by
  simp only [faultOfFields?_eq_none, fault?_eq_none, fieldsHaveWholeTexts_iff, heightOfFields_le,
    ← forall₂_and]

/-- Null in place of special numbers does not change what stops the writing. -/
theorem fault?_finite (room : Nat) (v : Json) : v.finite.fault? room = v.fault? room := by
  induction v using ofParts generalizing room with
  | float x => cases room <;> rw [finite] <;> split <;> simp [fault?]
  | arr vs ih =>
    cases room with
    | zero => simp [fault?]
    | succ room => rw [finite, fault?, fault?, faultOfItems?_finite fun v hv => ih v hv room]
  | obj fs ih =>
    cases room with
    | zero => simp [fault?]
    | succ room => rw [finite, fault?, fault?, faultOfFields?_finite fun f hf => ih f hf room]
  | null | bool | int | str | broken => simp only [finite]

end Nanoservice.Json
