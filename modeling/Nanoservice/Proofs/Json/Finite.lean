import Nanoservice.Proofs.Json.Read

/-!
# Finite values

Putting null in place of every special number is idempotent (`finite_finite`), changes no value
without special numbers (`finite_of_isFinite`), and leads from values that the reader can give to
such values (`IsRead.finite`).
-/

namespace Nanoservice.Json

theorem finiteItems_eq_map (vs : List Json) : finiteItems vs = vs.map finite := by
  induction vs with
  | nil => rfl
  | cons v vs ih => rw [finiteItems, ih, List.map_cons]

theorem finiteFields_eq_map (fs : List (RawText × Json)) :
    finiteFields fs = fs.map fun f => (f.1, f.2.finite) := by
  induction fs with
  | nil => rfl
  | cons f fs ih => rw [finiteFields, ih, List.map_cons]

/-- Items that are written finite stay as they are. -/
theorem finiteItems_map {α : Type} {encode : α → Json} (h : ∀ a, (encode a).finite = encode a)
    (as : List α) : finiteItems (as.map encode) = as.map encode := by
  rw [finiteItems_eq_map, List.map_map]
  exact List.map_congr_left fun a _ => h a

@[simp] theorem finite_ofText (t : RawText) : (ofText t).finite = ofText t := by
  cases t <;> simp only [ofText, finite]

mutual
/-- A finite value stays as it is. -/
theorem finite_finite : ∀ v : Json, v.finite.finite = v.finite
  | .float x => by
    rw [finite]
    split
    · next h => rw [finite, if_pos h]
    · rfl
  | .arr vs => by rw [finite, finite, finiteItems_finiteItems vs]
  | .obj fs => by rw [finite, finite, finiteFields_finiteFields fs]
  | .null | .bool _ | .int _ | .str _ | .broken _ => by simp only [finite]

theorem finiteItems_finiteItems : ∀ vs : List Json, finiteItems (finiteItems vs) = finiteItems vs
  | [] => rfl
  | v :: vs => by rw [finiteItems, finiteItems, finite_finite v, finiteItems_finiteItems vs]

theorem finiteFields_finiteFields :
    ∀ fs : List (RawText × Json), finiteFields (finiteFields fs) = finiteFields fs
  | [] => rfl
  | (k, v) :: fs => by
    rw [finiteFields, finiteFields, finite_finite v, finiteFields_finiteFields fs]
end

mutual
/-- A value without special numbers is finite as it is. -/
theorem finite_of_isFinite : ∀ v : Json, v.isFinite = true → v.finite = v
  | .float x, h => by
    rw [isFinite] at h
    rw [finite, if_pos h]
  | .arr vs, h => by
    rw [isFinite] at h
    rw [finite, finiteItems_of_isFinite vs h]
  | .obj fs, h => by
    rw [isFinite] at h
    rw [finite, finiteFields_of_isFinite fs h]
  | .null, _ | .bool _, _ | .int _, _ | .str _, _ | .broken _, _ => by simp only [finite]

theorem finiteItems_of_isFinite :
    ∀ vs : List Json, isFiniteItems vs = true → finiteItems vs = vs
  | [], _ => rfl
  | v :: vs, h => by
    rw [isFiniteItems, Bool.and_eq_true] at h
    rw [finiteItems, finite_of_isFinite v h.1, finiteItems_of_isFinite vs h.2]

theorem finiteFields_of_isFinite :
    ∀ fs : List (RawText × Json), isFiniteFields fs = true → finiteFields fs = fs
  | [], _ => rfl
  | (k, v) :: fs, h => by
    rw [isFiniteFields, Bool.and_eq_true] at h
    rw [finiteFields, finite_of_isFinite v h.1, finiteFields_of_isFinite fs h.2]
end

/-- The finite form of a value that the reader can give is one that it can give. -/
theorem IsRead.finite {pairsOnly : Bool} {v : Json} (h : IsRead pairsOnly v) :
    IsRead pairsOnly v.finite := by
  induction h with
  | float x =>
    rw [Json.finite]
    split
    · exact .float x
    · exact .null
  | arr _ ih =>
    rw [Json.finite, finiteItems_eq_map]
    refine .arr fun v hv => ?_
    obtain ⟨w, hw, rfl⟩ := List.mem_map.1 hv
    exact ih w hw
  | obj hkeys htexts _ ih =>
    rw [Json.finite, finiteFields_eq_map]
    refine .obj ?_ (fun f hf => ?_) fun f hf => ?_
    · rwa [List.map_map]
    · obtain ⟨g, hg, rfl⟩ := List.mem_map.1 hf
      exact htexts g hg
    · obtain ⟨g, hg, rfl⟩ := List.mem_map.1 hf
      exact ih g hg
  | null | bool | int | str | broken => simp only [Json.finite]; constructor <;> assumption

end Nanoservice.Json
