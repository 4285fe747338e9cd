import Nanoservice.Disk.Path

/-!
# Where plain paths lead

The components of a written path are all texts between its slashes, the empty ones included
(`Path.components_append` puts them together). A plain path is relative and has no component that
is empty or made of dots; it leads to the place that its components name (`Path.IsPlain.resolve`).
-/

namespace Nanoservice.Path

/-- The texts between the slashes of a written path, the empty ones included. -/
def components (written : String) : List String :=
  (segments written.toList).map String.ofList

/-- A path that leads down from where it starts, one place with every component. -/
structure IsPlain (written : String) : Prop where
  relative : isAbsolute written = false
  named : ∀ n ∈ components written, n ≠ "" ∧ n ≠ "." ∧ n ≠ ".."

theorem segments_ne_nil (cs : List Char) : segments cs ≠ [] := by
  fun_cases segments cs <;> simp

theorem segments_of_not_mem {cs : List Char} (h : '/' ∉ cs) : segments cs = [cs] := by
  induction cs with
  | nil => rfl
  | cons c cs ih =>
    rw [List.mem_cons, not_or] at h
    rw [segments, if_neg (Ne.symm h.1), ih h.2]

theorem segments_append (as bs : List Char) :
    segments (as ++ '/' :: bs) = segments as ++ segments bs := by
  induction as with
  | nil => rfl
  | cons a as ih =>
    rw [List.cons_append, segments, segments]
    split
    · rw [ih, List.cons_append]
    · rw [ih]
      cases hs : segments as with
      | nil => exact absurd hs (segments_ne_nil as)
      | cons s ss => rfl

theorem components_ne_nil (written : String) : components written ≠ [] := by
  rw [components, ne_eq, List.map_eq_nil_iff]
  exact segments_ne_nil _

/-- A text without slashes is its only component. -/
theorem components_of_not_mem {s : String} (h : '/' ∉ s.toList) : components s = [s] := by
  rw [components, segments_of_not_mem h, List.map_singleton, String.ofList_toList]

/-- A slash divides the components in front of it from those behind it. -/
theorem components_append (a b : String) :
    components (a ++ "/" ++ b) = components a ++ components b := by
  have hlist : (a ++ "/" ++ b).toList = a.toList ++ '/' :: b.toList := by
    rw [String.toList_append, String.toList_append, List.append_assoc]
    rfl
  rw [components, hlist, segments_append, List.map_append]
  rfl

/-- Segments with slashes between them make the path again. -/
theorem intercalate_segments (cs : List Char) : ['/'].intercalate (segments cs) = cs := by
  induction cs with
  | nil => rfl
  | cons c cs ih =>
    rw [segments]
    split
    · next hc => rw [List.intercalate_cons_of_ne_nil (segments_ne_nil cs), ih, hc]; rfl
    · cases hs : segments cs with
      | nil => exact absurd hs (segments_ne_nil cs)
      | cons s ss => rw [List.intercalate_cons_cons_left, ← hs, ih]

/-- Components with slashes between them make the written path again. -/
theorem intercalate_components (written : String) :
    String.intercalate "/" (components written) = written := by
  have hchars : (components written).map String.toList = segments written.toList := by
    simp [components, Function.comp_def]
  apply String.toList_injective
  rw [String.toList_intercalate, hchars]
  exact intercalate_segments written.toList

/-- A written path is known by its components. -/
theorem components_injective : Function.Injective components :=
  Function.LeftInverse.injective intercalate_components

/-- A path whose first component is not empty is relative. -/
theorem isAbsolute_eq_false {written : String} (h : ∀ n ∈ components written, n ≠ "") :
    isAbsolute written = false := by
  rw [isAbsolute]
  cases hcs : written.toList with
  | nil => rfl
  | cons c cs =>
    have hc : c ≠ '/' := by
      rintro rfl
      refine h "" ?_ rfl
      rw [components, hcs, segments, if_pos rfl]
      exact List.mem_cons_self
    simpa using hc

/-- Names that are no dots lead down one after the other. -/
theorem foldl_step {ns : List String} (h : ∀ n ∈ ns, n ≠ "..") (start : Path) :
    ns.foldl step start = start ++ ns := by
  induction ns generalizing start with
  | nil => exact (List.append_nil start).symm
  | cons n ns ih =>
    obtain ⟨hn, hns⟩ := List.forall_mem_cons.1 h
    rw [List.foldl_cons, ih hns, step, if_neg hn, List.append_assoc]
    rfl

namespace IsPlain

variable {written : String}

/-- A plain path leads to the place that its components name. -/
theorem resolve (h : IsPlain written) (start : Path) :
    Path.resolve start written = start ++ components written := by
  have hnames : names written = components written := by
    refine List.filter_eq_self.2 fun n hn => ?_
    obtain ⟨hempty, hdot, -⟩ := h.named n hn
    simp [isName, hempty, hdot]
  rw [Path.resolve, h.relative, hnames, if_neg Bool.false_ne_true,
    foldl_step fun n hn => (h.named n hn).2.2]

/-- A plain path leads below the place where it starts. -/
theorem isBelow_resolve (h : IsPlain written) (start : Path) :
    (Path.resolve start written).isBelow start = true := by
  rw [h.resolve, isBelow_iff, List.length_append]
  have hpos := List.length_pos_iff.2 (components_ne_nil written)
  exact ⟨List.prefix_append _ _, by omega⟩

end IsPlain

end Nanoservice.Path
