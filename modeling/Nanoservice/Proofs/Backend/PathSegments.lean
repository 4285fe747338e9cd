import Nanoservice.Proofs.Backend.Parts
import Nanoservice.Proofs.Disk.Path

/-!
# Endpoint paths segment by segment

Parameters are put into braces from left to right, over the slashes of a path. A colon parameter
begins behind a slash and its name holds none, so each lies in one segment and the segments change
one by one (`segments_braceParameters`). This makes the normal form of a path a function of its
segments (`normalize_eq_segmentwise`).
-/

namespace Nanoservice.EndpointPath

open Nanoservice.Path (components segments segments_ne_nil)

/-! ## The definition by segments -/

/-- A segment with its parameter in braces, if it begins with a colon and the start of a name. -/
def braceSegment : List Char → List Char
  | ':' :: c :: cs =>
    if isNameStart c then
      '\x7b' :: c :: (cs.takeWhile isNameChar ++ '\x7d' :: cs.dropWhile isNameChar)
    else ':' :: c :: cs
  | cs => cs

/-- A text without blank margins and with a slash in front. -/
def slashed (s : String) : String :=
  if Path.isAbsolute (Text.trim s) then Text.trim s else "/" ++ Text.trim s

/-- The normal form of a path, made of the normal forms of its segments. -/
def segmentwise (s : String) : String :=
  String.intercalate "/" ((components (slashed s)).map fun segment =>
    String.ofList (braceSegment segment.toList))

/-! ## Segments of a path in braces -/

variable {cs s : List Char} {ss : List (List Char)}

/-- Characters without a slash in front of a path belong to its first segment. -/
theorem segments_append_of_not_mem {as : List Char} (has : '/' ∉ as) (h : segments cs = s :: ss) :
    segments (as ++ cs) = (as ++ s) :: ss := by
  induction as with
  | nil => exact h
  | cons a as ih =>
    rw [List.mem_cons, not_or] at has
    rw [List.cons_append, segments, if_neg (Ne.symm has.1), ih has.2]
    rfl

/-- The first segment of a path is what stands in front of the first slash. -/
theorem prefix_of_segments (h : segments cs = s :: ss) : s <+: cs := by
  rw [← Path.intercalate_segments cs, h]
  cases ss with
  | nil => simp
  | cons t ts =>
    rw [List.intercalate_cons_cons]
    simp

/-- A parameter is put into braces up to the end of its name. -/
theorem braceSegment_append {c : Char} {name rest : List Char} (hc : isNameStart c = true)
    (hname : ∀ a ∈ name, isNameChar a = true) (hrest : ∀ a ∈ rest.head?, isNameChar a = false) :
    braceSegment (':' :: c :: (name ++ rest)) = '\x7b' :: c :: (name ++ '\x7d' :: rest) := by
  have hnone : rest.takeWhile isNameChar = [] ∧ rest.dropWhile isNameChar = rest := by
    cases rest with
    | nil => exact ⟨rfl, rfl⟩
    | cons a rest => simp [hrest a rfl]
  rw [braceSegment, if_pos hc, List.takeWhile_append_of_pos hname,
    List.dropWhile_append_of_pos hname, hnone.1, hnone.2, List.append_nil]

/-- Only a segment that begins with a colon and the start of a name changes. -/
theorem braceSegment_eq_self (h : ∀ c rest, s = ':' :: c :: rest → isNameStart c = false) :
    braceSegment s = s := by
  unfold braceSegment
  split
  · next c cs => rw [if_neg (by simp [h c cs rfl])]
  · rfl

/-- All segments but the first follow a slash, so the parameters of these are put into braces. -/
theorem segments_braceParameters (h : segments cs = s :: ss) :
    segments (braceParameters cs) = s :: ss.map braceSegment := by
  fun_induction braceParameters cs generalizing s ss with
  | case1 =>
    cases h
    rfl
  | case2 a cs ha ih =>
    -- the name has no slash, so it and what follows it are in one segment
    obtain ⟨t, ts, hts⟩ := List.exists_cons_of_ne_nil (segments_ne_nil (cs.dropWhile isNameChar))
    have hname : ∀ b ∈ cs.takeWhile isNameChar, isNameChar b = true :=
      fun b hb => List.mem_takeWhile_imp hb
    have hslash : '/' ∉ a :: cs.takeWhile isNameChar := by
      have hall : ∀ b ∈ a :: cs.takeWhile isNameChar, isNameChar b = true :=
        List.forall_mem_cons.2 ⟨by simp [isNameChar, ha], hname⟩
      exact fun hmem => ne_slash_of_isNameChar (hall _ hmem) rfl
    have hrest : ∀ b ∈ t.head?, isNameChar b = false := by
      intro b hb
      obtain ⟨more, hmore⟩ := prefix_of_segments hts
      have hstop := List.head?_dropWhile_not isNameChar cs
      rw [← hmore, List.head?_append, Option.mem_def.1 hb] at hstop
      simpa using hstop
    have hparameter : segments ((':' :: a :: cs.takeWhile isNameChar) ++ cs.dropWhile isNameChar) =
        (':' :: a :: cs.takeWhile isNameChar ++ t) :: ts :=
      segments_append_of_not_mem (by simpa using hslash) hts
    have hbraced : segments (('\x7b' :: a :: cs.takeWhile isNameChar ++ ['\x7d']) ++
        braceParameters (cs.dropWhile isNameChar)) =
        ('\x7b' :: a :: cs.takeWhile isNameChar ++ ['\x7d'] ++ t) :: ts.map braceSegment :=
      segments_append_of_not_mem (by simpa using hslash) (ih hts)
    rw [List.cons_append, List.cons_append, List.takeWhile_append_dropWhile] at hparameter
    rw [segments, if_pos rfl, hparameter] at h
    obtain ⟨rfl, rfl⟩ := List.cons.inj h
    rw [segments, if_pos rfl, List.map_cons, List.cons_append, List.cons_append,
      braceSegment_append ha hname hrest]
    simpa using hbraced
  | case3 a cs ha ih =>
    obtain ⟨t, ts, hts⟩ := List.exists_cons_of_ne_nil (segments_ne_nil (':' :: a :: cs))
    rw [segments, if_pos rfl, hts] at h
    obtain ⟨rfl, rfl⟩ := List.cons.inj h
    rw [segments, if_pos rfl, ih hts, List.map_cons, braceSegment_eq_self]
    rintro c rest rfl
    obtain ⟨more, hmore⟩ := prefix_of_segments hts
    obtain rfl : c = a := (List.cons.inj (List.cons.inj hmore).2).1
    simpa using ha
  | case4 c cs hno ih =>
    obtain ⟨t, ts, hts⟩ := List.exists_cons_of_ne_nil (segments_ne_nil cs)
    rw [segments, hts] at h
    rw [segments, ih hts]
    split at h
    · next hc =>
      obtain ⟨rfl, rfl⟩ := List.cons.inj h
      rw [if_pos hc, List.map_cons, braceSegment_eq_self]
      rintro d rest rfl
      obtain ⟨more, hmore⟩ := prefix_of_segments hts
      exact absurd hmore.symm (hno d _ hc)
    · next hc =>
      obtain ⟨rfl, rfl⟩ := List.cons.inj h
      rw [if_neg hc]

/-! ## The normal form -/

theorem toList_slashed (s : String) :
    (slashed s).toList = withSlash (Text.trimChars Text.isBlank s.toList) := by
  have htrim : (Text.trim s).toList = Text.trimChars Text.isBlank s.toList :=
    String.toList_ofList
  rw [slashed, Path.isAbsolute, htrim]
  split
  · next hslash => rw [htrim, withSlash_eq_self (by simpa using hslash)]
  · next hslash =>
    rw [String.toList_append, htrim]
    unfold withSlash
    split
    · next heq => simp [heq] at hslash
    · rfl

/-- The segments of the normal form are those of the path, each with its parameter in braces. -/
theorem components_normalize (s : String) : components (normalize s) =
    (components (slashed s)).map fun segment => String.ofList (braceSegment segment.toList) := by
  obtain ⟨cs, hcs⟩ := List.head?_eq_some_iff.1
    (head?_withSlash (Text.trimChars Text.isBlank s.toList))
  obtain ⟨t, ts, hts⟩ := List.exists_cons_of_ne_nil (segments_ne_nil cs)
  have hsegments : segments (slashed s).toList = [] :: t :: ts := by
    rw [toList_slashed, hcs, segments, if_pos rfl, hts]
  -- no slash is in front of the first segment, which is empty
  have hbraced := segments_braceParameters hsegments
  rw [toList_slashed] at hbraced
  rw [components, components, normalize, String.toList_ofList, hbraced, hsegments, List.map_map]
  simp [braceSegment]

theorem normalize_eq_segmentwise (s : String) : normalize s = segmentwise s := by
  rw [segmentwise, ← components_normalize, Path.intercalate_components]

/-- A path that is not blank is brought into normal form segment by segment, so that the number of
its segments stays. The normal form is normal, and so its own normal form. Halves of surrogate pairs
stay where they are. -/
theorem path_isSegmentwise {t : RawText} (h : t.isBlank = false) :
    Rule.path (.ofText t) = .ok (t.rewrite segmentwise) ∧
      components (segmentwise t.shown) = ((components (slashed t.shown)).map fun segment =>
        String.ofList (braceSegment segment.toList)) ∧
      (components (segmentwise t.shown)).length = (components (slashed t.shown)).length ∧
      Rule.path (.ofText (t.rewrite segmentwise)) = .ok (t.rewrite segmentwise) ∧
      IsNormal (t.rewrite segmentwise).shown := by
  have hnormalize : normalize = segmentwise := funext normalize_eq_segmentwise
  have hnormal : IsNormal (segmentwise t.shown) := hnormalize ▸ isNormal_normalize t.shown
  have hself : segmentwise (segmentwise t.shown) = segmentwise t.shown :=
    hnormalize ▸ normalize_eq_self (hnormalize.symm ▸ hnormal)
  have hsegments := components_normalize t.shown
  rw [hnormalize] at hsegments
  refine ⟨?_, hsegments, ?_, ?_, by rwa [RawText.shown_rewrite]⟩
  · exact Rule.path_eq_ok.2 ⟨t, Rule.rawText_ofText t, h, by rw [hnormalize]⟩
  · rw [hsegments, List.length_map]
  · refine Rule.path_eq_ok.2 ⟨t.rewrite segmentwise, Rule.rawText_ofText _, ?_, ?_⟩
    · rw [RawText.isBlank, RawText.shown_rewrite]
      exact hnormal.not_blank
    · rw [hnormalize]
      refine RawText.rewrite_eq_self ?_
      rw [RawText.shown_rewrite, hself]

/-- A path with blank margins, parameters in a row, a colon inside of a segment and one in front of
a letter beyond ASCII. -/
theorem path_isSegmentwise_mixed :
    Text.isBlankText " :shop/:item-id.json//a:b/:\u00e9 " = false ∧
      Rule.path (.str " :shop/:item-id.json//a:b/:\u00e9 ") =
        .ok "/\x7bshop\x7d/\x7bitem\x7d-id.json//a:b/:\u00e9" ∧
      IsNormal "/\x7bshop\x7d/\x7bitem\x7d-id.json//a:b/:\u00e9" := by
  have hblank : Text.isBlankText " :shop/:item-id.json//a:b/:\u00e9 " = false := by decide
  have hresult : segmentwise " :shop/:item-id.json//a:b/:\u00e9 " =
      "/\x7bshop\x7d/\x7bitem\x7d-id.json//a:b/:\u00e9" := by decide +kernel
  obtain ⟨hrule, -, -, -, hnormal⟩ :=
    path_isSegmentwise (t := .plain " :shop/:item-id.json//a:b/:\u00e9 ") hblank
  rw [RawText.rewrite_plain, hresult] at hrule hnormal
  exact ⟨hblank, hrule, hnormal⟩

end Nanoservice.EndpointPath
