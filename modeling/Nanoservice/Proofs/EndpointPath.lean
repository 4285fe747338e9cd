import Nanoservice.Backend.EndpointPath
import Nanoservice.Proofs.Text.Trim

/-!
# The normal form of endpoint paths

`EndpointPath.IsNormal` says what the normal form of a path is, without the function that makes it:
a leading slash, no blank margins and no colon parameter. Normalising a path makes it normal
(`isNormal_normalize`), and a normal path is left as it is (`normalize_eq_self`).
-/

namespace Nanoservice.EndpointPath

open Text (Trimmed trimChars trimChars_trimmed trimChars_eq_self_iff)

/-- A path in normal form. -/
structure IsNormal (s : String) : Prop where
  slash : s.toList.head? = some '/'
  trimmed : Trimmed Text.isBlank s.toList
  braced : ∀ c, isNameStart c = true → ¬ ['/', ':', c] <:+: s.toList

/-! ## Characters of names -/

/-- A slash stands in no name. -/
theorem ne_slash_of_isNameChar {c : Char} (h : isNameChar c = true) : c ≠ '/' := by
  rintro rfl
  exact absurd h (by decide)

/-! ## Putting parameters into braces -/

/-- Braces are put behind the first character only. -/
@[simp] theorem head?_braceParameters (cs : List Char) :
    (braceParameters cs).head? = cs.head? := by
  fun_induction braceParameters cs <;> simp_all

/-- The last character of a path in braces is a brace or the last one of the path. -/
theorem getLast?_braceParameters {cs : List Char} {c : Char}
    (h : c ∈ (braceParameters cs).getLast?) : c = '\x7d' ∨ c ∈ cs.getLast? := by
  fun_induction braceParameters cs with
  | case1 => exact .inr h
  | case2 a cs ha ih =>
    simp only [Option.mem_def, List.getLast?_cons_cons] at h
    rw [← List.cons_append, List.getLast?_append] at h
    cases hr : (braceParameters (cs.dropWhile isNameChar)).getLast? with
    | none => simp [List.getLast?_cons, hr] at h; exact .inl h.symm
    | some d =>
      have hd : d = c := by simpa [List.getLast?_cons, hr] using h
      subst hd
      refine (ih hr).imp_right fun hlast => ?_
      obtain ⟨ys, hys⟩ := List.getLast?_eq_some_iff.1 hlast
      rw [← List.takeWhile_append_dropWhile (p := isNameChar) (l := cs), hys]
      simp [List.getLast?_cons, List.getLast?_append]
  | case3 a cs ha ih =>
    have hne : braceParameters (':' :: a :: cs) ≠ [] := by
      intro he
      simpa [he] using head?_braceParameters (':' :: a :: cs)
    obtain ⟨d, ds, hds⟩ := List.exists_cons_of_ne_nil hne
    rw [hds, List.getLast?_cons_cons, ← hds] at h
    simpa using ih h
  | case4 a cs hno ih =>
    cases hb : braceParameters cs with
    | nil =>
      obtain rfl : a = c := by simpa [hb] using h
      have hnil : cs.head? = none := by rw [← head?_braceParameters cs, hb]; rfl
      simp [List.head?_eq_none_iff.1 hnil]
    | cons d ds =>
      rw [hb, List.getLast?_cons_cons, ← hb] at h
      refine (ih h).imp_right fun hlast => ?_
      cases cs with
      | nil => cases hlast
      | cons e es => simpa using hlast

/-- A colon parameter does not begin inside a name. -/
theorem colonParameter_infix_append_iff {c : Char} {name rest : List Char}
    (h : ∀ a ∈ name, isNameChar a = true) :
    ['/', ':', c] <:+: name ++ rest ↔ ['/', ':', c] <:+: rest := by
  induction name with
  | nil => rfl
  | cons a name ih =>
    have ha := ne_slash_of_isNameChar (h a (by simp))
    rw [List.cons_append, List.infix_cons_iff, ih fun b hb => h b (by simp [hb])]
    simp [List.cons_prefix_cons, ha.symm]

theorem braceParameters_colon (cs : List Char) :
    braceParameters (':' :: cs) = ':' :: braceParameters cs := by
  rw [braceParameters]
  simp

/-- A colon and a character in front are those that stood there before. -/
theorem colon_prefix_of_braceParameters {c : Char} {cs : List Char}
    (h : [':', c] <+: braceParameters cs) : [':', c] <+: cs := by
  obtain ⟨t, ht⟩ := h
  have hhead := head?_braceParameters cs
  rw [← ht] at hhead
  obtain ⟨cs', rfl⟩ := List.head?_eq_some_iff.1 hhead.symm
  rw [braceParameters_colon] at ht
  have hhead' := head?_braceParameters cs'
  rw [← (List.cons.inj ht).2] at hhead'
  obtain ⟨cs'', rfl⟩ := List.head?_eq_some_iff.1 hhead'.symm
  exact ⟨cs'', rfl⟩

/-- No colon parameter is left once all are in braces. -/
theorem not_colonParameter_braceParameters {c : Char} (hc : isNameStart c = true)
    (cs : List Char) : ¬ ['/', ':', c] <:+: braceParameters cs := by
  fun_induction braceParameters cs with
  | case1 => simp
  | case2 a cs ha ih =>
    have hname : ∀ b ∈ a :: cs.takeWhile isNameChar, isNameChar b = true := by
      intro b hb
      rcases List.mem_cons.1 hb with rfl | hb
      · simp [isNameChar, ha]
      · exact List.all_eq_true.1 List.all_takeWhile b hb
    rw [← List.cons_append, List.infix_cons_iff, List.infix_cons_iff,
      colonParameter_infix_append_iff hname, List.infix_cons_iff]
    simpa [List.cons_prefix_cons] using ih
  | case3 a cs ha ih =>
    rw [List.infix_cons_iff, List.cons_prefix_cons]
    rintro (⟨-, hpre⟩ | hinf)
    · obtain ⟨t, ht⟩ := colon_prefix_of_braceParameters hpre
      obtain rfl : c = a := (List.cons.inj (List.cons.inj ht).2).1
      exact ha hc
    · exact ih hinf
  | case4 a cs hno ih =>
    rw [List.infix_cons_iff, List.cons_prefix_cons]
    rintro (⟨rfl, hpre⟩ | hinf)
    · obtain ⟨t, rfl⟩ := colon_prefix_of_braceParameters hpre
      exact hno c t rfl rfl
    · exact ih hinf

/-- A path without colon parameters has nothing to be put into braces. -/
theorem braceParameters_eq_self {cs : List Char}
    (h : ∀ c, isNameStart c = true → ¬ ['/', ':', c] <:+: cs) : braceParameters cs = cs := by
  fun_induction braceParameters cs with
  | case1 => rfl
  | case2 a cs ha ih => exact absurd ⟨[], cs, rfl⟩ (h a ha)
  | case3 a cs ha ih =>
    rw [ih fun c hc hinf => h c hc (List.infix_cons_iff.2 (.inr hinf))]
  | case4 a cs hno ih =>
    rw [ih fun c hc hinf => h c hc (List.infix_cons_iff.2 (.inr hinf))]

/-! ## The normal form -/

/-- A slash in front of a path is its first character. -/
theorem head?_withSlash (cs : List Char) : (withSlash cs).head? = some '/' := by
  unfold withSlash
  split <;> simp

/-- A path that starts with a slash gets no other one. -/
theorem withSlash_eq_self {cs : List Char} (h : cs.head? = some '/') : withSlash cs = cs := by
  cases cs with
  | nil => cases h
  | cons c cs =>
    obtain rfl : c = '/' := by simpa using h
    rfl

/-- A slash in front of a trimmed path makes no blank margin. -/
theorem trimmed_withSlash {cs : List Char} (h : Trimmed Text.isBlank cs) :
    Trimmed Text.isBlank (withSlash cs) := by
  refine ⟨fun c hc => ?_, fun c hc => ?_⟩
  · rw [head?_withSlash] at hc
    cases hc
    decide
  · unfold withSlash at hc
    split at hc
    · exact h.2 c hc
    · cases cs with
      | nil => cases hc; decide
      | cons d ds => exact h.2 c (by simpa using hc)

/-- Normalising a path makes it normal. -/
theorem isNormal_normalize (s : String) : IsNormal (normalize s) := by
  have htrim := trimmed_withSlash (trimChars_trimmed Text.isBlank s.toList)
  refine ⟨?_, ⟨fun c hc => ?_, fun c hc => ?_⟩, fun c hc => ?_⟩ <;>
    simp only [normalize, String.toList_ofList] at *
  · rw [head?_braceParameters, head?_withSlash]
  · rw [head?_braceParameters] at hc
    exact htrim.1 c hc
  · rcases getLast?_braceParameters hc with rfl | hlast
    · decide
    · exact htrim.2 c hlast
  · exact not_colonParameter_braceParameters hc _

/-- A normal path is its own normal form. -/
theorem normalize_eq_self {s : String} (h : IsNormal s) : normalize s = s := by
  rw [normalize, trimChars_eq_self_iff.2 h.trimmed, withSlash_eq_self h.slash,
    braceParameters_eq_self h.braced, String.ofList_toList]

/-- A path without colons is normal when it begins with a slash and has no blank margins. -/
theorem isNormal_of_not_mem_colon {s : String} (hslash : s.toList.head? = some '/')
    (htrimmed : Trimmed Text.isBlank s.toList) (hcolon : ':' ∉ s.toList) : IsNormal s where
  slash := hslash
  trimmed := htrimmed
  braced _ _ hparameter := hcolon (hparameter.mem (by simp))

/-- A normal path is not blank: it has a slash. -/
theorem IsNormal.not_blank {s : String} (h : IsNormal s) : Text.isBlankText s = false := by
  obtain ⟨cs, hcs⟩ := List.head?_eq_some_iff.1 h.slash
  rw [Text.isBlankText, hcs, List.all_cons]
  rfl

end Nanoservice.EndpointPath
