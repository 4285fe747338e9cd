import Mathlib.Data.Finset.Card
import Mathlib.Data.Finset.Dedup
import Nanoservice.Backend.Basic
import Nanoservice.Proofs.Text.Digits
import Nanoservice.Service.Name

/-!
# Identifiers of names

Whatever characters a name has, its identifier is a valid one that begins with a small letter
(`isModuleName_identifier`), and it stays one with a number behind it (`IsModuleName.numbered`).
The name of a handler begins with its method (`prefix_handler`). Names that were made unique are
distinct (`uniqueAll_spec`).

Only the words of a name (`snakeWords`) are looked at character by character; whatever is put
together from them is treated by what its characters are and how it begins.
-/

namespace Nanoservice.Name

/-! ## Characters -/

theorem isSmall_iff {c : Char} : isSmall c = true ↔ 97 ≤ c.toNat ∧ c.toNat ≤ 122 := by
  simp only [isSmall, Bool.and_eq_true, decide_eq_true_eq]
  rfl

theorem isCapital_iff {c : Char} : isCapital c = true ↔ 65 ≤ c.toNat ∧ c.toNat ≤ 90 := by
  simp only [isCapital, Bool.and_eq_true, decide_eq_true_eq]
  rfl

theorem isAsciiDigit_iff {c : Char} :
    Text.isAsciiDigit c = true ↔ 48 ≤ c.toNat ∧ c.toNat ≤ 57 := by
  simp only [Text.isAsciiDigit, Bool.and_eq_true, decide_eq_true_eq]
  rfl

/-- A character of snake-case words. -/
def isSnakeChar (c : Char) : Bool :=
  isSmall c || Text.isAsciiDigit c

/-- A character of identifiers. -/
def isNameChar (c : Char) : Bool :=
  isWordChar c || c == '_'

/-- A property of all characters with numbers from a range is one of the characters in it. -/
theorem of_toNat_between {P : Char → Prop} {a k : Nat}
    (h : ∀ i < k, P (Char.ofNat (a + i))) {c : Char} (hlow : a ≤ c.toNat)
    (hhigh : c.toNat < a + k) : P c := by
  have hc := h (c.toNat - a) (by omega)
  rwa [Nat.add_sub_cancel' hlow, Char.ofNat_toNat] at hc

/-- The small form of a word character is one of snake-case words. -/
theorem isSnakeChar_toLower {c : Char} (h : isWordChar c = true) :
    isSnakeChar c.toLower = true := by
  simp only [isWordChar, Bool.or_eq_true, isCapital_iff, isSmall_iff, isAsciiDigit_iff] at h
  rcases h with (h | h) | h
  · exact of_toNat_between (P := fun c => isSnakeChar c.toLower = true) (a := 65) (k := 26)
      (by decide) h.1 (by omega)
  · exact of_toNat_between (P := fun c => isSnakeChar c.toLower = true) (a := 97) (k := 26)
      (by decide) h.1 (by omega)
  · exact of_toNat_between (P := fun c => isSnakeChar c.toLower = true) (a := 48) (k := 10)
      (by decide) h.1 (by omega)

/-- A character of snake-case words is its own small form. -/
theorem toLower_of_isSnakeChar {c : Char} (h : isSnakeChar c = true) : c.toLower = c := by
  simp only [isSnakeChar, Bool.or_eq_true, isSmall_iff, isAsciiDigit_iff] at h
  rcases h with h | h
  · exact of_toNat_between (P := fun c => c.toLower = c) (a := 97) (k := 26)
      (by decide) h.1 (by omega)
  · exact of_toNat_between (P := fun c => c.toLower = c) (a := 48) (k := 10)
      (by decide) h.1 (by omega)

/-- The capital form of a small letter is a capital. -/
theorem isCapital_toUpper {c : Char} (h : isSmall c = true) : isCapital c.toUpper = true := by
  obtain ⟨hlow, hhigh⟩ := isSmall_iff.1 h
  exact of_toNat_between (P := fun c => isCapital c.toUpper = true) (a := 97) (k := 26)
    (by decide) hlow (by omega)

/-- A digit has no capital form. -/
theorem toUpper_of_isAsciiDigit {c : Char} (h : Text.isAsciiDigit c = true) : c.toUpper = c := by
  obtain ⟨hlow, hhigh⟩ := isAsciiDigit_iff.1 h
  exact of_toNat_between (P := fun c => c.toUpper = c) (a := 48) (k := 10)
    (by decide) hlow (by omega)

theorem isWordChar_of_isSnakeChar {c : Char} (h : isSnakeChar c = true) :
    isWordChar c = true := by
  simp only [isSnakeChar, Bool.or_eq_true] at h
  simp only [isWordChar, Bool.or_eq_true]
  exact h.imp_left .inr

theorem isNameChar_of_isWordChar {c : Char} (h : isWordChar c = true) : isNameChar c = true := by
  rw [isNameChar, h, Bool.true_or]

theorem isNameChar_of_isSnakeChar {c : Char} (h : isSnakeChar c = true) :
    isNameChar c = true :=
  isNameChar_of_isWordChar (isWordChar_of_isSnakeChar h)

/-- The capital form of a character of snake-case words has that character as its small form. -/
theorem toLower_toUpper {c : Char} (h : isSnakeChar c = true) : c.toUpper.toLower = c := by
  rcases (Bool.or_eq_true _ _).mp h with hsmall | hdigit
  · obtain ⟨hlow, hhigh⟩ := isSmall_iff.1 hsmall
    exact of_toNat_between (P := fun c => c.toUpper.toLower = c) (a := 97) (k := 26)
      (by decide) hlow (by omega)
  · rw [toUpper_of_isAsciiDigit hdigit, toLower_of_isSnakeChar h]

/-- The capital form of a character of snake-case words is a word character. -/
theorem isWordChar_toUpper {c : Char} (h : isSnakeChar c = true) :
    isWordChar c.toUpper = true := by
  rcases (Bool.or_eq_true _ _).mp h with hsmall | hdigit
  · rw [isWordChar, isCapital_toUpper hsmall, Bool.true_or, Bool.true_or]
  · rw [toUpper_of_isAsciiDigit hdigit]
    exact isWordChar_of_isSnakeChar h

/-- An ASCII digit is a digit. -/
theorem isDigit_of_isAsciiDigit {c : Char} (h : Text.isAsciiDigit c = true) :
    Text.isDigit c = true := by
  obtain ⟨hlow, hhigh⟩ := isAsciiDigit_iff.1 h
  exact of_toNat_between (P := fun c => Text.isDigit c = true) (a := 48) (k := 10)
    (by decide) hlow (by omega)

/-- A small letter is no digit. -/
theorem isDigit_of_isSmall {c : Char} (h : isSmall c = true) : Text.isDigit c = false := by
  obtain ⟨hlow, hhigh⟩ := isSmall_iff.1 h
  exact of_toNat_between (P := fun c => Text.isDigit c = false) (a := 97) (k := 26)
    (by decide) hlow (by omega)

/-- A character of snake-case words is no capital. -/
theorem isCapital_of_isSnakeChar {c : Char} (h : isSnakeChar c = true) : isCapital c = false := by
  simp only [isSnakeChar, Bool.or_eq_true, isSmall_iff, isAsciiDigit_iff] at h
  rw [← Bool.not_eq_true, isCapital_iff]
  omega

/-- The digits of a number are characters of snake-case words. -/
theorem isSnakeChar_of_mem_toDigits {n : Nat} {c : Char} (h : c ∈ Nat.toDigits 10 n) :
    isSnakeChar c = true := by
  rw [isSnakeChar, Text.isAsciiDigit_of_mem_toDigits h, Bool.or_true]

/-! ## Words -/

/-- The characters of extended words are the new one and those that were there. -/
theorem mem_extendWord {c d : Char} {w : List Char} {ws : List (List Char)}
    (hw : w ∈ extendWord c ws) (hd : d ∈ w) : d = c ∨ ∃ v ∈ ws, d ∈ v := by
  cases ws with
  | nil =>
    obtain rfl := List.mem_singleton.1 hw
    exact .inl (List.mem_singleton.1 hd)
  | cons v vs =>
    rcases List.mem_cons.1 hw with rfl | hw
    · rcases List.mem_cons.1 hd with rfl | hd
      · exact .inl rfl
      · exact .inr ⟨v, List.mem_cons_self, hd⟩
    · exact .inr ⟨w, List.mem_cons_of_mem v hw, hd⟩

/-- Runs are made of word characters. -/
theorem isWordChar_of_mem_runs {cs w : List Char} {c : Char} (hw : w ∈ runs cs) (hc : c ∈ w) :
    isWordChar c = true := by
  induction cs generalizing w with
  | nil =>
    obtain rfl := List.mem_singleton.1 hw
    cases hc
  | cons a cs ih =>
    rw [runs] at hw
    split at hw
    · next ha =>
      rcases mem_extendWord hw hc with rfl | ⟨v, hv, hcv⟩
      · exact ha
      · exact ih hv hcv
    · rcases List.mem_cons.1 hw with rfl | hw
      · cases hc
      · exact ih hw hc

section
variable {w : List Char} (hw : ∀ c ∈ w, isWordChar c = true)
include hw

/-- Word characters are one run. -/
theorem runs_of_word : runs w = [w] := by
  induction w with
  | nil => rfl
  | cons a w ih =>
    rw [runs, if_pos (hw a List.mem_cons_self), ih fun c hc => hw c (List.mem_cons_of_mem a hc),
      extendWord]

/-- Word characters in front of an underscore are one run. -/
theorem runs_word_append (cs : List Char) : runs (w ++ '_' :: cs) = w :: runs cs := by
  induction w with
  | nil => rfl
  | cons a w ih =>
    rw [List.cons_append, runs, if_pos (hw a List.mem_cons_self),
      ih fun c hc => hw c (List.mem_cons_of_mem a hc), extendWord]

/-- Word characters in front of an end or an underscore are the first run. -/
theorem runs_append {t : List Char} (ht : ∀ c ∈ t.head?, c = '_') :
    ∃ ws, runs (w ++ t) = w :: ws := by
  cases t with
  | nil => exact ⟨[], by rw [List.append_nil, runs_of_word hw]⟩
  | cons c t =>
    obtain rfl := ht c rfl
    exact ⟨runs t, runs_word_append hw t⟩

end

/-- Snake-case words are their own small forms. -/
theorem map_toLower_eq_self {w : List Char} (h : ∀ c ∈ w, isSnakeChar c = true) :
    w.map Char.toLower = w :=
  (List.map_congr_left fun c hc => toLower_of_isSnakeChar (h c hc)).trans (List.map_id w)

/-- The words of a name are not empty and made of small letters and digits. -/
theorem snakeWords_spec {name : String} {w : List Char} (h : w ∈ snakeWords name) :
    w ≠ [] ∧ ∀ c ∈ w, isSnakeChar c = true := by
  obtain ⟨v, hv, rfl⟩ := List.mem_map.1 h
  obtain ⟨hruns, hne⟩ := List.mem_filter.1 hv
  constructor
  · intro he
    rw [List.map_eq_nil_iff] at he
    subst he
    cases hne
  · intro c hc
    obtain ⟨d, hd, rfl⟩ := List.mem_map.1 hc
    exact isSnakeChar_toLower (isWordChar_of_mem_runs hruns hd)

/-- Joined words begin with the first one, and an underscore follows if there are others. -/
theorem joinWords_cons (w : List Char) (ws : List (List Char)) :
    joinWords (w :: ws) = w ∨ joinWords (w :: ws) = w ++ '_' :: joinWords ws := by
  cases ws with
  | nil => exact .inl rfl
  | cons v vs => exact .inr rfl

/-- The characters of joined words are underscores and those of the words. -/
theorem mem_joinWords {ws : List (List Char)} {c : Char} (h : c ∈ joinWords ws) :
    c = '_' ∨ ∃ w ∈ ws, c ∈ w := by
  induction ws with
  | nil => cases h
  | cons w ws ih =>
    have hw : c ∈ w → ∃ v ∈ w :: ws, c ∈ v := fun hc => ⟨w, List.mem_cons_self, hc⟩
    rcases joinWords_cons w ws with he | he
    · rw [he] at h
      exact .inr (hw h)
    · rw [he, List.mem_append, List.mem_cons] at h
      rcases h with h | rfl | h
      · exact .inr (hw h)
      · exact .inl rfl
      · refine (ih h).imp_right ?_
        rintro ⟨v, hv, hc⟩
        exact ⟨v, List.mem_cons_of_mem w hv, hc⟩

/-- The characters of a snake-case form are underscores, small letters and digits. -/
theorem mem_snakeCase {name : String} {c : Char} (h : c ∈ (snakeCase name).toList) :
    isSnakeChar c = true ∨ c = '_' := by
  rw [snakeCase, String.toList_ofList] at h
  rcases mem_joinWords h with rfl | ⟨w, hw, hc⟩
  · exact .inr rfl
  · exact .inl ((snakeWords_spec hw).2 c hc)

/-- A snake-case form does not begin with an underscore. -/
theorem head?_snakeCase {name : String} {c : Char} (h : (snakeCase name).toList.head? = some c) :
    isSnakeChar c = true := by
  rw [snakeCase, String.toList_ofList] at h
  cases hws : snakeWords name with
  | nil =>
    rw [hws] at h
    cases h
  | cons w ws =>
    have hmem : w ∈ snakeWords name := by
      rw [hws]
      exact List.mem_cons_self
    obtain ⟨hne, hchars⟩ := snakeWords_spec hmem
    obtain ⟨a, as, rfl⟩ := List.exists_cons_of_ne_nil hne
    obtain rfl : a = c := by
      rw [hws] at h
      rcases joinWords_cons (a :: as) ws with he | he
      · rw [he] at h
        exact Option.some.inj h
      · rw [he] at h
        exact Option.some.inj h
    exact hchars a List.mem_cons_self

/-! ## Identifiers -/

/-- A valid identifier: a letter or an underscore, followed by letters, digits and underscores, and
no keyword. -/
structure IsIdentifier (s : String) : Prop where
  start : ∃ c, s.toList.head? = some c ∧ (isCapital c = true ∨ isSmall c = true ∨ c = '_')
  chars : ∀ c ∈ s.toList, isNameChar c = true
  free : s ∉ keywords

/-- The name of a module: an identifier of small letters, digits and underscores that begins with a
letter. -/
structure IsModuleName (s : String) : Prop where
  start : ∃ c, s.toList.head? = some c ∧ isSmall c = true
  chars : ∀ c ∈ s.toList, isSnakeChar c = true ∨ c = '_'
  free : s ∉ keywords

namespace IsModuleName

variable {s : String}

theorem isNameChar (h : IsModuleName s) {c : Char} (hc : c ∈ s.toList) :
    isNameChar c = true := by
  rcases h.chars c hc with hsnake | rfl
  · exact isNameChar_of_isSnakeChar hsnake
  · rfl

theorem isIdentifier (h : IsModuleName s) : IsIdentifier s where
  start := by
    obtain ⟨c, hc, hsmall⟩ := h.start
    exact ⟨c, hc, .inr (.inl hsmall)⟩
  chars _ hc := h.isNameChar hc
  free := h.free

/-- No character but small letters, digits and underscores is in the name of a module. -/
theorem not_mem (h : IsModuleName s) {c : Char} (hsnake : isSnakeChar c = false)
    (hunder : c ≠ '_') : c ∉ s.toList := by
  intro hc
  rcases h.chars c hc with hyes | rfl
  · rw [hyes] at hsnake
    cases hsnake
  · exact hunder rfl

end IsModuleName

/-- A text with an underscore is no keyword. -/
theorem not_mem_keywords {s : String} (h : '_' ∈ s.toList) : s ∉ keywords := by
  have hnone : ∀ k ∈ keywords, '_' ∉ k.toList := by decide
  exact fun hs => hnone s hs h

/-- The name of a module with a number behind it is one, too. -/
theorem IsModuleName.numbered {s : String} (h : IsModuleName s) (n : Nat) :
    IsModuleName (numbered s n) where
  start := by
    obtain ⟨c, hc, hsmall⟩ := h.start
    obtain ⟨cs, hcs⟩ := List.head?_eq_some_iff.1 hc
    exact ⟨c, by rw [Name.numbered, String.toList_append, String.toList_append, hcs]; rfl, hsmall⟩
  chars c hc := by
    rw [Name.numbered, String.toList_append, String.toList_append, List.append_assoc,
      List.mem_append, List.mem_append] at hc
    rcases hc with hc | hc | hc
    · exact h.chars c hc
    · exact .inr (List.mem_singleton.1 hc)
    · rw [Nat.repr_eq_ofList_toDigits, String.toList_ofList] at hc
      exact .inl (isSnakeChar_of_mem_toDigits hc)
  free := not_mem_keywords (by simp [Name.numbered])

theorem head?_stem (role : Role) :
    ∃ c, role.stem.toList.head? = some c ∧ isSmall c = true := by
  cases role with
  | node => exact ⟨'n', rfl, rfl⟩
  | workflow => exact ⟨'w', rfl, rfl⟩
  | route => exact ⟨'r', rfl, rfl⟩

theorem isSnakeChar_of_mem_stem {role : Role} {c : Char} (hc : c ∈ role.stem.toList) :
    isSnakeChar c = true := by
  have hall : role.stem.toList.all isSnakeChar = true := by cases role <;> rfl
  exact List.all_eq_true.1 hall c hc

theorem isModuleName_stem (role : Role) : IsModuleName role.stem where
  start := head?_stem role
  chars _ hc := .inl (isSnakeChar_of_mem_stem hc)
  free := by cases role <;> decide

/-- A form behind a stem makes the name of a module. -/
theorem isModuleName_stem_append {form : String} (role : Role)
    (h : ∀ c ∈ form.toList, isSnakeChar c = true ∨ c = '_') :
    IsModuleName (role.stem ++ "_" ++ form) where
  start := by
    obtain ⟨c, hc, hsmall⟩ := head?_stem role
    refine ⟨c, ?_, hsmall⟩
    rw [String.toList_append, String.toList_append, List.append_assoc, List.head?_append, hc,
      Option.some_or]
  chars c hc := by
    rw [String.toList_append, String.toList_append, List.append_assoc, List.mem_append,
      List.mem_append] at hc
    rcases hc with hc | hc | hc
    · exact .inl (isSnakeChar_of_mem_stem hc)
    · exact .inr (List.mem_singleton.1 hc)
    · exact h c hc
  free := not_mem_keywords (by simp)

/-- What the identifier of a name is: the stem for a name without words, the snake-case form
behind the stem, or the form itself when it does not begin with a digit and is no keyword. -/
theorem identifier?_cases (role : Role) (name : String) :
    (snakeCase name = "" ∧ identifier? role.stem name = some role.stem) ∨
      (snakeCase name ≠ "" ∧
        identifier? role.stem name = some (role.stem ++ "_" ++ snakeCase name)) ∨
      (snakeCase name ≠ "" ∧ startsWithDigit (snakeCase name) = false ∧
        snakeCase name ∉ keywords ∧ identifier? role.stem name = some (snakeCase name)) := by
  rw [identifier?]
  by_cases hempty : snakeCase name = ""
  · have hne : role.stem.isEmpty = false := by cases role <;> decide
    have hdigit : startsWithDigit role.stem = false := by cases role <;> decide
    have hkey : role.stem ∉ keywords := (isModuleName_stem role).free
    exact .inl ⟨hempty, by simp [hempty, hne, hdigit, hkey]⟩
  · have hne : (snakeCase name).isEmpty = false := by simpa using hempty
    simp only [hne, if_false, Bool.false_eq_true]
    split
    · exact .inr (.inl ⟨hempty, rfl⟩)
    · next hform =>
      rw [Bool.or_eq_true, not_or, Bool.not_eq_true] at hform
      exact .inr (.inr ⟨hempty, hform.1, by simpa using hform.2, rfl⟩)

/-- Every name has an identifier. -/
theorem identifier?_eq_some (role : Role) (name : String) :
    identifier? role.stem name = some (identifier role name) := by
  rw [identifier]
  rcases identifier?_cases role name with ⟨-, h⟩ | ⟨-, h⟩ | ⟨-, -, -, h⟩ <;>
    rw [h, Option.getD_some]

/-- A form that does not begin with a digit begins with a letter. -/
theorem exists_head?_snakeCase {name : String} (hne : snakeCase name ≠ "")
    (hdigit : startsWithDigit (snakeCase name) = false) :
    ∃ c, (snakeCase name).toList.head? = some c ∧ isSmall c = true := by
  cases hcs : (snakeCase name).toList with
  | nil => exact absurd (String.toList_eq_nil_iff.1 hcs) hne
  | cons c cs =>
    refine ⟨c, List.head?_cons, ?_⟩
    have hsnake := head?_snakeCase (hcs ▸ List.head?_cons)
    rw [isSnakeChar, Bool.or_eq_true] at hsnake
    rcases hsnake with hsmall | hascii
    · exact hsmall
    · have hyes : startsWithDigit (snakeCase name) = true := by
        rw [startsWithDigit, hcs]
        exact isDigit_of_isAsciiDigit hascii
      rw [hyes] at hdigit
      cases hdigit

/-- Every name has an identifier that can name a module. -/
theorem isModuleName_identifier (role : Role) (name : String) :
    IsModuleName (identifier role name) := by
  rw [identifier]
  rcases identifier?_cases role name with ⟨-, h⟩ | ⟨-, h⟩ | ⟨hne, hdigit, hfree, h⟩ <;>
    rw [h, Option.getD_some]
  · exact isModuleName_stem role
  · exact isModuleName_stem_append role fun c hc => mem_snakeCase hc
  · exact ⟨exists_head?_snakeCase hne hdigit, fun c hc => mem_snakeCase hc, hfree⟩

/-! ## Distinct names -/

theorem numbered_injective (base : String) : Function.Injective (numbered base) := by
  intro m n h
  have hlist := congrArg String.toList h
  rw [numbered, numbered, String.toList_append, String.toList_append (t := Nat.repr n),
    List.append_cancel_left_eq, Nat.repr_eq_ofList_toDigits, Nat.repr_eq_ofList_toDigits,
    String.toList_ofList, String.toList_ofList] at hlist
  rw [← Nat.ofDigitChars_ten_toDigits (n := m), hlist, Nat.ofDigitChars_ten_toDigits]

/-- Of one more number than there are used names, one is free. -/
theorem exists_find?_free (used : List String) (base : String) :
    ∃ i, ((List.range (used.length + 1)).find? fun i => !used.contains (numbered base (i + 2))) =
      some i := by
  cases hfind : (List.range (used.length + 1)).find?
      fun i => !used.contains (numbered base (i + 2)) with
  | some i => exact ⟨i, rfl⟩
  | none =>
    have hall : ∀ i < used.length + 1, numbered base (i + 2) ∈ used.toFinset := by
      intro i hi
      have hused := List.find?_eq_none.1 hfind i (List.mem_range.2 hi)
      simpa using hused
    have hcard := Finset.le_card_of_inj_on_range (fun i => numbered base (i + 2)) hall
      fun i _ j _ hij => Nat.add_right_cancel (numbered_injective base hij)
    have hlength := used.toFinset_card_le
    omega

/-- What a unique name is: the base if it is not used, and otherwise the base with the first number
that is free. -/
theorem unique_cases (used : List String) (base : String) :
    (base ∉ used ∧ unique used base = base) ∨
      (base ∈ used ∧ ∃ i, unique used base = numbered base (i + 2) ∧
        numbered base (i + 2) ∉ used ∧ ∀ j < i, numbered base (j + 2) ∈ used) := by
  unfold unique
  split
  · next hused =>
    obtain ⟨i, hi⟩ := exists_find?_free used base
    obtain ⟨hfree, -, hbefore⟩ := List.find?_range_eq_some.1 hi
    refine .inr ⟨by simpa using hused, i, by rw [hi]; rfl, by simpa using hfree, ?_⟩
    intro j hj
    simpa using hbefore j hj
  · next hfree => exact .inl ⟨by simpa using hfree, rfl⟩

/-- A unique name is the base or the base with a number behind it. -/
theorem unique_eq (used : List String) (base : String) :
    unique used base = base ∨ ∃ n, unique used base = numbered base n := by
  rcases unique_cases used base with ⟨-, h⟩ | ⟨-, i, h, -⟩
  · exact .inl h
  · exact .inr ⟨i + 2, h⟩

/-- A unique name is not used. -/
theorem unique_not_mem (used : List String) (base : String) : unique used base ∉ used := by
  rcases unique_cases used base with ⟨hfree, h⟩ | ⟨-, i, h, hfree, -⟩
  · rwa [h]
  · rwa [h]

/-- Unique names are as many as their bases, distinct and none of those used before. -/
theorem uniqueAll_spec (used bases : List String) :
    (uniqueAll used bases).1.length = bases.length ∧ (uniqueAll used bases).1.Nodup ∧
      ∀ name ∈ (uniqueAll used bases).1, name ∉ used := by
  induction bases generalizing used with
  | nil => exact ⟨rfl, List.nodup_nil, by simp [uniqueAll]⟩
  | cons base bases ih =>
    obtain ⟨hlength, hnodup, hfresh⟩ := ih (used ++ [unique used base])
    refine ⟨by simp [uniqueAll, hlength], ?_, ?_⟩
    · refine List.nodup_cons.2 ⟨fun hmem => ?_, hnodup⟩
      exact hfresh _ hmem (List.mem_append_right used (List.mem_singleton.2 rfl))
    · intro name hname
      rcases List.mem_cons.1 hname with rfl | hname
      · exact unique_not_mem used base
      · exact fun hused => hfresh name hname (List.mem_append_left _ hused)

/-- Unique names are their bases in order, with a number behind some of them. -/
theorem forall₂_uniqueAll (used bases : List String) :
    List.Forall₂ (fun base name => name = base ∨ ∃ n, name = numbered base n) bases
      (uniqueAll used bases).1 := by
  induction bases generalizing used with
  | nil => exact .nil
  | cons base bases ih => exact .cons (unique_eq used base) (ih _)

/-- What holds of all bases and survives a number behind them holds of their unique names. -/
theorem forall_mem_uniqueAll {P : String → Prop} (hnumber : ∀ s n, P s → P (numbered s n))
    {used bases : List String} (h : ∀ base ∈ bases, P base) :
    ∀ name ∈ (uniqueAll used bases).1, P name := by
  induction bases generalizing used with
  | nil => simp [uniqueAll]
  | cons base bases ih =>
    obtain ⟨hbase, hbases⟩ := List.forall_mem_cons.1 h
    intro name hname
    rcases List.mem_cons.1 hname with rfl | hname
    · rcases unique_eq used base with he | ⟨n, he⟩
      · rw [he]
        exact hbase
      · rw [he]
        exact hnumber base n hbase
    · exact ih hbases name hname

/-! ## Class names -/

/-- A number behind a text of identifier characters keeps it one. -/
theorem isNameChar_numbered {s : String} (h : ∀ c ∈ s.toList, isNameChar c = true) (n : Nat) :
    ∀ c ∈ (numbered s n).toList, isNameChar c = true := by
  intro c hc
  rw [numbered, String.toList_append, String.toList_append, List.append_assoc, List.mem_append,
    List.mem_append] at hc
  rcases hc with hc | hc | hc
  · exact h c hc
  · rw [List.mem_singleton.1 hc]
    decide
  · rw [Nat.repr_eq_ofList_toDigits, String.toList_ofList] at hc
    exact isNameChar_of_isSnakeChar (isSnakeChar_of_mem_toDigits hc)

/-- The words of a Pascal-case form are made of ASCII letters and digits. -/
theorem isWordChar_of_mem_capitalized {name : String} {c : Char}
    (h : c ∈ (snakeWords name).flatMap capitalize) : isWordChar c = true := by
  obtain ⟨w, hw, hcw⟩ := List.mem_flatMap.1 h
  obtain ⟨-, hchars⟩ := snakeWords_spec hw
  cases w with
  | nil => cases hcw
  | cons a as =>
    rcases List.mem_cons.1 hcw with rfl | hcw
    · exact isWordChar_toUpper (hchars a List.mem_cons_self)
    · exact isWordChar_of_isSnakeChar (hchars c (List.mem_cons_of_mem a hcw))

/-- A Pascal-case form is an `N`, its words, or its words behind an `N` that a digit needs. -/
theorem pascalCase_cases (name : String) :
    ((snakeWords name).flatMap capitalize = [] ∧ (pascalCase name).toList = ['N']) ∨
      ∃ c cs, (snakeWords name).flatMap capitalize = c :: cs ∧
        (pascalCase name).toList = if Text.isAsciiDigit c then 'N' :: c :: cs else c :: cs := by
  rw [pascalCase]
  cases (snakeWords name).flatMap capitalize with
  | nil => exact .inl ⟨rfl, rfl⟩
  | cons c cs => exact .inr ⟨c, cs, rfl, String.toList_ofList⟩

/-- A Pascal-case form is made of ASCII letters and digits. -/
theorem isWordChar_pascalCase {name : String} {c : Char} (h : c ∈ (pascalCase name).toList) :
    isWordChar c = true := by
  rcases pascalCase_cases name with ⟨-, hform⟩ | ⟨a, as, hwords, hform⟩
  · rw [hform, List.mem_singleton] at h
    subst h
    rfl
  · rw [hform, ← hwords] at h
    split at h
    · rcases List.mem_cons.1 h with rfl | h
      · rfl
      · exact isWordChar_of_mem_capitalized h
    · exact isWordChar_of_mem_capitalized h

/-- A Pascal-case form is made of characters of identifiers. -/
theorem isNameChar_pascalCase {name : String} {c : Char} (h : c ∈ (pascalCase name).toList) :
    isNameChar c = true :=
  isNameChar_of_isWordChar (isWordChar_pascalCase h)

/-! ## Texts without capitals -/

@[simp] theorem head?_breakWords (cs : List Char) : (breakWords cs).head? = cs.head? := by
  fun_cases breakWords cs <;> simp_all

@[simp] theorem head?_breakCapitals (cs : List Char) :
    (breakCapitals cs).head? = cs.head? := by
  fun_cases breakCapitals cs <;> simp_all

/-- A character is not separated from what follows unless a capital does. -/
theorem breakWords_cons {a : Char} {cs : List Char} (h : ∀ b ∈ cs.head?, isCapital b = false) :
    breakWords (a :: cs) = a :: breakWords cs := by
  cases cs with
  | nil => simp [breakWords]
  | cons b cs =>
    cases cs with
    | nil => simp [breakWords]
    | cons c cs => rw [breakWords, if_neg (by simp [h b rfl])]

/-- A character is not separated from what follows unless a capital does. -/
theorem breakCapitals_cons {a : Char} {cs : List Char}
    (h : ∀ b ∈ cs.head?, isCapital b = false) :
    breakCapitals (a :: cs) = a :: breakCapitals cs := by
  cases cs with
  | nil => simp [breakCapitals]
  | cons b cs => rw [breakCapitals, if_neg (by simp [h b rfl])]

section
variable {w t : List Char} (hw : ∀ c ∈ w, isCapital c = false)
  (ht : ∀ c ∈ t.head?, isCapital c = false)
include hw ht

/-- A text without capitals in front of another makes no capital the first character. -/
theorem not_isCapital_of_mem_head? : ∀ c ∈ (w ++ t).head?, isCapital c = false := by
  intro c hc
  cases w with
  | nil => exact ht c hc
  | cons a w =>
    obtain rfl : a = c := by simpa using hc
    exact hw a List.mem_cons_self

/-- A text without capitals stays together in front of anything but a capital. -/
theorem breakWords_append : breakWords (w ++ t) = w ++ breakWords t := by
  induction w with
  | nil => rfl
  | cons a w ih =>
    have hw' : ∀ c ∈ w, isCapital c = false := fun c hc => hw c (List.mem_cons_of_mem a hc)
    rw [List.cons_append, breakWords_cons (not_isCapital_of_mem_head? hw' ht), ih hw',
      List.cons_append]

/-- A text without capitals stays together in front of anything but a capital. -/
theorem breakCapitals_append : breakCapitals (w ++ t) = w ++ breakCapitals t := by
  induction w with
  | nil => rfl
  | cons a w ih =>
    have hw' : ∀ c ∈ w, isCapital c = false := fun c hc => hw c (List.mem_cons_of_mem a hc)
    rw [List.cons_append, breakCapitals_cons (not_isCapital_of_mem_head? hw' ht), ih hw',
      List.cons_append]

end

/-- Nothing is separated in a text without capitals. -/
theorem breakWords_eq_self {cs : List Char} (h : ∀ c ∈ cs, isCapital c = false) :
    breakWords cs = cs := by
  have hnil : breakWords [] = [] := by simp [breakWords]
  simpa [hnil] using breakWords_append (t := []) h (by simp)

/-- Nothing is separated in a text without capitals. -/
theorem breakCapitals_eq_self {cs : List Char} (h : ∀ c ∈ cs, isCapital c = false) :
    breakCapitals cs = cs := by
  have hnil : breakCapitals [] = [] := rfl
  simpa [hnil] using breakCapitals_append (t := []) h (by simp)

/-! ## Handlers -/

/-- A snake-case word in front of an end or an underscore is the first word of a name. -/
theorem snakeWords_append {w t : List Char} (hw : ∀ c ∈ w, isSnakeChar c = true) (hne : w ≠ [])
    (ht : ∀ c ∈ t.head?, c = '_') : ∃ ws, snakeWords (String.ofList (w ++ t)) = w :: ws := by
  have hcapital : ∀ c ∈ w, isCapital c = false := fun c hc => isCapital_of_isSnakeChar (hw c hc)
  have hfollow : ∀ c ∈ t.head?, isCapital c = false := fun c hc => by rw [ht c hc]; rfl
  have hbroken : ∀ c ∈ (breakWords t).head?, isCapital c = false := by simpa using hfollow
  obtain ⟨ws, hws⟩ : ∃ ws, runs (w ++ breakCapitals (breakWords t)) = w :: ws :=
    runs_append (fun c hc => isWordChar_of_isSnakeChar (hw c hc)) (by simpa using ht)
  have hword : (!w.isEmpty) = true := by simpa using hne
  refine ⟨(ws.filter (!·.isEmpty)).map fun w => w.map Char.toLower, ?_⟩
  rw [snakeWords, String.toList_ofList, breakWords_append hcapital hfollow,
    breakCapitals_append hcapital hbroken, words, hws, List.filter_cons, if_pos hword,
    List.map_cons, map_toLower_eq_self hw]

/-- A snake-case form that is no keyword and does not begin with a digit is an identifier as it
stands. -/
theorem identifier_eq_snakeCase {role : Role} {name : String} (hne : snakeCase name ≠ "")
    (hdigit : startsWithDigit (snakeCase name) = false) (hfree : snakeCase name ∉ keywords) :
    identifier role name = snakeCase name := by
  have hempty : (snakeCase name).isEmpty = false := by simpa using hne
  simp [identifier, identifier?, hempty, hdigit, hfree]

/-- The name of a handler begins with its method. -/
theorem prefix_handler (m : Method) (path : String) :
    m.lowerName.toList <+: (handler m.keyword path).toList := by
  have hlower : (Text.lower m.keyword).toList = m.lowerName.toList := by cases m <;> decide
  have hchars : m.lowerName.toList.all isSnakeChar = true := by cases m <;> rfl
  have hne : m.lowerName.toList ≠ [] := by cases m <;> decide
  -- What follows the method in front of the identifier begins with an underscore.
  obtain ⟨t, ht, hname⟩ : ∃ t : List Char, (∀ c ∈ t.head?, c = '_') ∧
      handler m.keyword path = identifier .route (String.ofList (m.lowerName.toList ++ t)) := by
    rw [handler, hlower]
    generalize ((segments path.toList).filter (!·.isEmpty)).map segmentWords = parts
    rcases joinWords_cons m.lowerName.toList parts with he | he
    · exact ⟨[], by simp, by rw [he, List.append_nil]⟩
    · exact ⟨'_' :: joinWords parts, by simp, by rw [he]⟩
  obtain ⟨ws, hws⟩ := snakeWords_append (List.all_eq_true.1 hchars) hne ht
  obtain ⟨u, hu, hsnake⟩ : ∃ u : List Char, (u = [] ∨ '_' ∈ u) ∧
      (snakeCase (String.ofList (m.lowerName.toList ++ t))).toList = m.lowerName.toList ++ u := by
    rw [snakeCase, String.toList_ofList, hws]
    rcases joinWords_cons m.lowerName.toList ws with he | he
    · exact ⟨[], .inl rfl, by rw [he, List.append_nil]⟩
    · exact ⟨_, .inr List.mem_cons_self, he⟩
  rw [hname, identifier_eq_snakeCase, hsnake]
  · exact List.prefix_append _ _
  · intro he
    rw [he] at hsnake
    exact hne (List.append_eq_nil_iff.1 hsnake.symm).1
  · rw [startsWithDigit, hsnake]
    cases m <;> rfl
  · rcases hu with rfl | hu
    · rw [List.append_nil] at hsnake
      rw [String.toList_injective hsnake]
      cases m <;> decide
    · refine not_mem_keywords ?_
      rw [hsnake]
      exact List.mem_append_right _ hu

end Nanoservice.Name
