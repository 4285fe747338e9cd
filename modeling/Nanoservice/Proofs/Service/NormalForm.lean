import Nanoservice.Proofs.Service.Name

/-!
# Normal forms of names

A text is in snake case when it consists of words of small letters and digits with one underscore
between neighbours (`IsSnakeCase`); this is said without the functions that make it. The snake-case
form of a name is in snake case, and a text is its own snake-case form exactly when it is in snake
case (`snakeCase_eq_self_iff`). In the same way a text is its own identifier exactly when it is in
snake case, begins with a letter and is no keyword (`identifier?_eq_self_iff`), whichever stem there
is for names that need one.

Both facts rest on one reading of joined words: none of the three passes over a name finds anything
to do in them (`snakeWords_joinWords`).
-/

namespace Nanoservice.Name

/-- A word of a text in snake case: small letters and digits. -/
structure IsSnakeWord (w : List Char) : Prop where
  ne_nil : w ≠ []
  chars : ∀ c ∈ w, isSnakeChar c = true

/-- A text in snake case: words with an underscore between neighbours; there may be no words at
all. -/
def IsSnakeCase (s : String) : Prop :=
  ∃ ws : List (List Char), (∀ w ∈ ws, IsSnakeWord w) ∧ s.toList = List.intercalate ['_'] ws

/-! ## Joined words -/

theorem joinWords_cons_of_ne_nil {w : List Char} {ws : List (List Char)} (h : ws ≠ []) :
    joinWords (w :: ws) = w ++ '_' :: joinWords ws := by
  obtain ⟨v, vs, rfl⟩ := List.exists_cons_of_ne_nil h
  rfl

theorem joinWords_eq_intercalate (ws : List (List Char)) :
    joinWords ws = List.intercalate ['_'] ws := by
  induction ws with
  | nil => rfl
  | cons w ws ih =>
    cases ws with
    | nil => simp [joinWords]
    | cons v vs =>
      rw [joinWords_cons_of_ne_nil (List.cons_ne_nil v vs), ih]
      simp

theorem isSnakeCase_iff {s : String} :
    IsSnakeCase s ↔ ∃ ws : List (List Char),
      (∀ w ∈ ws, IsSnakeWord w) ∧ s = String.ofList (joinWords ws) := by
  simp only [IsSnakeCase, joinWords_eq_intercalate, String.ext_iff, String.toList_ofList]

theorem isSnakeWord_of_mem_snakeWords {name : String} {w : List Char} (h : w ∈ snakeWords name) :
    IsSnakeWord w :=
  ⟨(snakeWords_spec h).1, (snakeWords_spec h).2⟩

/-- The snake-case form of a name is in snake case. -/
theorem isSnakeCase_snakeCase (name : String) : IsSnakeCase (snakeCase name) :=
  isSnakeCase_iff.2 ⟨snakeWords name, fun _ => isSnakeWord_of_mem_snakeWords, rfl⟩

/-! ## Texts in snake case are left as they are -/

section
variable {ws : List (List Char)} (h : ∀ w ∈ ws, IsSnakeWord w)
include h

/-- Joined words hold no capital. -/
theorem isCapital_of_mem_joinWords {c : Char} (hc : c ∈ joinWords ws) : isCapital c = false := by
  rcases mem_joinWords hc with rfl | ⟨w, hw, hcw⟩
  · rfl
  · exact isCapital_of_isSnakeChar ((h w hw).chars c hcw)

/-- The runs of joined words are the words. -/
theorem runs_joinWords (hne : ws ≠ []) : runs (joinWords ws) = ws := by
  induction ws with
  | nil => exact absurd rfl hne
  | cons w ws ih =>
    obtain ⟨hw, hws⟩ := List.forall_mem_cons.1 h
    have hchars : ∀ c ∈ w, isWordChar c = true :=
      fun c hc => isWordChar_of_isSnakeChar (hw.chars c hc)
    by_cases hnil : ws = []
    · subst hnil
      exact runs_of_word hchars
    · rw [joinWords_cons_of_ne_nil hnil, runs_word_append hchars, ih hws hnil]

/-- Joined words are read as the words they were made of. -/
theorem words_joinWords : words (joinWords ws) = ws := by
  by_cases hnil : ws = []
  · subst hnil
    rfl
  · rw [words, runs_joinWords h hnil, List.filter_eq_self]
    intro w hw
    simpa using (h w hw).ne_nil

/-- The words of a text of joined words are these words. -/
theorem snakeWords_joinWords : snakeWords (String.ofList (joinWords ws)) = ws := by
  have hcapital : ∀ c ∈ joinWords ws, isCapital c = false :=
    fun c hc => isCapital_of_mem_joinWords h hc
  rw [snakeWords, String.toList_ofList, breakWords_eq_self hcapital,
    breakCapitals_eq_self hcapital, words_joinWords h]
  refine (List.map_congr_left fun w hw => ?_).trans (List.map_id ws)
  exact map_toLower_eq_self (h w hw).chars

/-- Without underscores joined words are one word. -/
theorem filter_joinWords : (joinWords ws).filter (· != '_') = ws.flatten := by
  induction ws with
  | nil => rfl
  | cons w ws ih =>
    obtain ⟨hw, hws⟩ := List.forall_mem_cons.1 h
    have hkept : w.filter (· != '_') = w := by
      refine List.filter_eq_self.2 fun c hc => ?_
      rw [bne_iff_ne]
      rintro rfl
      exact absurd (hw.chars _ hc) (by decide)
    rw [List.flatten_cons, ← ih hws]
    by_cases hnil : ws = []
    · subst hnil
      simp [joinWords, hkept]
    · rw [joinWords_cons_of_ne_nil hnil, List.filter_append, hkept]
      simp

end

/-- A text in snake case is its own snake-case form. -/
theorem snakeCase_eq_self {s : String} (h : IsSnakeCase s) : snakeCase s = s := by
  obtain ⟨ws, hws, rfl⟩ := isSnakeCase_iff.1 h
  rw [snakeCase, snakeWords_joinWords hws]

/-- The texts in snake case are those that are their own snake-case form. -/
theorem snakeCase_eq_self_iff {s : String} : snakeCase s = s ↔ IsSnakeCase s :=
  ⟨fun h => h ▸ isSnakeCase_snakeCase s, snakeCase_eq_self⟩

/-! ## Identifiers are left as they are -/

theorem isSnakeWord_stem (role : Role) : IsSnakeWord role.stem.toList where
  ne_nil := by cases role <;> decide
  chars _ hc := isSnakeChar_of_mem_stem hc

theorem isSnakeCase_stem (role : Role) : IsSnakeCase role.stem :=
  ⟨[role.stem.toList], List.forall_mem_singleton.2 (isSnakeWord_stem role), by simp⟩

/-- A form with words behind a stem is in snake case. -/
theorem isSnakeCase_stem_append (role : Role) {form : String} (h : IsSnakeCase form)
    (hne : form ≠ "") : IsSnakeCase (role.stem ++ "_" ++ form) := by
  obtain ⟨ws, hws, rfl⟩ := isSnakeCase_iff.1 h
  have hnil : ws ≠ [] := by
    rintro rfl
    exact hne rfl
  refine isSnakeCase_iff.2
    ⟨role.stem.toList :: ws, List.forall_mem_cons.2 ⟨isSnakeWord_stem role, hws⟩, ?_⟩
  rw [joinWords_cons_of_ne_nil hnil]
  simp [String.ext_iff]

/-- The identifier of a name is in snake case. -/
theorem isSnakeCase_identifier (role : Role) (name : String) :
    IsSnakeCase (identifier role name) := by
  have hform := isSnakeCase_snakeCase name
  rw [identifier]
  rcases identifier?_cases role name with ⟨-, h⟩ | ⟨hne, h⟩ | ⟨-, -, -, h⟩ <;>
    rw [h, Option.getD_some]
  · exact isSnakeCase_stem role
  · exact isSnakeCase_stem_append role hform hne
  · exact hform

/-- The name of a module in snake case is its own identifier, whatever the stem. -/
theorem identifier?_eq_self {stem s : String} (hmodule : IsModuleName s) (hsnake : IsSnakeCase s) :
    identifier? stem s = some s := by
  obtain ⟨c, hc, hsmall⟩ := hmodule.start
  obtain ⟨cs, hcs⟩ := List.head?_eq_some_iff.1 hc
  have hne : s.isEmpty = false := by
    rw [← Bool.not_eq_true, String.isEmpty_iff]
    rintro rfl
    cases hc
  have hdigit : startsWithDigit s = false := by
    rw [startsWithDigit, hcs]
    exact isDigit_of_isSmall hsmall
  have hfree : s ∉ keywords := hmodule.free
  simp [identifier?, snakeCase_eq_self hsnake, hne, hdigit, hfree]

/-- The identifiers of a role are the names of modules in snake case. -/
theorem identifier?_eq_self_iff {role : Role} {s : String} :
    identifier? role.stem s = some s ↔ IsModuleName s ∧ IsSnakeCase s := by
  constructor
  · intro h
    have hself : identifier role s = s :=
      Option.some.inj ((identifier?_eq_some role s).symm.trans h)
    rw [← hself]
    exact ⟨isModuleName_identifier role s, isSnakeCase_identifier role s⟩
  · rintro ⟨hmodule, hsnake⟩
    exact identifier?_eq_self hmodule hsnake

/-- The name of a module begins with no other character than a small letter. -/
theorem IsModuleName.ne_of_head? {s t : String} (h : IsModuleName s) {c : Char}
    (ht : t.toList.head? = some c) (hc : isSmall c = false) : s ≠ t := by
  rintro rfl
  obtain ⟨d, hd, hsmall⟩ := h.start
  rw [ht] at hd
  obtain rfl := Option.some.inj hd
  rw [hc] at hsmall
  cases hsmall

/-! ## Pascal case -/

/-- A word with a capital in front has the small letters that it had. -/
theorem map_toLower_capitalize {w : List Char} (h : ∀ c ∈ w, isSnakeChar c = true) :
    (capitalize w).map Char.toLower = w := by
  cases w with
  | nil => rfl
  | cons a as =>
    obtain ⟨ha, has⟩ := List.forall_mem_cons.1 h
    rw [capitalize, List.map_cons, toLower_toUpper ha, map_toLower_eq_self has]

/-- Without underscores and capitals, the snake-case and the Pascal-case form of a name agree, but
for an `n` in front. -/
theorem map_toLower_pascalCase (name : String) :
    ∃ front, (front = [] ∨ front = ['n']) ∧ (pascalCase name).toList.map Char.toLower =
      front ++ (snakeCase name).toList.filter (· != '_') := by
  have hwords : ∀ w ∈ snakeWords name, IsSnakeWord w := fun _ => isSnakeWord_of_mem_snakeWords
  have hsmall : ((snakeWords name).flatMap capitalize).map Char.toLower =
      (snakeCase name).toList.filter (· != '_') := by
    rw [snakeCase, String.toList_ofList, filter_joinWords hwords, List.map_flatMap,
      ← List.flatMap_id']
    exact List.flatMap_congr fun w hw => map_toLower_capitalize (hwords w hw).chars
  rw [← hsmall]
  rcases pascalCase_cases name with ⟨hnil, hform⟩ | ⟨c, cs, hwords, hform⟩
  · exact ⟨['n'], .inr rfl, by rw [hform, hnil]; rfl⟩
  · rw [hform, hwords]
    split
    · exact ⟨['n'], .inr rfl, rfl⟩
    · exact ⟨[], .inl rfl, rfl⟩

/-- The words of a Pascal-case form begin with a digit or a capital. -/
theorem head_capitalized {name : String} {c : Char} {cs : List Char}
    (h : (snakeWords name).flatMap capitalize = c :: cs) :
    Text.isAsciiDigit c = true ∨ isCapital c = true := by
  cases hws : snakeWords name with
  | nil => simp [hws] at h
  | cons w ws =>
    have hw : IsSnakeWord w := isSnakeWord_of_mem_snakeWords (hws ▸ List.mem_cons_self)
    obtain ⟨a, as, rfl⟩ := List.exists_cons_of_ne_nil hw.ne_nil
    obtain rfl : a.toUpper = c := by
      rw [hws, List.flatMap_cons, capitalize] at h
      exact (List.cons.inj h).1
    rcases (Bool.or_eq_true _ _).mp (hw.chars a List.mem_cons_self) with hsmall | hdigit
    · exact .inr (isCapital_toUpper hsmall)
    · rw [toUpper_of_isAsciiDigit hdigit]
      exact .inl hdigit

/-- A Pascal-case form begins with a capital. -/
theorem head?_pascalCase (name : String) :
    ∃ c, (pascalCase name).toList.head? = some c ∧ isCapital c = true := by
  rcases pascalCase_cases name with ⟨-, hform⟩ | ⟨c, cs, hwords, hform⟩
  · exact ⟨'N', by rw [hform]; rfl, rfl⟩
  · rw [hform]
    split
    · exact ⟨'N', rfl, rfl⟩
    · next hdigit => exact ⟨c, rfl, (head_capitalized hwords).resolve_left hdigit⟩

/-! ## All forms of a name -/

/-- The forms of a name are normal, and the functions that make them leave normal forms as they
are. -/
structure HasNormalForms (role : Role) (name : String) : Prop where
  snake : IsSnakeCase (snakeCase name)
  snakeAgain : snakeCase (snakeCase name) = snakeCase name
  /-- No other texts than those in snake case are left as they are. -/
  snakeOnly : snakeCase name = name ↔ IsSnakeCase name
  found : identifier? role.stem name = some (identifier role name)
  identifies : IsModuleName (identifier role name)
  /-- The identifier of a module is never that of the package around it. -/
  notPackage : identifier role name ≠ "__init__"
  /-- An identifier is its own one, in its role and in every other. -/
  foundAgain : ∀ other : Role,
    identifier? other.stem (identifier role name) = some (identifier role name)
  foundOnly : identifier? role.stem name = some name ↔ IsModuleName name ∧ IsSnakeCase name
  capital : ∃ c, (pascalCase name).toList.head? = some c ∧ isCapital c = true
  chars : ∀ c ∈ (pascalCase name).toList, isWordChar c = true
  /-- But for an `n` in front, the letters and digits are those of the snake-case form. -/
  letters : ∃ front, (front = [] ∨ front = ['n']) ∧ (pascalCase name).toList.map Char.toLower =
    front ++ (snakeCase name).toList.filter (· != '_')

/-- Every name has normal forms in every role. -/
theorem hasNormalForms (role : Role) (name : String) : HasNormalForms role name := by
  have hsnake := isSnakeCase_snakeCase name
  have hmodule := isModuleName_identifier role name
  have hidentifier := isSnakeCase_identifier role name
  exact {
    snake := hsnake
    snakeAgain := snakeCase_eq_self hsnake
    snakeOnly := snakeCase_eq_self_iff
    found := identifier?_eq_some role name
    identifies := hmodule
    notPackage := hmodule.ne_of_head? rfl rfl
    foundAgain := fun _ => identifier?_eq_self hmodule hidentifier
    foundOnly := identifier?_eq_self_iff
    capital := head?_pascalCase name
    chars := fun _ hc => isWordChar_pascalCase hc
    letters := map_toLower_pascalCase name }

example : identifier .node "3d-Render" = "n_3d_render" ∧ identifier .node "CLASS" = "n_class" := by
  decide +kernel

end Nanoservice.Name
