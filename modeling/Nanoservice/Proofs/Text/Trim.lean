import Mathlib.Data.List.DropRight
import Nanoservice.Text.Blank

/-!
# Trimmed texts

A text is trimmed when neither its first nor its last character is blank. Trimming makes a text
trimmed (`trimChars_trimmed`) and leaves a trimmed one as it is (`trimChars_eq_self_iff`), so it is
idempotent.
-/

namespace Nanoservice.Text

variable {α : Type} {p : α → Bool}

/-- Neither end of a list satisfies `p`. -/
def Trimmed (p : α → Bool) (l : List α) : Prop :=
  (∀ a ∈ l.head?, p a = false) ∧ ∀ a ∈ l.getLast?, p a = false

/-- Dropping an end from the front on is dropping it from the back on. -/
theorem dropEndWhile_eq_rdropWhile (l : List α) : dropEndWhile p l = l.rdropWhile p := by
  induction l with
  | nil => simp [dropEndWhile]
  | cons a l ih =>
    rw [dropEndWhile, ih, List.rdropWhile, List.rdropWhile, List.reverse_cons,
      List.dropWhile_append]
    cases h : l.reverse.dropWhile p with
    | nil => cases hp : p a <;> simp [hp]
    | cons b bs =>
      obtain ⟨c, cs, hc⟩ := List.exists_cons_of_ne_nil (l := (b :: bs).reverse) (by simp)
      simp only [hc, List.isEmpty_cons, Bool.false_eq_true, if_false, List.reverse_append]
      rfl

/-- The last element that is left does not satisfy `p`. -/
theorem getLast?_dropEndWhile {l : List α} {a : α} (h : a ∈ (dropEndWhile p l).getLast?) :
    p a = false := by
  rw [dropEndWhile_eq_rdropWhile, Option.mem_def] at h
  have hne : l.rdropWhile p ≠ [] := by rintro he; rw [he] at h; cases h
  have hlast := List.rdropWhile_last_not p l hne
  rw [List.getLast_of_getLast?_eq_some h] at hlast
  simpa using hlast

/-- Dropping an end keeps the first element, unless nothing is left. -/
theorem head?_dropEndWhile {l : List α} {a : α} (h : a ∈ (dropEndWhile p l).head?) :
    a ∈ l.head? := by
  rw [dropEndWhile_eq_rdropWhile] at h
  obtain ⟨t, ht⟩ := List.rdropWhile_prefix p (l := l)
  rw [← ht, List.head?_append]
  cases hd : l.rdropWhile p with
  | nil => rw [hd] at h; cases h
  | cons b bs => rw [hd] at h; exact h

/-- Nothing is dropped from a list whose last element does not satisfy `p`. -/
theorem dropEndWhile_eq_self {l : List α} (h : ∀ a ∈ l.getLast?, p a = false) :
    dropEndWhile p l = l := by
  rw [dropEndWhile_eq_rdropWhile, List.rdropWhile_eq_self_iff]
  intro hne
  simp [h _ (List.getLast?_eq_some_getLast hne)]

/-- Trimming makes a text trimmed. -/
theorem trimChars_trimmed (p : Char → Bool) (cs : List Char) : Trimmed p (trimChars p cs) := by
  refine ⟨fun c hc => ?_, fun c hc => getLast?_dropEndWhile hc⟩
  have hhead := head?_dropEndWhile hc
  have := List.head?_dropWhile_not p cs
  rw [Option.mem_def.1 hhead] at this
  simpa using this

/-- A trimmed text is one that trimming leaves as it is. -/
theorem trimChars_eq_self_iff {p : Char → Bool} {cs : List Char} :
    trimChars p cs = cs ↔ Trimmed p cs := by
  constructor
  · intro h
    rw [← h]
    exact trimChars_trimmed p cs
  · rintro ⟨hhead, hlast⟩
    have hdrop : cs.dropWhile p = cs := by
      cases cs with
      | nil => rfl
      | cons c cs => simp [hhead c rfl]
    rw [trimChars, hdrop, dropEndWhile_eq_self hlast]

/-- What is dropped from the end of a list satisfies `p`. -/
theorem exists_dropEndWhile_append (p : α → Bool) (l : List α) :
    ∃ dropped, l = dropEndWhile p l ++ dropped ∧ ∀ a ∈ dropped, p a = true := by
  rw [dropEndWhile_eq_rdropWhile]
  exact ⟨l.rtakeWhile p, List.rdropWhile_append_rtakeWhile.symm, fun _ => List.mem_rtakeWhile_imp⟩

/-- An end that satisfies `p` is dropped. -/
theorem dropEndWhile_append {l m : List α} (hm : ∀ a ∈ m, p a = true) :
    dropEndWhile p (l ++ m) = dropEndWhile p l := by
  induction l with
  | nil => exact (dropEndWhile_eq_nil_iff p m).2 hm
  | cons a l ih => rw [List.cons_append, dropEndWhile, dropEndWhile, ih]

/-- Trimming cuts off the margins of a trimmed text. -/
theorem trimChars_margins {p : Char → Bool} {left cs right : List Char}
    (hleft : ∀ c ∈ left, p c = true) (hcs : Trimmed p cs) (hright : ∀ c ∈ right, p c = true) :
    trimChars p (left ++ cs ++ right) = cs := by
  rw [trimChars, List.append_assoc, List.dropWhile_append_of_pos hleft]
  cases cs with
  | nil => exact (trimChars_eq_nil_iff p right).2 hright
  | cons c cs =>
    have hc : ¬ p c = true := by simp [hcs.1 c rfl]
    rw [List.cons_append, List.dropWhile_cons_of_neg hc, ← List.cons_append,
      dropEndWhile_append hright, dropEndWhile_eq_self hcs.2]

/-- A text is what trimming leaves of it between margins. -/
theorem exists_margins (p : Char → Bool) (cs : List Char) :
    ∃ left right, (∀ c ∈ left, p c = true) ∧ (∀ c ∈ right, p c = true) ∧
      cs = left ++ trimChars p cs ++ right := by
  obtain ⟨right, hright, hall⟩ := exists_dropEndWhile_append p (cs.dropWhile p)
  refine ⟨cs.takeWhile p, right, fun c => List.mem_takeWhile_imp, hall, ?_⟩
  rw [trimChars, List.append_assoc, ← hright, List.takeWhile_append_dropWhile]

/-- A text that trimming leaves as it is has no characters or one that is not blank. -/
theorem not_blank_of_trim {s : String} (h : trim s = s) (hne : s ≠ "") :
    isBlankText s = false := by
  have hchars : trimChars isBlank s.toList = s.toList := by
    simpa [trim] using congrArg String.toList h
  cases hs : s.toList with
  | nil => exact absurd (String.toList_injective hs) hne
  | cons c cs =>
    have hc : isBlank c = false := (trimChars_eq_self_iff.1 hchars).1 c (by simp [hs])
    simp [isBlankText, hs, hc]

/-- Trimming twice is trimming once. -/
theorem trim_trim (s : String) : trim (trim s) = trim s := by
  simp only [trim, String.toList_ofList]
  rw [trimChars_eq_self_iff.2 (trimChars_trimmed isBlank s.toList)]

end Nanoservice.Text
