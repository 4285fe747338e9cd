/-!
# Blank characters

What counts as white space in prompts, names, paths and replies, and how blank margins are cut
off. The class is the Unicode one: the separators, the line and page controls, and the four
information separators below the space. A zero-width space or a byte order mark is not blank.
-/

namespace Nanoservice.Text

/-- A character is blank when it is a Unicode separator or a spacing control. -/
def isBlank (c : Char) : Bool :=
  let n := c.toNat
  (9 ≤ n && n ≤ 13) || (28 ≤ n && n ≤ 32) || n == 0x85 || n == 0xA0 || n == 0x1680 ||
    (0x2000 ≤ n && n ≤ 0x200A) || n == 0x2028 || n == 0x2029 || n == 0x202F || n == 0x205F ||
    n == 0x3000

/-- White space in the narrow sense: a blank that is not an information separator. -/
def isSpace (c : Char) : Bool :=
  isBlank c && !(28 ≤ c.toNat && c.toNat ≤ 31)

/-- Drops the longest end of a list whose members all satisfy `p`. -/
def dropEndWhile {α : Type} (p : α → Bool) : List α → List α
  | [] => []
  | a :: as =>
    match dropEndWhile p as with
    | [] => if p a then [] else [a]
    | b :: bs => a :: b :: bs

/-- Cuts the characters of a class off both ends of a list. -/
def trimChars (p : Char → Bool) (cs : List Char) : List Char :=
  dropEndWhile p (cs.dropWhile p)

/-- A text without its blank margins. -/
def trim (s : String) : String :=
  String.ofList (trimChars isBlank s.toList)

/-- A text is blank when all its characters are, the empty text included. -/
def isBlankText (s : String) : Bool :=
  s.toList.all isBlank

/-! ## What trimming leaves -/

theorem dropEndWhile_eq_nil_iff {α : Type} (p : α → Bool) (as : List α) :
    dropEndWhile p as = [] ↔ ∀ a ∈ as, p a = true := by
  induction as with
  | nil => simp [dropEndWhile]
  | cons a as ih =>
    rw [dropEndWhile]
    split
    · next h =>
      have hall := ih.1 h
      by_cases hp : p a = true
      · simpa [hp] using hall
      · simp [hp]
    · next b bs h =>
      constructor
      · intro hc; cases hc
      · intro hall
        have : dropEndWhile p as = [] := ih.2 fun x hx => hall x (List.mem_cons_of_mem _ hx)
        rw [this] at h; cases h

/-- A text is blank exactly when trimming leaves nothing. -/
theorem trimChars_eq_nil_iff (p : Char → Bool) (cs : List Char) :
    trimChars p cs = [] ↔ ∀ c ∈ cs, p c = true := by
  rw [trimChars, dropEndWhile_eq_nil_iff]
  constructor
  · intro h c hc
    have hmem : c ∈ cs.takeWhile p ++ cs.dropWhile p := by
      rw [List.takeWhile_append_dropWhile]; exact hc
    rcases List.mem_append.1 hmem with h1 | h2
    · exact List.all_eq_true.1 (List.all_takeWhile (l := cs) (p := p)) c h1
    · exact h c h2
  · intro h c hc
    exact h c ((List.dropWhile_sublist p).mem hc)

end Nanoservice.Text
