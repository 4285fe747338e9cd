import Mathlib.Data.List.Infix
import Nanoservice.Page.Documentation

/-!
# The landmarks of a page

The landmarks of a page of documentation are the tags that open the sections of endpoints, nodes and
workflows and the notes that stand in place of empty lists. How often each of them stands in a page
is counted piece by piece (`Shows`). A landmark may begin in one piece and end in another, so what
follows a piece is left open. Most pieces are quiet: no landmark begins in them, whatever follows
(`AreQuiet.shows`). What is left are the tags that open sections (`shows_opening`) and the
paragraphs, whose text may be the sentence of a note (`shows_paragraph`).
-/

namespace Nanoservice

/-- The collections of a model that a page documents. -/
inductive Collection where
  | endpoints
  | nodes
  | workflows
  deriving DecidableEq, Repr

namespace Collection

/-- The class of the sections of a collection. -/
def className : Collection → String
  | .endpoints => "endpoint"
  | .nodes => "node"
  | .workflows => "workflow"

/-- The sentence in place of an empty collection. -/
def sentence : Collection → String
  | .endpoints => "No endpoints defined yet."
  | .nodes => "No nodes defined yet."
  | .workflows => "No workflows defined yet."

/-- The number of parts in a collection of a model. -/
def size (b : Backend) : Collection → Nat
  | .endpoints => b.endpoints.length
  | .nodes => b.nodes.length
  | .workflows => b.workflows.length

end Collection

namespace Page

/-! ## Occurrences -/

/-- The number of places of a list at which another one begins. -/
def count (p : List Char) : List Char → Nat
  | [] => 0
  | c :: cs => (if p <+: c :: cs then 1 else 0) + count p cs

/-- How often a text stands in a page. -/
def occurrences (s page : String) : Nat :=
  count s.toList page.toList

/-- What stands in a text is found there. -/
theorem count_pos_iff {p cs : List Char} (hp : p ≠ []) : 0 < count p cs ↔ p <:+: cs := by
  induction cs with
  | nil => simp [count, hp]
  | cons c cs ih =>
    rw [count, List.infix_cons_iff, ← ih]
    split
    · next h => simp [h, Nat.add_comm 1]
    · next h => simp [h]

/-- Where the first marker stands after other characters, it ends both of two texts. -/
theorem append_cons_prefix_iff {x : Char} {u v a b : List Char} (hu : x ∉ u) (hv : x ∉ v) :
    u ++ x :: a <+: v ++ x :: b ↔ u = v ∧ a <+: b := by
  induction u generalizing v with
  | nil =>
    cases v with
    | nil => simp
    | cons d v =>
      have hx : x ≠ d := fun h => hv (h ▸ List.mem_cons_self)
      simp [List.cons_prefix_cons, hx]
  | cons c u ih =>
    rw [List.mem_cons, not_or] at hu
    cases v with
    | nil => simp [List.cons_prefix_cons, Ne.symm hu.1]
    | cons d v =>
      rw [List.mem_cons, not_or] at hv
      simp only [List.cons_append, List.cons_prefix_cons, ih hu.2 hv.2, List.cons.injEq]
      tauto

/-! ## Landmarks -/

/-- The tag that opens a section, or the note in place of a collection. -/
inductive Landmark where
  | opening (c : Collection)
  | note (c : Collection)
  deriving DecidableEq, Repr

namespace Landmark

/-- The text of a landmark. -/
def text : Landmark → String
  | .opening c => "<div class=\"" ++ c.className ++ "\">"
  | .note c => "<p>" ++ c.sentence ++ "</p>"

theorem toList_opening (c : Collection) : (opening c).text.toList =
    ['<', 'd', 'i', 'v', ' ', 'c', 'l', 'a', 's', 's', '=', '"'] ++
      (c.className.toList ++ ['"', '>']) := by
  simp [text]

theorem toList_note (c : Collection) : (note c).text.toList =
    ['<', 'p', '>'] ++ (c.sentence.toList ++ ['<', '/', 'p', '>']) := by
  simp [text]

end Landmark

/-! ## Quiet characters -/

/-- How landmarks begin. -/
def stems : List (List Char) :=
  [['<', 'd'], ['<', 'p', '>', 'N']]

/-- A landmark may begin with these characters, or with these and more. -/
def mayOpen (cs : List Char) : Bool :=
  stems.any fun stem => cs.isPrefixOf stem || stem.isPrefixOf cs

/-- No landmark begins at one of these characters, whatever follows them. -/
def quiet : List Char → Bool
  | [] => true
  | c :: cs => !mayOpen (c :: cs) && quiet cs

/-- Every landmark has one of the stems. -/
theorem exists_stem (k : Landmark) : ∃ stem ∈ stems, stem <+: k.text.toList := by
  cases k with
  | opening c =>
    rw [Landmark.toList_opening]
    exact ⟨['<', 'd'], by simp [stems], List.prefix_append _ _⟩
  | note c =>
    rw [Landmark.toList_note]
    refine ⟨['<', 'p', '>', 'N'], by simp [stems], ?_⟩
    cases c <;> simp [Collection.sentence]

/-- Where a landmark begins with more characters behind, it may begin without them. -/
theorem mayOpen_of_append {xs ys : List Char} (h : mayOpen (xs ++ ys) = true) :
    mayOpen xs = true := by
  obtain ⟨stem, hstem, hor⟩ := List.any_eq_true.1 h
  refine List.any_eq_true.2 ⟨stem, hstem, ?_⟩
  simp only [Bool.or_eq_true, List.isPrefixOf_iff_prefix] at hor ⊢
  rcases hor with hpre | hpre
  · exact .inl ((List.prefix_append xs ys).trans hpre)
  · exact (List.prefix_or_prefix_of_prefix hpre (List.prefix_append xs ys)).symm

/-- A landmark that begins with characters may begin with them. -/
theorem mayOpen_of_begins {k : Landmark} {xs ys : List Char} (h : k.text.toList <+: xs ++ ys) :
    mayOpen xs = true := by
  obtain ⟨stem, hstem, hpre⟩ := exists_stem k
  refine List.any_eq_true.2 ⟨stem, hstem, ?_⟩
  simp only [Bool.or_eq_true, List.isPrefixOf_iff_prefix]
  exact (List.prefix_or_prefix_of_prefix (hpre.trans h) (List.prefix_append xs ys)).symm

theorem quiet_append {xs ys : List Char} (hx : quiet xs = true) (hy : quiet ys = true) :
    quiet (xs ++ ys) = true := by
  induction xs with
  | nil => exact hy
  | cons c xs ih =>
    rw [quiet, Bool.and_eq_true, Bool.not_eq_true'] at hx
    rw [List.cons_append, quiet, ih hx.2, Bool.and_true, Bool.not_eq_true']
    refine Bool.eq_false_iff.2 fun hopen => ?_
    rw [← List.cons_append] at hopen
    rw [mayOpen_of_append hopen] at hx
    cases hx.1

/-- Characters without an opening bracket are quiet. -/
theorem quiet_of_not_mem {cs : List Char} (h : '<' ∉ cs) : quiet cs = true := by
  induction cs with
  | nil => rfl
  | cons c cs ih =>
    rw [List.mem_cons, not_or] at h
    rw [quiet, ih h.2]
    simp [mayOpen, stems, List.isPrefixOf, h.1, Ne.symm h.1]

/-- Landmarks behind quiet characters are all there are. -/
theorem count_quiet_append (k : Landmark) {xs : List Char} (h : quiet xs = true)
    (rest : List Char) : count k.text.toList (xs ++ rest) = count k.text.toList rest := by
  induction xs with
  | nil => rfl
  | cons c xs ih =>
    rw [quiet, Bool.and_eq_true, Bool.not_eq_true'] at h
    have hnot : ¬ k.text.toList <+: c :: (xs ++ rest) := by
      intro hpre
      rw [← List.cons_append] at hpre
      rw [mayOpen_of_begins hpre] at h
      cases h.1
    rw [List.cons_append, count, if_neg hnot, ih h.2, Nat.zero_add]

/-- An escaped text has no opening bracket. -/
theorem not_mem_escaped (s : String) : '<' ∉ s.toList.flatMap escapeChar := by
  intro h
  obtain ⟨d, -, hd⟩ := List.mem_flatMap.1 h
  cases isStructural_of_mem_escapeChar hd

/-- A string is quiet when its characters are. -/
def IsQuiet (s : String) : Prop :=
  quiet s.toList = true

namespace IsQuiet

/-- Fixed markup is quiet when its characters, written one by one, are. -/
theorem literal {cs : List Char} (h : quiet cs = true) : IsQuiet (String.ofList cs) := by
  rwa [IsQuiet, String.toList_ofList]

theorem append {s t : String} (hs : IsQuiet s) (ht : IsQuiet t) : IsQuiet (s ++ t) := by
  rw [IsQuiet, String.toList_append]
  exact quiet_append hs ht

end IsQuiet

/-- Pieces in which no landmark begins, whatever follows them. -/
def AreQuiet (xs : List Piece) : Prop :=
  quiet (xs.flatMap Piece.chars) = true

namespace AreQuiet

theorem nil : AreQuiet [] := rfl

theorem append {xs ys : List Piece} (hx : AreQuiet xs) (hy : AreQuiet ys) :
    AreQuiet (xs ++ ys) := by
  rw [AreQuiet, List.flatMap_append]
  exact quiet_append hx hy

theorem markup {s : String} {xs : List Piece} (hs : IsQuiet s) (hx : AreQuiet xs) :
    AreQuiet (.markup s :: xs) :=
  quiet_append hs hx

theorem line {s : String} {xs : List Piece} (hs : IsQuiet s) (hx : AreQuiet xs) :
    AreQuiet (.line s :: xs) :=
  markup (hs.append (.literal rfl)) hx

/-- An escaped text has no opening bracket. -/
theorem text (t : RawText) {xs : List Piece} (hx : AreQuiet xs) : AreQuiet (.text t :: xs) :=
  quiet_append (quiet_of_not_mem (not_mem_escaped t.shown)) hx

theorem flatMap {α : Type} {f : α → List Piece} (h : ∀ a, AreQuiet (f a)) (as : List α) :
    AreQuiet (as.flatMap f) := by
  induction as with
  | nil => exact nil
  | cons a as ih => exact (h a).append ih

/-- A line of quiet markup around a text is quiet. -/
theorem around {before after : String} (hbefore : IsQuiet before) (hafter : IsQuiet after)
    (t : RawText) : AreQuiet (around before t after) :=
  markup hbefore (text t (line hafter nil))

/-- What is shown only sometimes is quiet if it is then. -/
theorem ite {p : Bool} {xs : List Piece} (h : AreQuiet xs) : AreQuiet (if p then [] else xs) := by
  cases p
  · exact h
  · exact nil

end AreQuiet

/-! ## What pieces show -/

/-- Pieces show a landmark a number of times: it is found so many times more often with the pieces
in front than without them. -/
def Shows (k : Landmark) (xs : List Piece) (n : Nat) : Prop :=
  ∀ rest, count k.text.toList (xs.flatMap Piece.chars ++ rest) = n + count k.text.toList rest

variable {k : Landmark} {xs ys : List Piece} {m n : Nat}

theorem Shows.append (hx : Shows k xs m) (hy : Shows k ys n) : Shows k (xs ++ ys) (m + n) := by
  intro rest
  rw [List.flatMap_append, List.append_assoc, hx, hy, Nat.add_assoc]

/-- Quiet pieces show no landmark. -/
theorem AreQuiet.shows (h : AreQuiet xs) : Shows k xs 0 := by
  intro rest
  rw [Nat.zero_add]
  exact count_quiet_append k h rest

/-- Pieces in front of quiet ones show what they do alone. -/
theorem Shows.append_quiet (hx : Shows k xs n) (hy : AreQuiet ys) : Shows k (xs ++ ys) n :=
  hx.append hy.shows

/-- A quiet line in front adds nothing to what pieces show. -/
theorem Shows.line {s : String} (hs : IsQuiet s) (hx : Shows k xs n) :
    Shows k (.line s :: xs) n := by
  rw [← Nat.zero_add n]
  exact (AreQuiet.line hs .nil).shows.append hx

/-- What pieces show depends on their characters only. -/
theorem Shows.congr (h : xs.flatMap Piece.chars = ys.flatMap Piece.chars) (hy : Shows k ys n) :
    Shows k xs n := by
  intro rest
  rw [h, hy]

/-! ## Tags that open sections and paragraphs -/

/-- Behind a bracket landmarks are found where it begins one, and after the next bracket. -/
theorem count_bracket (k : Landmark) {cs : List Char} (h : '<' ∉ cs) (rest : List Char) :
    count k.text.toList ('<' :: cs ++ rest) =
      (if k.text.toList <+: '<' :: cs ++ rest then 1 else 0) + count k.text.toList rest := by
  rw [List.cons_append, count, count_quiet_append k (quiet_of_not_mem h)]

/-- A landmark begins where a section is opened only if it is the tag that opens it. -/
theorem prefix_opening_iff (c : Collection) (rest : List Char) :
    k.text.toList <+: (Landmark.opening c).text.toList ++ rest ↔ k = .opening c := by
  cases k with
  | opening d =>
    have hquote (c : Collection) : '"' ∉ c.className.toList := by
      cases c <;> simp [Collection.className]
    have hname : d.className.toList = c.className.toList ↔ d = c := by
      cases c <;> cases d <;> simp [Collection.className]
    simp only [Landmark.toList_opening, List.append_assoc, List.prefix_append_right_inj,
      Landmark.opening.injEq]
    rw [← hname]
    exact (append_cons_prefix_iff (a := ['>']) (b := '>' :: rest) (hquote d) (hquote c)).trans
      (and_iff_left (by simp [List.cons_prefix_cons]))
  | note d => simp [Landmark.toList_opening, Landmark.toList_note, List.cons_prefix_cons]

/-- The line that opens a section shows the tag of its collection, and no other landmark. -/
theorem shows_opening {s : String} {c : Collection} (hs : s = "    " ++ (Landmark.opening c).text) :
    Shows k [Piece.line s] (if k = .opening c then 1 else 0) := by
  intro rest
  obtain ⟨cs, hcs⟩ : ∃ cs, (Landmark.opening c).text.toList = '<' :: cs :=
    ⟨_, Landmark.toList_opening c⟩
  have hclass : '<' ∉ cs := by
    rw [Landmark.toList_opening] at hcs
    rw [← (List.cons.inj hcs).2]
    cases c <;> simp [Collection.className]
  have hchars : [Piece.line s].flatMap Piece.chars ++ rest =
      [' ', ' ', ' ', ' '] ++ ('<' :: cs ++ '\n' :: rest) := by
    simp [hs, Piece.line, Piece.chars, hcs]
  rw [hchars, count_quiet_append k rfl, count_bracket k hclass, ← hcs]
  simp only [prefix_opening_iff]
  rw [← List.singleton_append, count_quiet_append k rfl]

/-- How often a landmark is found in a paragraph that holds a text. -/
def Landmark.inParagraph (s : String) : Landmark → Nat
  | .opening _ => 0
  | .note c => if s = c.sentence then 1 else 0

/-- A character is written as it is, or as a reference. -/
theorem escapeChar_eq_self {c : Char} (h : '&' ∉ escapeChar c) : escapeChar c = [c] := by
  unfold escapeChar at h ⊢
  split_ifs at h ⊢ <;> simp at h ⊢

/-- A text that is escaped to one without ampersands is escaped to itself. -/
theorem escaped_eq_self {cs : List Char} (h : '&' ∉ cs.flatMap escapeChar) :
    cs.flatMap escapeChar = cs := by
  induction cs with
  | nil => rfl
  | cons c cs ih =>
    rw [List.flatMap_cons, List.mem_append, not_or] at h
    rw [List.flatMap_cons, escapeChar_eq_self h.1, ih h.2]
    rfl

/-- The sentences of notes hold nothing that is escaped. -/
theorem sentence_plain (c : Collection) : '&' ∉ c.sentence.toList ∧ '<' ∉ c.sentence.toList ∧
    c.sentence.toList.flatMap escapeChar = c.sentence.toList := by
  cases c <;> simp [Collection.sentence, escapeChar]

/-- The only text that is escaped to the sentence of a note is the sentence. -/
theorem escaped_eq_sentence_iff {s : String} {c : Collection} :
    s.toList.flatMap escapeChar = c.sentence.toList ↔ s = c.sentence := by
  obtain ⟨hampersand, -, hescaped⟩ := sentence_plain c
  constructor
  · intro h
    rw [escaped_eq_self (h ▸ hampersand)] at h
    exact String.toList_injective h
  · rintro rfl
    exact hescaped

/-- A landmark begins where a paragraph does only if it is a note, and the text of the paragraph its
sentence. -/
theorem prefix_paragraph_iff (k : Landmark) (s : String) (rest : List Char) :
    k.text.toList <+: '<' :: ('p' :: '>' :: s.toList.flatMap escapeChar) ++
        ('<' :: '/' :: 'p' :: '>' :: rest) ↔ ∃ c, k = .note c ∧ s = c.sentence := by
  cases k with
  | opening d => simp [Landmark.toList_opening, List.cons_prefix_cons]
  | note d =>
    have hend : ['/', 'p', '>'] <+: '/' :: 'p' :: '>' :: rest := List.prefix_append _ rest
    simp only [Landmark.toList_note, List.cons_append, List.nil_append, List.cons_prefix_cons,
      true_and, append_cons_prefix_iff (sentence_plain d).2.1 (not_mem_escaped s), hend, and_true,
      Landmark.note.injEq, exists_eq_left', eq_comm (a := d.sentence.toList),
      escaped_eq_sentence_iff]

/-- A paragraph shows the note whose sentence it holds, and no other landmark. -/
theorem shows_paragraph {before : String} (blanks : String) (hbefore : before = blanks ++ "<p>")
    (hblanks : IsQuiet blanks) (t : RawText) :
    Shows k (around before t "</p>") (k.inParagraph t.shown) := by
  intro rest
  have htext : '<' ∉ 'p' :: '>' :: t.shown.toList.flatMap escapeChar := by
    simpa using not_mem_escaped t.shown
  have hchars : (around before t "</p>").flatMap Piece.chars ++ rest = blanks.toList ++
      ('<' :: ('p' :: '>' :: t.shown.toList.flatMap escapeChar) ++
        ('<' :: '/' :: 'p' :: '>' :: '\n' :: rest)) := by
    simp [around, hbefore, Piece.line, Piece.chars]
  have hend : quiet ['<', '/', 'p', '>', '\n'] = true := rfl
  have hclose : count k.text.toList ('<' :: '/' :: 'p' :: '>' :: '\n' :: rest) =
      count k.text.toList rest :=
    count_quiet_append k hend rest
  have hopen := prefix_paragraph_iff k t.shown ('\n' :: rest)
  rw [hchars, count_quiet_append k hblanks, count_bracket k htext, hclose]
  congr 1
  cases k with
  | opening c => exact if_neg fun h => by simpa using hopen.1 h
  | note c => exact if_congr (hopen.trans (by simp)) rfl rfl

end Page
end Nanoservice
