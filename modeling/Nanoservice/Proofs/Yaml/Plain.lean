import Nanoservice.Proofs.Yaml.Quoted

/-!
# Unquoted scalars read back

A text that can stand without quotes is read back from its unquoted form (`readPlain_plainFrom`), at
whatever blanks it is folded, and its start is taken for the start of such a text
(`startsPlain_plainFrom`). No character of it is taken for an indicator: a colon has another
character of its word behind it, and a number sign one in front, and folding moves no word away from
a gap.
-/

namespace Nanoservice.Yaml

variable {least : Nat} {place : Place} {rest : List Char}

/-! ## Words -/

/-- Of the characters that are shown, those of gaps separate words. -/
theorem isSeparator_eq {c : Char} (h : isPlainChar c = true) : isSeparator c = isGapChar c := by
  have hne {d : Char} (hd : isPlainChar d = false) : (c == d) = false := by
    rw [beq_eq_false_iff_ne]
    rintro rfl
    rw [h] at hd
    cases hd
  simp [isSeparator, isGapChar, hne (d := '\x00') (by decide), hne (d := '\t') (by decide),
    hne (d := '\r') (by decide)]

theorem readPlain_gap {ms : List Char} (hms : ∀ c ∈ ms, isGapChar c = true) (g : Gap)
    (cs : List Char) : readPlain least g (ms ++ cs) = readPlain least (ms.foldl Gap.push g) cs := by
  induction ms generalizing g with
  | nil => rfl
  | cons c ms ih =>
    rw [List.cons_append, readPlain, if_pos (hms c List.mem_cons_self),
      ih fun d hd => hms d (List.mem_cons_of_mem c hd), List.foldl_cons]

/-- A character that is no indicator where it stands is read. -/
theorem readPlain_char {c : Char} (hgap : isGapChar c = false) (hplain : isPlainChar c = true)
    {g : Gap} (hinside : g.isOutside least = false) (hsign : c = '#' → g = .empty)
    {cs : List Char} (hcolon : c = ':' → endsWord cs = false) :
    readPlain least g (c :: cs) =
      (g.chars ++ c :: (readPlain least .empty cs).1, (readPlain least .empty cs).2) := by
  have hcolon' : (c == ':' && endsWord cs) = false := by
    by_cases h : c = ':'
    · rw [hcolon h, Bool.and_false]
    · simp [h]
  have hsign' : (c == '#' && g != .empty) = false := by
    by_cases h : c = '#'
    · simp [hsign h]
    · simp [h]
  rw [readPlain]
  simp only [hgap, hinside, hsign', hcolon', hplain, Bool.or_self, Bool.not_true,
    Bool.false_eq_true, if_false]

/-- A word without indicators is read, `previous` being the character in front of it and `after`
what follows it where it is not folded. -/
theorem readPlain_word {w : List Char} (hne : w ≠ []) (hgap : ∀ c ∈ w, isGapChar c = false)
    (hplain : ∀ c ∈ w, isPlainChar c = true) {previous : Char} {after : List Char}
    (hinner : hasInnerIndicator previous (w ++ after) = false) (hafter : endsWord after = true)
    {g : Gap} (hinside : g.isOutside least = false)
    (hg : g = .empty ∨ isSeparator previous = true) (cs : List Char) :
    readPlain least g (w ++ cs) =
      (g.chars ++ w ++ (readPlain least .empty cs).1, (readPlain least .empty cs).2) := by
  induction w generalizing previous g with
  | nil => exact absurd rfl hne
  | cons c w ih =>
    rw [List.forall_mem_cons] at hgap hplain
    simp only [List.cons_append, hasInnerIndicator, Bool.or_eq_false_iff,
      Bool.and_eq_false_iff] at hinner
    obtain ⟨⟨hcolon, hsign⟩, hinner⟩ := hinner
    have hsign' : c = '#' → g = .empty := by
      rintro rfl
      rcases hg with hg | hg
      · exact hg
      · simp [hg] at hsign
    rw [List.cons_append]
    cases w with
    | nil =>
      have hcolon' : c = ':' → endsWord cs = false := by
        rintro rfl
        simp [hafter] at hcolon
      rw [List.nil_append, readPlain_char hgap.1 hplain.1 hinside hsign' hcolon']
      simp
    | cons d w =>
      have hnext : endsWord (d :: w ++ cs) = false := by
        rw [List.cons_append, endsWord, isSeparator_eq (hplain.2 d List.mem_cons_self)]
        exact hgap.2 d List.mem_cons_self
      rw [readPlain_char hgap.1 hplain.1 hinside hsign' fun _ => hnext,
        ih (List.cons_ne_nil d w) hgap.2 hplain.2 hinner rfl (.inl rfl)]
      simp [Gap.chars]

/-! ## Texts -/

/-- Behind blanks the character in front is one. -/
theorem hasInnerIndicator_blanks {n : Nat} {previous : Char} {cs : List Char}
    (h : hasInnerIndicator previous (List.replicate (n + 1) ' ' ++ cs) = false) :
    hasInnerIndicator ' ' cs = false := by
  induction n generalizing previous with
  | zero => exact (Bool.or_eq_false_iff.1 h).2
  | succ n ih => exact ih (Bool.or_eq_false_iff.1 h).2

/-- Behind a part of a text, some character is the one in front. -/
theorem hasInnerIndicator_append {previous : Char} {as bs : List Char}
    (h : hasInnerIndicator previous (as ++ bs) = false) :
    ∃ last, hasInnerIndicator last bs = false := by
  induction as generalizing previous with
  | nil => exact ⟨previous, h⟩
  | cons a as ih => exact ih (Bool.or_eq_false_iff.1 h).2

/-- Behind a word comes a gap or the end. -/
theorem endsWord_of_isSpaced {ks : List Chunk} (hruns : ∀ k ∈ ks, k.IsRun)
    (hhead : ∀ k ∈ ks.head?, ∀ w, k ≠ .word w) : endsWord (ks.flatMap Chunk.chars) = true := by
  cases ks with
  | nil => rfl
  | cons k ks =>
    have hrun := hruns k List.mem_cons_self
    cases k with
    | word w => exact absurd rfl (hhead _ rfl w)
    | blanks n =>
      obtain ⟨n, rfl⟩ : ∃ j, n = j + 1 := Nat.exists_eq_succ_of_ne_zero (Nat.ne_of_gt hrun)
      rfl
    | breaks ms =>
      obtain ⟨hne, hbreaks⟩ := hrun
      obtain ⟨c, ms, rfl⟩ := List.exists_cons_of_ne_nil hne
      simp [Chunk.chars, endsWord, isSeparator, hbreaks c List.mem_cons_self]

/-- A text on one line without indicators and without a blank at its end is read back from its
unquoted form, wherever it is folded. -/
theorem readPlain_plainFrom (hplace : least ≤ place.indent) {ks : List Chunk}
    (hruns : ∀ k ∈ ks, k.IsRun) (hspaced : IsSpaced ks)
    (hplain : ∀ c ∈ ks.flatMap Chunk.chars, isPlainChar c = true)
    (hline : ∀ c ∈ ks.flatMap Chunk.chars, isBreak c = false)
    (hend : ∀ c ∈ (ks.flatMap Chunk.chars).getLast?, c ≠ ' ') {previous : Char}
    (hinner : hasInnerIndicator previous (ks.flatMap Chunk.chars) = false) {g : Gap}
    (hg : g = .empty ∨
      (isSeparator previous = true ∧ g.isOutside least = false ∧ ∃ w, ks.head? = some (.word w)))
    {after : Gap × List Char} (hrest : readPlain least .empty rest = ([], after)) (column : Nat) :
    readPlain least g (plainFrom place column ks ++ rest) =
      (g.chars ++ ks.flatMap Chunk.chars, after) := by
  induction ks generalizing previous g column with
  | nil =>
    rcases hg with rfl | ⟨-, -, w, hw⟩
    · exact hrest
    · cases hw
  | cons k ks ih =>
    rw [List.forall_mem_cons] at hruns
    rw [List.flatMap_cons] at hend hinner
    rw [List.flatMap_cons, List.forall_mem_append] at hplain hline
    have hend' : ∀ c ∈ (ks.flatMap Chunk.chars).getLast?, c ≠ ' ' := by
      intro c hc
      exact hend c (by rw [List.getLast?_append, Option.mem_def.1 hc]; rfl)
    have ih := @ih hruns.2 hspaced.tail hplain.2 hline.2 hend'
    cases k with
    | breaks ms =>
      obtain ⟨hne, hbreaks⟩ := hruns.1
      obtain ⟨c, ms, rfl⟩ := List.exists_cons_of_ne_nil hne
      have hbreak := hbreaks c List.mem_cons_self
      rw [hline.1 c (by simp [Chunk.chars])] at hbreak
      cases hbreak
    | word w =>
      have hends := endsWord_of_isSpaced hruns.2 hspaced.1
      obtain ⟨last, hlast⟩ := hasInnerIndicator_append hinner
      have hinside : g.isOutside least = false := by
        rcases hg with rfl | hg
        · rfl
        · exact hg.2.1
      rw [plainFrom, List.append_assoc,
        readPlain_word hruns.1.1 hruns.1.2 hplain.1 hinner hends hinside (hg.imp_right And.left),
        ih hlast (.inl rfl)]
      simp [Gap.chars, Chunk.chars]
    | blanks n =>
      obtain ⟨n, rfl⟩ : ∃ j, n = j + 1 := Nat.exists_eq_succ_of_ne_zero (Nat.ne_of_gt hruns.1)
      have hinner' : hasInnerIndicator ' ' (ks.flatMap Chunk.chars) = false :=
        hasInnerIndicator_blanks hinner
      obtain rfl : g = .empty := by
        rcases hg with hg | ⟨-, -, w, hw⟩
        · exact hg
        · cases hw
      have hword : ∃ w, ks.head? = some (.word w) := by
        cases ks with
        | nil => exact absurd rfl (hend ' ' (by simp [Chunk.chars, List.replicate_succ']))
        | cons k ks =>
          obtain ⟨w, rfl⟩ := hspaced.1 k rfl
          exact ⟨w, rfl⟩
      rw [plainFrom]
      split
      · next hfold =>
        obtain rfl : n = 0 := Nat.succ.inj hfold.1
        have hinside : (Gap.lines (some '\n') [] place.indent).isOutside least = false := by
          simpa [Gap.isOutside] using hplace
        rw [List.append_assoc, readPlain_gap isGapChar_of_mem_newLine, Gap.foldl_push_newLine,
          ih hinner' (.inr ⟨by decide, hinside, hword⟩)]
        rfl
      · rw [List.append_assoc, readPlain_gap isGapChar_of_mem_blanks, Gap.foldl_push_blanks,
          ih hinner' (.inr ⟨by decide, rfl, hword⟩)]
        rfl

/-! ## The start of a text -/

/-- Three marks of a kind in front of a text are in front of what is not folded of it. -/
theorem isPrefixOf_of_word {p : Char} {w cs ds : List Char} (hcs : cs.head? ≠ some p)
    (h : [p, p, p].isPrefixOf (w ++ cs) = true) : [p, p, p].isPrefixOf (w ++ ds) = true := by
  have hhead {q : Char} {qs : List Char} : (q :: qs).isPrefixOf cs = true → q ≠ p := by
    cases cs with
    | nil => simp
    | cons c cs =>
      rw [List.isPrefixOf, Bool.and_eq_true, beq_iff_eq]
      rintro ⟨rfl, -⟩ rfl
      exact hcs rfl
  match w with
  | [] => exact absurd rfl (hhead h)
  | [a] => exact absurd rfl (hhead (Bool.and_eq_true_iff.1 h).2)
  | [a, b] => exact absurd rfl (hhead (Bool.and_eq_true_iff.1 (Bool.and_eq_true_iff.1 h).2).2)
  | a :: b :: c :: w => simpa [List.isPrefixOf] using h

/-- Behind a word comes a gap or what follows the text. -/
theorem head_plainFrom {ks : List Chunk} (hruns : ∀ k ∈ ks, k.IsRun)
    (hhead : ∀ k ∈ ks.head?, ∀ w, k ≠ .word w) (column : Nat) :
    ∀ c ∈ (plainFrom place column ks ++ rest).head?, isGapChar c = true ∨ c ∈ rest.head? := by
  cases ks with
  | nil => exact fun c hc => .inr hc
  | cons k ks =>
    have hrun := hruns k List.mem_cons_self
    cases k with
    | word w => exact absurd rfl (hhead _ rfl w)
    | blanks n =>
      obtain ⟨n, rfl⟩ : ∃ j, n = j + 1 := Nat.exists_eq_succ_of_ne_zero (Nat.ne_of_gt hrun)
      rw [plainFrom]
      split
      · rintro c ⟨⟩
        exact .inl (by decide)
      · rintro c ⟨⟩
        exact .inl isGapChar_blank
    | breaks ms =>
      obtain ⟨hne, hbreaks⟩ := hrun
      obtain ⟨c, ms, rfl⟩ := List.exists_cons_of_ne_nil hne
      rintro d ⟨⟩
      exact .inl (isGapChar_of_isBreak (hbreaks c List.mem_cons_self))

/-- A run that begins outside of gaps is a word. -/
theorem Chunk.IsRun.eq_word {k : Chunk} (h : k.IsRun) {c : Char} {w : List Char}
    (hchars : k.chars = c :: w) (hc : isGapChar c = false) : k = .word (c :: w) := by
  cases k with
  | word w => exact congrArg Chunk.word hchars
  | blanks n =>
    obtain rfl : c = ' ' := List.eq_of_mem_replicate (hchars ▸ List.mem_cons_self)
    cases hc
  | breaks ms =>
    obtain rfl : ms = c :: w := hchars
    have hbreak := isGapChar_of_isBreak (h.2 c List.mem_cons_self)
    rw [hc] at hbreak
    cases hbreak

/-- The written form of a text without indicators starts an unquoted text. -/
theorem startsPlain_plainFrom {ks : List Chunk} (hne : ks ≠ []) (hruns : ∀ k ∈ ks, k.IsRun)
    (hspaced : IsSpaced ks) (hplain : ∀ c ∈ ks.flatMap Chunk.chars, isPlainChar c = true)
    (hmargin : ∀ c ∈ (ks.flatMap Chunk.chars).head?, isGapChar c = false)
    (hindicator : hasIndicator (ks.flatMap Chunk.chars) = false)
    (hrest : ∀ c ∈ rest.head?, c ≠ '-' ∧ c ≠ '.') (column : Nat) :
    startsPlain (plainFrom place column ks ++ rest) = true := by
  obtain ⟨k, ks, rfl⟩ := List.exists_cons_of_ne_nil hne
  rw [List.forall_mem_cons] at hruns
  rw [List.flatMap_cons] at hplain hmargin hindicator
  obtain ⟨c, w, hchars⟩ := List.exists_cons_of_ne_nil hruns.1.chars_ne_nil
  rw [hchars, List.cons_append] at hplain hmargin hindicator
  have hgap : isGapChar c = false := hmargin c rfl
  obtain rfl := hruns.1.eq_word hchars hgap
  have hplain' := hplain c List.mem_cons_self
  simp only [hasIndicator, Bool.or_eq_false_iff] at hindicator
  obtain ⟨⟨⟨⟨hleading, hmark⟩, hdashes⟩, hpoints⟩, -⟩ := hindicator
  rw [plainFrom, List.append_assoc]
  generalize hcs : plainFrom place (column + (c :: w).length) ks ++ rest = cs
  have hhead : ∀ d ∈ cs.head?, d ≠ '-' ∧ d ≠ '.' := by
    intro d hd
    rw [← hcs] at hd
    rcases head_plainFrom hruns.2 hspaced.1 _ d hd with hgap | hd
    · constructor <;> rintro rfl <;> cases hgap
    · exact hrest d hd
  -- A mark is followed by a character of its word, in the written form as in the text.
  have hmark' : ((c == '-' || c == '?' || c == ':') && endsWord (w ++ cs)) = false := by
    cases w with
    | nil =>
      rw [List.nil_append, endsWord_of_isSpaced hruns.2 hspaced.1, Bool.and_true,
        Bool.or_eq_false_iff, Bool.or_eq_false_iff] at hmark
      simp [hmark]
    | cons d w =>
      have hd : d ∈ c :: (d :: w ++ ks.flatMap Chunk.chars) := by simp
      rw [List.cons_append, endsWord, isSeparator_eq (hplain d hd),
        hruns.1.2 d (List.mem_cons_of_mem c List.mem_cons_self), Bool.and_false]
  have hprefix {p : Char} (hp : cs.head? ≠ some p)
      (h : [p, p, p].isPrefixOf (c :: (w ++ ks.flatMap Chunk.chars)) = false) :
      [p, p, p].isPrefixOf (c :: (w ++ cs)) = false :=
    Bool.eq_false_iff.2 fun hpre =>
      Bool.eq_false_iff.1 h (isPrefixOf_of_word (w := c :: w) hp hpre)
  have hdashes' := hprefix (fun h => (hhead '-' h).1 rfl) hdashes
  have hpoints' := hprefix (fun h => (hhead '.' h).2 rfl) hpoints
  rw [List.cons_append, startsPlain]
  simp only [hplain', isSeparator_eq hplain', hgap, hleading, hmark', hdashes', hpoints']
  decide

/-! ## What the choice of a form checks -/

/-- A text on one line that can stand without quotes. -/
structure IsBare (cs : List Char) : Prop where
  spaced : IsSpaced (chunks cs)
  plain : ∀ c ∈ cs, isPlainChar c = true
  line : ∀ c ∈ cs, isBreak c = false
  head : ∀ c ∈ cs.head?, isGapChar c = false
  last : ∀ c ∈ cs.getLast?, c ≠ ' '
  indicator : hasIndicator cs = false

theorem hasNeighbours_eq_false {α : Type} {p q : α → Bool} {as : List α}
    (h : (∀ a ∈ as, p a = false) ∨ ∀ a ∈ as, q a = false) : hasNeighbours p q as = false := by
  induction as with
  | nil => rfl
  | cons a as ih =>
    have ih := ih (h.imp (fun h b hb => h b (List.mem_cons_of_mem a hb))
      fun h b hb => h b (List.mem_cons_of_mem a hb))
    cases as with
    | nil => rfl
    | cons b as =>
      rw [hasNeighbours, ih, Bool.or_false, Bool.and_eq_false_iff]
      exact h.imp (fun h => h a List.mem_cons_self)
        fun h => h b (List.mem_cons_of_mem a List.mem_cons_self)

theorem isBare_of_allowsPlain {cs : List Char} (h : allowsPlain cs = true) : IsBare cs := by
  simp only [allowsPlain, Bool.and_eq_true, Bool.not_eq_true', isMultiline, hasBlankMargin,
    Bool.or_eq_false_iff, List.any_eq_false, List.all_eq_true, Option.any_eq_false,
    Bool.not_eq_true, beq_eq_false_iff_ne] at h
  obtain ⟨⟨⟨⟨hhead, hlast⟩, hline⟩, hplain⟩, hindicator⟩ := h
  exact {
    spaced := isSpaced_chunks (hasNeighbours_eq_false (.inl hline))
      (hasNeighbours_eq_false (.inr hline))
    plain := hplain
    line := hline
    head := fun c hc => by simpa [isGapChar] using hhead c hc
    last := fun c hc => (hlast c hc).1
    indicator := hindicator }

/-- No character behind the first one is an indicator, and the first one is none either. -/
theorem hasInnerIndicator_of_hasIndicator {cs : List Char} (h : hasIndicator cs = false)
    (previous : Char) : hasInnerIndicator previous cs = false := by
  cases cs with
  | nil => rfl
  | cons c cs =>
    simp only [hasIndicator, Bool.or_eq_false_iff] at h
    obtain ⟨⟨⟨⟨hleading, hmark⟩, -⟩, -⟩, hinner⟩ := h
    have hsign : (c == '#') = false := by
      rw [beq_eq_false_iff_ne]
      rintro rfl
      exact absurd hleading (by decide)
    have hcolon : (c == ':' && endsWord cs) = false := by
      rw [Bool.and_eq_false_iff, Bool.or_eq_false_iff, Bool.or_eq_false_iff] at hmark
      rw [Bool.and_eq_false_iff]
      exact hmark.imp_left fun h => h.1.2
    rw [hasInnerIndicator, hcolon, hsign, hinner]
    rfl

namespace IsBare

variable {cs : List Char}

/-- A text that can stand without quotes is read back from its unquoted form. -/
theorem readPlain (h : IsBare cs) (hleast : least ≤ place.indent) {after : Gap × List Char}
    (hrest : readPlain least .empty rest = ([], after)) (column : Nat) :
    Yaml.readPlain least .empty (plainFrom place column (chunks cs) ++ rest) = (cs, after) := by
  have hchars := flatMap_chars_chunks cs
  rw [readPlain_plainFrom hleast (isRun_of_mem_chunks cs) h.spaced (hchars.symm ▸ h.plain)
    (hchars.symm ▸ h.line) (hchars.symm ▸ h.last)
    (hchars.symm ▸ hasInnerIndicator_of_hasIndicator h.indicator ' ') (.inl rfl) hrest column,
    hchars]
  rfl

/-- The unquoted form of a text is taken for one. -/
theorem startsPlain (h : IsBare cs) (hne : cs ≠ [])
    (hrest : ∀ c ∈ rest.head?, c ≠ '-' ∧ c ≠ '.') (column : Nat) :
    Yaml.startsPlain (plainFrom place column (chunks cs) ++ rest) = true := by
  have hchars := flatMap_chars_chunks cs
  refine startsPlain_plainFrom ?_ (isRun_of_mem_chunks cs) h.spaced (hchars.symm ▸ h.plain)
    (hchars.symm ▸ h.head) (hchars.symm ▸ h.indicator) hrest column
  intro hnil
  rw [hnil] at hchars
  exact hne hchars.symm

end IsBare

end Nanoservice.Yaml
