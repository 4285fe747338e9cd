import Nanoservice.Proofs.Json.Halves
import Nanoservice.Proofs.Yaml.Chunks

/-!
# Quoted scalars read back

What was written in single quotes is read back from them (`readSingle_singleFrom`), unless a
next-line character is in it, and what was written in double quotes is read back from those
(`readDouble_doubleFrom`), unless it is folded beyond the width of a line, where a blank behind an
escape is lost. Both go through the text from gap to gap: a gap is read as the blanks or line breaks
that it was written for, and nothing of it is lost before the next word begins (`readSingle_gap`,
`readDouble_joint`).
-/

namespace Nanoservice.Yaml

/-! ## Gaps -/

theorem isGapChar_blank : isGapChar ' ' = true := by
  decide

theorem isGapChar_of_isBreak {c : Char} (h : isBreak c = true) : isGapChar c = true := by
  simp [isGapChar, h]

theorem isGapChar_of_mem_blanks {n : Nat} : ∀ c ∈ List.replicate n ' ', isGapChar c = true := by
  intro c hc
  rw [List.eq_of_mem_replicate hc]
  exact isGapChar_blank

theorem isGapChar_of_mem_newLine {indent : Nat} : ∀ c ∈ newLine indent, isGapChar c = true :=
  List.forall_mem_cons.2 ⟨by decide, isGapChar_of_mem_blanks⟩

theorem isGapChar_of_mem_quotedBreaks {indent : Nat} {ms : List Char} {c : Char}
    (h : ∀ c ∈ ms, isBreak c = true) (hc : c ∈ quotedBreaks indent ms) : isGapChar c = true := by
  unfold quotedBreaks at hc
  rcases List.mem_append.1 hc with hc | hc
  · rcases List.mem_append.1 hc with hc | hc
    · split at hc
      · obtain rfl := List.mem_singleton.1 hc
        decide
      · cases hc
    · exact isGapChar_of_isBreak (h c hc)
  · exact isGapChar_of_mem_blanks c hc

/-- No marker starts with a character of gaps. -/
theorem isMarker_of_isGapChar {c : Char} (h : isGapChar c = true) (cs : List Char) :
    isMarker (c :: cs) = false := by
  have hdash : c ≠ '-' := by
    rintro rfl
    exact absurd h (by decide)
  have hpoint : c ≠ '.' := by
    rintro rfl
    exact absurd h (by decide)
  simp [isMarker, List.isPrefixOf, hdash.symm, hpoint.symm]

namespace Gap

/-- Blanks at the end of a gap. -/
theorem foldl_push_blanks (n : Nat) :
    (List.replicate (n + 1) ' ').foldl push .empty = .blanks (n + 1) := by
  have hmore (k m : Nat) : (List.replicate k ' ').foldl push (.blanks m) = .blanks (m + k) := by
    induction k generalizing m with
    | zero => rfl
    | succ k ih =>
      rw [List.replicate_succ, List.foldl_cons, push, if_neg (by decide), ih, Nat.add_right_comm]
      rfl
  rw [List.replicate_succ, List.foldl_cons, push, if_neg (by decide), hmore, Nat.add_comm]

/-- Blanks behind a line break. -/
theorem foldl_push_indent (first : Option Char) (more : List Char) (k n : Nat) :
    (List.replicate n ' ').foldl push (.lines first more k) = .lines first more (k + n) := by
  induction n generalizing k with
  | zero => rfl
  | succ n ih =>
    rw [List.replicate_succ, List.foldl_cons, push, if_neg (by decide), ih]
    congr 1
    omega

/-- Line breaks behind a line break. -/
theorem foldl_push_breaks {ms : List Char} (h : ∀ c ∈ ms, isBreak c = true) (first : Option Char)
    (more : List Char) (k : Nat) :
    ∃ column, ms.foldl push (.lines first more k) =
      .lines first (more ++ ms.map breakChar) column := by
  induction ms generalizing more k with
  | nil => exact ⟨k, by simp⟩
  | cons c ms ih =>
    obtain ⟨column, hcolumn⟩ :=
      ih (fun d hd => h d (List.mem_cons_of_mem c hd)) (more ++ [breakChar c]) 0
    refine ⟨column, ?_⟩
    rw [List.foldl_cons, push, if_pos (h c List.mem_cons_self), hcolumn]
    simp

/-- The gap of a line break and an indentation. -/
theorem foldl_push_newLine (indent : Nat) :
    (newLine indent).foldl push .empty = .lines (some '\n') [] indent := by
  have hbreak : push .empty '\n' = .lines (some '\n') [] 0 := rfl
  rw [newLine, List.foldl_cons, hbreak, foldl_push_indent, Nat.zero_add]

/-- A line break other than the next-line character stands for itself. -/
theorem breakChar_of_ne {c : Char} (h : isBreak c = true) (hnext : c ≠ '\u0085') :
    breakChar c = c := by
  simp only [isBreak, Bool.or_eq_true, beq_iff_eq] at h
  rcases h with ((rfl | rfl) | rfl) | rfl
  · rfl
  · exact absurd rfl hnext
  · rfl
  · rfl

/-- Line breaks are read as they were written in single quotes. -/
theorem chars_quotedBreaks {ms : List Char} (indent : Nat) (hne : ms ≠ [])
    (h : ∀ c ∈ ms, isBreak c = true) (hnext : '\u0085' ∉ ms) :
    ((quotedBreaks indent ms).foldl push .empty).chars = ms := by
  have hself : ∀ c ∈ ms, breakChar c = c :=
    fun c hc => breakChar_of_ne (h c hc) fun heq => hnext (heq ▸ hc)
  cases ms with
  | nil => exact absurd rfl hne
  | cons c ms =>
    have htail : ms.map breakChar = ms :=
      (List.map_congr_left fun d hd => hself d (List.mem_cons_of_mem c hd)).trans (List.map_id ms)
    have hbreaks : ∀ d ∈ ms, isBreak d = true := fun d hd => h d (List.mem_cons_of_mem c hd)
    by_cases hc : c = '\n'
    · -- The line feed is written twice, and the first one of them is not counted.
      subst hc
      obtain ⟨column, hfold⟩ := foldl_push_breaks hbreaks (some '\n') ['\n'] 0
      have htwice : quotedBreaks indent ('\n' :: ms) =
          '\n' :: '\n' :: (ms ++ List.replicate indent ' ') := rfl
      rw [htwice, List.foldl_cons, List.foldl_cons, List.foldl_append]
      have htwo : push (push .empty '\n') '\n' = .lines (some '\n') ['\n'] 0 := rfl
      rw [htwo, hfold, foldl_push_indent, htail]
      simp [chars]
    · obtain ⟨column, hfold⟩ := foldl_push_breaks hbreaks (some c) [] 0
      have hfirst : push .empty c = .lines (some c) [] 0 := by
        rw [push, if_pos (h c List.mem_cons_self), hself c List.mem_cons_self]
      have hform : quotedBreaks indent (c :: ms) = c :: (ms ++ List.replicate indent ' ') := by
        unfold quotedBreaks
        split
        · next heq => exact absurd (List.cons.inj heq).1 hc
        · rfl
      rw [hform, List.foldl_cons, List.foldl_append, hfirst, hfold, foldl_push_indent, htail]
      simp [chars, hc]

end Gap

theorem behind_behind (g : Gap) (as bs : List Symbol) (r : Option (List Symbol × List Char)) :
    behind g as (behind .empty bs r) = behind g (as ++ bs) r := by
  cases r <;> simp [behind, Gap.chars]

theorem behind_some (g : Gap) (as bs : List Symbol) (rest : List Char) :
    behind g as (some (bs, rest)) = some (g.chars.map .char ++ as ++ bs, rest) := rfl

/-! ## Single quotes -/

theorem readSingle_gapChar {c : Char} (h : isGapChar c = true) {cs : List Char}
    (hmarker : isMarker cs = false) (g : Gap) :
    readSingle g (c :: cs) = readSingle (g.push c) cs := by
  rw [readSingle.eq_def]
  simp only [h, if_true, hmarker, Bool.and_false, Bool.false_eq_true, if_false]

theorem readSingle_char {c : Char} (h : isGapChar c = false) (hquote : c ≠ '\'')
    (hplain : isPlainChar c = true) (g : Gap) (cs : List Char) :
    readSingle g (c :: cs) = behind g [.char c] (readSingle .empty cs) := by
  rw [readSingle.eq_def]
  simp only [h, Bool.false_eq_true, if_false, beq_iff_eq, hquote, hplain, if_true]

theorem readSingle_quote (g : Gap) (cs : List Char) :
    readSingle g ('\'' :: '\'' :: cs) = behind g [.char '\''] (readSingle .empty cs) := by
  rw [readSingle.eq_def]
  rfl

theorem readSingle_close {cs : List Char} (h : cs.head? ≠ some '\'') (g : Gap) :
    readSingle g ('\'' :: cs) = some (g.chars.map .char, cs) := by
  rw [readSingle.eq_def]
  cases cs with
  | nil => rfl
  | cons c cs =>
    dsimp only
    rw [if_neg (by decide), if_pos (by decide)]
    split
    · next heq => exact absurd (congrArg List.head? heq) h
    · rfl

/-- A gap that ends with a blank is read as one. -/
theorem readSingle_gap {ms : List Char} (hms : ∀ c ∈ ms, isGapChar c = true) (g : Gap)
    (cs : List Char) :
    readSingle g (ms ++ ' ' :: cs) = readSingle ((ms ++ [' ']).foldl Gap.push g) cs := by
  induction ms generalizing g with
  | nil =>
    rw [List.nil_append, readSingle.eq_def]
    rfl
  | cons c ms ih =>
    have hmarker : isMarker (ms ++ ' ' :: cs) = false := by
      cases ms with
      | nil => exact isMarker_of_isGapChar isGapChar_blank cs
      | cons d ms => exact isMarker_of_isGapChar (hms d (by simp)) _
    rw [List.cons_append, readSingle_gapChar (hms c List.mem_cons_self) hmarker,
      ih fun d hd => hms d (List.mem_cons_of_mem c hd)]
    rfl

/-- What a gap stands for comes in front of what is read behind it. -/
theorem readSingle_behind (g : Gap) {cs : List Char} (h : ∀ c ∈ cs.head?, isGapChar c = false) :
    readSingle g cs = behind g [] (readSingle .empty cs) := by
  cases cs with
  | nil => rfl
  | cons c cs =>
    have hc := h c rfl
    rw [readSingle.eq_def, readSingle.eq_def]
    simp only [hc, Bool.false_eq_true, if_false]
    split
    · split
      · rw [behind_behind, List.nil_append]
      · simp [behind_some, Gap.chars]
    · split
      · rw [behind_behind, List.nil_append]
      · rfl

/-- A word is read back. -/
theorem readSingle_word {w : List Char} (hgap : ∀ c ∈ w, isGapChar c = false)
    (hplain : ∀ c ∈ w, isPlainChar c = true) (cs : List Char) :
    readSingle .empty (doubleQuotes w ++ cs) =
      behind .empty (w.map .char) (readSingle .empty cs) := by
  induction w with
  | nil => cases hr : readSingle .empty cs <;> simp [doubleQuotes, behind, Gap.chars, hr]
  | cons c w ih =>
    have ih := ih (fun d hd => hgap d (List.mem_cons_of_mem c hd))
      fun d hd => hplain d (List.mem_cons_of_mem c hd)
    have hcons : doubleQuotes (c :: w) =
        (if c == '\'' then ['\'', '\''] else [c]) ++ doubleQuotes w := rfl
    have hsplit := behind_behind .empty [.char c] (w.map .char) (readSingle .empty cs)
    rw [hcons, List.append_assoc, List.map_cons, List.cons_append, List.nil_append] at *
    rw [← hsplit, ← ih]
    by_cases hquote : c = '\''
    · subst hquote
      exact readSingle_quote .empty _
    · simp only [beq_iff_eq, hquote, if_false]
      exact readSingle_char (hgap c List.mem_cons_self) hquote (hplain c List.mem_cons_self) _ _

/-- Behind a gap comes a word or the closing quote. -/
theorem head_singleFrom (place : Place) (column : Nat) (first : Bool) {ks : List Chunk}
    (hruns : ∀ k ∈ ks, k.IsRun) (hhead : ∀ k ∈ ks.head?, ∃ w, k = .word w) (rest : List Char) :
    ∀ c ∈ (singleFrom place column first ks ++ '\'' :: rest).head?, isGapChar c = false := by
  cases ks with
  | nil =>
    rintro c ⟨⟩
    decide
  | cons k ks =>
    obtain ⟨w, rfl⟩ := hhead k rfl
    obtain ⟨hne, hgap⟩ := hruns _ List.mem_cons_self
    obtain ⟨c, w, rfl⟩ := List.exists_cons_of_ne_nil hne
    by_cases hquote : c = '\''
    · subst hquote
      rintro c ⟨⟩
      decide
    · have hform : doubleQuotes (c :: w) = c :: doubleQuotes w := by simp [doubleQuotes, hquote]
      rw [singleFrom, hform]
      rintro d ⟨⟩
      exact hgap c List.mem_cons_self

/-- A text without next-line characters is read back from single quotes. -/
theorem readSingle_singleFrom {place : Place} (hindent : 0 < place.indent) {ks : List Chunk}
    (hruns : ∀ k ∈ ks, k.IsRun) (hspaced : IsSpaced ks)
    (hplain : ∀ c ∈ ks.flatMap Chunk.chars, isPlainChar c = true)
    (hnext : '\u0085' ∉ ks.flatMap Chunk.chars) {rest : List Char}
    (hrest : rest.head? ≠ some '\'') (column : Nat) (first : Bool) :
    readSingle .empty (singleFrom place column first ks ++ '\'' :: rest) =
      some ((ks.flatMap Chunk.chars).map .char, rest) := by
  induction ks generalizing column first with
  | nil => exact readSingle_close hrest .empty
  | cons k ks ih =>
    rw [List.forall_mem_cons] at hruns
    rw [List.flatMap_cons, List.forall_mem_append] at hplain
    rw [List.flatMap_cons, List.mem_append, not_or] at hnext
    have ih := ih hruns.2 hspaced.tail hplain.2 hnext.2
    obtain ⟨m, hm⟩ : ∃ m, place.indent = m + 1 := ⟨place.indent - 1, by omega⟩
    -- A gap is read as the chunk that it was written for, and so is what follows it.
    have hgap {ms : List Char} {column : Nat} {first : Bool}
        (hms : ∀ c ∈ ms, isGapChar c = true)
        (hchars : ((ms ++ [' ']).foldl Gap.push .empty).chars = k.chars)
        (hhead : ∀ k ∈ ks.head?, ∃ w, k = .word w) :
        readSingle .empty ((ms ++ [' ']) ++ singleFrom place column first ks ++ '\'' :: rest) =
          some (((k :: ks).flatMap Chunk.chars).map .char, rest) := by
      rw [List.append_assoc, List.append_assoc, List.singleton_append, readSingle_gap hms,
        readSingle_behind _ (head_singleFrom place column first hruns.2 hhead rest), ih,
        behind_some, hchars]
      simp
    cases k with
    | word w =>
      rw [singleFrom, List.append_assoc, readSingle_word hruns.1.2 hplain.1, ih]
      simp [behind_some, Gap.chars, Chunk.chars]
    | blanks n =>
      obtain ⟨n, rfl⟩ : ∃ j, n = j + 1 := Nat.exists_eq_succ_of_ne_zero (Nat.ne_of_gt hruns.1)
      rw [singleFrom]
      split
      · next hfold =>
        have hline : newLine place.indent = '\n' :: List.replicate m ' ' ++ [' '] := by
          rw [newLine, hm, List.replicate_succ', List.cons_append]
        rw [hline]
        refine hgap isGapChar_of_mem_newLine ?_ hspaced.1
        rw [← hline, Gap.foldl_push_newLine, hfold.1]
        rfl
      · rw [List.replicate_succ']
        refine hgap isGapChar_of_mem_blanks ?_ hspaced.1
        rw [← List.replicate_succ', Gap.foldl_push_blanks]
        rfl
    | breaks ms =>
      have hform : quotedBreaks place.indent ms = quotedBreaks m ms ++ [' '] := by
        unfold quotedBreaks
        rw [hm, List.replicate_succ', ← List.append_assoc]
      rw [singleFrom, hform]
      refine hgap (fun c => isGapChar_of_mem_quotedBreaks hruns.1.2) ?_ hspaced.1
      rw [← hform]
      exact Gap.chars_quotedBreaks place.indent hruns.1.1 hruns.1.2 hnext.1

/-! ## Escapes -/

/-- The upper-case hexadecimal digits of a number write it. -/
theorem hexNumber?_upper (n : Nat) :
    Literal.hexNumber? ((Nat.toDigits 16 n).map Char.toUpper) 0 = some n := by
  have hone {d : Nat} (hd : d < 16) (n : Nat) :
      Literal.hexNumber? [(Nat.digitChar d).toUpper] n = some (16 * n + d) := by
    have hvalue : ∀ d < 16, Json.hexValue? (Nat.digitChar d).toUpper = some d := by decide
    simp [Literal.hexNumber?, hvalue d hd]
  induction n using Nat.strong_induction_on with
  | h n ih =>
    rcases Nat.lt_or_ge n 16 with hn | hn
    · rw [Nat.toDigits_of_lt_base hn, List.map_singleton, hone hn, Nat.mul_zero, Nat.zero_add]
    · have hdiv : n / 16 < n := Nat.div_lt_self (by omega) (by decide)
      rw [Nat.toDigits_of_base_le (by decide) hn, List.map_append, List.map_singleton,
        Literal.hexNumber?_append, ih _ hdiv, Option.bind_some, hone (Nat.mod_lt n (by decide)),
        Nat.div_add_mod]

theorem hexNumber?_hexDigits (width n : Nat) :
    Literal.hexNumber? (hexDigits width n) 0 = some n := by
  rw [hexDigits, Literal.hexNumber?_zeros, hexNumber?_upper]

theorem length_hexDigits {width n : Nat} (hwidth : 0 < width) (h : n < 16 ^ width) :
    (hexDigits width n).length = width := by
  have hlength := (Nat.length_toDigits_le_iff (by decide) hwidth).2 h
  rw [hexDigits, List.length_append, List.length_replicate, List.length_map]
  omega

/-- The digits of a code point are read. -/
theorem readDouble_code {ds : List Char} {n : Nat} (hlimit : n < 0x110000) (cs : List Char)
    {left value : Nat} (hlength : ds.length = left + 1)
    (hvalue : Literal.hexNumber? ds value = some n) :
    readDouble (.code left value) (ds ++ cs) =
      behind .empty [Json.unitSymbol n] (readDouble (.text .empty) cs) := by
  induction ds generalizing left value with
  | nil => cases hlength
  | cons d ds ih =>
    rw [Literal.hexNumber?, List.foldlM_cons] at hvalue
    cases hd : Json.hexValue? d with
    | none => simp [hd] at hvalue
    | some v =>
      rw [hd, Option.map_some] at hvalue
      have hrest : Literal.hexNumber? ds (16 * value + v) = some n := hvalue
      rw [List.cons_append, readDouble, hd]
      cases left with
      | zero =>
        obtain rfl : ds = [] := List.length_eq_zero_iff.1 (Nat.succ.inj hlength)
        obtain rfl : 16 * value + v = n := Option.some.inj hrest
        simp [hlimit]
      | succ left => exact ih (Nat.succ.inj hlength) hrest

theorem readDouble_backslash (g : Gap) (cs : List Char) :
    readDouble (.text g) ('\\' :: cs) = behind g [] (readDouble .escape cs) := rfl

/-- An escape by a code point is read. -/
theorem readDouble_codeEscape {mark : Char} {width n : Nat}
    (hmark : Literal.digitCount? mark = some width) (hwidth : 0 < width) (h : n < 16 ^ width)
    (hlimit : n < 0x110000) (cs : List Char) :
    readDouble (.text .empty) ('\\' :: mark :: (hexDigits width n ++ cs)) =
      behind .empty [Json.unitSymbol n] (readDouble (.text .empty) cs) := by
  have hbreak : isBreak mark = false ∧ escapeMeanings.lookup mark = none := by
    unfold Literal.digitCount? at hmark
    split at hmark
    · decide
    · decide
    · decide
    · cases hmark
  obtain ⟨left, rfl⟩ : ∃ left, width = left + 1 := ⟨width - 1, by omega⟩
  rw [readDouble_backslash, readDouble]
  simp only [hbreak.1, Bool.false_eq_true, if_false, hbreak.2, hmark, Nat.add_sub_cancel]
  rw [readDouble_code hlimit cs (length_hexDigits hwidth h) (hexNumber?_hexDigits _ n),
    behind_behind, List.nil_append]

/-- A one-letter escape is read. -/
theorem readDouble_shortEscape {c e : Char} (h : shortEscapes.lookup c = some e)
    (cs : List Char) :
    readDouble (.text .empty) ('\\' :: e :: cs) =
      behind .empty [.char c] (readDouble (.text .empty) cs) := by
  have hall : ∀ p ∈ shortEscapes,
      isBreak p.2 = false ∧ escapeMeanings.lookup p.2 = some p.1 := by decide
  obtain ⟨before, after, hmem, -⟩ := List.lookup_eq_some_iff.1 h
  obtain ⟨hbreak, hmeaning⟩ := hall (c, e) (by rw [hmem]; simp)
  rw [readDouble_backslash, readDouble]
  simp only [hbreak, Bool.false_eq_true, if_false, hmeaning]
  rw [behind_behind, List.nil_append]

/-- The escape of a symbol is read back. -/
theorem readDouble_symbolForm {s : Symbol} (hshown : isShown s = false) (cs : List Char) :
    readDouble (.text .empty) (symbolForm s ++ cs) =
      behind .empty [s] (readDouble (.text .empty) cs) := by
  cases s with
  | half s =>
    have hsymbol : Json.unitSymbol s.unit = .half s := dif_pos s.isHalf
    have hbound := Json.unit_lt s
    rw [symbolForm, List.cons_append, List.cons_append,
      readDouble_codeEscape rfl (by decide) hbound (by omega) cs, hsymbol]
  | char c =>
    have hvalid : c.toNat < 0xD800 ∨ 0xDFFF < c.toNat ∧ c.toNat < 0x110000 := c.valid
    have hsymbol : Json.unitSymbol c.toNat = .char c := by
      rw [Json.unitSymbol, dif_neg (by omega), Char.ofNat_toNat]
    have hlimit : c.toNat < 0x110000 := by omega
    rw [symbolForm, if_neg (by simpa [isShown] using hshown), escape]
    split
    · next e he => exact readDouble_shortEscape he cs
    · split
      · next hsmall =>
        rw [List.cons_append, List.cons_append,
          readDouble_codeEscape rfl (by decide) (by omega) hlimit cs, hsymbol]
      · split
        · next hmiddle =>
          rw [List.cons_append, List.cons_append,
            readDouble_codeEscape rfl (by decide) (by omega) hlimit cs, hsymbol]
        · rw [List.cons_append, List.cons_append,
            readDouble_codeEscape rfl (by decide) (by omega) hlimit cs, hsymbol]

/-! ## Double quotes -/

theorem readDouble_blank (g : Gap) (cs : List Char) :
    readDouble (.text g) (' ' :: cs) = readDouble (.text (g.push ' ')) cs := rfl

theorem readDouble_char {c : Char} (h : isGapChar c = false) (hquote : c ≠ '"')
    (hback : c ≠ '\\') (hplain : isPlainChar c = true) (g : Gap) (cs : List Char) :
    readDouble (.text g) (c :: cs) = behind g [.char c] (readDouble (.text .empty) cs) := by
  rw [readDouble]
  simp only [h, Bool.false_eq_true, if_false, beq_iff_eq, hquote, hback, hplain, if_true]

/-- What a gap stands for comes in front of what is read behind it. -/
theorem readDouble_behind (g : Gap) {cs : List Char} (h : ∀ c ∈ cs.head?, isGapChar c = false) :
    readDouble (.text g) cs = behind g [] (readDouble (.text .empty) cs) := by
  cases cs with
  | nil => rfl
  | cons c cs =>
    have hc := h c rfl
    rw [readDouble, readDouble]
    simp only [hc, Bool.false_eq_true, if_false]
    split
    · simp [behind_some, Gap.chars]
    · split
      · rw [behind_behind, List.nil_append]
      · split
        · rw [behind_behind, List.nil_append]
        · rfl

/-- The blanks of an indentation are read as a gap. -/
theorem readDouble_indent (first : Option Char) (more : List Char) (k n : Nat) (cs : List Char) :
    readDouble (.text (.lines first more k)) (List.replicate n ' ' ++ cs) =
      readDouble (.text (.lines first more (k + n))) cs := by
  induction n generalizing k with
  | zero => rfl
  | succ n ih =>
    have hpush : Gap.push (.lines first more k) ' ' = .lines first more (k + 1) := rfl
    rw [List.replicate_succ, List.cons_append, readDouble_blank, hpush, ih, Nat.add_right_comm,
      Nat.add_assoc]

/-- A backslash takes the line break and the indentation behind it away. -/
theorem readDouble_joint {indent : Nat} (hindent : 0 < indent) (g : Gap) (cs : List Char) :
    readDouble (.text g) ('\\' :: (newLine indent ++ cs)) =
      behind g [] (readDouble (.text (.lines none [] indent)) cs) := by
  obtain ⟨m, rfl⟩ : ∃ m, indent = m + 1 := ⟨indent - 1, by omega⟩
  have hmarker : isMarker (List.replicate (m + 1) ' ' ++ cs) = false :=
    isMarker_of_isGapChar isGapChar_blank _
  rw [readDouble_backslash, newLine, List.cons_append, readDouble, if_pos (by decide), hmarker,
    if_neg Bool.false_ne_true, readDouble_indent, Nat.zero_add]

/-- A blank behind a backslash stands for itself. -/
theorem readDouble_markedBlank (g : Gap) (cs : List Char) :
    readDouble (.text g) ('\\' :: ' ' :: cs) =
      behind g [.char ' '] (readDouble (.text .empty) cs) := by
  rw [readDouble_backslash, readDouble]
  exact behind_behind g [] [.char ' '] _

/-- What double quotes show as it is has no other meaning there. -/
theorem of_isShownInDouble {c : Char} (h : isShownInDouble c = true) :
    c ≠ '"' ∧ c ≠ '\\' ∧ isPlainChar c = true ∧ isBreak c = false := by
  simp only [isShownInDouble, Bool.and_eq_true, Bool.or_eq_true, bne_iff_ne, ne_eq,
    decide_eq_true_eq] at h
  obtain ⟨⟨⟨⟨⟨hquote, hback⟩, hline⟩, hparagraph⟩, hmark⟩, hrange⟩ := h
  refine ⟨hquote, hback, ?_, ?_⟩
  · simp only [isPlainChar, Bool.and_eq_true, Bool.or_eq_true, bne_iff_ne, ne_eq, beq_iff_eq,
      decide_eq_true_eq]
    omega
  · have hne {d : Char} (hd : c.toNat ≠ d.toNat) : (c == d) = false := by
      simpa using fun heq => hd (congrArg Char.toNat heq)
    have hbreaks : c.toNat ≠ '\n'.toNat ∧ c.toNat ≠ '\u0085'.toNat := by
      constructor <;> intro heq <;> rw [heq] at hrange <;> revert hrange <;> decide
    simp [isBreak, hne hbreaks.1, hne hbreaks.2, hne (d := '\u2028') hline,
      hne (d := '\u2029') hparagraph]

/-- No line that a scalar is folded to begins beyond the width of lines. -/
def Place.isNarrow (place : Place) : Bool :=
  !place.folds || place.indent < lineWidth

/-- The text in double quotes folds without loss: its lines begin within their width, or no blank
but the last symbol stands behind an escape other than the first. -/
def foldsSafely (place : Place) (ss : List Symbol) : Bool :=
  place.isNarrow || !hasNeighbours (fun s => !isShown s) isBlank (ss.drop 1).dropLast

/-- The step of the writer at a symbol that is shown: a fold comes in front of it where its line is
full. -/
theorem doubleFrom_shown (place : Place) (column : Nat) (first loose : Bool) {s : Symbol}
    (h : isShown s = true) (ss : List Symbol) :
    ∃ fold start, doubleFrom place column first loose (s :: ss) =
        fold ++ symbolForm s ++ doubleFrom place start false false ss ∧
      (fold = [] ∨ fold = (doubleFold place.indent (isBlank s)).1) ∧
      (place.folds = false ∨ column ≤ lineWidth ∨ ss = [] → fold = []) := by
  rw [doubleFrom]
  simp only [h, if_true]
  split
  · next hfold =>
    refine ⟨_, _, rfl, .inr rfl, ?_⟩
    simp only [Bool.and_eq_true, decide_eq_true_eq] at hfold
    rintro (hfolds | hcolumn | rfl)
    · simp [hfolds] at hfold
    · omega
    · simp at hfold
  · exact ⟨[], _, rfl, .inl rfl, fun _ => rfl⟩

/-- The step of the writer at an escape: a fold comes behind it where its line is full. -/
theorem doubleFrom_escaped (place : Place) (column : Nat) (first loose : Bool) {s : Symbol}
    (h : isShown s = false) (ss : List Symbol) :
    ∃ fold start, doubleFrom place column first loose (s :: ss) =
        symbolForm s ++ fold ++ doubleFrom place start false true ss ∧
      (fold = [] ∨ first = false ∧
        (fold, start) = doubleFold place.indent (ss.head?.any isBlank)) := by
  rw [doubleFrom]
  simp only [h, Bool.false_eq_true, if_false]
  split
  · next hfold =>
    refine ⟨_, _, rfl, .inr ⟨?_, rfl⟩⟩
    simp only [Bool.and_eq_true, Bool.not_eq_true'] at hfold
    exact hfold.1.1.1
  · exact ⟨[], _, rfl, .inl rfl⟩

/-- A gap inside double quotes that loses nothing of the blanks behind it: none, or blanks, or a
joint where no blank follows. -/
def Gap.IsPending (blankNext : Bool) : Gap → Prop
  | .empty | .blanks _ => True
  | .lines none [] _ => blankNext = false
  | _ => False

/-- A symbol that is shown is read back, whatever gap it follows. -/
theorem readDouble_shown {indent : Nat} (hindent : 0 < indent) {c : Char}
    (hc : isShownInDouble c = true) {fold : List Char}
    (hfold : fold = [] ∨ fold = (doubleFold indent (isBlank (.char c))).1) {g : Gap}
    (hg : g.IsPending (isBlank (.char c))) {cs : List Char} {ss : List Symbol} {rest : List Char}
    (hcs : ∀ g : Gap, g.IsPending true →
      readDouble (.text g) cs = some (g.chars.map .char ++ ss, rest)) :
    readDouble (.text g) (fold ++ c :: cs) =
      some (g.chars.map .char ++ .char c :: ss, rest) := by
  obtain ⟨hquote, hback, hplain, hbreak⟩ := of_isShownInDouble hc
  have hempty := hcs .empty trivial
  by_cases hblank : c = ' '
  · subst hblank
    rcases hfold with rfl | rfl
    · -- A blank joins the gap in front of it.
      have hpush : (g.push ' ').IsPending true ∧ (g.push ' ').chars = g.chars ++ [' '] := by
        cases g with
        | empty => exact ⟨trivial, rfl⟩
        | blanks n => exact ⟨trivial, List.replicate_succ'⟩
        | lines first more k =>
          cases first <;> cases more <;> cases hg
      rw [List.nil_append, readDouble_blank, hcs _ hpush.1, hpush.2]
      simp
    · have hform : (doubleFold indent (isBlank (.char ' '))).1 ++ ' ' :: cs =
          '\\' :: (newLine indent ++ '\\' :: ' ' :: cs) := by
        simp [doubleFold, isBlank]
      rw [hform, readDouble_joint hindent, readDouble_markedBlank, hempty, behind_some, behind_some]
      simp [Gap.chars]
  · have hgap : isGapChar c = false := by simp [isGapChar, hblank, hbreak]
    have hnot : isBlank (.char c) = false := by simpa [isBlank] using hblank
    rcases hfold with rfl | rfl
    · rw [List.nil_append, readDouble_char hgap hquote hback hplain, hempty, behind_some]
      simp [Gap.chars]
    · have hform : (doubleFold indent (isBlank (.char c))).1 ++ c :: cs =
          '\\' :: (newLine indent ++ c :: cs) := by
        simp [doubleFold, hnot]
      rw [hform, readDouble_joint hindent, readDouble_char hgap hquote hback hplain, hempty,
        behind_some, behind_some]
      simp [Gap.chars]

theorem Gap.isPending_mono {g : Gap} (h : g.IsPending true) (blankNext : Bool) :
    g.IsPending blankNext := by
  cases g with
  | empty | blanks => trivial
  | lines first more k => cases first <;> cases more <;> cases h

theorem exists_symbolForm {s : Symbol} (h : isShown s = false) :
    ∃ cs, symbolForm s = '\\' :: cs := by
  cases s with
  | half unit => exact ⟨_, rfl⟩
  | char c =>
    rw [symbolForm, if_neg (by simpa [isShown] using h), escape]
    split
    · exact ⟨_, rfl⟩
    · split
      · exact ⟨_, rfl⟩
      · split <;> exact ⟨_, rfl⟩

/-- An escape is read back, whatever gap it follows. -/
theorem readDouble_escaped (g : Gap) {s : Symbol} (hshown : isShown s = false) (cs : List Char) :
    readDouble (.text g) (symbolForm s ++ cs) = behind g [s] (readDouble (.text .empty) cs) := by
  have hhead : ∀ c ∈ (symbolForm s ++ cs).head?, isGapChar c = false := by
    obtain ⟨form, hform⟩ := exists_symbolForm hshown
    rw [hform]
    rintro c ⟨⟩
    decide
  rw [readDouble_behind g hhead, readDouble_symbolForm hshown, behind_behind, List.nil_append]

/-- The symbols behind the first one fold without loss when all do. -/
theorem hasNeighbours_dropLast_tail {α : Type} {p q : α → Bool} {a : α} {as : List α}
    (h : hasNeighbours p q (a :: as).dropLast = false) : hasNeighbours p q as.dropLast = false := by
  cases as with
  | nil => rfl
  | cons b as => exact hasNeighbours_tail h

/-- A blank behind a folded escape has a backslash of its own and is read back with the fold, if no
further fold stands between them. -/
theorem readDouble_foldedBlank {place : Place} (hindent : 0 < place.indent) {ss : List Symbol}
    (hnofold : place.folds = false ∨ place.indent + 1 ≤ lineWidth ∨ ss = []) {rest : List Char}
    (hread : ∀ column, readDouble (.text .empty) (doubleFrom place column false false ss ++
      '"' :: rest) = some (ss, rest)) :
    readDouble (.text .empty) ('\\' :: (newLine place.indent ++ ['\\']) ++
      (doubleFrom place (place.indent + 1) false true (.char ' ' :: ss) ++ '"' :: rest)) =
      some (.char ' ' :: ss, rest) := by
  obtain ⟨fold, start, hform, -, hnone⟩ :=
    doubleFrom_shown place (place.indent + 1) false true (s := .char ' ') (by decide) ss
  have hsymbol : symbolForm (.char ' ') = [' '] := by decide
  rw [hform, hnone hnofold, hsymbol, List.nil_append, List.singleton_append,
    List.cons_append, List.append_assoc, readDouble_joint hindent, List.singleton_append,
    List.cons_append, readDouble_markedBlank, hread, behind_some, behind_some]
  simp [Gap.chars]

/-- No fold stands between a folded escape and the blank behind it, if folding loses no blank. -/
theorem noFold_of_safe {place : Place} {s : Symbol} (hshown : isShown s = false) {ss : List Symbol}
    (hsafe : place.isNarrow = true ∨ hasNeighbours (fun s => !isShown s) isBlank
      (s :: .char ' ' :: ss).dropLast = false) :
    place.folds = false ∨ place.indent + 1 ≤ lineWidth ∨ ss = [] := by
  rcases hsafe with hnarrow | hneighbours
  · rw [Place.isNarrow, Bool.or_eq_true, Bool.not_eq_true', decide_eq_true_eq] at hnarrow
    exact hnarrow.imp_right .inl
  · cases ss with
    | nil => exact .inr (.inr rfl)
    | cons t ss => simp [hasNeighbours, hshown, isBlank] at hneighbours

/-- Symbols are read back from double quotes, unless the folding loses a blank of them. The
induction is on their number, as a blank behind a folded escape is read together with it. -/
theorem readDouble_doubleFrom_of_length {place : Place} (hindent : 0 < place.indent)
    {rest : List Char} (n : Nat) {ss : List Symbol} (hlength : ss.length = n)
    (column : Nat) (first loose : Bool)
    (hsafe : place.isNarrow = true ∨ hasNeighbours (fun s => !isShown s) isBlank
      (ss.drop first.toNat).dropLast = false)
    {g : Gap} (hg : g.IsPending (ss.head?.any isBlank)) :
    readDouble (.text g) (doubleFrom place column first loose ss ++ '"' :: rest) =
      some (g.chars.map .char ++ ss, rest) := by
  induction n using Nat.strong_induction_on generalizing ss column first loose g with
  | h n hall =>
  cases ss with
  | nil => simp [doubleFrom, readDouble, show isGapChar '"' = false by decide]
  | cons s ss =>
    rw [List.length_cons] at hlength
    have hsafe' : place.isNarrow = true ∨
        hasNeighbours (fun s => !isShown s) isBlank ss.dropLast = false := by
      refine hsafe.imp_right fun h => ?_
      cases first with
      | true => exact h
      | false => exact hasNeighbours_dropLast_tail h
    have ih (column : Nat) (loose : Bool) {g : Gap} (hg : g.IsPending (ss.head?.any isBlank)) :
        readDouble (.text g) (doubleFrom place column false loose ss ++ '"' :: rest) =
          some (g.chars.map .char ++ ss, rest) :=
      hall ss.length (by omega) rfl column false loose hsafe' hg
    cases hshown : isShown s with
    | true =>
      obtain ⟨c, rfl⟩ : ∃ c, s = .char c := by
        cases s with
        | char c => exact ⟨c, rfl⟩
        | half unit => cases hshown
      have hc : isShownInDouble c = true := hshown
      have hsymbol : symbolForm (.char c) = [c] := if_pos hc
      obtain ⟨fold, start, hform, hfold, -⟩ :=
        doubleFrom_shown place column first loose hshown ss
      rw [hform, hsymbol, List.append_assoc, List.append_assoc, List.singleton_append]
      exact readDouble_shown hindent hc hfold hg fun g hg => ih start false (g.isPending_mono hg _)
    | false =>
      obtain ⟨fold, start, hform, hfold⟩ :=
        doubleFrom_escaped place column first loose hshown ss
      rw [hform, List.append_assoc, List.append_assoc, readDouble_escaped g hshown]
      rcases hfold with rfl | ⟨rfl, hfold⟩
      · rw [List.nil_append, ih start true (g := .empty) trivial, behind_some]
        simp [Gap.chars]
      · cases hnext : ss.head?.any isBlank with
        | false =>
          rw [hnext] at hfold ih
          obtain ⟨rfl, rfl⟩ := Prod.mk.inj hfold
          have hjoint : (Gap.lines none [] place.indent).IsPending false := rfl
          rw [List.cons_append, readDouble_joint hindent, ih _ true hjoint, behind_some,
            behind_some]
          simp [Gap.chars]
        | true =>
          rw [hnext] at hfold
          obtain ⟨rfl, rfl⟩ := Prod.mk.inj hfold
          obtain ⟨b, ss, rfl⟩ : ∃ b ss', ss = b :: ss' := by
            cases ss with
            | nil => cases hnext
            | cons b ss => exact ⟨b, ss, rfl⟩
          obtain rfl : b = .char ' ' := by simpa [isBlank] using hnext
          have hread (column : Nat) := hall ss.length (by simp at hlength; omega) rfl column false
            false (hsafe'.imp_right hasNeighbours_dropLast_tail) (g := .empty) trivial
          rw [readDouble_foldedBlank hindent (noFold_of_safe hshown hsafe) hread, behind_some]
          simp

/-- What is written in double quotes is read back, unless the folding loses a blank of it. -/
theorem readDouble_doubleFrom {place : Place} (hindent : 0 < place.indent) {ss : List Symbol}
    (hsafe : foldsSafely place ss = true) (column : Nat) (rest : List Char) :
    readDouble (.text .empty) (doubleFrom place column true true ss ++ '"' :: rest) =
      some (ss, rest) := by
  refine readDouble_doubleFrom_of_length hindent ss.length rfl column true true ?_ trivial
  simpa [foldsSafely] using hsafe

end Nanoservice.Yaml
