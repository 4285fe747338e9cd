import Nanoservice.Proofs.Yaml.Plain
import Nanoservice.Yaml.Tree

/-!
# Scalars and keys read back

The scalar of a text is read back as the text, in whichever form it is written
(`readScalar_scalar`), unless it cannot be: `isLegibleText` says when. What follows a scalar must
end it (`Ends`), as a colon and the end of a line do. From this come the two ways to write a key,
on the line of its colon (`readShortKey?_rawScalar`) and behind a mark (`readLongKey?_rawScalar`).
-/

namespace Nanoservice.Yaml

variable {least : Nat} {place : Place} {rest left : List Char} {gap : Gap}

/-! ## What follows a scalar -/

/-- A text that ends a scalar in front of it; it begins with a gap, behind which `left` stands. -/
structure Ends (least : Nat) (rest : List Char) (gap : Gap) (left : List Char) : Prop where
  plain : readPlain least .empty rest = ([], gap, left)
  gap : takeGap rest = (gap, left)
  head : ∀ c ∈ rest.head?, c ≠ '\'' ∧ c ≠ '-' ∧ c ≠ '.'

/-- A token starts at the front of a text, or the text is over. -/
def StartsToken (cs : List Char) : Prop :=
  ∀ c ∈ cs.head?, isGapChar c = false

theorem takeGap_append {ms : List Char} (hms : ∀ c ∈ ms, isGapChar c = true)
    (hleft : StartsToken left) : takeGap (ms ++ left) = (ms.foldl Gap.push .empty, left) := by
  rw [takeGap, List.takeWhile_append_of_pos hms, List.dropWhile_append_of_pos hms]
  cases left with
  | nil => simp
  | cons c cs => simp [hleft c rfl]

theorem takeGap_newLine (k : Nat) (hleft : StartsToken left) :
    takeGap (newLine k ++ left) = (.lines (some '\n') [] k, left) := by
  rw [takeGap_append isGapChar_of_mem_newLine hleft, Gap.foldl_push_newLine]

/-- A colon behind a scalar ends it. -/
theorem ends_colon (least : Nat) {cs : List Char} (h : endsWord cs = true) :
    Ends least (':' :: cs) .empty (':' :: cs) where
  plain := by
    rw [readPlain, if_neg (by decide), if_pos (by simp [h])]
  gap := takeGap_append (List.forall_mem_nil _) (by rintro c ⟨⟩; decide)
  head := by
    rintro c ⟨⟩
    decide

/-- A line break ends a scalar when the next line is indented less than the lines of the scalar. -/
theorem ends_newLine {k : Nat} (hk : k < least) (hleft : StartsToken left) :
    Ends least (newLine k ++ left) (.lines (some '\n') [] k) left where
  plain := by
    rw [readPlain_gap isGapChar_of_mem_newLine, Gap.foldl_push_newLine]
    cases left with
    | nil => rfl
    | cons c cs =>
      have houtside : (Gap.lines (some '\n') [] k).isOutside least = true := by
        simpa [Gap.isOutside] using hk
      rw [readPlain, if_neg (by simp [hleft c rfl]), if_pos (by simp [houtside])]
  gap := takeGap_newLine k hleft
  head := by
    rintro c ⟨⟩
    decide

/-! ## Unquoted scalars -/

/-- What a text stands for that is read without quotes. -/
theorem readScalar_of_startsPlain {cs : List Char} (h : startsPlain cs = true) :
    readScalar least cs =
      (resolve (readPlain least .empty cs).1).map fun v => (v, (readPlain least .empty cs).2) := by
  unfold readScalar
  split
  · cases h
  · cases h
  · rw [if_pos h]

/-- An unquoted scalar stands for what its text does. -/
theorem readScalar_plainFrom {cs : List Char} (h : allowsPlain cs = true) (hne : cs ≠ [])
    (hleast : least ≤ place.indent) (hrest : Ends least rest gap left) (column : Nat) :
    readScalar least (plainFrom place column (chunks cs) ++ rest) =
      (resolve cs).map fun v => (v, gap, left) := by
  have hbare := isBare_of_allowsPlain h
  rw [readScalar_of_startsPlain (hbare.startsPlain hne (fun c hc => (hrest.head c hc).2) column),
    hbare.readPlain hleast hrest.plain column]

/-- A word that can stand without quotes. -/
def isBareWord (cs : List Char) : Bool :=
  !cs.isEmpty && allowsPlain cs && cs.all (!isGapChar ·)

theorem chunks_word {w : List Char} (hne : w ≠ []) (hgap : ∀ c ∈ w, isGapChar c = false) :
    chunks w = [.word w] := by
  induction w with
  | nil => exact absurd rfl hne
  | cons c w ih =>
    rw [List.forall_mem_cons, isGapChar, Bool.or_eq_false_iff] at hgap
    rw [chunks, List.foldr_cons, ← chunks]
    cases w with
    | nil => simp [chunks, pushChunk, hgap.1]
    | cons d w =>
      rw [ih (List.cons_ne_nil d w) hgap.2]
      simp [pushChunk, hgap.1]

/-- A word without quotes stands for what it means. -/
theorem readScalar_word {w : List Char} (h : isBareWord w = true)
    (hrest : Ends least rest gap left) :
    readScalar least (w ++ rest) = (resolve w).map fun v => (v, gap, left) := by
  simp only [isBareWord, Bool.and_eq_true, Bool.not_eq_true', List.isEmpty_eq_false_iff,
    List.all_eq_true] at h
  obtain ⟨⟨hne, hplain⟩, hgap⟩ := h
  have hform : plainFrom ⟨0, least, true⟩ 0 (chunks w) = w := by
    rw [chunks_word hne hgap, plainFrom, plainFrom, List.append_nil]
  have hread : readScalar least (plainFrom ⟨0, least, true⟩ 0 (chunks w) ++ rest) = _ :=
    readScalar_plainFrom hplain hne (Nat.le_refl least) hrest 0
  rwa [hform] at hread

/-! ## Texts -/

/-- The text is read back from its scalar: no next-line character of it stands in single quotes, and
it folds without loss in double quotes. -/
def isLegibleText (isKey : Bool) (place : Place) (s : String) : Bool :=
  match formOf isKey s with
  | .plain => true
  | .single => !s.toList.contains '\u0085'
  | .double => foldsSafely place (s.toList.map .char)

theorem resolve_text {s : String} (h : meansItself s = true) :
    resolve s.toList = some (.str s) := by
  simp only [resolve, String.ofList_toList, h, if_true]

/-- An unquoted text means itself and can stand without quotes. -/
theorem of_formOf_plain {isKey : Bool} {s : String} (h : formOf isKey s = .plain) :
    meansItself s = true ∧ allowsPlain s.toList = true := by
  simp only [formOf] at h
  split at h
  · next hcond =>
    rw [Bool.and_eq_true, Bool.and_eq_true] at hcond
    exact ⟨hcond.1.1, hcond.2⟩
  · split at h <;> cases h

theorem of_formOf_single {isKey : Bool} {s : String} (h : formOf isKey s = .single) :
    allowsSingleQuotes s.toList = true ∧ (isKey = true → isMultiline s.toList = false) := by
  simp only [formOf] at h
  split at h
  · cases h
  · split at h
    · next hcond =>
      rw [Bool.and_eq_true, Bool.not_eq_true', Bool.and_eq_false_iff] at hcond
      exact ⟨hcond.1, fun hkey => hcond.2.resolve_left (by simp [hkey])⟩
    · cases h

theorem ne_nil_of_meansItself {s : String} (h : meansItself s = true) : s.toList ≠ [] := by
  intro hnil
  obtain rfl : s = "" := by rw [← String.ofList_toList (s := s), hnil]
  revert h
  decide

/-- Symbols in double quotes are read back. -/
theorem readScalar_doubleQuoted {ss : List Symbol} (hsafe : foldsSafely place ss = true)
    (hindent : 0 < place.indent) (hrest : Ends least rest gap left) :
    readScalar least (doubleQuoted place ss ++ rest) =
      some (.ofText (.ofSymbols ss), gap, left) := by
  rw [doubleQuoted, List.cons_append, List.append_assoc, List.singleton_append, readScalar,
    readDouble_doubleFrom hindent hsafe]
  simp only [Option.map_some, hrest.gap]

/-- The scalar of a text is read back as the text. -/
theorem readScalar_scalar {isKey : Bool} {s : String} (h : isLegibleText isKey place s = true)
    (hindent : 0 < place.indent) (hleast : least ≤ place.indent)
    (hrest : Ends least rest gap left) :
    readScalar least (scalar isKey place s ++ rest) = some (.str s, gap, left) := by
  have htext : Json.ofText (.ofSymbols (s.toList.map .char)) = .str s := by
    rw [RawText.ofSymbols_map_char, String.ofList_toList, Json.ofText]
  unfold isLegibleText at h
  unfold scalar
  cases hform : formOf isKey s with
  | plain =>
    obtain ⟨hself, hplain⟩ := of_formOf_plain hform
    have hne := ne_nil_of_meansItself hself
    exact (readScalar_plainFrom hplain hne hleast hrest place.column).trans
      (by rw [resolve_text hself, Option.map_some])
  | single =>
    obtain ⟨hsingle, -⟩ := of_formOf_single hform
    simp only [allowsSingleQuotes, Bool.and_eq_true, Bool.not_eq_true', List.all_eq_true] at hsingle
    obtain ⟨⟨hplain, hbreaks⟩, hblanks⟩ := hsingle
    have hchars := flatMap_chars_chunks s.toList
    have hnext : '\u0085' ∉ s.toList := by simpa [hform] using h
    have hquote : rest.head? ≠ some '\'' := fun hhead => (hrest.head _ hhead).1 rfl
    have hread := readSingle_singleFrom hindent (isRun_of_mem_chunks s.toList)
      (isSpaced_chunks hbreaks hblanks) (hchars.symm ▸ hplain) (hchars.symm ▸ hnext) hquote
      (place.column + 1) true
    simp only [List.cons_append, List.append_assoc, List.nil_append]
    rw [readScalar, hread, hchars]
    simp only [Option.map_some, htext, hrest.gap]
  | double =>
    rw [hform] at h
    exact (readScalar_doubleQuoted h hindent hrest).trans (by rw [htext])

/-- The raw text is read back from its scalar. -/
def isLegibleRaw (isKey : Bool) (place : Place) : RawText → Bool
  | .plain s => isLegibleText isKey place s
  | .broken symbols => foldsSafely place symbols

/-- The scalar of a raw text is read back as the text that its symbols make. -/
theorem readScalar_rawScalar {isKey : Bool} {t : RawText} (h : isLegibleRaw isKey place t = true)
    (hindent : 0 < place.indent) (hleast : least ≤ place.indent)
    (hrest : Ends least rest gap left) :
    readScalar least (rawScalar isKey place t ++ rest) =
      some (.ofText (.ofSymbols t.symbols), gap, left) := by
  cases t with
  | plain s =>
    rw [RawText.ofSymbols_symbols_plain]
    exact readScalar_scalar h hindent hleast hrest
  | broken symbols => exact readScalar_doubleQuoted h hindent hrest

/-! ## The start of a scalar -/

/-- A scalar starts with a quote or as an unquoted text does. -/
theorem of_readScalar {cs : List Char} {r : Json × Gap × List Char}
    (h : readScalar least cs = some r) :
    (∃ c tail, cs = c :: tail ∧ (c = '\'' ∨ c = '"')) ∨ startsPlain cs = true := by
  unfold readScalar at h
  split at h
  · exact .inl ⟨_, _, rfl, .inl rfl⟩
  · exact .inl ⟨_, _, rfl, .inr rfl⟩
  · split at h
    · next hstart => exact .inr hstart
    · cases h

/-- A scalar starts with a character that has no other meaning there. -/
theorem exists_head_of_readScalar {cs : List Char} {r : Json × Gap × List Char}
    (h : readScalar least cs = some r) :
    ∃ c tail, cs = c :: tail ∧ isGapChar c = false ∧ (c = '-' ∨ c = '?' → endsWord tail = false) ∧
      c ∉ ['&', '*', '[', '\x7b'] := by
  rcases of_readScalar h with ⟨c, tail, rfl, rfl | rfl⟩ | hstart
  · exact ⟨_, _, rfl, by decide, fun hmark => absurd hmark (by decide), by decide⟩
  · exact ⟨_, _, rfl, by decide, fun hmark => absurd hmark (by decide), by decide⟩
  · cases cs with
    | nil => cases hstart
    | cons c tail =>
      simp only [startsPlain, Bool.and_eq_true, Bool.not_eq_true', Bool.and_eq_false_iff,
        Bool.or_eq_false_iff, beq_eq_false_iff_ne] at hstart
      obtain ⟨⟨⟨⟨⟨hplain, hgap⟩, hleading⟩, hmark⟩, -⟩, -⟩ := hstart
      refine ⟨c, tail, rfl, (isSeparator_eq hplain).symm.trans hgap, ?_, ?_⟩
      · intro hc
        refine hmark.resolve_left fun hne => ?_
        rcases hc with rfl | rfl
        · exact hne.1.1 rfl
        · exact hne.1.2 rfl
      · intro hc
        simp only [List.mem_cons, List.not_mem_nil, or_false] at hc
        rcases hc with rfl | rfl | rfl | rfl <;> exact absurd hleading (by decide)

theorem startsToken_of_readScalar {cs : List Char} {r : Json × Gap × List Char}
    (h : readScalar least cs = some r) : StartsToken cs := by
  obtain ⟨c, tail, rfl, hgap, -⟩ := exists_head_of_readScalar h
  rintro d ⟨⟩
  exact hgap

/-- No mark of a node starts a scalar. -/
theorem isMark_of_readScalar {cs : List Char} {r : Json × Gap × List Char}
    (h : readScalar least cs = some r) {mark : Char} (hmark : mark = '-' ∨ mark = '?') :
    isMark mark cs = false := by
  obtain ⟨c, tail, rfl, -, hends, -⟩ := exists_head_of_readScalar h
  rw [isMark]
  by_cases hc : c = mark
  · rw [hends (hc ▸ hmark), Bool.and_false]
  · rw [beq_eq_false_iff_ne.2 hc, Bool.false_and]

/-! ## Lines -/

theorem plainFrom_of_not_folds (h : place.folds = false) (ks : List Chunk) (column : Nat) :
    plainFrom place column ks = ks.flatMap Chunk.chars := by
  induction ks generalizing column with
  | nil => rfl
  | cons k ks ih =>
    cases k with
    | blanks n =>
      rw [plainFrom, if_neg (by simp [h]), ih]
      rfl
    | breaks ms | word w =>
      rw [plainFrom, ih]
      rfl

theorem isBreak_of_mem_singleFrom (h : place.folds = false) {ks : List Chunk}
    (hline : ∀ c ∈ ks.flatMap Chunk.chars, isBreak c = false) (column : Nat) (first : Bool) :
    ∀ c ∈ singleFrom place column first ks, isBreak c = false := by
  induction ks generalizing column first with
  | nil => exact List.forall_mem_nil _
  | cons k ks ih =>
    rw [List.flatMap_cons, List.forall_mem_append] at hline
    have ih := ih hline.2
    cases k with
    | blanks n =>
      rw [singleFrom, if_neg (by simp [h]), List.forall_mem_append]
      exact ⟨hline.1, ih _ _⟩
    | breaks ms =>
      rw [singleFrom, List.forall_mem_append]
      refine ⟨fun c hc => ?_, ih _ _⟩
      cases ms with
      | nil =>
        rw [List.eq_of_mem_replicate (show c ∈ List.replicate place.indent ' ' from hc)]
        exact isBreak_blank
      | cons m ms =>
        unfold quotedBreaks at hc
        split at hc
        · next heq =>
          rw [heq] at hline
          exact absurd (hline.1 '\n' (by simp [Chunk.chars])) (by decide)
        · rw [List.nil_append] at hc
          rcases List.mem_append.1 hc with hc | hc
          · exact hline.1 c hc
          · rw [List.eq_of_mem_replicate hc]
            exact isBreak_blank
    | word w =>
      rw [singleFrom, List.forall_mem_append]
      refine ⟨fun c hc => ?_, ih _ _⟩
      obtain ⟨d, hd, hc⟩ := List.mem_flatMap.1 hc
      split at hc
      · simp only [List.mem_cons, List.not_mem_nil, or_false, or_self] at hc
        rw [hc]
        decide
      · rw [List.mem_singleton.1 hc]
        exact hline.1 d hd

/-- Hexadecimal digits are no line breaks. -/
theorem isBreak_of_hexNumber? {ds : List Char} {n m : Nat}
    (h : Literal.hexNumber? ds n = some m) : ∀ d ∈ ds, isBreak d = false := by
  induction ds generalizing n with
  | nil => exact List.forall_mem_nil _
  | cons d ds ih =>
    cases hd : Json.hexValue? d with
    | none => simp [Literal.hexNumber?, hd] at h
    | some k =>
      have hds : Literal.hexNumber? ds (16 * n + k) = some m := by
        simpa [Literal.hexNumber?, hd] using h
      refine List.forall_mem_cons.2 ⟨Bool.eq_false_iff.2 fun hbreak => ?_, ih hds⟩
      simp only [isBreak, Bool.or_eq_true, beq_iff_eq] at hbreak
      rcases hbreak with ((rfl | rfl) | rfl) | rfl <;> cases hd

theorem isBreak_of_mem_symbolForm (s : Symbol) : ∀ c ∈ symbolForm s, isBreak c = false := by
  have hescape {mark : Char} (hmark : isBreak mark = false) (width n : Nat) :
      ∀ c ∈ '\\' :: mark :: hexDigits width n, isBreak c = false := by
    rw [List.forall_mem_cons, List.forall_mem_cons]
    exact ⟨by decide, hmark, isBreak_of_hexNumber? (hexNumber?_hexDigits width n)⟩
  cases s with
  | half s => exact hescape (by decide) 4 s.unit
  | char c =>
    rw [symbolForm]
    split
    · next hshown => exact List.forall_mem_singleton.2 (of_isShownInDouble hshown).2.2.2
    · unfold escape
      split
      · next e he =>
        have hall : ∀ p ∈ shortEscapes, isBreak p.2 = false := by decide
        obtain ⟨before, after, hmem, -⟩ := List.lookup_eq_some_iff.1 he
        rw [List.forall_mem_cons, List.forall_mem_singleton]
        exact ⟨by decide, hall (c, e) (by rw [hmem]; simp)⟩
      · split
        · exact hescape (by decide) 2 _
        · split
          · exact hescape (by decide) 4 _
          · exact hescape (by decide) 8 _

theorem doubleFrom_of_not_folds (h : place.folds = false) (ss : List Symbol) (column : Nat)
    (first loose : Bool) : doubleFrom place column first loose ss = ss.flatMap symbolForm := by
  induction ss generalizing column first loose with
  | nil => rfl
  | cons s ss ih =>
    rw [doubleFrom]
    simp only [h, Bool.and_false, Bool.false_and, Bool.false_eq_true, if_false, List.nil_append,
      List.append_nil, ih, ite_self, List.flatMap_cons]

/-- Symbols in double quotes that are not folded are on one line. -/
theorem isBreak_of_mem_doubleQuoted (h : place.folds = false) (ss : List Symbol) :
    ∀ c ∈ doubleQuoted place ss, isBreak c = false := by
  have hquote : isBreak '"' = false := by decide
  rw [doubleQuoted, List.forall_mem_cons, List.forall_mem_append, List.forall_mem_singleton,
    doubleFrom_of_not_folds h]
  refine ⟨hquote, fun c hc => ?_, hquote⟩
  obtain ⟨s, -, hc⟩ := List.mem_flatMap.1 hc
  exact isBreak_of_mem_symbolForm s c hc

/-- The scalar of a text on one line that is not folded is on one line. -/
theorem isBreak_of_mem_scalar {isKey : Bool} (h : place.folds = false) {s : String}
    (hline : isMultiline s.toList = false) : ∀ c ∈ scalar isKey place s, isBreak c = false := by
  have hchars : ∀ c ∈ (chunks s.toList).flatMap Chunk.chars, isBreak c = false := by
    rw [flatMap_chars_chunks]
    simpa [isMultiline] using hline
  have hsingle : isBreak '\'' = false := by decide
  unfold scalar
  split
  · rw [plainFrom_of_not_folds h]
    exact hchars
  · rw [List.forall_mem_cons, List.forall_mem_append, List.forall_mem_singleton]
    exact ⟨hsingle, isBreak_of_mem_singleFrom h hchars _ _, hsingle⟩
  · exact isBreak_of_mem_doubleQuoted h _

theorem isBreak_of_mem_rawScalar {isKey : Bool} (h : place.folds = false) {t : RawText}
    (hline : isMultiline t.shown.toList = false) :
    ∀ c ∈ rawScalar isKey place t, isBreak c = false := by
  cases t with
  | plain s => exact isBreak_of_mem_scalar h hline
  | broken symbols => exact isBreak_of_mem_doubleQuoted h symbols

/-! ## Keys -/

/-- A key is read back from its part of an entry: on the line of its colon it takes up no more
characters than a key may, and behind a mark its text is read back. -/
def isLegibleKey (indent : Nat) (key : RawText) : Bool :=
  if isShortKey key then (rawScalar true ⟨indent, indent + 2, false⟩ key).length ≤ keyLimit
  else isLegibleRaw false ⟨indent + 2, indent + 2, true⟩ key

/-- A key that stays on its line is a text that is read back. -/
theorem isLegibleRaw_of_line {isKey : Bool} (h : place.folds = false) {t : RawText}
    (hline : isMultiline t.shown.toList = false) : isLegibleRaw isKey place t = true := by
  have hsafe (ss : List Symbol) : foldsSafely place ss = true := by
    simp [foldsSafely, Place.isNarrow, h]
  cases t with
  | broken symbols => exact hsafe symbols
  | plain s =>
    rw [isLegibleRaw, isLegibleText]
    split
    · rfl
    · have hnext : '\u0085' ∉ s.toList := by
        intro hmem
        rw [RawText.shown_plain, isMultiline, List.any_eq_false] at hline
        exact hline _ hmem (by decide)
      simpa using hnext
    · exact hsafe _

variable {column : Nat}

theorem take_form (form : List Char) (c : Char) (rest : List Char) :
    (form ++ c :: rest).take ((form ++ c :: rest).length - (rest.length + 1)) = form := by
  rw [List.length_append, List.length_cons, Nat.add_sub_cancel, List.take_left]

/-- A scalar on one line with a colon behind it is a key. -/
theorem readShortKey?_of_readScalar {form : List Char} {key : RawText}
    (hrest : endsWord rest = true)
    (hread : readScalar (column + 1) (form ++ ':' :: rest) =
      some (.ofText key, .empty, ':' :: rest))
    (hlength : form.length ≤ keyLimit) (hline : ∀ c ∈ form, isBreak c = false) :
    readShortKey? column (form ++ ':' :: rest) = some (key, rest) := by
  have hany : form.any isBreak = false := by simpa using hline
  rw [readShortKey?, hread]
  simp only [take_form, hrest, hlength, hany, decide_true, Bool.not_false, Bool.and_self, if_true,
    Json.rawText?_ofText, Option.map_some]

/-- A scalar with a line break behind it is no key. -/
theorem readShortKey?_of_newLine {form : List Char} {k : Nat} {v : Json}
    (hread : readScalar (column + 1) (form ++ (newLine k ++ left)) = some (v, gap, left)) :
    readShortKey? column (form ++ (newLine k ++ left)) = none := by
  rw [readShortKey?, hread]
  split
  · next w g rest heq =>
    obtain ⟨-, -, rfl⟩ : v = w ∧ gap = g ∧ left = ':' :: rest := by simpa using heq
    have htake := take_form (form ++ newLine k) ':' rest
    rw [List.append_assoc] at htake
    have hbreak : (form ++ newLine k).any isBreak = true := by
      simp [newLine, isBreak]
    simp only [htake, hbreak, Bool.not_true, Bool.and_false, Bool.false_eq_true, if_false]
  · rfl

/-- A short key is read in front of its colon. -/
theorem readScalar_shortKey {indent : Nat} {key : RawText} (hkey : isShortKey key = true)
    (hleast : least ≤ indent + 2) (hrest : endsWord rest = true) :
    readScalar least (rawScalar true ⟨indent, indent + 2, false⟩ key ++ ':' :: rest) =
      some (.ofText (.ofSymbols key.symbols), .empty, ':' :: rest) := by
  simp only [isShortKey, Bool.and_eq_true, Bool.not_eq_true'] at hkey
  exact readScalar_rawScalar (isLegibleRaw_of_line rfl hkey.1.2) (Nat.succ_pos _) hleast
    (ends_colon _ hrest)

/-- A short key is read back on the line of its colon. -/
theorem readShortKey?_rawScalar {indent : Nat} {key : RawText} (hkey : isShortKey key = true)
    (h : isLegibleKey indent key = true) (hcolumn : column < indent + 2)
    (hrest : endsWord rest = true) :
    readShortKey? column (rawScalar true ⟨indent, indent + 2, false⟩ key ++ ':' :: rest) =
      some (.ofSymbols key.symbols, rest) := by
  have hread := readScalar_shortKey hkey hcolumn hrest
  simp only [isLegibleKey, hkey, if_true, decide_eq_true_eq] at h
  simp only [isShortKey, Bool.and_eq_true, Bool.not_eq_true'] at hkey
  exact readShortKey?_of_readScalar hrest hread h (isBreak_of_mem_rawScalar rfl hkey.1.2)

/-- A long key is read back behind its mark. -/
theorem readLongKey?_rawScalar {indent : Nat} {key : RawText} (hkey : isShortKey key = false)
    (h : isLegibleKey indent key = true) (hrest : endsWord rest = true) :
    readLongKey? indent (' ' :: (rawScalar false ⟨indent + 2, indent + 2, true⟩ key ++
      (newLine indent ++ ':' :: rest))) = some (.ofSymbols key.symbols, rest) := by
  simp only [isLegibleKey, hkey, Bool.false_eq_true, if_false] at h
  have hcolon : StartsToken (':' :: rest) := by
    rintro c ⟨⟩
    decide
  have hread := readScalar_rawScalar h (Nat.succ_pos _) (Nat.le_succ _)
    (ends_newLine (Nat.lt_succ_self indent) hcolon)
  have hblank : ∀ c ∈ [' '], isGapChar c = true := List.forall_mem_singleton.2 isGapChar_blank
  have hgap := takeGap_append hblank (startsToken_of_readScalar hread)
  rw [List.singleton_append] at hgap
  rw [readLongKey?, hgap]
  simp [Gap.push, hread, hrest, isBreak]

section
variable {indent : Nat} {key : RawText}

theorem chars_keyPart_short (h : isShortKey key = true) (rest : List Char) :
    (keyPart indent key).chars ++ rest =
      rawScalar true ⟨indent, indent + 2, false⟩ key ++ ':' :: rest := by
  simp [keyPart, h]

theorem chars_keyPart_long (h : isShortKey key = false) (rest : List Char) :
    (keyPart indent key).chars ++ rest = '?' :: ' ' ::
      (rawScalar false ⟨indent + 2, indent + 2, true⟩ key ++
        (newLine indent ++ ':' :: rest)) := by
  simp [keyPart, h]

/-- A key starts an entry, and no item of a list. -/
theorem starts_keyPart (hrest : endsWord rest = true) :
    StartsToken ((keyPart indent key).chars ++ rest) ∧
      isMark '-' ((keyPart indent key).chars ++ rest) = false ∧
      isMark '?' ((keyPart indent key).chars ++ rest) = !isShortKey key := by
  cases hkey : isShortKey key with
  | true =>
    have hread := readScalar_shortKey hkey (Nat.le_refl (indent + 2)) hrest
    rw [chars_keyPart_short hkey]
    exact ⟨startsToken_of_readScalar hread, isMark_of_readScalar hread (.inl rfl),
      isMark_of_readScalar hread (.inr rfl)⟩
  | false =>
    rw [chars_keyPart_long hkey]
    exact ⟨by rintro c ⟨⟩; decide, rfl, rfl⟩

/-- A key is read back from its part of an entry. -/
theorem readKey?_keyPart (h : isLegibleKey indent key = true) (hrest : endsWord rest = true) :
    readKey? indent ((keyPart indent key).chars ++ rest) =
      some (.ofSymbols key.symbols, !isShortKey key, rest) := by
  have hmark : isMark '?' ((keyPart indent key).chars ++ rest) = !isShortKey key :=
    (starts_keyPart hrest).2.2
  rw [readKey?, hmark]
  cases hkey : isShortKey key with
  | true =>
    rw [chars_keyPart_short hkey]
    simp [readShortKey?_rawScalar hkey h (Nat.lt_add_of_pos_right (by decide)) hrest]
  | false =>
    rw [chars_keyPart_long hkey]
    simp [readLongKey?_rawScalar hkey h hrest]

/-- A key is taken for one on the line of a mark in front of it. -/
theorem isKey_keyPart (h : isLegibleKey indent key = true) (hcolumn : column < indent + 2)
    (hrest : endsWord rest = true) :
    (isMark '?' ((keyPart indent key).chars ++ rest) ||
      (readShortKey? column ((keyPart indent key).chars ++ rest)).isSome) = true := by
  rw [(starts_keyPart hrest).2.2]
  cases hkey : isShortKey key with
  | true =>
    rw [chars_keyPart_short hkey, readShortKey?_rawScalar hkey h hcolumn hrest]
    rfl
  | false => rfl

end

end Nanoservice.Yaml
