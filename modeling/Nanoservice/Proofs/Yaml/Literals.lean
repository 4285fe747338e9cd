import Mathlib.Data.List.TakeWhile
import Nanoservice.Proofs.Json.Halves
import Nanoservice.Proofs.Yaml.Nodes

/-!
# What the nodes of JSON values mean

The node of a value means the value (`value?_ofJson`). The unquoted forms of the values that are no
texts resolve to these: the words for null and the booleans, integers of at most 4300 digits
(`resolve_intChars`) and numbers with a point, which the layout of numbers in YAML never leaves out
(`resolve_write`).
-/

namespace Nanoservice.Yaml

open Nanoservice.Decimal (Double Layout infinityRank)
open Nanoservice.Json (IsWhole numeral fractionForm exponentForm StartsWithDigit)
open Nanoservice.Text (isAsciiDigit asciiValue? valueOfDigits maxIntegerDigits)

/-! ## Words of numbers -/

/-- A character of decimal numbers. -/
def isNumberChar (c : Char) : Bool :=
  isAsciiDigit c || ['.', 'e', '+', '-'].contains c

/-- A word that starts like a number and has its characters. -/
structure IsNumberWord (cs : List Char) : Prop where
  chars : ∀ c ∈ cs, isNumberChar c = true
  start : StartsWithDigit cs ∨ ∃ tail, cs = '-' :: tail ∧ StartsWithDigit tail

/-- A character of numbers has no other meaning. -/
theorem of_isNumberChar {c : Char} (h : isNumberChar c = true) :
    isGapChar c = false ∧ isPlainChar c = true ∧ leadingIndicators.contains c = false ∧
      c ≠ ':' := by
  rw [isNumberChar, Bool.or_eq_true] at h
  rcases h with hdigit | hmark
  · have hall : ∀ n < 58, 48 ≤ n → isGapChar (Char.ofNat n) = false ∧
        isPlainChar (Char.ofNat n) = true ∧ leadingIndicators.contains (Char.ofNat n) = false ∧
        Char.ofNat n ≠ ':' := by decide
    have hrange : 48 ≤ c.toNat ∧ c.toNat ≤ 57 := by
      rw [isAsciiDigit, Bool.and_eq_true, decide_eq_true_eq, decide_eq_true_eq] at hdigit
      exact hdigit
    have hc := hall c.toNat (by omega) hrange.1
    rwa [Char.ofNat_toNat] at hc
  · simp only [List.contains_eq_mem, List.mem_cons, List.not_mem_nil, or_false,
      decide_eq_true_eq] at hmark
    rcases hmark with rfl | rfl | rfl | rfl <;> decide

theorem isSeparator_of_isNumberChar {c : Char} (h : isNumberChar c = true) :
    isSeparator c = false := by
  obtain ⟨hgap, hplain, -⟩ := of_isNumberChar h
  rwa [isSeparator_eq hplain]

/-- Behind its first character a word of a number has no indicator. -/
theorem hasInnerIndicator_number {cs : List Char} (h : ∀ c ∈ cs, isNumberChar c = true)
    (previous : Char) : hasInnerIndicator previous cs = false := by
  induction cs generalizing previous with
  | nil => rfl
  | cons c cs ih =>
    rw [List.forall_mem_cons] at h
    obtain ⟨-, -, hleading, hcolon⟩ := of_isNumberChar h.1
    have hsign : c ≠ '#' := by
      rintro rfl
      exact absurd hleading (by decide)
    rw [hasInnerIndicator, ih h.2, beq_eq_false_iff_ne.2 hcolon, beq_eq_false_iff_ne.2 hsign]
    rfl

theorem hasIndicator_number {cs : List Char} (h : IsNumberWord cs) : hasIndicator cs = false := by
  obtain ⟨hchars, hstart⟩ := h
  have hinner (previous : Char) {tail : List Char} (htail : ∀ c ∈ tail, isNumberChar c = true) :=
    hasInnerIndicator_number htail previous
  rcases hstart with ⟨c, tail, rfl, hc⟩ | ⟨-, rfl, d, tail, rfl, hd⟩
  · rw [List.forall_mem_cons] at hchars
    have hne {w : Char} (hw : isAsciiDigit w = false) : (w == c) = false ∧ (c == w) = false :=
      ⟨beq_eq_false_iff_ne.2 (Json.ne_of_isAsciiDigit hc hw),
        beq_eq_false_iff_ne.2 (Json.ne_of_isAsciiDigit hc hw).symm⟩
    have hmarks : (c == '?') = false ∧ (c == ':') = false ∧ (c == '-') = false :=
      ⟨(hne (by decide)).2, (hne (by decide)).2, (hne (by decide)).2⟩
    have hprefix : ('-' == c) = false ∧ ('.' == c) = false :=
      ⟨(hne (by decide)).1, (hne (by decide)).1⟩
    simp only [hasIndicator, (of_isNumberChar hchars.1).2.2.1, hmarks, hprefix, List.isPrefixOf,
      hinner c hchars.2, Bool.or_self, Bool.false_and]
  · rw [List.forall_mem_cons, List.forall_mem_cons] at hchars
    have hdash : ('-' == d) = false :=
      beq_eq_false_iff_ne.2 (Json.ne_of_isAsciiDigit hd (by decide))
    have hends : endsWord (d :: tail) = false := isSeparator_of_isNumberChar hchars.2.1
    have hmore := hinner '-' (List.forall_mem_cons.2 hchars.2)
    rw [hasIndicator, hends, hmore]
    simp [List.isPrefixOf, hdash, leadingIndicators]

/-- A word of a number can stand without quotes. -/
theorem isBareWord_of_isNumberWord {cs : List Char} (h : IsNumberWord cs) :
    isBareWord cs = true := by
  have hindicator := hasIndicator_number h
  obtain ⟨hchars, hstart⟩ := h
  have hgap : ∀ c ∈ cs, c ≠ ' ' ∧ isBreak c = false := by
    intro c hc
    have hgap := (of_isNumberChar (hchars c hc)).1
    rwa [isGapChar, Bool.or_eq_false_iff, beq_eq_false_iff_ne] at hgap
  have hne : cs ≠ [] := by
    rcases hstart with ⟨c, tail, rfl, -⟩ | ⟨tail, rfl, -⟩ <;> exact List.cons_ne_nil _ _
  have hmargin : hasBlankMargin cs = false := by
    simp only [hasBlankMargin, Bool.or_eq_false_iff, Option.any_eq_false]
    exact ⟨fun c hc => by simp [hgap c (List.mem_of_mem_head? hc)],
      fun c hc => by simp [hgap c (List.mem_of_getLast? hc)]⟩
  have hline : isMultiline cs = false := by
    rw [isMultiline, List.any_eq_false]
    exact fun c hc => by simp [hgap c hc]
  have hplain : cs.all isPlainChar = true :=
    List.all_eq_true.2 fun c hc => (of_isNumberChar (hchars c hc)).2.1
  have hword : cs.all (!isGapChar ·) = true :=
    List.all_eq_true.2 fun c hc => by simp [(of_isNumberChar (hchars c hc)).1]
  simp [isBareWord, allowsPlain, hmargin, hline, hplain, hindicator, hword, hne]

/-! ## Signs -/

/-- A word with a minus in front of it where one belongs. -/
def withSign (negative : Bool) (cs : List Char) : List Char :=
  if negative then '-' :: cs else cs

section
variable {negative : Bool} {cs : List Char} (h : StartsWithDigit cs)
include h

theorem takeSign_withSign : Text.takeSign (withSign negative cs) = (negative, cs) := by
  obtain ⟨c, tail, rfl, hc⟩ := h
  have hminus : '-' ≠ c := Json.ne_of_isAsciiDigit hc (by decide)
  have hplus : '+' ≠ c := Json.ne_of_isAsciiDigit hc (by decide)
  cases negative with
  | true => rfl
  | false =>
    rw [withSign, if_neg Bool.false_ne_true]
    unfold Text.takeSign
    split
    · next heq => exact absurd (List.cons.inj heq).1.symm hminus
    · next heq => exact absurd (List.cons.inj heq).1.symm hplus
    · rfl

theorem withoutSign_withSign : withoutSign (withSign negative cs) = cs := by
  have hsign (ds : List Char) : withoutSign ds = (Text.takeSign ds).2 := by
    unfold withoutSign
    split <;> simp_all [Text.takeSign]
  rw [hsign, takeSign_withSign h]

theorem isNumberWord_withSign (hchars : ∀ c ∈ cs, isNumberChar c = true) :
    IsNumberWord (withSign negative cs) := by
  cases negative with
  | true => exact ⟨List.forall_mem_cons.2 ⟨by decide, hchars⟩, .inr ⟨cs, rfl, h⟩⟩
  | false => exact ⟨hchars, .inl h⟩

end

/-- A word of a number that means something else than itself means a number. -/
theorem resolve_number {cs : List Char} (h : IsNumberWord cs)
    (hself : meansItself (String.ofList cs) = false) : resolve cs = resolveNumber? cs := by
  have hhead : cs.head?.any (fun c => isAsciiDigit c || c == '-') = true := by
    rcases h.start with ⟨c, tail, rfl, hc⟩ | ⟨tail, rfl, -⟩
    · simp [hc]
    · rfl
  have hword (words : List String)
      (hwords : ∀ w ∈ words, w.toList.head?.any (fun c => isAsciiDigit c || c == '-') = false) :
      words.contains (String.ofList cs) = false := by
    rw [Bool.eq_false_iff]
    intro hmem
    have hw := hwords _ (List.contains_iff_mem.1 hmem)
    rw [String.toList_ofList, hhead] at hw
    cases hw
  simp only [resolve, hself, hword ["null", "Null", "NULL", "~"] (by decide),
    hword ["true", "True", "TRUE", "yes", "Yes", "YES", "on", "On", "ON"] (by decide),
    hword ["false", "False", "FALSE", "no", "No", "NO", "off", "Off", "OFF"] (by decide),
    Bool.false_eq_true, if_false]

/-! ## Integers -/

theorem isNumberChar_of_isAsciiDigit {c : Char} (h : isAsciiDigit c = true) :
    isNumberChar c = true := by
  rw [isNumberChar, h, Bool.true_or]

theorem intChars_eq (n : Int) :
    Text.intChars n = withSign (decide (n < 0)) (Nat.toDigits 10 n.natAbs) := by
  unfold Text.intChars withSign
  by_cases hn : n < 0 <;> simp [hn]

section
variable {ds : List Char} (h : IsWhole ds)
include h

theorem isUnsignedInteger_of_isWhole : isUnsignedInteger ds = true := by
  obtain ⟨hne, hdigits, hzero⟩ := h
  cases ds with
  | nil => exact absurd rfl hne
  | cons c cs =>
    rw [List.forall_mem_cons] at hdigits
    by_cases hc : c = '0'
    · obtain rfl : cs = [] := by simpa [hc] using hzero (by rw [hc]; rfl)
      rw [hc]
      rfl
    · have hall : cs.all isDigitOrUnderscore = true :=
        List.all_eq_true.2 fun d hd => by simp [isDigitOrUnderscore, hdigits.2 d hd]
      simp [isUnsignedInteger, isCount, hdigits.1, hc, hall]

theorem isRun_of_isWhole :
    (isRun isAsciiDigit ds && (ds.head? != some '0' || ds.length == 1)) = true := by
  obtain ⟨hne, hdigits, hzero⟩ := h
  have hall : ds.all isAsciiDigit = true := List.all_eq_true.2 hdigits
  by_cases hhead : ds.head? = some '0'
  · rw [hzero hhead]
    rfl
  · simp [isRun, hne, hall, hhead]

end

/-- An integer of at most 4300 digits is what its text resolves to. -/
theorem resolve_intChars {n : Int} (hn : n.natAbs < 10 ^ maxIntegerDigits) :
    isBareWord (Text.intChars n) = true ∧ resolve (Text.intChars n) = some (.int n) := by
  have hwhole := Json.isWhole_toDigits n.natAbs
  have hlength : (Nat.toDigits 10 n.natAbs).length ≤ maxIntegerDigits :=
    Double.length_toDigits_le (by decide) hn
  have hvalue := Text.valueOfDigits_toDigits n.natAbs
  have hstart : StartsWithDigit (Nat.toDigits 10 n.natAbs) := by
    simpa using Json.startsWithDigit_of_isWhole hwhole []
  have hword : IsNumberWord (Text.intChars n) := by
    rw [intChars_eq]
    exact isNumberWord_withSign hstart fun c hc =>
      isNumberChar_of_isAsciiDigit (hwhole.digits c hc)
  have hself : meansItself (String.ofList (Text.intChars n)) = false := by
    simp [meansItself, intChars_eq, withoutSign_withSign hstart,
      isUnsignedInteger_of_isWhole hwhole]
  have hsigned : Text.signedInt (decide (n < 0)) n.natAbs = n := by
    by_cases hneg : n < 0
    · simp only [Text.signedInt, hneg, decide_true, if_true]
      omega
    · simp only [Text.signedInt, hneg, decide_false, Bool.false_eq_true, if_false]
      omega
  refine ⟨isBareWord_of_isNumberWord hword, ?_⟩
  rw [resolve_number hword hself, intChars_eq, resolveNumber?, takeSign_withSign hstart]
  simp only [isRun_of_isWhole hwhole, hlength, if_true, hvalue, hsigned]

/-! ## Numbers with a point -/

/-- An exponent is a mark, a sign and digits. -/
theorem exponentForm_spec (e : Option (Nat × Int)) :
    isSignedExponent (exponentForm e) = true ∧
      (∀ c ∈ exponentForm e, isNumberChar c = true ∧ c ≠ '.') ∧
      (∀ c ∈ (exponentForm e).head?, isDigitOrUnderscore c = false) := by
  cases e with
  | none => exact ⟨rfl, List.forall_mem_nil _, fun c hc => by cases hc⟩
  | some p =>
    obtain ⟨width, e⟩ := p
    rw [exponentForm, Layout.exponentText]
    have hdigits : ∀ d ∈ List.replicate (width - (Nat.toDigits 10 e.natAbs).length) '0' ++
        Nat.toDigits 10 e.natAbs, isAsciiDigit d = true := by
      intro d hd
      rcases List.mem_append.1 hd with hd | hd
      · exact Json.isAsciiDigit_of_mem_zeros hd
      · exact Text.isAsciiDigit_of_mem_toDigits hd
    have hrun : isRun isAsciiDigit
        (List.replicate (width - (Nat.toDigits 10 e.natAbs).length) '0' ++
          Nat.toDigits 10 e.natAbs) = true := by
      rw [isRun, List.all_eq_true.2 hdigits]
      simp [Nat.toDigits_ne_nil]
    refine ⟨?_, ?_, ?_⟩
    · split <;> simp [isSignedExponent, hrun]
    · rw [List.forall_mem_cons, List.forall_mem_cons]
      refine ⟨by decide, ?_, fun d hd => ⟨isNumberChar_of_isAsciiDigit (hdigits d hd), ?_⟩⟩
      · split <;> decide
      · exact (Json.ne_of_isAsciiDigit (hdigits d hd) (by decide)).symm
    · rintro c ⟨⟩
      decide

/-- Both readers of exponents agree on one that ends its text. -/
theorem exponentPart?_of_takeExponent {cs : List Char} {e : Int}
    (h : Json.takeExponent cs = (some e, [])) : Text.exponentPart? cs = some e := by
  cases cs with
  | nil => cases h
  | cons c cs =>
    rw [Json.takeExponent] at h
    rw [Text.exponentPart?]
    split at h
    · next hmark =>
      rw [if_pos hmark]
      generalize Text.takeSign cs = p at h ⊢
      obtain ⟨negative, ds⟩ := p
      dsimp only at h ⊢
      split at h
      · cases h
      · next hne =>
        obtain ⟨he, hdrop⟩ := Prod.mk.inj h
        have hall : ∀ d ∈ ds, isAsciiDigit d = true := List.dropWhile_eq_nil_iff.1 hdrop
        have htake : ds.takeWhile isAsciiDigit = ds := List.takeWhile_eq_self_iff.2 hall
        rw [htake] at hne he
        have hempty : (ds.isEmpty || !ds.all isAsciiDigit) = false := by
          simpa [List.all_eq_true.2 hall] using hne
        rw [hempty, if_neg Bool.false_ne_true, he]
    · cases h

theorem exponentPart?_exponentForm (e : Option (Nat × Int)) :
    Text.exponentPart? (exponentForm e) = some ((e.map Prod.snd).getD 0) := by
  cases e with
  | none => rfl
  | some p =>
    have hstop : Json.StopsDigits [] := fun c hc => by cases hc
    have hread := Json.takeExponent_exponentText p.1 p.2 hstop
    rw [List.append_nil] at hread
    exact exponentPart?_of_takeExponent hread

/-- No text that starts with a digit is a word. -/
theorem isOneOf_digit {cs : List Char} (h : StartsWithDigit cs) (words : List String)
    (hwords : ∀ w ∈ words, w.toList.head?.any isAsciiDigit = false) :
    Text.isOneOf words cs = false := by
  obtain ⟨c, tail, rfl, hc⟩ := h
  have hlower : isAsciiDigit c.toLower = true := by
    have hall : ∀ n < 58, 48 ≤ n → isAsciiDigit (Char.ofNat n).toLower = true := by decide
    have hrange : 48 ≤ c.toNat ∧ c.toNat ≤ 57 := by
      rw [isAsciiDigit, Bool.and_eq_true, decide_eq_true_eq, decide_eq_true_eq] at hc
      exact hc
    have hlower := hall c.toNat (by omega) hrange.1
    rwa [Char.ofNat_toNat] at hlower
  rw [Text.isOneOf, Bool.eq_false_iff]
  intro hmem
  have hw := hwords _ (List.contains_iff_mem.1 hmem)
  rw [String.toList_ofList, List.map_cons, List.head?_cons, Option.any_some, hlower] at hw
  cases hw

section
variable {whole part : List Char} {e : Option (Nat × Int)}

theorem numeral_eq (hne : part ≠ []) :
    numeral whole part e = whole ++ '.' :: (part ++ exponentForm e) := by
  rw [numeral, fractionForm, if_neg hne, List.cons_append]

variable (hwhole : IsWhole whole) (hpart : ∀ d ∈ part, isAsciiDigit d = true) (hne : part ≠ [])
include hwhole hpart hne

theorem isNumberChar_of_mem_numeral : ∀ c ∈ numeral whole part e, isNumberChar c = true := by
  rw [numeral_eq hne, List.forall_mem_append, List.forall_mem_cons,
    List.forall_mem_append]
  exact ⟨fun c hc => isNumberChar_of_isAsciiDigit (hwhole.digits c hc), by decide,
    fun c hc => isNumberChar_of_isAsciiDigit (hpart c hc),
    fun c hc => ((exponentForm_spec e).2.1 c hc).1⟩

theorem isUnsignedFloat_numeral : isUnsignedFloat (numeral whole part e) = true := by
  have hpoint : ∀ c ∈ whole, (c != '.') = true := fun c hc =>
    bne_iff_ne.2 (Json.ne_of_isAsciiDigit (hwhole.digits c hc) (by decide)).symm
  have hdigits : isDigits whole = true := by
    obtain ⟨hne, hdigits, -⟩ := hwhole
    cases whole with
    | nil => exact absurd rfl hne
    | cons c cs =>
      rw [List.forall_mem_cons] at hdigits
      rw [isDigits, hdigits.1, Bool.true_and, List.all_eq_true]
      exact fun d hd => by rw [isDigitOrUnderscore, hdigits.2 d hd, Bool.true_or]
  have htail : isFractionTail (part ++ exponentForm e) = true := by
    obtain ⟨hexponent, -, hhead⟩ := exponentForm_spec e
    have hdrop : (part ++ exponentForm e).dropWhile isDigitOrUnderscore = exponentForm e := by
      rw [List.dropWhile_append_of_pos fun d hd => by
        rw [isDigitOrUnderscore, hpart d hd, Bool.true_or]]
      cases hform : exponentForm e with
      | nil => rfl
      | cons c cs => exact List.dropWhile_cons_of_neg (by simp [hhead c (by rw [hform]; rfl)])
    rw [isFractionTail, hdrop, hexponent]
  rw [isUnsignedFloat, numeral_eq hne, List.takeWhile_append_of_pos hpoint,
    List.dropWhile_append_of_pos hpoint]
  simp [hdigits, htail]

/-- A numeral with a point is read as the number that its decimal rounds to. -/
theorem unsignedFraction?_numeral (negative : Bool) :
    Text.unsignedFraction? negative (numeral whole part e) =
      some (.ofDecimal negative (valueOfDigits ((whole ++ part).filterMap asciiValue?))
        ((e.map Prod.snd).getD 0 - part.length)) := by
  have hstart : StartsWithDigit (numeral whole part e) :=
    Json.startsWithDigit_of_isWhole hwhole _
  have hpoint : Json.StopsDigits ('.' :: (part ++ exponentForm e)) := by
    rintro c ⟨⟩
    decide
  have hexponent : Json.StopsDigits (exponentForm e) := fun c hc => by
    have hc := (exponentForm_spec e).2.2 c hc
    rw [isDigitOrUnderscore, Bool.or_eq_false_iff] at hc
    exact hc.1
  have hinfinity := isOneOf_digit hstart ["inf", "infinity"] (by decide)
  have hnan := isOneOf_digit hstart ["nan"] (by decide)
  rw [numeral_eq hne] at *
  simp only [Text.unsignedFraction?, hinfinity, hnan, Bool.false_eq_true, if_false,
    Json.takeWhile_digits hwhole.digits hpoint, Json.dropWhile_digits hwhole.digits hpoint,
    Json.takeWhile_digits hpart hexponent, Json.dropWhile_digits hpart hexponent,
    exponentPart?_exponentForm]
  simp [hne]

end

theorem point_mem_positional (ds : List Char) (point : Int) :
    '.' ∈ Layout.positional ds point := by
  unfold Layout.positional
  split
  · simp
  · dsimp only
    split <;> simp

theorem point_mem_scientific {l : Layout} (h : l.keepsFraction = true) (ds : List Char)
    (point : Int) : '.' ∈ l.scientific ds point := by
  unfold Layout.scientific
  refine List.mem_append_left _ (List.mem_append_right _ ?_)
  split
  · simp [h]
  · exact List.mem_cons_self

/-- A layout that keeps the fraction writes every number with a point. -/
theorem point_mem_magnitude {l : Layout} (h : l.keepsFraction = true) (rank : Nat) :
    '.' ∈ l.magnitude rank := by
  unfold Layout.magnitude
  dsimp only
  generalize (if (Decimal.Shortest.ofRank rank).digits = 0 then (1 : Int) else _) = point
  split
  · exact point_mem_positional _ _
  · exact point_mem_scientific h _ _

/-- The magnitude of a number is a numeral with a point. -/
theorem magnitude_spec (rank : Nat) :
    ∃ whole part e, number.magnitude rank = numeral whole part e ∧ IsWhole whole ∧
      (∀ d ∈ part, isAsciiDigit d = true) ∧ part ≠ [] ∧
      Double.rankOfDecimal (valueOfDigits ((whole ++ part).filterMap asciiValue?))
        ((e.map Prod.snd).getD 0 - part.length) =
        Double.rankOfDecimal (Decimal.Shortest.ofRank rank).digits
          (Decimal.Shortest.ofRank rank).exponent := by
  obtain ⟨whole, part, e, hform, hwhole, hpart, -, hrank⟩ := Json.magnitude_isNumeralOf number rank
  refine ⟨whole, part, e, hform, hwhole, hpart, ?_, hrank⟩
  rintro rfl
  have hpoint := point_mem_magnitude (l := number) rfl rank
  rw [hform, numeral, fractionForm, if_pos rfl, List.nil_append] at hpoint
  rcases List.mem_append.1 hpoint with hpoint | hpoint
  · exact absurd (hwhole.digits _ hpoint) (by decide)
  · exact ((exponentForm_spec e).2.1 _ hpoint).2 rfl

/-- A finite number is what its text resolves to. -/
theorem resolve_magnitude (negative : Bool) {rank : Decimal.Rank}
    (hfinite : rank.val < infinityRank) :
    isBareWord (withSign negative (number.magnitude rank)) = true ∧
      resolve (withSign negative (number.magnitude rank)) =
        some (.float (.signed negative rank)) := by
  have hstart : StartsWithDigit (number.magnitude rank) := Json.startsWithDigit_magnitude _ _
  obtain ⟨whole, part, e, hform, hwhole, hpart, hne, hrank⟩ := magnitude_spec rank
  rw [hform] at hstart ⊢
  have hchars := isNumberChar_of_mem_numeral (e := e) hwhole hpart hne
  have hfloat := isUnsignedFloat_numeral (e := e) hwhole hpart hne
  have hword : IsNumberWord (withSign negative (numeral whole part e)) :=
    isNumberWord_withSign hstart hchars
  have hself : meansItself (String.ofList (withSign negative (numeral whole part e))) = false := by
    simp [meansItself, withoutSign_withSign hstart, hfloat]
  have hvalue : Text.signedFraction? (withSign negative (numeral whole part e)) =
      some (.signed negative rank) := by
    rw [Text.signedFraction?, takeSign_withSign hstart]
    dsimp only
    rw [unsignedFraction?_numeral hwhole hpart hne, Double.ofDecimal, hrank,
      Fin.ext (Decimal.Shortest.rankOfDecimal_ofRank hfinite)]
  refine ⟨isBareWord_of_isNumberWord hword, ?_⟩
  have hall : (numeral whole part e).all isNumberChar = true := List.all_eq_true.2 hchars
  have hrun : isRun isAsciiDigit (numeral whole part e) = false := by
    rw [isRun, Bool.and_eq_false_iff, List.all_eq_false]
    exact .inr ⟨'.', by simp [numeral_eq hne], by decide⟩
  have hinfinity : (['.', 'i', 'n', 'f'] == numeral whole part e) = false := by
    obtain ⟨c, tail, heq, hc⟩ := hstart
    rw [heq, beq_eq_false_iff_ne]
    intro h
    exact Json.ne_of_isAsciiDigit hc (by decide) (List.cons.inj h).1
  have hnan : (['.', 'n', 'a', 'n'] == withSign negative (numeral whole part e)) = false := by
    rw [beq_eq_false_iff_ne]
    intro h
    exact absurd (hword.chars 'n' (by rw [← h]; simp)) (by decide)
  rw [resolve_number hword hself, resolveNumber?, takeSign_withSign hstart]
  simp only [hrun, hinfinity, hnan, hfloat, Bool.false_and, Bool.false_eq_true, if_false]
  rw [if_pos (by simpa [isNumberChar] using hall), hvalue]
  rfl

/-- A number is what its text resolves to. -/
theorem resolve_write (x : Double) :
    isBareWord (number.write x) = true ∧ resolve (number.write x) = some (.float x) := by
  cases x with
  | nan => exact ⟨by decide, rfl⟩
  | signed negative rank =>
    by_cases hfinite : rank.val < infinityRank
    · have hwrite : number.write (.signed negative rank) =
          withSign negative (number.magnitude rank) := by
        simp only [Layout.write, hfinite, if_true, withSign]
      rw [hwrite]
      exact resolve_magnitude negative hfinite
    · obtain rfl : rank = Fin.last infinityRank :=
        Fin.ext (Nat.le_antisymm (Nat.le_of_lt_succ rank.isLt) (Nat.le_of_not_lt hfinite))
      cases negative with
      | true =>
        have hwrite : number.write (.signed true (Fin.last infinityRank)) =
            ['-', '.', 'i', 'n', 'f'] := by
          simp [Layout.write, number]
        rw [hwrite]
        exact ⟨by decide, rfl⟩
      | false =>
        have hwrite : number.write (.signed false (Fin.last infinityRank)) =
            ['.', 'i', 'n', 'f'] := by
          simp [Layout.write, number]
        rw [hwrite]
        exact ⟨by decide, rfl⟩

/-! ## Values -/

variable {anchors anchors₁ anchors₂ : Anchors}

theorem value?_literal {cs : List Char} {v : Json}
    (h : isBareWord cs = true ∧ resolve cs = some v) :
    (Tree.literal cs).value? anchors = some (v, anchors) := by
  rw [Tree.value?, if_pos h.1, h.2, Option.map_some]

theorem itemValues?_ofItems {vs : List Json}
    (h : ∀ v ∈ vs, (Tree.ofJson v).value? anchors = some (v, anchors)) :
    itemValues? anchors (Tree.ofItems vs) = some (vs, anchors) := by
  induction vs with
  | nil => rfl
  | cons v vs ih =>
    rw [List.forall_mem_cons] at h
    simp only [Tree.ofItems, itemValues?, h.1, ih h.2, Option.map_some]

theorem entryValues?_ofFields {fs : List (RawText × Json)}
    (hkeys : ∀ f ∈ fs, Json.IsSpelledText f.1)
    (h : ∀ f ∈ fs, (Tree.ofJson f.2).value? anchors = some (f.2, anchors)) :
    entryValues? anchors (Tree.ofFields fs) = some (fs, anchors) := by
  induction fs with
  | nil => rfl
  | cons f fs ih =>
    rw [List.forall_mem_cons] at h hkeys
    simp only [Tree.ofFields, entryValues?, h.1, ih hkeys.2 h.2, Option.map_some,
      hkeys.1.ofSymbols_symbols]

/-- The node of a value means the value and leaves the anchors alone. -/
theorem value?_ofJson {v : Json} (hv : v.IsSpelled) (anchors : Anchors) :
    (Tree.ofJson v).value? anchors = some (v, anchors) := by
  induction hv with
  | null => exact value?_literal ⟨by decide, rfl⟩
  | bool b => cases b <;> exact value?_literal ⟨by decide, rfl⟩
  | int h => exact value?_literal (resolve_intChars h)
  | float x => exact value?_literal (resolve_write x)
  | str s => rfl
  | broken h => rw [Tree.ofJson, Tree.value?, Json.ofSymbols_of_half h.half, Json.ofText]
  | arr _ ih => rw [Tree.ofJson, Tree.value?, itemValues?_ofItems ih, Option.map_some]
  | obj hkeys htexts _ ih =>
    rw [Tree.ofJson, Tree.value?, entryValues?_ofFields htexts ih]
    simp only [Option.map_some, Table.ofLast_eq_self hkeys]

/-- Entries mean what their two parts mean. -/
theorem entryValues?_append {es es' : List (RawText × Tree)} {fs fs' : List (RawText × Json)}
    (h : entryValues? anchors es = some (fs, anchors₁))
    (h' : entryValues? anchors₁ es' = some (fs', anchors₂)) :
    entryValues? anchors (es ++ es') = some (fs ++ fs', anchors₂) := by
  induction es generalizing anchors fs with
  | nil =>
    obtain ⟨rfl, rfl⟩ := Prod.mk.inj (Option.some.inj h)
    exact h'
  | cons e es ih =>
    obtain ⟨key, t⟩ := e
    obtain ⟨v, anchors₃, fs, ht, htail, rfl⟩ := of_entryValues?_cons h
    simp only [List.cons_append, entryValues?, ht, ih htail, Option.map_some]

end Nanoservice.Yaml
