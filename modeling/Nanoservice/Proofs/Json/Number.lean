import Nanoservice.Json.Reader
import Nanoservice.Json.Writer
import Nanoservice.Proofs.Decimal.Shortest
import Nanoservice.Proofs.Text.Digits

/-!
# Numbers read back

Both forms of a number, the positional one and the one with an exponent, are numerals: a whole
part, a fraction and an exponent, of which the latter two may be missing. `readNumber_numeral` says
what the reader makes of a numeral in front of a text that does not go on with it, and
`readNumber_magnitude` that it reads back the number that was written, in every layout. Integers
read back as integers (`readNumber_toDigits`).
-/

namespace Nanoservice

open Nanoservice.Text (asciiValue? isAsciiDigit valueOfDigits maxIntegerDigits)
open Nanoservice.Decimal (Double Layout infinityRank)

namespace Json

/-- A text that does not go on with a number that ends in front of it. -/
def Stops (rest : List Char) : Prop :=
  ∀ c ∈ rest.head?, isAsciiDigit c = false ∧ c ≠ '.' ∧ c ≠ 'e' ∧ c ≠ 'E'

/-- A text that does not go on with digits that end in front of it. -/
def StopsDigits (rest : List Char) : Prop :=
  ∀ c ∈ rest.head?, isAsciiDigit c = false

/-- Digits that may be the whole part of a number: a zero alone, or no zero in front. -/
structure IsWhole (ds : List Char) : Prop where
  nonempty : ds ≠ []
  digits : ∀ d ∈ ds, isAsciiDigit d = true
  zero : ds.head? = some '0' → ds = ['0']

variable {ds rest : List Char}

theorem Stops.stopsDigits (h : Stops rest) : StopsDigits rest :=
  fun c hc => (h c hc).1

/-! ## Runs of digits -/

theorem takeWhile_digits (hds : ∀ d ∈ ds, isAsciiDigit d = true) (h : StopsDigits rest) :
    (ds ++ rest).takeWhile isAsciiDigit = ds := by
  rw [List.takeWhile_append_of_pos hds]
  cases rest with
  | nil => simp
  | cons c cs => simp [h c rfl]

theorem dropWhile_digits (hds : ∀ d ∈ ds, isAsciiDigit d = true) (h : StopsDigits rest) :
    (ds ++ rest).dropWhile isAsciiDigit = rest := by
  rw [List.dropWhile_append_of_pos hds]
  cases rest with
  | nil => rfl
  | cons c cs => simp [h c rfl]

/-! ## Parts of a number -/

theorem takeWhole_append (hds : IsWhole ds) (h : StopsDigits rest) :
    takeWhole (ds ++ rest) = some (ds, rest) := by
  obtain ⟨hne, hdigits, hzero⟩ := hds
  cases ds with
  | nil => exact absurd rfl hne
  | cons c cs =>
    by_cases hc : c = '0'
    · subst hc
      obtain rfl : cs = [] := by simpa using hzero rfl
      rfl
    · have hcs : ∀ d ∈ cs, isAsciiDigit d = true :=
        fun d hd => hdigits d (List.mem_cons_of_mem c hd)
      simp only [List.cons_append, takeWhole, hdigits c List.mem_cons_self, if_true,
        takeWhile_digits hcs h, dropWhile_digits hcs h]

theorem takeFraction_point (hne : ds ≠ []) (hds : ∀ d ∈ ds, isAsciiDigit d = true)
    (h : StopsDigits rest) : takeFraction ('.' :: (ds ++ rest)) = (ds, rest) := by
  cases ds with
  | nil => exact absurd rfl hne
  | cons c cs =>
    have hcs : ∀ d ∈ cs, isAsciiDigit d = true := fun d hd => hds d (List.mem_cons_of_mem c hd)
    simp only [List.cons_append, takeFraction, hds c List.mem_cons_self, if_true,
      takeWhile_digits hcs h, dropWhile_digits hcs h]

theorem takeFraction_none (h : ∀ c ∈ rest.head?, c ≠ '.') : takeFraction rest = ([], rest) := by
  unfold takeFraction
  split
  · exact absurd rfl (h '.' rfl)
  · rfl

theorem takeExponent_none (h : ∀ c ∈ rest.head?, c ≠ 'e' ∧ c ≠ 'E') :
    takeExponent rest = (none, rest) := by
  cases rest with
  | nil => rfl
  | cons c cs => simp [takeExponent, h c rfl]

/-- The exponent that a layout writes is the one that is read. -/
theorem takeExponent_exponentText (width : Nat) (e : Int) (h : StopsDigits rest) :
    takeExponent ('e' :: (Layout.exponentText width e ++ rest)) = (some e, rest) := by
  set ds := List.replicate (width - (Nat.toDigits 10 e.natAbs).length) '0' ++
    Nat.toDigits 10 e.natAbs with hds
  have hdigits : ∀ d ∈ ds, isAsciiDigit d = true := by
    intro d hd
    rcases List.mem_append.1 (hds ▸ hd) with hd | hd
    · rw [List.eq_of_mem_replicate hd]
      decide
    · exact Text.isAsciiDigit_of_mem_toDigits hd
  have hvalue : valueOfDigits (ds.filterMap asciiValue?) = e.natAbs := by
    rw [hds, Text.valueOfDigits_zeros, Text.valueOfDigits_toDigits]
  have hne : ds ≠ [] := by simp [hds]
  have hsign : Text.takeSign (Layout.exponentText width e ++ rest) =
      (decide (e < 0), ds ++ rest) := by
    unfold Layout.exponentText
    by_cases he : e < 0 <;> simp [he, hds, Text.takeSign]
  have hsigned : Text.signedInt (decide (e < 0)) e.natAbs = e := by
    by_cases he : e < 0
    · simp only [Text.signedInt, he, decide_true, if_true]
      omega
    · simp only [Text.signedInt, he, decide_false, Bool.false_eq_true, if_false]
      omega
  simp [takeExponent, hsign, takeWhile_digits hdigits h, dropWhile_digits hdigits h, hne, hvalue,
    hsigned]

/-! ## Numerals -/

/-- The text of an exponent of a least width, or none. -/
def exponentForm : Option (Nat × Int) → List Char
  | none => []
  | some (width, e) => 'e' :: Layout.exponentText width e

/-- The text of a fraction, or none. -/
def fractionForm (part : List Char) : List Char :=
  if part = [] then [] else '.' :: part

/-- The text of a number with a whole part, a fraction and an exponent. -/
def numeral (whole part : List Char) (exponent : Option (Nat × Int)) : List Char :=
  whole ++ (fractionForm part ++ exponentForm exponent)

/-- An exponent ends the digits and the fraction in front of it, and is read. -/
theorem takeExponent_exponentForm (exponent : Option (Nat × Int)) (h : Stops rest) :
    (∀ c ∈ (exponentForm exponent ++ rest).head?, isAsciiDigit c = false ∧ c ≠ '.') ∧
      takeExponent (exponentForm exponent ++ rest) = (exponent.map Prod.snd, rest) := by
  cases exponent with
  | none =>
    exact ⟨fun c hc => ⟨(h c hc).1, (h c hc).2.1⟩, takeExponent_none fun c hc => (h c hc).2.2⟩
  | some p =>
    refine ⟨?_, takeExponent_exponentText p.1 p.2 h.stopsDigits⟩
    rintro c ⟨⟩
    decide

/-- A fraction ends the digits in front of it, and is read. -/
theorem takeFraction_fractionForm {part : List Char}
    (hpart : ∀ d ∈ part, isAsciiDigit d = true)
    (h : ∀ c ∈ rest.head?, isAsciiDigit c = false ∧ c ≠ '.') :
    StopsDigits (fractionForm part ++ rest) ∧
      takeFraction (fractionForm part ++ rest) = (part, rest) := by
  unfold fractionForm
  split
  · next hnil =>
    rw [hnil]
    exact ⟨fun c hc => (h c hc).1, takeFraction_none fun c hc => (h c hc).2⟩
  · next hne =>
    refine ⟨?_, takeFraction_point hne hpart fun c hc => (h c hc).1⟩
    rintro c ⟨⟩
    decide

/-- What the reader makes of a numeral that is no integer. -/
theorem readNumber_numeral {whole part : List Char} {exponent : Option (Nat × Int)}
    (left : List Char) (negative : Bool) (hwhole : IsWhole whole)
    (hpart : ∀ d ∈ part, isAsciiDigit d = true) (hfloat : part ≠ [] ∨ exponent ≠ none)
    (hrest : Stops rest) :
    readNumber left negative (numeral whole part exponent ++ rest) =
      .ok (.float (.ofDecimal negative (valueOfDigits ((whole ++ part).filterMap asciiValue?))
        ((exponent.map Prod.snd).getD 0 - part.length)), rest) := by
  obtain ⟨hstops, hexponent⟩ := takeExponent_exponentForm exponent hrest
  obtain ⟨hstops', hfraction⟩ := takeFraction_fractionForm hpart hstops
  have hkind : (part.isEmpty && (exponent.map Prod.snd).isNone) = false := by
    rcases hfloat with h | h
    · simp [h]
    · obtain ⟨p, rfl⟩ := Option.ne_none_iff_exists'.1 h
      simp
  unfold readNumber
  rw [numeral, List.append_assoc, List.append_assoc, takeWhole_append hwhole hstops']
  simp only [hfraction, hexponent, hkind, Bool.false_eq_true, if_false]

/-- The digits of a number in decimal are a whole part. -/
theorem isWhole_toDigits (n : Nat) : IsWhole (Nat.toDigits 10 n) where
  nonempty := Nat.toDigits_ne_nil
  digits _ := Text.isAsciiDigit_of_mem_toDigits
  zero h := by
    rcases Nat.eq_zero_or_pos n with rfl | hn
    · exact Nat.toDigits_zero 10
    · exact absurd h (Text.head?_toDigits_ne_zero hn)

/-- An integer of at most 4300 digits reads back. -/
theorem readNumber_toDigits {n : Nat} (left : List Char) (negative : Bool)
    (hn : n < 10 ^ maxIntegerDigits) (hrest : Stops rest) :
    readNumber left negative (Nat.toDigits 10 n ++ rest) =
      .ok (.int (Text.signedInt negative n), rest) := by
  have hlen : (Nat.toDigits 10 n).length ≤ maxIntegerDigits :=
    Double.length_toDigits_le (by decide) hn
  unfold readNumber
  rw [takeWhole_append (isWhole_toDigits n) hrest.stopsDigits]
  simp [takeFraction_none fun c hc => (hrest c hc).2.1,
    takeExponent_none fun c hc => (hrest c hc).2.2, Nat.not_lt.2 hlen]

/-! ## The forms of a layout -/

/-- A text is a numeral that is no integer and rounds to a decimal. -/
def IsNumeralOf (digits : Nat) (exponent : Int) (cs : List Char) : Prop :=
  ∃ whole part e, cs = numeral whole part e ∧ IsWhole whole ∧
    (∀ d ∈ part, isAsciiDigit d = true) ∧ (part ≠ [] ∨ e ≠ none) ∧
    Double.rankOfDecimal (valueOfDigits ((whole ++ part).filterMap asciiValue?))
      ((e.map Prod.snd).getD 0 - part.length) = Double.rankOfDecimal digits exponent

/-- A numeral reads back as the number that its decimal rounds to. -/
theorem readNumber_of_isNumeralOf {digits : Nat} {exponent : Int} {cs : List Char}
    (left : List Char) (negative : Bool) (h : IsNumeralOf digits exponent cs)
    (hrest : Stops rest) :
    readNumber left negative (cs ++ rest) =
      .ok (.float (.ofDecimal negative digits exponent), rest) := by
  obtain ⟨whole, part, e, rfl, hwhole, hpart, hfloat, hrank⟩ := h
  rw [readNumber_numeral left negative hwhole hpart hfloat hrest, Double.ofDecimal, hrank,
    Double.ofDecimal]

theorem isWhole_zero : IsWhole ['0'] :=
  ⟨by simp, List.forall_mem_singleton.2 (by decide), fun _ => rfl⟩

theorem isAsciiDigit_of_mem_zeros {k : Nat} {d : Char} (h : d ∈ List.replicate k '0') :
    isAsciiDigit d = true := by
  rw [List.eq_of_mem_replicate h]
  decide

/-- A zero, the point and zeros in front of digits are a numeral. -/
theorem isNumeralOf_behindPoint {ds : List Char} (h : IsWhole ds) (k : Nat) :
    IsNumeralOf (valueOfDigits (ds.filterMap asciiValue?)) (-k - ds.length)
      ('0' :: '.' :: (List.replicate k '0' ++ ds)) := by
  refine ⟨['0'], List.replicate k '0' ++ ds, none, ?_, isWhole_zero, ?_,
    .inl (by simp [h.nonempty]), ?_⟩
  · simp [numeral, fractionForm, exponentForm, h.nonempty]
  · intro d hd
    exact (List.mem_append.1 hd).elim isAsciiDigit_of_mem_zeros (h.digits d)
  · rw [show ['0'] = List.replicate 1 '0' from rfl, Text.valueOfDigits_zeros,
      Text.valueOfDigits_zeros]
    congr 1
    simp only [Option.map_none, Option.getD_none, List.length_append, List.length_replicate]
    omega

/-- Digits with the point among them are a numeral. -/
theorem isNumeralOf_aroundPoint {ds : List Char} (h : IsWhole ds) {p : Nat} (hpos : 0 < p)
    (hp : p < ds.length) :
    IsNumeralOf (valueOfDigits (ds.filterMap asciiValue?)) (p - ds.length)
      (ds.take p ++ '.' :: ds.drop p) := by
  have htake : ds.take p ≠ [] := by
    rw [Ne, List.take_eq_nil_iff]
    rintro (hnil | hnil)
    · omega
    · exact h.nonempty hnil
  have hdrop : ds.drop p ≠ [] := by simpa using hp
  refine ⟨ds.take p, ds.drop p, none, ?_, ⟨htake, ?_, ?_⟩, ?_, .inl hdrop, ?_⟩
  · simp [numeral, fractionForm, exponentForm, hdrop]
  · exact fun d hd => h.digits d (List.mem_of_mem_take hd)
  · intro hhead
    rw [List.head?_take, if_neg (by omega)] at hhead
    rw [h.zero hhead] at hp
    simp at hp
    omega
  · exact fun d hd => h.digits d (List.mem_of_mem_drop hd)
  · rw [List.take_append_drop]
    congr 1
    simp only [Option.map_none, Option.getD_none, List.length_drop]
    omega

/-- Digits, zeros behind them and a fraction of one zero are a numeral; a single zero has no
zeros behind it. -/
theorem isNumeralOf_beforePoint {ds : List Char} (h : IsWhole ds) {k : Nat}
    (hzero : ds = ['0'] → k = 0) :
    IsNumeralOf (valueOfDigits (ds.filterMap asciiValue?)) k
      (ds ++ List.replicate k '0' ++ ['.', '0']) := by
  refine ⟨ds ++ List.replicate k '0', ['0'], none, ?_, ⟨?_, ?_, ?_⟩,
    List.forall_mem_singleton.2 (by decide), .inl (by simp), ?_⟩
  · simp [numeral, fractionForm, exponentForm]
  · simp [h.nonempty]
  · intro d hd
    exact (List.mem_append.1 hd).elim (h.digits d) isAsciiDigit_of_mem_zeros
  · intro hhead
    rw [List.head?_append_of_ne_nil _ h.nonempty] at hhead
    rw [h.zero hhead, hzero (h.zero hhead)]
    rfl
  · rw [List.append_assoc, ← List.replicate_succ', Text.valueOfDigits_append_zeros h.digits,
      Double.rankOfDecimal_mul_pow]
    congr 1
    simp only [Option.map_none, Option.getD_none, List.length_singleton]
    omega

/-- Digits with the decimal point among them or near them are a numeral. -/
theorem positional_isNumeralOf {n : Nat} {point : Int} (hzero : n = 0 → point = 1) :
    IsNumeralOf n (point - (Nat.toDigits 10 n).length)
      (Layout.positional (Nat.toDigits 10 n) point) := by
  have hwhole := isWhole_toDigits n
  have hvalue := Text.valueOfDigits_toDigits n
  have hlen : 0 < (Nat.toDigits 10 n).length := Nat.length_toDigits_pos
  generalize Nat.toDigits 10 n = ds at *
  unfold Layout.positional
  split
  · next hpoint =>
    have hbehind := isNumeralOf_behindPoint hwhole (-point).toNat
    rwa [hvalue, show -((-point).toNat : Int) = point by omega] at hbehind
  · next hpoint =>
    have hnat : (point.toNat : Int) = point := Int.toNat_of_nonneg (by omega)
    dsimp only
    split
    · next hp =>
      have haround := isNumeralOf_aroundPoint hwhole (by omega) hp
      rwa [hvalue, hnat] at haround
    · next hp =>
      have hbefore := isNumeralOf_beforePoint hwhole (k := point.toNat - ds.length) fun hds => by
        have hn : n = 0 := by rw [← hvalue, hds]; decide
        rw [hds, hzero hn]
        rfl
      rwa [hvalue, show ((point.toNat - ds.length : Nat) : Int) = point - ds.length by omega]
        at hbefore

/-- Digits with an exponent are a numeral. -/
theorem scientific_isNumeralOf (l : Layout) (n : Nat) (point : Int) :
    IsNumeralOf n (point - (Nat.toDigits 10 n).length)
      (l.scientific (Nat.toDigits 10 n) point) := by
  have hdigits : ∀ d ∈ Nat.toDigits 10 n, isAsciiDigit d = true :=
    fun d => Text.isAsciiDigit_of_mem_toDigits
  have hvalue := Text.valueOfDigits_toDigits n
  generalize hds : Nat.toDigits 10 n = ds at *
  cases ds with
  | nil => exact absurd hds Nat.toDigits_ne_nil
  | cons c cs =>
    have hwhole : IsWhole [c] := ⟨by simp, by simpa using hdigits c List.mem_cons_self, by simp⟩
    cases cs with
    | cons c' cs =>
      refine ⟨[c], c' :: cs, some (l.exponentWidth, point - 1), ?_, hwhole,
        fun d hd => hdigits d (List.mem_cons_of_mem c hd), .inl (by simp), ?_⟩
      · simp [Layout.scientific, numeral, fractionForm, exponentForm]
      · rw [List.singleton_append, hvalue]
        congr 1
        simp only [Option.map_some, Option.getD_some, List.length_cons]
        omega
    | nil =>
      cases hkeeps : l.keepsFraction with
      | false =>
        refine ⟨[c], [], some (l.exponentWidth, point - 1), ?_, hwhole, by simp, .inr (by simp), ?_⟩
        · simp [Layout.scientific, numeral, fractionForm, exponentForm, hkeeps]
        · rw [List.append_nil, hvalue]
          congr 1
          simp
      | true =>
        refine ⟨[c], ['0'], some (l.exponentWidth, point - 1), ?_, hwhole,
          List.forall_mem_singleton.2 (by decide), .inl (by simp), ?_⟩
        · simp [Layout.scientific, numeral, fractionForm, exponentForm, hkeeps]
        · rw [show ['0'] = List.replicate 1 '0' from rfl,
            Text.valueOfDigits_append_zeros hdigits, hvalue, Double.rankOfDecimal_mul_pow]
          congr 1
          simp

/-- The written form of a finite magnitude is a numeral of its shortest decimal. -/
theorem magnitude_isNumeralOf (l : Layout) (rank : Nat) :
    IsNumeralOf (Decimal.Shortest.ofRank rank).digits (Decimal.Shortest.ofRank rank).exponent
      (l.magnitude rank) := by
  generalize hd : Decimal.Shortest.ofRank rank = d
  have hpoint (point : Int) (cs : List Char)
      (hp : point = if d.digits = 0 then 1 else (Nat.toDigits 10 d.digits).length + d.exponent)
      (h : IsNumeralOf d.digits (point - (Nat.toDigits 10 d.digits).length) cs) :
      IsNumeralOf d.digits d.exponent cs := by
    by_cases hzero : d.digits = 0
    · simpa [IsNumeralOf, hzero, Double.rankOfDecimal] using h
    · rw [if_neg hzero] at hp
      rwa [hp, add_sub_cancel_left] at h
  simp only [Layout.magnitude, hd]
  generalize hp : (if d.digits = 0 then (1 : Int) else
    (Nat.toDigits 10 d.digits).length + d.exponent) = point
  split
  · exact hpoint point _ hp.symm (positional_isNumeralOf fun h => by rw [← hp, if_pos h])
  · exact hpoint point _ hp.symm (scientific_isNumeralOf l d.digits point)

/-- A finite number reads back, whatever the layout that it is written in. -/
theorem readNumber_magnitude (l : Layout) (left : List Char) (negative : Bool)
    {rank : Decimal.Rank} (hfinite : rank.val < infinityRank) (hrest : Stops rest) :
    readNumber left negative (l.magnitude rank ++ rest) =
      .ok (.float (.signed negative rank), rest) := by
  rw [readNumber_of_isNumeralOf left negative (magnitude_isNumeralOf l rank) hrest,
    Double.ofDecimal, Fin.ext (Decimal.Shortest.rankOfDecimal_ofRank hfinite)]

/-! ## Numbers among the scalars -/

/-- No word is found at the front of a text when none stands there. -/
theorem findSome?_words {cs : List Char} (h : ∀ w ∈ words, afterWord? w.1.toList cs = none) :
    (words.findSome? fun w => (afterWord? w.1.toList cs).map fun rest => (w.2, rest)) = none :=
  List.findSome?_eq_none_iff.2 fun w hw => by rw [h w hw]; rfl

theorem ne_of_isAsciiDigit {c w : Char} (hc : isAsciiDigit c = true)
    (hw : isAsciiDigit w = false) : w ≠ c := by
  rintro rfl
  rw [hc] at hw
  cases hw

/-- A text that starts with a digit is read as a number. -/
theorem readScalar_digit {c : Char} (hc : isAsciiDigit c = true) (cs : List Char) :
    readScalar (c :: cs) = readNumber (c :: cs) false (c :: cs) := by
  have hnone : ∀ w ∈ ['n', 't', 'f', 'N', 'I', '-'], isAsciiDigit w = false := by
    simp [isAsciiDigit]
  have hne : ∀ w ∈ ['n', 't', 'f', 'N', 'I', '-'], w ≠ c :=
    fun w hw => ne_of_isAsciiDigit hc (hnone w hw)
  simp only [List.forall_mem_cons] at hne
  have hwords : ∀ w ∈ words, afterWord? w.1.toList (c :: cs) = none := by
    simp [words, afterWord?, hne]
  unfold readScalar
  rw [findSome?_words hwords]
  dsimp only
  split
  · next h => exact absurd (List.cons.inj h).1.symm hne.2.2.2.2.2.1
  · rfl

/-- A minus in front of a digit is the sign of a number. -/
theorem readScalar_minus {c : Char} (hc : isAsciiDigit c = true) (cs : List Char) :
    readScalar ('-' :: c :: cs) = readNumber ('-' :: c :: cs) true (c :: cs) := by
  have hne : 'I' ≠ c := ne_of_isAsciiDigit hc (by decide)
  have hwords : ∀ w ∈ words, afterWord? w.1.toList ('-' :: c :: cs) = none := by
    simp [words, afterWord?, hne]
  unfold readScalar
  rw [findSome?_words hwords]
  rfl

/-- A text starts with a digit. -/
def StartsWithDigit (cs : List Char) : Prop :=
  ∃ c tail, cs = c :: tail ∧ isAsciiDigit c = true

theorem startsWithDigit_of_isWhole {whole : List Char} (h : IsWhole whole) (cs : List Char) :
    StartsWithDigit (whole ++ cs) := by
  obtain ⟨hne, hdigits, -⟩ := h
  cases whole with
  | nil => exact absurd rfl hne
  | cons c tail => exact ⟨c, tail ++ cs, rfl, hdigits c List.mem_cons_self⟩

theorem startsWithDigit_magnitude (l : Layout) (rank : Nat) :
    StartsWithDigit (l.magnitude rank) := by
  obtain ⟨whole, part, e, h, hwhole, -⟩ := magnitude_isNumeralOf l rank
  rw [h]
  exact startsWithDigit_of_isWhole hwhole _

/-- An integer of at most 4300 digits is read as it was written. -/
theorem readScalar_intChars {n : Int} (hn : n.natAbs < 10 ^ maxIntegerDigits)
    (hrest : Stops rest) : readScalar (Text.intChars n ++ rest) = .ok (.int n, rest) := by
  obtain ⟨c, tail, hdigits, hc⟩ := startsWithDigit_of_isWhole (isWhole_toDigits n.natAbs) rest
  unfold Text.intChars
  split
  · next hneg =>
    rw [List.cons_append, hdigits, readScalar_minus hc, ← hdigits,
      readNumber_toDigits _ true hn hrest, Text.signedInt, if_pos rfl]
    congr 3
    omega
  · next hpos =>
    rw [hdigits, readScalar_digit hc, ← hdigits, readNumber_toDigits _ false hn hrest,
      Text.signedInt, if_neg (by decide)]
    congr 3
    omega

/-- A finite number is read as it was written. -/
theorem readScalar_write (l : Layout) {x : Double} (hx : x.isFinite = true)
    (hrest : Stops rest) : readScalar (l.write x ++ rest) = .ok (.float x, rest) := by
  cases x with
  | nan => cases hx
  | signed negative rank =>
    have hfinite : rank.val < infinityRank := by simpa [Double.isFinite] using hx
    obtain ⟨c, tail, hmagnitude, hc⟩ := startsWithDigit_magnitude l rank
    cases negative with
    | false =>
      simp only [Layout.write, hfinite, if_true, Bool.false_eq_true, if_false]
      rw [hmagnitude, List.cons_append, readScalar_digit hc, ← List.cons_append, ← hmagnitude,
        readNumber_magnitude l _ false hfinite hrest]
    | true =>
      simp only [Layout.write, hfinite, if_true]
      rw [hmagnitude, List.cons_append, List.cons_append, readScalar_minus hc,
        ← List.cons_append, ← hmagnitude, readNumber_magnitude l _ true hfinite hrest]

end Json

end Nanoservice
