import Nanoservice.Proofs.Json.RoundTrip

/-!
# Texts with halves of surrogate pairs read back

Free text may hold half of a surrogate pair without the other half, and so may the values that are
made of it. Such a text is written with an escape for each half and read back where halves may stand
alone (`readSymbols_symbols`), as long as no second half follows a first one: the two would be read
as a character. Hence a value that free text can spell (`IsSpelled`) is read back from its text, on
one line or spread over many, in every style that writes special numbers by their names
(`read_write_plain`).
-/

namespace Nanoservice.Json

open Nanoservice.Decimal (Double Layout)
open Nanoservice.Text (maxIntegerDigits)

/-! ## Halves that are alone -/

/-- The symbol is the second half of a surrogate pair. -/
def isLow : Symbol → Bool
  | .char _ => false
  | .half s => isLowHalf s.unit

/-- The symbol is the first half of a surrogate pair. -/
def isHigh : Symbol → Bool
  | .char _ => false
  | .half s => isHighHalf s.unit

/-- The symbols of a text that is no sequence of characters: there is half of a surrogate pair, and
no two halves make a pair. -/
structure AreBroken (symbols : List Symbol) : Prop where
  half : ∃ unit, Symbol.half unit ∈ symbols
  apart : symbols.IsChain fun s t => ¬ (isHigh s = true ∧ isLow t = true)

/-- Symbols with half of a pair are no sequence of characters. -/
theorem ofSymbols_of_half {symbols : List Symbol} (h : ∃ unit, Symbol.half unit ∈ symbols) :
    RawText.ofSymbols symbols = .broken symbols := by
  have hnone : symbols.mapM Symbol.char? = none := by
    induction symbols with
    | nil =>
      obtain ⟨unit, hunit⟩ := h
      cases hunit
    | cons s ss ih =>
      cases s with
      | half unit => simp [Symbol.char?]
      | char c =>
        obtain ⟨unit, hunit⟩ := h
        have htail : ∃ unit, Symbol.half unit ∈ ss := by
          rcases List.mem_cons.1 hunit with heq | hunit
          · cases heq
          · exact ⟨unit, hunit⟩
        simp [List.mapM_cons, Symbol.char?, ih htail]
  rw [RawText.ofSymbols, hnone]

/-! ## Escapes of halves -/

variable {asciiOnly : Bool} {opening rest : List Char}

/-- A text does not start with the escape of a second half. -/
def StartsNoLow (cs : List Char) : Prop :=
  ∀ e f g h after tail, cs = '\\' :: 'u' :: e :: f :: g :: h :: after :: tail →
    ∃ unit, hexUnit? e f g h = some unit ∧ isLowHalf unit = false

theorem startsNoLow_unitEscape {unit : Nat} (hunit : unit < 65536) (h : isLowHalf unit = false)
    (cs : List Char) : StartsNoLow (unitEscape unit ++ cs) := by
  intro e f g h' after tail heq
  obtain ⟨-, -, rfl, rfl, rfl, rfl, -⟩ :
      '\\' = '\\' ∧ 'u' = 'u' ∧ hexDigit (unit / 4096 % 16) = e ∧ hexDigit (unit / 256 % 16) = f ∧
        hexDigit (unit / 16 % 16) = g ∧ hexDigit (unit % 16) = h' ∧ cs = after :: tail := by
    simpa [unitEscape] using heq
  exact ⟨unit, hexUnit?_hexDigits hunit, h⟩

theorem unit_lt (s : Surrogate) : s.unit < 65536 := by
  have hunit := s.isHalf
  omega

/-- The form of a symbol other than a second half does not start with the escape of one. -/
theorem startsNoLow_symbolForm {s : Symbol} (hlow : isLow s = false)
    (cs : List Char) : StartsNoLow (symbolForm asciiOnly s ++ cs) := by
  cases s with
  | half s => exact startsNoLow_unitEscape (unit_lt s) hlow cs
  | char c =>
    obtain ⟨hhigh, hlow⟩ := not_half_of_char c
    rw [symbolForm]
    rcases charForm_cases asciiOnly c with ⟨e, h, hu, -⟩ | ⟨h, hsmall⟩ | ⟨h, hlarge⟩ |
      ⟨h, -, hback, -⟩
    · rw [h]
      intro e' f g h' after tail heq
      exact absurd (List.cons.inj (List.cons.inj heq).2).1 hu
    · rw [h]
      exact startsNoLow_unitEscape hsmall hlow cs
    · obtain ⟨hhigh, -, -⟩ := pairChar_of_char hlarge
      have hfirst : 0xD800 + (c.toNat - 0x10000) / 0x400 < 65536 ∧
          isLowHalf (0xD800 + (c.toNat - 0x10000) / 0x400) = false := by
        simp only [isHighHalf, isLowHalf, Bool.and_eq_true, Bool.and_eq_false_iff,
          decide_eq_true_eq, decide_eq_false_iff_not] at hhigh ⊢
        omega
      rw [h, List.append_assoc]
      exact startsNoLow_unitEscape hfirst.1 hfirst.2 _
    · rw [h]
      intro e f g h' after tail heq
      exact absurd (List.cons.inj heq).1 hback

/-- The escape of a half is read back as the half, if a first one is not completed. -/
theorem readPiece_half {s : Surrogate} (hrest : rest ≠ [])
    (hnext : isHighHalf s.unit = true → StartsNoLow rest) :
    readPiece false opening (unitEscape s.unit ++ rest) = .ok (.symbol (.half s), rest) := by
  obtain ⟨next, tail, rfl⟩ := List.exists_cons_of_ne_nil hrest
  have hsymbol : unitSymbol s.unit = .half s := dif_pos s.isHalf
  simp only [unitEscape, List.cons_append, List.nil_append, readPiece, readUnit,
    hexUnit?_hexDigits (unit_lt s), Bool.false_and, Bool.false_eq_true, if_false, hsymbol]
  split
  · next hhigh =>
    split
    · next e f g h after tail' heq =>
      obtain ⟨low, hlow, hno⟩ := hnext hhigh e f g h after tail' heq
      simp [hlow, hno, heq]
    · rfl
  · rfl

/-- Symbols are read back up to the closing quote of their text. -/
theorem readSymbols_symbols {ss : List Symbol}
    (hapart : ss.IsChain fun s t => ¬ (isHigh s = true ∧ isLow t = true)) {fuel : Nat}
    (hfuel : ss.length < fuel) :
    readSymbols false opening fuel (ss.flatMap (symbolForm asciiOnly) ++ '"' :: rest) =
      .ok (ss, rest) := by
  induction ss generalizing fuel with
  | nil =>
    obtain ⟨fuel, rfl⟩ := Nat.exists_eq_add_of_lt hfuel
    rfl
  | cons s ss ih =>
    rw [List.length_cons] at hfuel
    obtain ⟨fuel, rfl⟩ : ∃ n, fuel = n + 1 := ⟨fuel - 1, by omega⟩
    have hpiece : readPiece false opening (symbolForm asciiOnly s ++
        (ss.flatMap (symbolForm asciiOnly) ++ '"' :: rest)) =
        .ok (.symbol s, ss.flatMap (symbolForm asciiOnly) ++ '"' :: rest) := by
      cases s with
      | char c => exact readPiece_charForm asciiOnly c (by simp)
      | half s =>
        refine readPiece_half (by simp) fun hhigh => ?_
        cases ss with
        | nil =>
          intro e f g h after tail heq
          cases heq
        | cons t ss =>
          rw [List.isChain_cons_cons] at hapart
          have hlow : isLow t = false := Bool.eq_false_iff.2 fun hlow => hapart.1 ⟨hhigh, hlow⟩
          rw [List.flatMap_cons, List.append_assoc]
          exact startsNoLow_symbolForm hlow _
    rw [readSymbols, List.flatMap_cons, List.append_assoc, hpiece]
    have hmore := ih hapart.tail (Nat.lt_of_succ_lt_succ hfuel)
    simp only [hmore]

/-! ## Values -/

/-- The texts that free text can spell. -/
def IsSpelledText : RawText → Prop
  | .plain _ => True
  | .broken symbols => AreBroken symbols

/-- The values that free text can spell. -/
inductive IsSpelled : Json → Prop where
  | null : IsSpelled .null
  | bool (b : Bool) : IsSpelled (.bool b)
  | int {n : Int} (h : n.natAbs < 10 ^ maxIntegerDigits) : IsSpelled (.int n)
  | float (x : Double) : IsSpelled (.float x)
  | str (s : String) : IsSpelled (.str s)
  | broken {symbols : List Symbol} (h : AreBroken symbols) : IsSpelled (.broken symbols)
  | arr {vs : List Json} (h : ∀ v ∈ vs, IsSpelled v) : IsSpelled (.arr vs)
  | obj {fs : List (RawText × Json)} (hkeys : (fs.map Prod.fst).Nodup)
      (htexts : ∀ f ∈ fs, IsSpelledText f.1) (h : ∀ f ∈ fs, IsSpelled f.2) : IsSpelled (.obj fs)

/-- A text that free text can spell is the one that its symbols make. -/
theorem IsSpelledText.ofSymbols_symbols {t : RawText} (ht : IsSpelledText t) :
    .ofSymbols t.symbols = t := by
  cases t with
  | plain s => exact RawText.ofSymbols_symbols_plain s
  | broken symbols => exact ofSymbols_of_half ht.half

theorem isSpelled_ofText {t : RawText} (ht : IsSpelledText t) : IsSpelled (.ofText t) := by
  cases t with
  | plain s => exact .str s
  | broken symbols => exact .broken ht

variable {style : Style} {special : Double → Json}

/-- A text that free text can spell is read back where halves may stand alone. -/
theorem IsSpelledText.textReadsBack {t : RawText} (ht : IsSpelledText t) (asciiOnly : Bool) :
    TextReadsBack false asciiOnly t := by
  cases t with
  | plain s => exact textReadsBack_plain false asciiOnly s
  | broken symbols =>
    exact ⟨fun _ _ _ hfuel => readSymbols_symbols ht.apart hfuel,
      ofSymbols_of_half ht.half⟩

/-- Every value that free text can spell is read back from its written form. -/
theorem readsBack_of_isSpelled (h : style.IsReadable special) {v : Json} (hv : IsSpelled v) :
    ReadsBack false style special v := by
  induction hv with
  | arr _ ih => exact readsBack_arr h ih
  | obj hkeys htexts _ ih =>
    exact readsBack_obj h hkeys (fun f hf => (htexts f hf).textReadsBack style.asciiOnly) ih
  | null => exact readsBack_of_isRead h .null
  | bool b => exact readsBack_of_isRead h (.bool b)
  | int hn => exact readsBack_of_isRead h (.int hn)
  | float x => exact readsBack_of_isRead h (.float x)
  | str s => exact readsBack_of_isRead h (.str s)
  | @broken symbols hbroken =>
    exact readsBack_ofText (t := .broken symbols) h
      (IsSpelledText.textReadsBack (t := .broken symbols) hbroken style.asciiOnly)

/-! ## Plain styles -/

mutual
/-- Special numbers that stand for themselves leave a value as it is. -/
theorem withSpecial_float : ∀ v : Json, withSpecial (fun x => .float x) v = v
  | .float x => by simp only [withSpecial, ite_self]
  | .arr vs => by rw [withSpecial, withSpecialItems_float vs]
  | .obj fs => by rw [withSpecial, withSpecialFields_float fs]
  | .null | .bool _ | .int _ | .str _ | .broken _ => by simp only [withSpecial]

theorem withSpecialItems_float :
    ∀ vs : List Json, withSpecialItems (fun x => .float x) vs = vs
  | [] => rfl
  | v :: vs => by rw [withSpecialItems, withSpecial_float v, withSpecialItems_float vs]

theorem withSpecialFields_float :
    ∀ fs : List (RawText × Json), withSpecialFields (fun x => .float x) fs = fs
  | [] => rfl
  | (k, v) :: fs => by rw [withSpecialFields, withSpecial_float v, withSpecialFields_float fs]
end

/-- A style of JSON that writes special numbers by their names: blanks may stand behind commas and
colons, and characters outside ASCII may be escaped or not. -/
structure Style.IsPlain (style : Style) : Prop where
  comma : ∃ blanks, style.comma.toList = ',' :: blanks ∧ ∀ c ∈ blanks, isBlank c = true
  colon : ∃ blanks, style.colon.toList = ':' :: blanks ∧ ∀ c ∈ blanks, isBlank c = true
  number : style.number = plainNumber

theorem isPlain_line : Style.line.IsPlain where
  comma := ⟨[' '], by simp [Style.line], List.forall_mem_singleton.2 (by decide)⟩
  colon := ⟨[' '], by simp [Style.line], List.forall_mem_singleton.2 (by decide)⟩
  number := rfl

theorem isPlain_spread (indent : Nat) : (Style.spread indent).IsPlain where
  comma := ⟨[' '], by simp [Style.spread], List.forall_mem_singleton.2 (by decide)⟩
  colon := ⟨[' '], by simp [Style.spread], List.forall_mem_singleton.2 (by decide)⟩
  number := rfl

/-- Where special numbers are written by their names they are read as themselves. -/
theorem Style.IsPlain.isReadable (h : style.IsPlain) : style.IsReadable fun x => .float x where
  comma := h.comma
  colon := h.colon
  special x hx := by
    rw [h.number]
    cases x with
    | nan =>
      have hwrite : plainNumber.write .nan = ['N', 'a', 'N'] := by
        simp [Layout.write, plainNumber]
      rw [hwrite]
      exact ⟨⟨'N', _, rfl, by decide⟩, fun rest => rfl⟩
    | signed negative rank =>
      have hinfinite : ¬ rank.val < Decimal.infinityRank := by simpa [Double.isFinite] using hx
      obtain rfl : rank = Fin.last Decimal.infinityRank :=
        Fin.ext (Nat.le_antisymm (Nat.le_of_lt_succ rank.isLt) (Nat.le_of_not_lt hinfinite))
      cases negative with
      | false =>
        have hwrite : plainNumber.write (.signed false (Fin.last _)) = "Infinity".toList := by
          simp [Layout.write, plainNumber]
        rw [hwrite]
        exact ⟨⟨'I', _, rfl, by decide⟩, fun rest => rfl⟩
      | true =>
        have hwrite : plainNumber.write (.signed true (Fin.last _)) = "-Infinity".toList := by
          simp [Layout.write, plainNumber]
        rw [hwrite]
        exact ⟨⟨'-', _, rfl, by decide⟩, fun rest => rfl⟩

/-- The text of a value in a plain style is read back as the value. -/
theorem read_write_plain (h : style.IsPlain) {v : Json} (hv : IsSpelled v) :
    read (v.write style) = .ok v := by
  have hread := readChars_of_readsBack h.isReadable (readsBack_of_isSpelled h.isReadable hv)
  rw [read, write, String.toList_ofList, hread, withSpecial_float]

/-- The text that spreads a value over lines is read back as the value. -/
theorem read_write_spread (indent : Nat) {v : Json} (hv : IsSpelled v) :
    read (v.write (.spread indent)) = .ok v :=
  read_write_plain (isPlain_spread indent) hv

end Nanoservice.Json
