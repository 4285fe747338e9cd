import Nanoservice.Json.Reader
import Nanoservice.Json.Writer

/-!
# Texts read back

Every character of a text is read back from its written form (`readPiece_charForm`), be it escaped,
escaped as a surrogate pair, or left as it is; so a written text is read back up to its closing
quote (`readSymbols_written`). This holds whether or not halves of pairs may stand alone, since no
character is one.
-/

namespace Nanoservice.Json

/-! ## Escapes -/

theorem hexValue?_hexDigit {n : Nat} (h : n < 16) : hexValue? (hexDigit n) = some n := by
  revert n
  decide

/-- Four digits read back as the unit that they were written for. -/
theorem hexUnit?_hexDigits {n : Nat} (h : n < 65536) :
    hexUnit? (hexDigit (n / 4096 % 16)) (hexDigit (n / 256 % 16)) (hexDigit (n / 16 % 16))
      (hexDigit (n % 16)) = some n := by
  have hdigit (k : Nat) : hexValue? (hexDigit (k % 16)) = some (k % 16) :=
    hexValue?_hexDigit (Nat.mod_lt k (by decide))
  simp only [hexUnit?, hdigit, Option.pure_def, Option.bind_eq_bind, Option.bind_some,
    Option.some.injEq]
  omega

variable {pairsOnly : Bool} {opening rest : List Char}

/-- An escape of a unit that is no half of a pair reads back as its character. -/
theorem readPiece_unitEscape {n : Nat} (hn : n < 65536) (hhigh : isHighHalf n = false)
    (hlow : isLowHalf n = false) (hrest : rest ≠ []) :
    readPiece pairsOnly opening (unitEscape n ++ rest) =
      .ok (.symbol (.char (Char.ofNat n)), rest) := by
  have hsymbol : unitSymbol n = .char (Char.ofNat n) := by
    refine dif_neg fun hhalf => ?_
    simp only [isHighHalf, isLowHalf, Bool.and_eq_false_iff, decide_eq_false_iff_not] at hhigh hlow
    omega
  cases rest with
  | nil => exact absurd rfl hrest
  | cons next tail =>
    simp [unitEscape, readPiece, readUnit, hexUnit?_hexDigits hn, hhigh, hlow, hsymbol]

/-- The escapes of two halves read back as the character of their pair. -/
theorem readPiece_pair {high low : Nat} (hhigh : isHighHalf high = true)
    (hlow : isLowHalf low = true) (hrest : rest ≠ []) :
    readPiece pairsOnly opening (unitEscape high ++ unitEscape low ++ rest) =
      .ok (.symbol (.char (pairChar high low)), rest) := by
  have hh : high < 65536 := by
    simp only [isHighHalf, Bool.and_eq_true, decide_eq_true_eq] at hhigh
    omega
  have hl : low < 65536 := by
    simp only [isLowHalf, Bool.and_eq_true, decide_eq_true_eq] at hlow
    omega
  cases rest with
  | nil => exact absurd rfl hrest
  | cons next tail =>
    simp [unitEscape, readPiece, readUnit, hexUnit?_hexDigits hh, hexUnit?_hexDigits hl, hhigh,
      hlow]

/-- No character is half of a surrogate pair. -/
theorem not_half_of_char (c : Char) : isHighHalf c.toNat = false ∧ isLowHalf c.toNat = false := by
  have hvalid : c.toNat < 0xD800 ∨ 0xDFFF < c.toNat ∧ c.toNat < 0x110000 := c.valid
  simp only [isHighHalf, isLowHalf, Bool.and_eq_false_iff, decide_eq_false_iff_not]
  omega

/-- A one-letter escape reads back as its character. -/
theorem readPiece_escape {c e : Char} (hu : e ≠ 'u') (h : escapeChar? e = some c) :
    readPiece pairsOnly opening ('\\' :: e :: rest) = .ok (.symbol (.char c), rest) := by
  unfold readPiece
  split
  · next heq => cases heq
  · next heq => cases heq
  · next heq => cases heq
  · next heq => exact absurd (List.cons.inj (List.cons.inj heq).2).1 hu
  · next heq => cases heq; simp [h]
  · next hback heq => cases heq; exact absurd rfl (hback e rest rfl)

/-- A character that needs no escape reads back as itself. -/
theorem readPiece_self {c : Char} (hquote : c ≠ '"') (hback : c ≠ '\\')
    (hcontrol : ¬ c.toNat < 0x20) :
    readPiece pairsOnly opening (c :: rest) = .ok (.symbol (.char c), rest) := by
  unfold readPiece
  split
  · next heq => cases heq
  · next heq => exact absurd (List.cons.inj heq).1 hquote
  · next heq => exact absurd (List.cons.inj heq).1 hback
  · next heq => exact absurd (List.cons.inj heq).1 hback
  · next heq => exact absurd (List.cons.inj heq).1 hback
  · next heq => cases heq; simp [hcontrol]

/-! ## Characters -/

/-- The four ways to write a character: a one-letter escape, the escape of its unit, the escapes of
its surrogate pair, or the character itself. -/
theorem charForm_cases (asciiOnly : Bool) (c : Char) :
    (∃ e, charForm asciiOnly c = ['\\', e] ∧ e ≠ 'u' ∧ escapeChar? e = some c) ∨
    (charForm asciiOnly c = unitEscape c.toNat ∧ c.toNat < 0x10000) ∨
    (charForm asciiOnly c = unitEscape (0xD800 + (c.toNat - 0x10000) / 0x400) ++
      unitEscape (0xDC00 + (c.toNat - 0x10000) % 0x400) ∧ 0x10000 ≤ c.toNat) ∨
    (charForm asciiOnly c = [c] ∧ c ≠ '"' ∧ c ≠ '\\' ∧ ¬ c.toNat < 0x20) := by
  generalize hform : charForm asciiOnly c = form
  have hshort {d e : Char} (hd : c = d) (he : ['\\', e] = form) (hu : e ≠ 'u')
      (hread : escapeChar? e = some d) :
      ∃ e, form = ['\\', e] ∧ e ≠ 'u' ∧ escapeChar? e = some c :=
    ⟨e, he.symm, hu, hd ▸ hread⟩
  unfold charForm at hform
  split at hform
  · next h => exact .inl (hshort h hform (by decide) rfl)
  split at hform
  · next h => exact .inl (hshort h hform (by decide) rfl)
  split at hform
  · next h => exact .inl (hshort h hform (by decide) rfl)
  split at hform
  · next h => exact .inl (hshort h hform (by decide) rfl)
  split at hform
  · next h => exact .inl (hshort h hform (by decide) rfl)
  split at hform
  · next h => exact .inl (hshort h hform (by decide) rfl)
  split at hform
  · next h => exact .inl (hshort h hform (by decide) rfl)
  split at hform
  · next h => exact .inr (.inl ⟨hform.symm, by omega⟩)
  split at hform
  · next h => exact .inr (.inr (.inl ⟨hform.symm, h.2⟩))
  split at hform
  · next hpair h =>
    exact .inr (.inl ⟨hform.symm, Nat.lt_of_not_le fun hbig => hpair ⟨h.1, hbig⟩⟩)
  · next hquote hback _ _ _ _ _ hcontrol _ _ =>
    exact .inr (.inr (.inr ⟨hform.symm, hquote, hback, hcontrol⟩))

/-- A character is the one of the surrogate pair that it is written as. -/
theorem pairChar_of_char {c : Char} (h : 0x10000 ≤ c.toNat) :
    isHighHalf (0xD800 + (c.toNat - 0x10000) / 0x400) = true ∧
      isLowHalf (0xDC00 + (c.toNat - 0x10000) % 0x400) = true ∧
      pairChar (0xD800 + (c.toNat - 0x10000) / 0x400) (0xDC00 + (c.toNat - 0x10000) % 0x400) =
        c := by
  have hvalid : c.toNat < 0xD800 ∨ 0xDFFF < c.toNat ∧ c.toNat < 0x110000 := c.valid
  refine ⟨?_, ?_, ?_⟩
  · simp only [isHighHalf, Bool.and_eq_true, decide_eq_true_eq]
    omega
  · simp only [isLowHalf, Bool.and_eq_true, decide_eq_true_eq]
    omega
  · have hcode : 0x10000 + (0xD800 + (c.toNat - 0x10000) / 0x400 - 0xD800) * 0x400 +
        (0xDC00 + (c.toNat - 0x10000) % 0x400 - 0xDC00) = c.toNat := by omega
    rw [pairChar, hcode, Char.ofNat_toNat]

/-- The written form of a character reads back as the character. -/
theorem readPiece_charForm (asciiOnly : Bool) (c : Char) (hrest : rest ≠ []) :
    readPiece pairsOnly opening (charForm asciiOnly c ++ rest) =
      .ok (.symbol (.char c), rest) := by
  obtain ⟨hhigh, hlow⟩ := not_half_of_char c
  rcases charForm_cases asciiOnly c with ⟨e, h, hu, he⟩ | ⟨h, hsmall⟩ | ⟨h, hlarge⟩ |
    ⟨h, hquote, hback, hcontrol⟩
  · rw [h]
    exact readPiece_escape hu he
  · rw [h, readPiece_unitEscape hsmall hhigh hlow hrest, Char.ofNat_toNat]
  · obtain ⟨hhigh', hlow', hpair⟩ := pairChar_of_char hlarge
    rw [h, readPiece_pair hhigh' hlow' hrest, hpair]
  · rw [h]
    exact readPiece_self hquote hback hcontrol

theorem charForm_ne_nil (asciiOnly : Bool) (c : Char) : 1 ≤ (charForm asciiOnly c).length := by
  rcases charForm_cases asciiOnly c with ⟨e, h, -⟩ | ⟨h, -⟩ | ⟨h, -⟩ | ⟨h, -⟩ <;>
    simp [h, unitEscape]

/-! ## Whole texts -/

/-- A written text is read back up to its closing quote. -/
theorem readSymbols_written (asciiOnly : Bool) {cs : List Char} {fuel : Nat}
    (hfuel : cs.length < fuel) :
    readSymbols pairsOnly opening fuel (cs.flatMap (charForm asciiOnly) ++ '"' :: rest) =
      .ok (cs.map .char, rest) := by
  induction cs generalizing fuel with
  | nil =>
    obtain ⟨fuel, rfl⟩ := Nat.exists_eq_add_of_lt hfuel
    rfl
  | cons c cs ih =>
    rw [List.length_cons] at hfuel
    obtain ⟨fuel, rfl⟩ : ∃ n, fuel = n + 1 := ⟨fuel - 1, by omega⟩
    rw [readSymbols, List.flatMap_cons, List.append_assoc,
      readPiece_charForm asciiOnly c (by simp)]
    simp only [ih (show cs.length < fuel by omega), List.map_cons]

/-- A written text holds the forms of its symbols between quotes. -/
theorem writeText_eq (asciiOnly : Bool) (t : RawText) :
    writeText asciiOnly t = '"' :: (t.symbols.flatMap (symbolForm asciiOnly) ++ ['"']) := by
  cases t with
  | plain s => rw [writeText, RawText.symbols, List.flatMap_map]; rfl
  | broken symbols => rfl

/-- Symbols are no more than the characters that write them. -/
theorem length_le_symbolForms (asciiOnly : Bool) (ss : List Symbol) :
    ss.length ≤ (ss.flatMap (symbolForm asciiOnly)).length := by
  have hpos (s : Symbol) : 0 < (symbolForm asciiOnly s).length := by
    cases s with
    | char c => exact charForm_ne_nil asciiOnly c
    | half unit => exact Nat.succ_pos _
  induction ss with
  | nil => exact Nat.le_refl 0
  | cons s ss ih =>
    have hs := hpos s
    rw [List.flatMap_cons, List.length_append, List.length_cons]
    omega

/-- A written text is longer than the text. -/
theorem length_writeText (asciiOnly : Bool) (t : RawText) :
    t.symbols.length + 2 ≤ (writeText asciiOnly t).length := by
  have h := length_le_symbolForms asciiOnly t.symbols
  simp only [writeText_eq, List.length_cons, List.length_append, List.length_nil]
  omega

/-- A text is read back from its written form, wherever it stands. -/
structure TextReadsBack (pairsOnly asciiOnly : Bool) (t : RawText) : Prop where
  symbols : ∀ opening fuel rest, t.symbols.length < fuel →
    readSymbols pairsOnly opening fuel (t.symbols.flatMap (symbolForm asciiOnly) ++ '"' :: rest) =
      .ok (t.symbols, rest)
  text : RawText.ofSymbols t.symbols = t

/-- A plain text is read back, whether or not halves of pairs may stand alone. -/
theorem textReadsBack_plain (pairsOnly asciiOnly : Bool) (s : String) :
    TextReadsBack pairsOnly asciiOnly (.plain s) where
  symbols opening fuel rest hfuel := by
    rw [RawText.symbols, List.length_map] at hfuel
    rw [RawText.symbols, List.flatMap_map]
    exact readSymbols_written asciiOnly hfuel
  text := by rw [RawText.ofSymbols_symbols_plain]

end Nanoservice.Json
