import Mathlib.Data.Nat.Digits.Lemmas
import Nanoservice.Json.Reader
import Nanoservice.Literal

/-!
# Reading source literals back

A reader of literals of the source language of generated services, and that it gives back every
text that was written as one (`Literal.readRaw?_rawChars`) and every list of texts
(`Literal.readTexts?_texts`), whatever symbols they hold. A literal never spans two lines
(`Literal.newline_not_mem_rawChars`).

The reader takes quoted literals with the escapes that the language has for the backslash, the
quotes, the line and tab controls and for code points. It refuses what it does not know: other
escapes, line breaks, and an empty literal in front of one more quote, with which a longer kind of
quotes begins.
-/

namespace Nanoservice.Literal

/-! ## The reader -/

/-- The number that hexadecimal digits behind a number make of it. -/
def hexNumber? (ds : List Char) (n : Nat) : Option Nat :=
  ds.foldlM (fun n d => (Json.hexValue? d).map (16 * n + ·)) n

/-- How many digits follow the mark of an escape of a code point. -/
def digitCount? : Char → Option Nat
  | 'x' => some 2
  | 'u' => some 4
  | 'U' => some 8
  | _ => none

/-- The characters that one-letter escapes stand for. -/
def escaped? : Char → Option Char
  | '\\' => some '\\'
  | '\'' => some '\''
  | '"' => some '"'
  | 't' => some '\t'
  | 'n' => some '\n'
  | 'r' => some '\r'
  | _ => none

/-- The symbol of a code point, which may be half of a surrogate pair. -/
def symbolOf? (n : Nat) : Option Symbol :=
  if n.isValidChar then some (.char (Char.ofNat n))
  else if h : 0xD800 ≤ n ∧ n ≤ 0xDFFF then some (.half ⟨n, h⟩)
  else none

/-- Reads an escape behind its backslash. -/
def readEscape? : List Char → Option (Symbol × List Char)
  | [] => none
  | mark :: cs =>
    match digitCount? mark with
    | none => (escaped? mark).map fun c => (.char c, cs)
    | some k =>
      if k ≤ cs.length then
        ((hexNumber? (cs.take k) 0).bind symbolOf?).map fun s => (s, cs.drop k)
      else none

/-- Reads a symbol of a literal. -/
def readSymbol? : List Char → Option (Symbol × List Char)
  | [] => none
  | c :: cs => if c = '\n' then none else if c = '\\' then readEscape? cs else some (.char c, cs)

/-- Reads the symbols of a literal up to its closing quote. -/
def readSymbols? (quote : Char) : Nat → List Char → Option (List Symbol × List Char)
  | 0, _ => none
  | fuel + 1, cs =>
    if cs.head? = some quote then some ([], cs.tail)
    else do
      let (s, rest) ← readSymbol? cs
      let (ss, rest) ← readSymbols? quote fuel rest
      return (s :: ss, rest)

/-- Reads a text of any symbols. -/
def readRaw? : List Char → Option (RawText × List Char)
  | [] => none
  | q :: cs =>
    if q = '\'' ∨ q = '"' then
      match readSymbols? q (cs.length + 1) cs with
      | some (ss, rest) =>
        if ss = [] ∧ rest.head? = some q then none else some (.ofSymbols ss, rest)
      | none => none
    else none

/-- Reads a text of characters. -/
def readText? (cs : List Char) : Option (String × List Char) :=
  match readRaw? cs with
  | some (.plain s, rest) => some (s, rest)
  | _ => none

/-- Reads the texts of a list up to its closing bracket. -/
def readItems? : Nat → List Char → Option (List RawText × List Char)
  | 0, _ => none
  | fuel + 1, cs => do
    let (s, rest) ← readRaw? cs
    match rest with
    | ']' :: rest => return ([s], rest)
    | ',' :: ' ' :: rest => do
      let (ss, rest) ← readItems? fuel rest
      return (s :: ss, rest)
    | _ => none

/-- Reads a list of texts. -/
def readTexts? : List Char → Option (List RawText × List Char)
  | '[' :: cs => if cs.head? = some ']' then some ([], cs.tail) else readItems? (cs.length + 1) cs
  | _ => none

/-! ## Code points -/

theorem hexNumber?_append (as bs : List Char) (n : Nat) :
    hexNumber? (as ++ bs) n = (hexNumber? as n).bind (hexNumber? bs) := by
  rw [hexNumber?, List.foldlM_append]
  rfl

theorem hexNumber?_singleton {d : Nat} (h : d < 16) (n : Nat) :
    hexNumber? [Nat.digitChar d] n = some (16 * n + d) := by
  have hvalue : ∀ d < 16, Json.hexValue? (Nat.digitChar d) = some d := by decide
  simp [hexNumber?, hvalue d h]

/-- The hexadecimal digits of a number write it. -/
theorem hexNumber?_toDigits (n : Nat) : hexNumber? (Nat.toDigits 16 n) 0 = some n := by
  induction n using Nat.strong_induction_on with
  | h n ih =>
    rcases Nat.lt_or_ge n 16 with hn | hn
    · rw [Nat.toDigits_of_lt_base hn, hexNumber?_singleton hn, Nat.mul_zero, Nat.zero_add]
    · have hdiv : n / 16 < n := Nat.div_lt_self (by omega) (by decide)
      rw [Nat.toDigits_of_base_le (by decide) hn, hexNumber?_append, ih _ hdiv, Option.bind_some,
        hexNumber?_singleton (Nat.mod_lt n (by decide)), Nat.div_add_mod]

/-- Zeros in front of digits do not count. -/
theorem hexNumber?_zeros (k : Nat) (ds : List Char) :
    hexNumber? (List.replicate k '0' ++ ds) 0 = hexNumber? ds 0 := by
  induction k with
  | zero => rfl
  | succ k ih => exact ih

theorem hexNumber?_hexDigits (width n : Nat) : hexNumber? (hexDigits width n) 0 = some n := by
  rw [hexDigits, hexNumber?_zeros, hexNumber?_toDigits]

/-- A number that fits has as many digits as it is given. -/
theorem length_hexDigits {width n : Nat} (hwidth : 0 < width) (h : n < 16 ^ width) :
    (hexDigits width n).length = width := by
  have hlength := (Nat.length_toDigits_le_iff (by decide) hwidth).2 h
  rw [hexDigits, List.length_append, List.length_replicate]
  omega

theorem symbolOf?_char (c : Char) : symbolOf? c.toNat = some (.char c) := by
  have hvalid : c.toNat.isValidChar := c.valid
  rw [symbolOf?, if_pos hvalid, Char.ofNat_toNat]

theorem symbolOf?_half (s : Surrogate) : symbolOf? s.unit = some (.half s) := by
  have hunit := s.isHalf
  have hvalid : ¬ s.unit.isValidChar := by
    rw [Nat.isValidChar]
    omega
  rw [symbolOf?, if_neg hvalid, dif_pos s.isHalf]

/-- An escape of a code point is read back. -/
theorem readEscape?_hexDigits {mark : Char} {width n : Nat} {s : Symbol}
    (hmark : digitCount? mark = some width) (hwidth : 0 < width) (h : n < 16 ^ width)
    (hsymbol : symbolOf? n = some s) (rest : List Char) :
    readEscape? (mark :: (hexDigits width n ++ rest)) = some (s, rest) := by
  have hlength := length_hexDigits hwidth h
  simp [readEscape?, hmark, hlength, hexNumber?_hexDigits, hsymbol, List.take_left',
    List.drop_left']

/-- The escape of a symbol by its code point is read back. -/
theorem readSymbol?_codeEscape {n : Nat} {s : Symbol} (hbound : n < 16 ^ 8)
    (hsymbol : symbolOf? n = some s) (rest : List Char) :
    readSymbol? (codeEscape n ++ rest) = some (s, rest) := by
  have htwo : digitCount? 'x' = some 2 := rfl
  have hfour : digitCount? 'u' = some 4 := rfl
  have height : digitCount? 'U' = some 8 := rfl
  rw [codeEscape]
  split
  · next h => exact readEscape?_hexDigits htwo (by decide) h hsymbol rest
  · split
    · next h => exact readEscape?_hexDigits hfour (by decide) h hsymbol rest
    · exact readEscape?_hexDigits height (by decide) hbound hsymbol rest

/-! ## Texts -/

section
variable {q : Char} (hq : q = '\'' ∨ q = '"')
include hq

/-- A character in its form is read back. -/
theorem readSymbol?_charForm (c : Char) (rest : List Char) :
    readSymbol? (charForm q c ++ rest) = some (.char c, rest) := by
  rw [charForm]
  split
  · next h =>
    have hescaped : ∀ c : Char, c = '\'' ∨ c = '"' ∨ c = '\\' →
        readSymbol? ('\\' :: c :: rest) = some (.char c, rest) := by
      rintro c (rfl | rfl | rfl) <;> rfl
    rcases h with rfl | rfl
    · exact hescaped c (hq.imp_right .inl)
    · exact hescaped _ (.inr (.inr rfl))
  · next hplain =>
    split
    · next h => rw [h]; rfl
    · split
      · next h => rw [h]; rfl
      · next hline =>
        split
        · next h => rw [h]; rfl
        · split
          · rw [List.singleton_append, readSymbol?, if_neg hline, if_neg fun h => hplain (.inr h)]
          · have hvalid := c.valid
            simp only [UInt32.isValidChar, Nat.isValidChar] at hvalid
            exact readSymbol?_codeEscape (by rw [Char.toNat]; omega) (symbolOf?_char c) rest

/-- A symbol in its form is read back. -/
theorem readSymbol?_symbolForm (s : Symbol) (rest : List Char) :
    readSymbol? (symbolForm q s ++ rest) = some (s, rest) := by
  cases s with
  | char c => exact readSymbol?_charForm hq c rest
  | half s =>
    have hunit := s.isHalf
    exact readSymbol?_codeEscape (by omega) (symbolOf?_half s) rest

theorem head?_codeEscape (n : Nat) : ∃ d ds, codeEscape n = d :: ds ∧ d ≠ q := by
  have hslash : '\\' ≠ q := by rcases hq with rfl | rfl <;> decide
  rw [codeEscape]
  split
  · exact ⟨_, _, rfl, hslash⟩
  · split <;> exact ⟨_, _, rfl, hslash⟩

/-- The form of a symbol is not empty and does not begin with the quote. -/
theorem head?_symbolForm (s : Symbol) : ∃ d ds, symbolForm q s = d :: ds ∧ d ≠ q := by
  have hslash : '\\' ≠ q := by rcases hq with rfl | rfl <;> decide
  cases s with
  | half s => exact head?_codeEscape hq s.unit
  | char c =>
    rw [symbolForm, charForm]
    split
    · exact ⟨_, _, rfl, hslash⟩
    · next hplain =>
      split
      · exact ⟨_, _, rfl, hslash⟩
      · split
        · exact ⟨_, _, rfl, hslash⟩
        · split
          · exact ⟨_, _, rfl, hslash⟩
          · split
            · exact ⟨c, _, rfl, fun h => hplain (.inl h)⟩
            · exact head?_codeEscape hq c.toNat

/-- Symbols in their forms are read back up to the closing quote. -/
theorem readSymbols?_symbolForm (ss : List Symbol) (rest : List Char) {fuel : Nat}
    (hfuel : ss.length < fuel) :
    readSymbols? q fuel (ss.flatMap (symbolForm q) ++ q :: rest) = some (ss, rest) := by
  induction ss generalizing fuel with
  | nil =>
    obtain ⟨fuel, rfl⟩ := Nat.exists_eq_succ_of_ne_zero (Nat.ne_of_gt hfuel)
    rw [readSymbols?]
    exact if_pos rfl
  | cons s ss ih =>
    obtain ⟨fuel, rfl⟩ := Nat.exists_eq_succ_of_ne_zero (Nat.ne_of_gt (Nat.zero_lt_of_lt hfuel))
    obtain ⟨d, ds, hform, hne⟩ := head?_symbolForm hq s
    have hhead : (symbolForm q s ++ (ss.flatMap (symbolForm q) ++ q :: rest)).head? ≠ some q := by
      rw [hform]
      exact fun h => hne (Option.some.inj h)
    rw [List.flatMap_cons, List.append_assoc, readSymbols?, if_neg hhead,
      readSymbol?_symbolForm hq]
    simp [ih (Nat.lt_of_succ_lt_succ hfuel)]

/-- Symbols in their forms are at least as many characters as symbols. -/
theorem length_le_symbolForm (ss : List Symbol) :
    ss.length ≤ (ss.flatMap (symbolForm q)).length := by
  induction ss with
  | nil => exact Nat.le_refl 0
  | cons s ss ih =>
    obtain ⟨d, ds, hform, -⟩ := head?_symbolForm hq s
    rw [List.flatMap_cons, hform, List.length_append, List.length_cons, List.length_cons]
    omega

/-- Symbols between quotes are read back, and what follows the literal is left; only no quote may
follow at once. -/
theorem readRaw?_symbols (ss : List Symbol) {rest : List Char}
    (hrest : ∀ q ∈ rest.head?, q ≠ '\'' ∧ q ≠ '"') :
    readRaw? (q :: (ss.flatMap (symbolForm q) ++ q :: rest)) = some (.ofSymbols ss, rest) := by
  have hread : readSymbols? q ((ss.flatMap (symbolForm q) ++ q :: rest).length + 1)
      (ss.flatMap (symbolForm q) ++ q :: rest) = some (ss, rest) := by
    refine readSymbols?_symbolForm hq ss rest ?_
    have hlength := length_le_symbolForm hq ss
    rw [List.length_append]
    omega
  have hnext : ¬ (ss = [] ∧ rest.head? = some q) := by
    rintro ⟨-, h⟩
    obtain ⟨hone, htwo⟩ := hrest _ h
    exact hq.elim hone htwo
  rw [readRaw?, if_pos hq, hread]
  exact if_neg hnext

end

theorem quoteFor_eq (cs : List Char) : quoteFor cs = '\'' ∨ quoteFor cs = '"' := by
  rw [quoteFor]
  split
  · exact .inr rfl
  · exact .inl rfl

/-- A literal of a text is made of the forms of its symbols between quotes. -/
theorem rawChars_eq (t : RawText) : ∃ q, (q = '\'' ∨ q = '"') ∧
    rawChars t = q :: (t.symbols.flatMap (symbolForm q) ++ [q]) := by
  cases t with
  | plain s =>
    refine ⟨quoteFor s.toList, quoteFor_eq _, ?_⟩
    rw [rawChars, quoteChars, RawText.symbols, List.flatMap_map]
    rfl
  | broken symbols => exact ⟨quoteFor (symbols.filterMap Symbol.char?), quoteFor_eq _, rfl⟩

/-- A text that was written as a literal is read back symbol by symbol, and what follows the literal
is left; only no quote may follow at once. -/
theorem readRaw?_rawChars (t : RawText) {rest : List Char}
    (hrest : ∀ q ∈ rest.head?, q ≠ '\'' ∧ q ≠ '"') :
    readRaw? (rawChars t ++ rest) = some (.ofSymbols t.symbols, rest) := by
  obtain ⟨q, hq, ht⟩ := rawChars_eq t
  rw [ht, List.cons_append, List.append_assoc, List.singleton_append, readRaw?_symbols hq _ hrest]

/-- A text of characters that was written as a literal is read back. -/
theorem readText?_quoteChars (s : String) {rest : List Char}
    (hrest : ∀ q ∈ rest.head?, q ≠ '\'' ∧ q ≠ '"') :
    readText? (quoteChars s.toList ++ rest) = some (s, rest) := by
  have hread := readRaw?_rawChars (.plain s) hrest
  rw [RawText.ofSymbols_symbols_plain, rawChars] at hread
  rw [readText?, hread]

/-! ## Lists of texts -/

/-- A text is written as the value that it is. -/
theorem valueChars_ofText (t : RawText) : valueChars (.ofText t) = rawChars t := by
  cases t <;> simp only [Json.ofText, valueChars, rawChars]

/-- The items of a list behind the first one are read back together with it. -/
theorem readItems?_itemsChars (t : RawText) (ts : List RawText) (rest : List Char) {fuel : Nat}
    (hfuel : ts.length < fuel) :
    readItems? fuel (rawChars t ++ itemsChars (ts.map Json.ofText) ++ ']' :: rest) =
      some ((t :: ts).map fun t => .ofSymbols t.symbols, rest) := by
  induction ts generalizing t fuel with
  | nil =>
    obtain ⟨fuel, rfl⟩ := Nat.exists_eq_succ_of_ne_zero (Nat.ne_of_gt hfuel)
    rw [List.map_nil, itemsChars, List.append_nil, readItems?, readRaw?_rawChars t (by simp)]
    rfl
  | cons u ts ih =>
    obtain ⟨fuel, rfl⟩ := Nat.exists_eq_succ_of_ne_zero (Nat.ne_of_gt (Nat.zero_lt_of_lt hfuel))
    have hread := ih u (Nat.lt_of_succ_lt_succ hfuel)
    rw [List.append_assoc] at hread
    rw [List.map_cons, itemsChars, valueChars_ofText, List.append_assoc, List.cons_append,
      List.cons_append, readItems?, readRaw?_rawChars t (by simp)]
    simp [hread]

/-- Items are no more than the characters that write them. -/
theorem length_le_itemsChars (vs : List Json) : vs.length ≤ (itemsChars vs).length := by
  induction vs with
  | nil => exact Nat.le_refl 0
  | cons v vs ih =>
    rw [itemsChars, List.length_cons, List.length_cons, List.length_cons, List.length_append]
    omega

/-- A list of texts that was written as a literal is read back. -/
theorem readTexts?_texts (ts : List RawText) (rest : List Char) :
    readTexts? (valueChars (.arr (ts.map Json.ofText)) ++ rest) =
      some (ts.map fun t => .ofSymbols t.symbols, rest) := by
  cases ts with
  | nil => rw [List.map_nil, valueChars]; rfl
  | cons t ts =>
    have hlength := length_le_itemsChars (ts.map Json.ofText)
    rw [List.length_map] at hlength
    have hhead : (rawChars t ++ itemsChars (ts.map Json.ofText) ++ ']' :: rest).head? ≠
        some ']' := by
      obtain ⟨q, hq, ht⟩ := rawChars_eq t
      rw [ht]
      rcases hq with rfl | rfl <;> exact fun he => by cases he
    rw [List.map_cons, valueChars, valueChars_ofText, List.cons_append, List.append_assoc,
      List.singleton_append, readTexts?, if_neg hhead, readItems?_itemsChars]
    rw [List.length_append, List.length_append]
    omega

/-! ## Lines -/

/-- Digits that write a number hold no line feed. -/
theorem newline_not_mem_of_hexNumber? {ds : List Char} {n m : Nat}
    (h : hexNumber? ds n = some m) : '\n' ∉ ds := by
  induction ds generalizing n with
  | nil => exact List.not_mem_nil
  | cons d ds ih =>
    cases hd : Json.hexValue? d with
    | none => simp [hexNumber?, hd] at h
    | some k =>
      have hds : hexNumber? ds (16 * n + k) = some m := by simpa [hexNumber?, hd] using h
      rw [List.mem_cons, not_or]
      refine ⟨?_, ih hds⟩
      rintro rfl
      cases hd

/-- The escape of a code point holds no line feed. -/
theorem newline_not_mem_codeEscape (n : Nat) : '\n' ∉ codeEscape n := by
  have hdigits (width : Nat) : '\n' ∉ hexDigits width n :=
    newline_not_mem_of_hexNumber? (hexNumber?_hexDigits width n)
  rw [codeEscape]
  split
  · simp [hdigits]
  · split <;> simp [hdigits]

/-- The form of a symbol holds no line feed. -/
theorem newline_not_mem_symbolForm {q : Char} (hq : q = '\'' ∨ q = '"') (s : Symbol) :
    '\n' ∉ symbolForm q s := by
  obtain c | s := s
  case half => exact newline_not_mem_codeEscape s.unit
  rw [symbolForm, charForm]
  split
  · next h =>
    have hc : c ≠ '\n' := by
      rintro rfl
      rcases hq with rfl | rfl <;> revert h <;> decide
    simpa using hc.symm
  · split
    · decide
    · split
      · decide
      · next hline =>
        split
        · decide
        · split
          · simpa using Ne.symm hline
          · exact newline_not_mem_codeEscape _

/-- A literal holds no line feed. -/
theorem newline_not_mem_rawChars (t : RawText) : '\n' ∉ rawChars t := by
  obtain ⟨q, hq, ht⟩ := rawChars_eq t
  have hne : '\n' ≠ q := by rcases hq with rfl | rfl <;> decide
  simp only [ht, List.mem_cons, List.mem_append, List.mem_flatMap, List.not_mem_nil, or_false]
  rintro (h | ⟨s, -, h⟩ | h)
  · exact hne h
  · exact newline_not_mem_symbolForm hq s h
  · exact hne h

/-- A list of values whose literals hold no line feed is written without one. -/
theorem newline_not_mem_arr {vs : List Json} (h : ∀ v ∈ vs, '\n' ∉ valueChars v) :
    '\n' ∉ valueChars (.arr vs) := by
  have hitems : ∀ vs : List Json, (∀ v ∈ vs, '\n' ∉ valueChars v) → '\n' ∉ itemsChars vs := by
    intro vs hvs
    induction vs with
    | nil => exact List.not_mem_nil
    | cons v vs ih =>
      obtain ⟨hv, hvs⟩ := List.forall_mem_cons.1 hvs
      simp [itemsChars, hv, ih hvs]
  cases vs with
  | nil => rw [valueChars]; decide
  | cons v vs =>
    obtain ⟨hv, hvs⟩ := List.forall_mem_cons.1 h
    simp [valueChars, hv, hitems vs hvs]

/-- Fields with values whose literals hold no line feed are written without one. -/
theorem newline_not_mem_obj {fs : List (RawText × Json)} (h : ∀ f ∈ fs, '\n' ∉ valueChars f.2) :
    '\n' ∉ valueChars (.obj fs) := by
  have hfields : ∀ fs : List (RawText × Json), (∀ f ∈ fs, '\n' ∉ valueChars f.2) →
      '\n' ∉ fieldsChars fs := by
    intro fs hfs
    induction fs with
    | nil => exact List.not_mem_nil
    | cons f fs ih =>
      obtain ⟨hf, hfs⟩ := List.forall_mem_cons.1 hfs
      simp [fieldsChars, hf, ih hfs, newline_not_mem_rawChars]
  cases fs with
  | nil => rw [valueChars]; decide
  | cons f fs =>
    obtain ⟨hf, hfs⟩ := List.forall_mem_cons.1 h
    simp [valueChars, hf, hfields fs hfs, newline_not_mem_rawChars]

end Nanoservice.Literal
