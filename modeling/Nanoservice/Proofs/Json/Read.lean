import Mathlib.Data.List.Basic
import Nanoservice.Json.Reader
import Nanoservice.Proofs.Table
import Nanoservice.Proofs.Text.Digits

/-!
# What the reader of JSON gives

`Json.IsRead` holds of the values that the reader can give: no integer has more than 4300 digits, a
broken text or key holds half of a surrogate pair, and only where such halves may stand alone, and
no object has a key twice. `isRead_of_readChars` says that all values that are read are such, and
`hasLongInteger_of_readChars` that an integer is only refused for its length when the text has it.
Both come from one induction over the reader's steps, in which `Gives` is what each step keeps. -/

namespace Nanoservice.Json

open Nanoservice.Text (asciiValue? isAsciiDigit valueOfDigits maxIntegerDigits)

/-- The texts that the reader can give. -/
def IsReadText (pairsOnly : Bool) : RawText → Prop
  | .plain _ => True
  | .broken symbols => pairsOnly = false ∧ ∃ unit, Symbol.half unit ∈ symbols

/-- Where halves may not stand alone, the texts that the reader can give are whole. -/
theorem IsReadText.exists_plain {t : RawText} (h : IsReadText true t) : ∃ s, t = .plain s := by
  cases t with
  | plain s => exact ⟨s, rfl⟩
  | broken symbols => cases h.1

/-- The values that the reader can give. -/
inductive IsRead (pairsOnly : Bool) : Json → Prop where
  | null : IsRead pairsOnly .null
  | bool (b : Bool) : IsRead pairsOnly (.bool b)
  | int {n : Int} (h : n.natAbs < 10 ^ maxIntegerDigits) : IsRead pairsOnly (.int n)
  | float (x : Decimal.Double) : IsRead pairsOnly (.float x)
  | str (s : String) : IsRead pairsOnly (.str s)
  | broken {symbols : List Symbol} (hp : pairsOnly = false)
      (h : ∃ unit, Symbol.half unit ∈ symbols) : IsRead pairsOnly (.broken symbols)
  | arr {vs : List Json} (h : ∀ v ∈ vs, IsRead pairsOnly v) : IsRead pairsOnly (.arr vs)
  | obj {fs : List (RawText × Json)} (hkeys : (fs.map Prod.fst).Nodup)
      (htexts : ∀ f ∈ fs, IsReadText pairsOnly f.1)
      (h : ∀ f ∈ fs, IsRead pairsOnly f.2) : IsRead pairsOnly (.obj fs)

/-- A text that the reader can give is a value that it can give. -/
theorem IsReadText.isRead {pairsOnly : Bool} {t : RawText} (h : IsReadText pairsOnly t) :
    IsRead pairsOnly (.ofText t) := by
  cases t with
  | plain s => exact .str s
  | broken symbols => exact .broken h.1 h.2

/-- The fields of an object that the reader can give are values that it can give. -/
theorem IsRead.lookup {pairsOnly : Bool} {fs : List (RawText × Json)} {key : String} {v : Json}
    (hfs : IsRead pairsOnly (.obj fs)) (h : fs.lookup (.plain key) = some v) :
    IsRead pairsOnly v := by
  obtain ⟨before, after, rfl, -⟩ := List.lookup_eq_some_iff.1 h
  cases hfs with
  | obj _ _ hvalues => exact hvalues (.plain key, v) (by simp)

/-- A text has a run of `n` digits, more than an integer may have. -/
def HasLongInteger (n : Nat) (cs : List Char) : Prop :=
  maxIntegerDigits < n ∧ ∃ ds, ds <:+: cs ∧ ds.length = n ∧ ∀ d ∈ ds, isAsciiDigit d = true

/-- What a step of the reader comes to: a result of the right kind and an end of the text, or a
fault, and a long integer only where there is one. -/
def Gives {α : Type} (P : α → Prop) (cs : List Char) : Except Fault (α × List Char) → Prop
  | .ok (a, rest) => P a ∧ rest <:+ cs
  | .error (.malformed _) => True
  | .error (.longInteger n) => HasLongInteger n cs

variable {α β : Type} {P : α → Prop} {Q : β → Prop} {cs cs' : List Char}

namespace Gives

/-- A step on an end of a text is one on the text. -/
theorem of_suffix {r : Except Fault (α × List Char)} (hs : cs' <:+ cs) (h : Gives P cs' r) :
    Gives P cs r := by
  rcases r with (_ | n) | ⟨a, rest⟩
  · trivial
  · obtain ⟨hn, ds, hds, hlen⟩ := h
    exact ⟨hn, ds, hds.trans hs.isInfix, hlen⟩
  · exact ⟨h.1, h.2.trans hs⟩

/-- A fault of one step is the fault of the whole. -/
theorem error {e : Fault} (h : Gives P cs (.error e)) : Gives Q cs (.error e) := by
  rcases e with _ | n
  · trivial
  · exact h

end Gives

theorem skipBlank_suffix (cs : List Char) : skipBlank cs <:+ cs :=
  List.dropWhile_suffix _

/-- What follows the first character behind blanks is an end of the text. -/
theorem suffix_of_skipBlank {c : Char} (h : skipBlank cs = c :: cs') : cs' <:+ cs :=
  (List.suffix_cons c cs').trans (h ▸ skipBlank_suffix cs)

/-- What is left behind a word is what stands behind it. -/
theorem afterWord?_eq_some {ws rest : List Char} :
    afterWord? ws cs = some rest ↔ cs = ws ++ rest := by
  induction ws generalizing cs with
  | nil => exact Option.some_inj
  | cons w ws ih =>
    cases cs with
    | nil => simp [afterWord?]
    | cons c cs =>
      rw [afterWord?, List.cons_append, List.cons.injEq, ← ih]
      by_cases h : w = c
      · rw [if_pos h, and_iff_right h.symm]
      · simp [h, Ne.symm h]

theorem afterWord?_suffix {ws rest : List Char} (h : afterWord? ws cs = some rest) :
    rest <:+ cs := by
  rw [afterWord?_eq_some.1 h]
  exact List.suffix_append ws rest

/-! ## Texts -/

/-- A piece that is half of a surrogate pair stands where halves may stand alone. -/
def Piece.IsRead (pairsOnly : Bool) (p : Piece) : Prop :=
  ∀ unit, p = .symbol (.half unit) → pairsOnly = false

/-- The symbol of a unit is a half only when the unit is one. -/
theorem unitSymbol_isRead {pairsOnly : Bool} {unit : Nat}
    (h : ¬ (pairsOnly && (isHighHalf unit || isLowHalf unit)) = true) :
    Piece.IsRead pairsOnly (.symbol (unitSymbol unit)) := by
  intro u hu
  unfold unitSymbol at hu
  split at hu
  · next hhalf =>
    have hunit : isHighHalf unit || isLowHalf unit := by
      simp only [isHighHalf, isLowHalf, Bool.or_eq_true, Bool.and_eq_true, decide_eq_true_eq]
      omega
    simpa [hunit] using h
  · cases hu

theorem readUnit_gives (pairsOnly : Bool) (left more : List Char) :
    Gives (Piece.IsRead pairsOnly) more (readUnit pairsOnly left more) := by
  unfold readUnit
  split
  · next a b c d next tail =>
    split
    · trivial
    · next unit _ =>
      have hsuffix : next :: tail <:+ a :: b :: c :: d :: next :: tail := ⟨[a, b, c, d], rfl⟩
      have halone : Gives (Piece.IsRead pairsOnly) (a :: b :: c :: d :: next :: tail)
          (if pairsOnly && (isHighHalf unit || isLowHalf unit) then .error (.malformed left)
           else .ok (.symbol (unitSymbol unit), next :: tail)) := by
        split
        · trivial
        · next h => exact ⟨unitSymbol_isRead h, hsuffix⟩
      dsimp only
      split
      · split
        · next e f g h after rest hpair =>
          split
          · trivial
          · split
            · refine ⟨fun u hu => (by simp at hu), ?_⟩
              rw [hpair] at hsuffix ⊢
              exact List.IsSuffix.trans ⟨['\\', 'u', e, f, g, h], rfl⟩ hsuffix
            · exact halone
        · exact halone
      · exact halone
  · trivial

theorem readPiece_gives (pairsOnly : Bool) (opening cs : List Char) :
    Gives (Piece.IsRead pairsOnly) cs (readPiece pairsOnly opening cs) := by
  unfold readPiece
  split
  · trivial
  · exact ⟨fun u hu => by simp at hu, List.suffix_cons _ _⟩
  · trivial
  · next more => exact (readUnit_gives pairsOnly _ more).of_suffix ⟨['\\', 'u'], rfl⟩
  · next c rest _ =>
    split
    · exact ⟨fun u hu => by simp at hu, ⟨['\\', c], rfl⟩⟩
    · trivial
  · next c rest _ _ =>
    split
    · trivial
    · exact ⟨fun u hu => by simp at hu, List.suffix_cons _ _⟩

/-- Symbols of which a half stands only where halves may stand alone. -/
theorem readSymbols_gives (pairsOnly : Bool) (opening : List Char) (fuel : Nat) (cs : List Char) :
    Gives (fun ss => ∀ unit, Symbol.half unit ∈ ss → pairsOnly = false) cs
      (readSymbols pairsOnly opening fuel cs) := by
  induction fuel generalizing cs with
  | zero => trivial
  | succ fuel ih =>
    have hpiece := readPiece_gives pairsOnly opening cs
    rw [readSymbols]
    split
    · next h => rw [h] at hpiece; exact hpiece.error
    · next h => rw [h] at hpiece; exact ⟨by simp, hpiece.2⟩
    · next s rest h =>
      rw [h] at hpiece
      have hmore := (ih rest).of_suffix hpiece.2
      split
      · next h' => rw [h'] at hmore; exact hmore
      · next ss rest' h' =>
        rw [h'] at hmore
        refine ⟨fun unit hunit => ?_, hmore.2⟩
        rcases List.mem_cons.1 hunit with rfl | hunit
        · exact hpiece.1 unit rfl
        · exact hmore.1 unit hunit

/-- Symbols that are not all characters hold half of a surrogate pair. -/
theorem exists_half_of_mapM {symbols : List Symbol} (h : symbols.mapM Symbol.char? = none) :
    ∃ unit, Symbol.half unit ∈ symbols := by
  induction symbols with
  | nil => simp at h
  | cons s ss ih =>
    cases s with
    | half unit => exact ⟨unit, List.mem_cons_self⟩
    | char c =>
      have htail : ss.mapM Symbol.char? = none := by
        cases hs : ss.mapM Symbol.char? with
        | none => rfl
        | some cs => simp [Symbol.char?, hs] at h
      obtain ⟨unit, hunit⟩ := ih htail
      exact ⟨unit, List.mem_cons_of_mem _ hunit⟩

theorem ofSymbols_isRead {pairsOnly : Bool} {symbols : List Symbol}
    (h : ∀ unit, Symbol.half unit ∈ symbols → pairsOnly = false) :
    IsReadText pairsOnly (.ofSymbols symbols) := by
  unfold RawText.ofSymbols
  split
  · trivial
  · next hnone =>
    obtain ⟨unit, hunit⟩ := exists_half_of_mapM hnone
    exact ⟨h unit hunit, ⟨unit, hunit⟩⟩

/-! ## Numbers -/

/-- The digits of the integer part stand at the front of the text. -/
theorem takeWhole_eq_some {whole rest : List Char} (h : takeWhole cs = some (whole, rest)) :
    cs = whole ++ rest ∧ ∀ d ∈ whole, isAsciiDigit d = true := by
  unfold takeWhole at h
  split at h
  · cases h
    exact ⟨rfl, by simp [isAsciiDigit]⟩
  · split at h
    · next c cs _ hc =>
      cases h
      refine ⟨by simp, fun d hd => ?_⟩
      rcases List.mem_cons.1 hd with rfl | hd
      · exact hc
      · exact List.all_eq_true.1 List.all_takeWhile d hd
    · cases h
  · cases h

theorem takeFraction_suffix (cs : List Char) : (takeFraction cs).2 <:+ cs := by
  unfold takeFraction
  split
  · next c cs =>
    split
    · exact (List.dropWhile_suffix _).trans ⟨['.', c], rfl⟩
    · exact List.suffix_rfl
  · exact List.suffix_rfl

theorem takeSign_suffix (cs : List Char) : (Text.takeSign cs).2 <:+ cs := by
  unfold Text.takeSign
  split
  · exact List.suffix_cons _ _
  · exact List.suffix_cons _ _
  · exact List.suffix_rfl

theorem takeExponent_suffix (cs : List Char) : (takeExponent cs).2 <:+ cs := by
  unfold takeExponent
  split
  · exact List.suffix_rfl
  · next c cs =>
    have hsign := (takeSign_suffix cs).trans (List.suffix_cons c cs)
    split
    · dsimp only
      split
      · exact List.suffix_rfl
      · exact (List.dropWhile_suffix _).trans hsign
    · exact List.suffix_rfl

theorem readNumber_gives (pairsOnly : Bool) (left : List Char) (negative : Bool)
    (cs : List Char) : Gives (IsRead pairsOnly) cs (readNumber left negative cs) := by
  unfold readNumber
  split
  · trivial
  · next whole afterWhole hwhole =>
    obtain ⟨rfl, hdigits⟩ := takeWhole_eq_some hwhole
    have hrest : (takeExponent (takeFraction afterWhole).2).2 <:+ whole ++ afterWhole :=
      ((takeExponent_suffix _).trans (takeFraction_suffix _)).trans (List.suffix_append _ _)
    dsimp only
    split
    · split
      · next hlong => exact ⟨hlong, whole, (List.prefix_append _ _).isInfix, rfl, hdigits⟩
      · next hshort =>
        refine ⟨.int ?_, hrest⟩
        rw [Text.natAbs_signedInt]
        exact Nat.lt_of_lt_of_le (Text.valueOfDigits_filterMap_lt whole)
          (Nat.pow_le_pow_right (by decide) (Nat.le_of_not_lt hshort))
    · exact ⟨.float _, hrest⟩

theorem words_isRead {pairsOnly : Bool} {w : String × Json} (h : w ∈ words) :
    IsRead pairsOnly w.2 := by
  simp only [words, List.mem_cons, List.not_mem_nil, or_false] at h
  rcases h with rfl | rfl | rfl | rfl | rfl | rfl
  · exact .null
  · exact .bool true
  · exact .bool false
  · exact .float _
  · exact .float _
  · exact .float _

theorem readScalar_gives (pairsOnly : Bool) (cs : List Char) :
    Gives (IsRead pairsOnly) cs (readScalar cs) := by
  unfold readScalar
  split
  · next found hfound =>
    obtain ⟨w, hw, hmap⟩ := List.exists_of_findSome?_eq_some hfound
    obtain ⟨rest, hrest, rfl⟩ := Option.map_eq_some_iff.1 hmap
    exact ⟨words_isRead hw, afterWord?_suffix hrest⟩
  · split
    · next rest _ =>
      exact (readNumber_gives pairsOnly _ true rest).of_suffix (List.suffix_cons _ _)
    · exact readNumber_gives pairsOnly cs false cs

/-! ## Values -/

/-- The fields of an object that the reader can give. -/
def AreRead (pairsOnly : Bool) (fs : List (RawText × Json)) : Prop :=
  (fs.map Prod.fst).Nodup ∧ ∀ f ∈ fs, IsReadText pairsOnly f.1 ∧ IsRead pairsOnly f.2

theorem areRead_nil (pairsOnly : Bool) : AreRead pairsOnly [] :=
  ⟨List.nodup_nil, by simp⟩

/-- The object of such fields is a value that the reader can give. -/
theorem AreRead.obj {pairsOnly : Bool} {fs : List (RawText × Json)} (h : AreRead pairsOnly fs) :
    IsRead pairsOnly (.obj fs) :=
  .obj h.1 (fun f hf => (h.2 f hf).1) fun f hf => (h.2 f hf).2

theorem areRead_put {pairsOnly : Bool} {key : RawText} {v : Json} {fs : List (RawText × Json)}
    (hfs : AreRead pairsOnly fs) (hkey : IsReadText pairsOnly key) (hv : IsRead pairsOnly v) :
    AreRead pairsOnly (Table.put key v fs) := by
  constructor
  · rw [Table.keys_put]
    split
    · exact hfs.1
    · next hnew =>
      refine List.nodup_append.2 ⟨hfs.1, by simp, fun k hk k' hk' => ?_⟩
      rw [List.mem_singleton.1 hk']
      rintro rfl
      exact hnew hk
  · intro f hf
    rcases Table.mem_put hf with rfl | h
    · exact ⟨hkey, hv⟩
    · exact hfs.2 f h

/-- What the reader's three loops keep, for one bound on their steps. -/
structure Steps (pairsOnly : Bool) (fuel : Nat) : Prop where
  value : ∀ cs, Gives (IsRead pairsOnly) cs (readValue pairsOnly fuel cs)
  items : ∀ cs, Gives (fun vs => ∀ v ∈ vs, IsRead pairsOnly v) cs (readItems pairsOnly fuel cs)
  fields : ∀ fs cs, AreRead pairsOnly fs →
    Gives (AreRead pairsOnly) cs (readFields pairsOnly fuel fs cs)

variable {pairsOnly : Bool} {fuel : Nat}

theorem readValue_gives (ih : Steps pairsOnly fuel) (cs : List Char) :
    Gives (IsRead pairsOnly) cs (readValue pairsOnly (fuel + 1) cs) := by
  unfold readValue
  split
  · next rest =>
    have hsymbols := (readSymbols_gives pairsOnly ('"' :: rest) fuel rest).of_suffix
      (List.suffix_cons '"' rest)
    split
    · next h => rw [h] at hsymbols; exact hsymbols.error
    · next h => rw [h] at hsymbols; exact ⟨(ofSymbols_isRead hsymbols.1).isRead, hsymbols.2⟩
  · next rest =>
    have hskip := (skipBlank_suffix rest).trans (List.suffix_cons '\x7b' rest)
    split
    · next h =>
      exact ⟨(areRead_nil pairsOnly).obj,
        (suffix_of_skipBlank h).trans (List.suffix_cons '\x7b' rest)⟩
    · have hfields := (ih.fields [] _ (areRead_nil pairsOnly)).of_suffix hskip
      split
      · next h => rw [h] at hfields; exact hfields.error
      · next h => rw [h] at hfields; exact ⟨hfields.1.obj, hfields.2⟩
  · next rest =>
    have hskip := (skipBlank_suffix rest).trans (List.suffix_cons '[' rest)
    split
    · next h =>
      exact ⟨.arr (by simp), (suffix_of_skipBlank h).trans (List.suffix_cons '[' rest)⟩
    · have hitems := (ih.items _).of_suffix hskip
      split
      · next h => rw [h] at hitems; exact hitems.error
      · next h => rw [h] at hitems; exact ⟨.arr hitems.1, hitems.2⟩
  · exact readScalar_gives pairsOnly cs

theorem readItems_gives (ih : Steps pairsOnly fuel) (cs : List Char) :
    Gives (fun vs => ∀ v ∈ vs, IsRead pairsOnly v) cs (readItems pairsOnly (fuel + 1) cs) := by
  have hvalue := ih.value cs
  rw [readItems]
  split
  · next h => rw [h] at hvalue; exact hvalue.error
  · next v rest h =>
    rw [h] at hvalue
    split
    · next hclose =>
      exact ⟨by simpa using hvalue.1, (suffix_of_skipBlank hclose).trans hvalue.2⟩
    · next rest' hcomma =>
      have hitems := (ih.items (skipBlank rest')).of_suffix
        (((skipBlank_suffix rest').trans (suffix_of_skipBlank hcomma)).trans hvalue.2)
      split
      · next h' => rw [h'] at hitems; exact hitems
      · next h' => rw [h'] at hitems; exact ⟨List.forall_mem_cons.2 ⟨hvalue.1, hitems.1⟩, hitems.2⟩
    · trivial

theorem readFields_gives (ih : Steps pairsOnly fuel) {fs : List (RawText × Json)}
    (hfs : AreRead pairsOnly fs) (cs : List Char) :
    Gives (AreRead pairsOnly) cs (readFields pairsOnly (fuel + 1) fs cs) := by
  unfold readFields
  split
  · next rest =>
    have hsymbols := (readSymbols_gives pairsOnly ('"' :: rest) fuel rest).of_suffix
      (List.suffix_cons '"' rest)
    split
    · next h => rw [h] at hsymbols; exact hsymbols.error
    · next symbols rest1 h =>
      rw [h] at hsymbols
      split
      · next rest2 hcolon =>
        have hvalue := (ih.value (skipBlank rest2)).of_suffix
          (((skipBlank_suffix rest2).trans (suffix_of_skipBlank hcolon)).trans hsymbols.2)
        split
        · next h' => rw [h'] at hvalue; exact hvalue.error
        · next rest3 h' =>
          rw [h'] at hvalue
          have hput : AreRead pairsOnly (Table.put (.ofSymbols symbols) _ fs) :=
            areRead_put hfs (ofSymbols_isRead hsymbols.1) hvalue.1
          dsimp only
          split
          · next hclose => exact ⟨hput, (suffix_of_skipBlank hclose).trans hvalue.2⟩
          · next rest4 hcomma =>
            exact (ih.fields _ (skipBlank rest4) hput).of_suffix
              (((skipBlank_suffix rest4).trans (suffix_of_skipBlank hcomma)).trans hvalue.2)
          · trivial
      · trivial
  · trivial

/-- The loops keep what they should, whatever the bound on their steps. -/
theorem steps (pairsOnly : Bool) (fuel : Nat) : Steps pairsOnly fuel := by
  induction fuel with
  | zero =>
    exact ⟨fun _ => by rw [readValue]; trivial, fun _ => by rw [readItems]; trivial,
      fun _ _ _ => by rw [readFields]; trivial⟩
  | succ fuel ih =>
    exact ⟨readValue_gives ih, readItems_gives ih, fun _ cs h => readFields_gives ih h cs⟩

/-- Every value that is read is one that the reader can give. -/
theorem isRead_of_readChars {v : Json} (h : readChars pairsOnly cs = .ok v) :
    IsRead pairsOnly v := by
  have hvalue := (steps pairsOnly (readFuel cs)).value (skipBlank cs)
  unfold readChars at h
  split at h
  · cases h
  · next h' =>
    rw [h'] at hvalue
    split at h
    · cases h
      exact hvalue.1
    · cases h

/-- An integer is only too long when the text has a run of so many digits. -/
theorem hasLongInteger_of_readChars {n : Nat}
    (h : readChars pairsOnly cs = .error (.longInteger n)) : HasLongInteger n cs := by
  have hvalue := ((steps pairsOnly (readFuel cs)).value (skipBlank cs)).of_suffix
    (skipBlank_suffix cs)
  unfold readChars at h
  split at h
  · next h' =>
    rw [h'] at hvalue
    cases h
    exact hvalue
  · split at h <;> cases h

end Nanoservice.Json
