import Nanoservice.Proofs.Json.Number
import Nanoservice.Proofs.Json.Read
import Nanoservice.Proofs.Json.Text
import Nanoservice.Proofs.Table

/-!
# Written values read back

A value without broken texts that is written in a style of JSON is read back as it is, but for the
special numbers, of which a style says what they are written as (`readChars_writeChars`). The lists
and objects of a value are followed by the loops of the reader; that the bound on their steps is
never reached is part of the induction, as every step reads a character.
-/

namespace Nanoservice.Json

open Nanoservice.Decimal (Double Layout)

/-! ## Special numbers -/

mutual
/-- A value with another one in place of every infinity and not-a-number. -/
def withSpecial (special : Double → Json) : Json → Json
  | .float x => if x.isFinite then .float x else special x
  | .arr vs => .arr (withSpecialItems special vs)
  | .obj fs => .obj (withSpecialFields special fs)
  | v => v

/-- Array items with another value in place of every infinity and not-a-number. -/
def withSpecialItems (special : Double → Json) : List Json → List Json
  | [] => []
  | v :: vs => withSpecial special v :: withSpecialItems special vs

/-- Object fields with another value in place of every infinity and not-a-number. -/
def withSpecialFields (special : Double → Json) : List (RawText × Json) → List (RawText × Json)
  | [] => []
  | (k, v) :: fs => (k, withSpecial special v) :: withSpecialFields special fs
end

mutual
/-- Null in place of special numbers makes a value finite. -/
theorem withSpecial_null : ∀ v : Json, withSpecial (fun _ => .null) v = finite v
  | .float x => by simp only [withSpecial, finite]
  | .arr vs => by rw [withSpecial, finite, withSpecialItems_null vs]
  | .obj fs => by rw [withSpecial, finite, withSpecialFields_null fs]
  | .null | .bool _ | .int _ | .str _ | .broken _ => by simp only [withSpecial, finite]

theorem withSpecialItems_null :
    ∀ vs : List Json, withSpecialItems (fun _ => .null) vs = finiteItems vs
  | [] => rfl
  | v :: vs => by rw [withSpecialItems, finiteItems, withSpecial_null v, withSpecialItems_null vs]

theorem withSpecialFields_null :
    ∀ fs : List (RawText × Json), withSpecialFields (fun _ => .null) fs = finiteFields fs
  | [] => rfl
  | (k, v) :: fs => by
    rw [withSpecialFields, finiteFields, withSpecial_null v, withSpecialFields_null fs]
end

/-- A style whose separators are those of JSON, and whose special numbers are read as `special`
says. -/
structure Style.IsReadable (style : Style) (special : Double → Json) : Prop where
  comma : ∃ blanks, style.comma.toList = ',' :: blanks ∧ ∀ c ∈ blanks, isBlank c = true
  colon : ∃ blanks, style.colon.toList = ':' :: blanks ∧ ∀ c ∈ blanks, isBlank c = true
  special : ∀ x : Double, x.isFinite = false →
    (∃ c tail, style.number.write x = c :: tail ∧ c ∈ ['n', 'N', 'I', '-']) ∧
    ∀ rest, readScalar (style.number.write x ++ rest) = .ok (special x, rest)

variable {style : Style} {special : Double → Json} {pairsOnly : Bool}

/-! ## Blanks and separators -/

theorem skipBlank_append {blanks : List Char} (hb : ∀ c ∈ blanks, isBlank c = true)
    {c : Char} (hc : isBlank c = false) (cs : List Char) :
    skipBlank (blanks ++ c :: cs) = c :: cs := by
  rw [skipBlank, List.dropWhile_append_of_pos hb, List.dropWhile_cons_of_neg (by simp [hc])]

theorem isBlank_of_mem_lineBreak {level : Nat} {c : Char} (h : c ∈ lineBreak style level) :
    isBlank c = true := by
  unfold lineBreak at h
  split at h
  · cases h
  · rcases List.mem_cons.1 h with rfl | h
    · rfl
    · rw [List.eq_of_mem_replicate h]
      rfl

/-- A line break, if there is one, ends a number in front of it. -/
theorem stops_lineBreak {level : Nat} {rest : List Char} (h : Stops rest) :
    Stops (lineBreak style level ++ rest) := by
  unfold lineBreak
  split
  · exact h
  · rintro c ⟨⟩
    decide

theorem separator_eq (h : style.IsReadable special) (level : Nat) :
    ∃ blanks, separator style level = ',' :: blanks ∧ ∀ c ∈ blanks, isBlank c = true := by
  unfold separator
  split
  · exact h.comma
  · exact ⟨_, rfl, fun c => isBlank_of_mem_lineBreak⟩

theorem stops_separator (h : style.IsReadable special) (level : Nat) (rest : List Char) :
    Stops (separator style level ++ rest) := by
  obtain ⟨blanks, hsep, -⟩ := separator_eq h level
  rw [hsep]
  rintro c ⟨⟩
  decide

/-! ## The first character of a value -/

/-- A text starts like a value: with no blank and no closing bracket. -/
def StartsValue (cs : List Char) : Prop :=
  ∃ c tail, cs = c :: tail ∧ isBlank c = false ∧ c ≠ ']' ∧ c ≠ '}'

theorem startsValue_of_digit {cs : List Char} (h : StartsWithDigit cs) : StartsValue cs := by
  obtain ⟨c, tail, rfl, hc⟩ := h
  have hne {w : Char} (hw : Text.isAsciiDigit w = false) : c ≠ w :=
    (ne_of_isAsciiDigit hc hw).symm
  refine ⟨c, tail, rfl, ?_, hne (by decide), hne (by decide)⟩
  simp only [isBlank, Bool.or_eq_false_iff, beq_eq_false_iff_ne]
  exact ⟨⟨⟨hne (by decide), hne (by decide)⟩, hne (by decide)⟩, hne (by decide)⟩

theorem startsWithDigit_toDigits (n : Nat) : StartsWithDigit (Nat.toDigits 10 n) := by
  simpa using startsWithDigit_of_isWhole (isWhole_toDigits n) []

theorem startsValue_write (h : style.IsReadable special) (x : Double) :
    StartsValue (style.number.write x) := by
  cases hx : x.isFinite with
  | false =>
    obtain ⟨c, tail, hwrite, hc⟩ := (h.special x hx).1
    have hstart : ∀ c ∈ ['n', 'N', 'I', '-'], isBlank c = false ∧ c ≠ ']' ∧ c ≠ '\x7d' := by
      simp [isBlank]
    exact ⟨c, tail, hwrite, hstart c hc⟩
  | true =>
    cases x with
    | nan => cases hx
    | signed negative rank =>
      have hfinite : rank.val < Decimal.infinityRank := by simpa [Double.isFinite] using hx
      cases negative with
      | false =>
        simp only [Layout.write, hfinite, if_true, Bool.false_eq_true, if_false]
        exact startsValue_of_digit (startsWithDigit_magnitude _ _)
      | true =>
        simp only [Layout.write, hfinite, if_true]
        exact ⟨'-', _, rfl, by decide⟩

theorem startsValue_writeText (style : Style) (t : RawText) :
    StartsValue (writeText style.asciiOnly t) :=
  ⟨'"', _, by rw [writeText_eq], by decide⟩

theorem startsValue_writeChars (h : style.IsReadable special) (level : Nat) (v : Json) :
    StartsValue (writeChars style level v) := by
  cases v with
  | null => exact ⟨'n', _, rfl, by decide⟩
  | bool b => cases b <;> exact ⟨_, _, rfl, by decide⟩
  | int n =>
    rw [writeChars, Text.intChars]
    split
    · exact ⟨'-', _, rfl, by decide⟩
    · exact startsValue_of_digit (startsWithDigit_toDigits _)
  | float x => rw [writeChars]; exact startsValue_write h x
  | str s => rw [writeChars]; exact startsValue_writeText style s
  | broken symbols => rw [writeChars]; exact startsValue_writeText style (.broken symbols)
  | arr vs =>
    cases vs <;> exact ⟨'[', _, by rw [writeChars], by decide⟩
  | obj fs =>
    cases fs <;> exact ⟨'\x7b', _, by rw [writeChars], by decide⟩

/-- Blanks in front of a value are skipped. -/
theorem skipBlank_startsValue {blanks cs : List Char} (hb : ∀ c ∈ blanks, isBlank c = true)
    (h : StartsValue cs) (rest : List Char) : skipBlank (blanks ++ (cs ++ rest)) = cs ++ rest := by
  obtain ⟨c, tail, rfl, hc, -⟩ := h
  exact skipBlank_append hb hc _

/-- Where no blanks are, none are skipped. -/
theorem skipBlank_cons {c : Char} (hc : isBlank c = false) (cs : List Char) :
    skipBlank (c :: cs) = c :: cs := by
  rw [skipBlank, List.dropWhile_cons_of_neg (by simp [hc])]

/-! ## Scalars -/

/-- What starts like no text, object or array is read as a scalar. -/
theorem readValue_scalar (fuel : Nat) {c : Char} {cs : List Char}
    (hc : c ≠ '"' ∧ c ≠ '\x7b' ∧ c ≠ '[') :
    readValue pairsOnly (fuel + 1) (c :: cs) = readScalar (c :: cs) := by
  obtain ⟨hquote, hbrace, hbracket⟩ := hc
  unfold readValue
  split
  · next heq => exact absurd (List.cons.inj heq).1 hquote
  · next heq => exact absurd (List.cons.inj heq).1 hbrace
  · next heq => exact absurd (List.cons.inj heq).1 hbracket
  · rfl

theorem readValue_digit (fuel : Nat) {cs rest : List Char} (h : StartsWithDigit cs) :
    readValue pairsOnly (fuel + 1) (cs ++ rest) = readScalar (cs ++ rest) := by
  obtain ⟨c, tail, rfl, hc⟩ := h
  have hne {w : Char} (hw : Text.isAsciiDigit w = false) : c ≠ w :=
    (ne_of_isAsciiDigit hc hw).symm
  exact readValue_scalar fuel ⟨hne (by decide), hne (by decide), hne (by decide)⟩

theorem readValue_int (fuel : Nat) {n : Int} {rest : List Char}
    (hn : n.natAbs < 10 ^ Text.maxIntegerDigits) (hrest : Stops rest) :
    readValue pairsOnly (fuel + 1) (Text.intChars n ++ rest) = .ok (.int n, rest) := by
  rw [← readScalar_intChars hn hrest]
  unfold Text.intChars
  split
  · exact readValue_scalar fuel (by decide)
  · exact readValue_digit fuel (startsWithDigit_toDigits _)

theorem readValue_float (h : style.IsReadable special) (fuel : Nat) (x : Double)
    {rest : List Char} (hrest : Stops rest) :
    readValue pairsOnly (fuel + 1) (style.number.write x ++ rest) =
      .ok (if x.isFinite then .float x else special x, rest) := by
  cases hx : x.isFinite with
  | false =>
    obtain ⟨⟨c, tail, hwrite, hc⟩, hread⟩ := h.special x hx
    have hstart : ∀ c ∈ ['n', 'N', 'I', '-'], c ≠ '"' ∧ c ≠ '\x7b' ∧ c ≠ '[' := by simp
    rw [hwrite, List.cons_append, readValue_scalar fuel (hstart c hc),
      ← List.cons_append, ← hwrite, hread rest, if_neg (by decide)]
  | true =>
    rw [if_pos rfl, ← readScalar_write style.number hx hrest]
    cases x with
    | nan => cases hx
    | signed negative rank =>
      have hfinite : rank.val < Decimal.infinityRank := by simpa [Double.isFinite] using hx
      cases negative with
      | false =>
        simp only [Layout.write, hfinite, if_true, Bool.false_eq_true, if_false]
        exact readValue_digit fuel (startsWithDigit_magnitude _ _)
      | true =>
        simp only [Layout.write, hfinite, if_true]
        exact readValue_scalar fuel (by decide)

theorem readValue_text (fuel : Nat) {t : RawText} {rest : List Char}
    (ht : TextReadsBack pairsOnly style.asciiOnly t) (hfuel : t.symbols.length < fuel) :
    readValue pairsOnly (fuel + 1) (writeText style.asciiOnly t ++ rest) =
      .ok (.ofText t, rest) := by
  unfold readValue
  simp only [writeText_eq, List.cons_append, List.append_assoc, List.nil_append,
    ht.symbols _ fuel rest hfuel, ht.text]

/-! ## Lists and objects -/

/-- A value is read back from its written form, wherever it stands. -/
def ReadsBack (pairsOnly : Bool) (style : Style) (special : Double → Json) (v : Json) : Prop :=
  ∀ level fuel rest, Stops rest → 2 * (writeChars style level v).length ≤ fuel →
    readValue pairsOnly fuel (writeChars style level v ++ rest) =
      .ok (v.withSpecial special, rest)

/-- Items are read back up to the bracket that closes their array. -/
theorem readItems_written (h : style.IsReadable special) {level : Nat} {blanks rest : List Char}
    (hb : ∀ c ∈ blanks, isBlank c = true) (hstops : Stops (blanks ++ ']' :: rest)) {v : Json}
    {vs : List Json} (hall : ∀ w ∈ v :: vs, ReadsBack pairsOnly style special w) {fuel : Nat}
    (hfuel : 2 * (writeChars style level v ++ writeItems style level vs).length < fuel) :
    readItems pairsOnly fuel
        (writeChars style level v ++ (writeItems style level vs ++ (blanks ++ ']' :: rest))) =
      .ok (withSpecialItems special (v :: vs), rest) := by
  induction vs generalizing v fuel with
  | nil =>
    obtain ⟨fuel, rfl⟩ : ∃ n, fuel = n + 1 := ⟨fuel - 1, by omega⟩
    have hread := hall v List.mem_cons_self level fuel (blanks ++ ']' :: rest) hstops
      (by simpa [writeItems] using Nat.le_of_lt_succ hfuel)
    rw [writeItems, List.nil_append, readItems, hread]
    simp only [skipBlank_append hb (by decide : isBlank ']' = false), withSpecialItems]
  | cons u us ih =>
    obtain ⟨fuel, rfl⟩ : ∃ n, fuel = n + 1 := ⟨fuel - 1, by omega⟩
    obtain ⟨sep, hsep, hsepb⟩ := separator_eq h level
    have hlen := hfuel
    simp only [writeItems, hsep, List.length_append, List.length_cons] at hlen
    have hread := hall v List.mem_cons_self level fuel
      (separator style level ++ (writeChars style level u ++
        (writeItems style level us ++ (blanks ++ ']' :: rest))))
      (stops_separator h level _) (by omega)
    have hmore : readItems pairsOnly fuel (writeChars style level u ++
        (writeItems style level us ++ (blanks ++ ']' :: rest))) =
        .ok (withSpecialItems special (u :: us), rest) :=
      ih (fun w hw => hall w (List.mem_cons_of_mem v hw))
        (by simp only [List.length_append]; omega)
    rw [readItems, writeItems, List.append_assoc, List.append_assoc, hread]
    simp only [hsep, List.cons_append, skipBlank_cons (by decide : isBlank ',' = false),
      skipBlank_startsValue hsepb (startsValue_writeChars h level u), hmore]
    rfl

/-- The step of the reader over one written field: the object is closed behind it, or more fields
follow. -/
theorem readFields_field (h : style.IsReadable special) {fuel level : Nat}
    {old : List (RawText × Json)} {k : RawText} {v w : Json} {tail rest : List Char}
    (hkey : TextReadsBack pairsOnly style.asciiOnly k) (hlength : k.symbols.length < fuel)
    (hread : readValue pairsOnly fuel (writeChars style level v ++ tail) = .ok (w, tail)) :
    (skipBlank tail = '\x7d' :: rest →
      readFields pairsOnly (fuel + 1) old (writeText style.asciiOnly k ++
        (style.colon.toList ++ (writeChars style level v ++ tail))) =
        .ok (Table.put k w old, rest)) ∧
    (skipBlank tail = ',' :: rest →
      readFields pairsOnly (fuel + 1) old (writeText style.asciiOnly k ++
        (style.colon.toList ++ (writeChars style level v ++ tail))) =
        readFields pairsOnly fuel (Table.put k w old) (skipBlank rest)) := by
  obtain ⟨space, hcolon, hspace⟩ := h.colon
  constructor
  · intro hclose
    rw [writeText_eq, List.cons_append, List.append_assoc, List.singleton_append, readFields,
      hkey.symbols _ fuel _ hlength]
    simp only [hcolon, List.cons_append, skipBlank_cons (by decide : isBlank ':' = false),
      skipBlank_startsValue hspace (startsValue_writeChars h level v), hread, hclose, hkey.text]
  · intro hcomma
    rw [writeText_eq, List.cons_append, List.append_assoc, List.singleton_append, readFields,
      hkey.symbols _ fuel _ hlength]
    simp only [hcolon, List.cons_append, skipBlank_cons (by decide : isBlank ':' = false),
      skipBlank_startsValue hspace (startsValue_writeChars h level v), hread, hcomma, hkey.text]

/-- Fields are read back, behind those already read, up to the brace that closes their object. -/
theorem readFields_written (h : style.IsReadable special) {level : Nat} {blanks rest : List Char}
    (hb : ∀ c ∈ blanks, isBlank c = true) (hstops : Stops (blanks ++ '\x7d' :: rest))
    {k : RawText} {v : Json} {fs old : List (RawText × Json)}
    (hkeys : (old.map Prod.fst ++ k :: fs.map Prod.fst).Nodup)
    (htexts : ∀ f ∈ (k, v) :: fs, TextReadsBack pairsOnly style.asciiOnly f.1)
    (hall : ∀ f ∈ (k, v) :: fs, ReadsBack pairsOnly style special f.2) {fuel : Nat}
    (hfuel : 2 * (writeText style.asciiOnly k ++ style.colon.toList ++
      writeChars style level v ++ writeFields style level fs).length < fuel) :
    readFields pairsOnly fuel old (writeText style.asciiOnly k ++ (style.colon.toList ++
        (writeChars style level v ++ (writeFields style level fs ++ (blanks ++ '\x7d' :: rest))))) =
      .ok (old ++ withSpecialFields special ((k, v) :: fs), rest) := by
  induction fs generalizing k v old fuel with
  | nil =>
    obtain ⟨fuel, rfl⟩ : ∃ n, fuel = n + 1 := ⟨fuel - 1, by omega⟩
    have hkey : TextReadsBack pairsOnly style.asciiOnly k := htexts (k, v) List.mem_cons_self
    have hlen := length_writeText style.asciiOnly k
    have hnew : k ∉ old.map Prod.fst := fun hk =>
      (List.nodup_append.1 hkeys).2.2 k hk k List.mem_cons_self rfl
    simp only [writeFields, List.append_nil, List.length_append] at hfuel
    have hread := hall (k, v) List.mem_cons_self level fuel (blanks ++ '\x7d' :: rest) hstops
      (by dsimp only; omega)
    rw [writeFields, List.nil_append,
      (readFields_field h hkey (by omega) hread).1
        (skipBlank_append hb (by decide) rest),
      Table.put_of_not_mem hnew]
    rfl
  | cons f fs ih =>
    obtain ⟨k', u⟩ := f
    obtain ⟨fuel, rfl⟩ : ∃ n, fuel = n + 1 := ⟨fuel - 1, by omega⟩
    obtain ⟨sep, hsep, hsepb⟩ := separator_eq h level
    have hkey : TextReadsBack pairsOnly style.asciiOnly k := htexts (k, v) List.mem_cons_self
    have hlen := length_writeText style.asciiOnly k
    have hnew : k ∉ old.map Prod.fst := fun hk =>
      (List.nodup_append.1 hkeys).2.2 k hk k List.mem_cons_self rfl
    simp only [writeFields, hsep, List.length_append, List.length_cons] at hfuel
    have hread := hall (k, v) List.mem_cons_self level fuel
      (separator style level ++ (writeText style.asciiOnly k' ++ (style.colon.toList ++
        (writeChars style level u ++ (writeFields style level fs ++ (blanks ++ '\x7d' :: rest))))))
      (stops_separator h level _) (by dsimp only; omega)
    have hmore : readFields pairsOnly fuel (old ++ [(k, v.withSpecial special)])
        (writeText style.asciiOnly k' ++ (style.colon.toList ++
        (writeChars style level u ++ (writeFields style level fs ++ (blanks ++ '\x7d' :: rest))))) =
        .ok (old ++ [(k, v.withSpecial special)] ++ withSpecialFields special ((k', u) :: fs),
          rest) :=
      ih (by simpa using hkeys) (fun w hw => htexts w (List.mem_cons_of_mem _ hw))
        (fun w hw => hall w (List.mem_cons_of_mem _ hw))
        (by simp only [List.length_append]; omega)
    simp only [writeFields, List.append_assoc]
    rw [(readFields_field h hkey (by omega) hread).2
        (by rw [hsep, List.cons_append]; exact skipBlank_cons (by decide) _),
      skipBlank_startsValue hsepb (startsValue_writeText style k'), Table.put_of_not_mem hnew,
      hmore, List.append_assoc]
    rfl

/-! ## Values -/

/-- An array that is not empty is read through its items. -/
theorem readValue_arr {fuel : Nat} {cs items rest : List Char} {vs : List Json}
    (hskip : skipBlank cs = items) (hstart : StartsValue items)
    (hitems : readItems pairsOnly fuel items = .ok (vs, rest)) :
    readValue pairsOnly (fuel + 1) ('[' :: cs) = .ok (.arr vs, rest) := by
  obtain ⟨c, tail, rfl, -, hbracket, -⟩ := hstart
  rw [readValue, hskip]
  split
  · next heq => exact absurd (List.cons.inj heq).1 hbracket
  · rw [hitems]

/-- An object that is not empty is read through its fields. -/
theorem readValue_obj {fuel : Nat} {cs fields rest : List Char} {fs : List (RawText × Json)}
    (hskip : skipBlank cs = fields) (hstart : StartsValue fields)
    (hfields : readFields pairsOnly fuel [] fields = .ok (fs, rest)) :
    readValue pairsOnly (fuel + 1) ('\x7b' :: cs) = .ok (.obj fs, rest) := by
  obtain ⟨c, tail, rfl, -, -, hbrace⟩ := hstart
  rw [readValue, hskip]
  split
  · next heq => exact absurd (List.cons.inj heq).1 hbrace
  · rw [hfields]

theorem StartsValue.append {cs : List Char} (h : StartsValue cs) (rest : List Char) :
    StartsValue (cs ++ rest) := by
  obtain ⟨c, tail, rfl, hc⟩ := h
  exact ⟨c, tail ++ rest, rfl, hc⟩

/-- A bound that allows for a written value allows for a step. -/
theorem exists_fuel (h : style.IsReadable special) {level fuel : Nat} {v : Json}
    (hfuel : 2 * (writeChars style level v).length ≤ fuel) : ∃ n, fuel = n + 1 := by
  obtain ⟨c, tail, hstart, -⟩ := startsValue_writeChars h level v
  rw [hstart, List.length_cons] at hfuel
  exact ⟨fuel - 1, by omega⟩

/-- A list is read back when its items are. -/
theorem readsBack_arr (h : style.IsReadable special) {vs : List Json}
    (hall : ∀ v ∈ vs, ReadsBack pairsOnly style special v) :
    ReadsBack pairsOnly style special (.arr vs) := by
  intro level fuel rest hrest hfuel
  cases vs with
  | nil =>
    obtain ⟨fuel, rfl⟩ := exists_fuel h hfuel
    rfl
  | cons v vs =>
    rw [writeChars] at hfuel ⊢
    simp only [List.length_append, List.length_cons] at hfuel
    obtain ⟨fuel, rfl⟩ : ∃ n, fuel = n + 1 := ⟨fuel - 1, by omega⟩
    have hstart := startsValue_writeChars h (level + 1) v
    simp only [List.cons_append, List.append_assoc, List.nil_append]
    exact readValue_arr (skipBlank_startsValue (fun c => isBlank_of_mem_lineBreak) hstart _)
      (hstart.append _)
      (readItems_written h (fun c => isBlank_of_mem_lineBreak)
        (stops_lineBreak (by rintro c ⟨⟩; decide)) hall
        (by simp only [List.length_append]; omega))

/-- An object without a repeated key is read back when its fields are. -/
theorem readsBack_obj (h : style.IsReadable special) {fs : List (RawText × Json)}
    (hkeys : (fs.map Prod.fst).Nodup)
    (htexts : ∀ f ∈ fs, TextReadsBack pairsOnly style.asciiOnly f.1)
    (hall : ∀ f ∈ fs, ReadsBack pairsOnly style special f.2) :
    ReadsBack pairsOnly style special (.obj fs) := by
  intro level fuel rest hrest hfuel
  cases fs with
  | nil =>
    obtain ⟨fuel, rfl⟩ := exists_fuel h hfuel
    rfl
  | cons f fs =>
    obtain ⟨k, v⟩ := f
    rw [writeChars] at hfuel ⊢
    simp only [List.length_append, List.length_cons] at hfuel
    obtain ⟨fuel, rfl⟩ : ∃ n, fuel = n + 1 := ⟨fuel - 1, by omega⟩
    have hstart := startsValue_writeText style k
    simp only [List.cons_append, List.append_assoc, List.nil_append]
    exact readValue_obj (skipBlank_startsValue (fun c => isBlank_of_mem_lineBreak) hstart _)
      (hstart.append _)
      (readFields_written h (fun c => isBlank_of_mem_lineBreak)
        (stops_lineBreak (by rintro c ⟨⟩; decide))
        (show (([] : List (RawText × Json)).map Prod.fst ++ k :: fs.map Prod.fst).Nodup from hkeys)
        htexts hall (by simp only [List.length_append]; omega))

/-- A text that is read back is read back as a value. -/
theorem readsBack_ofText (h : style.IsReadable special) {t : RawText}
    (ht : TextReadsBack pairsOnly style.asciiOnly t) :
    ReadsBack pairsOnly style special (.ofText t) := by
  intro level fuel rest _ hfuel
  obtain ⟨fuel, rfl⟩ := exists_fuel h hfuel
  have hwrite : writeChars style level (.ofText t) = writeText style.asciiOnly t := by
    cases t <;> simp only [ofText, writeChars]
  have hspecial : withSpecial special (.ofText t) = .ofText t := by
    cases t <;> simp only [ofText, withSpecial]
  have hlength := length_writeText style.asciiOnly t
  rw [hwrite] at hfuel ⊢
  rw [readValue_text fuel ht (by omega), hspecial]

/-- Every value without broken texts is read back from its written form. -/
theorem readsBack_of_isRead (h : style.IsReadable special) {v : Json} (hv : IsRead true v) :
    ReadsBack pairsOnly style special v := by
  induction hv with
  | arr _ ih => exact readsBack_arr h ih
  | obj hkeys htexts _ ih =>
    refine readsBack_obj h hkeys (fun f hf => ?_) ih
    obtain ⟨s, hs⟩ := (htexts f hf).exists_plain
    rw [hs]
    exact textReadsBack_plain pairsOnly style.asciiOnly s
  | broken hp _ => cases hp
  | null =>
    intro level fuel rest _ hfuel
    obtain ⟨fuel, rfl⟩ := exists_fuel h hfuel
    exact readValue_scalar fuel (by decide)
  | bool b =>
    intro level fuel rest _ hfuel
    obtain ⟨fuel, rfl⟩ := exists_fuel h hfuel
    cases b <;> exact readValue_scalar fuel (by decide)
  | int hn =>
    intro level fuel rest hrest hfuel
    obtain ⟨fuel, rfl⟩ := exists_fuel h hfuel
    rw [writeChars, readValue_int fuel hn hrest]
    simp only [withSpecial]
  | float x =>
    intro level fuel rest hrest hfuel
    obtain ⟨fuel, rfl⟩ := exists_fuel h hfuel
    rw [writeChars, readValue_float h fuel x hrest, withSpecial]
  | str s => exact readsBack_ofText h (textReadsBack_plain pairsOnly style.asciiOnly s)

/-! ## Whole texts -/

/-- A value that is read back wherever it stands is read back from its text. -/
theorem readChars_of_readsBack (h : style.IsReadable special) {v : Json}
    (hback : ReadsBack pairsOnly style special v) :
    readChars pairsOnly (writeChars style 0 v) = .ok (v.withSpecial special) := by
  obtain ⟨c, tail, hstart, hc, -⟩ := startsValue_writeChars h 0 v
  have hread := hback 0 (readFuel (writeChars style 0 v)) [] (fun c hc => by cases hc)
    (by unfold readFuel; omega)
  have hskip : skipBlank (writeChars style 0 v) = writeChars style 0 v := by
    rw [hstart, skipBlank_cons hc]
  unfold readChars
  rw [hskip]
  rw [List.append_nil] at hread
  rw [hread]
  rfl

/-- The text of a value without broken texts is read back, up to the special numbers. -/
theorem readChars_writeChars (h : style.IsReadable special) {v : Json} (hv : IsRead true v) :
    readChars pairsOnly (writeChars style 0 v) = .ok (v.withSpecial special) :=
  readChars_of_readsBack h (readsBack_of_isRead h hv)

/-! ## The style of a persisted model -/

/-- In a persisted text null stands for every special number. -/
theorem isReadable_model (indent : Option Nat) :
    (Style.model indent).IsReadable fun _ => .null where
  comma := ⟨[], by simp [Style.model], by simp⟩
  colon := by
    cases indent with
    | none => exact ⟨[], by simp [Style.model], by simp⟩
    | some n => exact ⟨[' '], by simp [Style.model], List.forall_mem_singleton.2 (by decide)⟩
  special x hx := by
    have hwrite : (Style.model indent).number.write x = ['n', 'u', 'l', 'l'] := by
      cases x with
      | nan => simp [Layout.write, Style.model, modelNumber]
      | signed negative rank =>
        have hinfinite : ¬ rank.val < Decimal.infinityRank := by simpa [Double.isFinite] using hx
        cases negative <;> simp [Layout.write, hinfinite, Style.model, modelNumber]
    rw [hwrite]
    exact ⟨⟨'n', _, rfl, by decide⟩, fun rest => rfl⟩

/-- The persisted text of a value without broken texts is read back with null in place of every
special number. -/
theorem readStrict_write_model (indent : Option Nat) {v : Json} (hv : IsRead true v) :
    readStrict (v.write (.model indent)) = .ok v.finite := by
  rw [readStrict, write, String.toList_ofList, readChars_writeChars (isReadable_model indent) hv,
    withSpecial_null]

end Nanoservice.Json
