import Nanoservice.Proofs.Json.Number
import Nanoservice.Proofs.Json.Text
import Nanoservice.Text.NewLine

/-!
# The line ends of JSON texts

A carriage return inside a text is escaped, so written JSON holds none, whatever the value is
(`Json.return_not_mem_writeChars`), and has the line ends that it is read from a disk with
(`Text.lineFeeds_eq_self`).
-/

namespace Nanoservice

/-- Without carriage returns a text has line feeds only. -/
theorem Text.lineFeeds_eq_self {cs : List Char} (h : '\r' ∉ cs) : lineFeeds cs = cs := by
  induction cs with
  | nil => rfl
  | cons c cs ih =>
    rw [List.mem_cons, not_or] at h
    rw [lineFeeds, if_neg (Ne.symm h.1), ih h.2]
    rintro cs' rfl
    exact absurd rfl h.1

namespace Json

open Nanoservice.Decimal (Double Layout)
open Nanoservice.Text (isAsciiDigit)

/-- Nothing that a style puts into texts holds a carriage return. -/
structure Style.HasNoReturn (style : Style) : Prop where
  comma : '\r' ∉ style.comma.toList
  colon : '\r' ∉ style.colon.toList
  special : ∀ x : Double, x.isFinite = false → '\r' ∉ style.number.write x

/-! ## Texts -/

theorem return_not_mem_unitEscape (n : Nat) : '\r' ∉ unitEscape n := by
  have hdigit : ∀ n < 16, '\r' ≠ hexDigit n := by decide
  have hmod (n : Nat) : '\r' ≠ hexDigit (n % 16) := hdigit _ (Nat.mod_lt n (by decide))
  simp [unitEscape, hmod]

theorem return_not_mem_charForm (asciiOnly : Bool) (c : Char) : '\r' ∉ charForm asciiOnly c := by
  rcases charForm_cases asciiOnly c with ⟨e, hform, -, hread⟩ | ⟨hform, -⟩ | ⟨hform, -⟩ |
    ⟨hform, -, -, hcontrol⟩
  · have he : '\r' ≠ e := by
      rintro rfl
      cases hread
    simp [hform, he]
  · rw [hform]
    exact return_not_mem_unitEscape _
  · rw [hform, List.mem_append, not_or]
    exact ⟨return_not_mem_unitEscape _, return_not_mem_unitEscape _⟩
  · rw [hform, List.mem_singleton]
    rintro rfl
    exact hcontrol (by decide)

theorem return_not_mem_symbolForm (asciiOnly : Bool) (x : Symbol) :
    '\r' ∉ symbolForm asciiOnly x := by
  cases x with
  | char c => exact return_not_mem_charForm asciiOnly c
  | half s => exact return_not_mem_unitEscape s.unit

theorem return_not_mem_writeText (asciiOnly : Bool) (t : RawText) :
    '\r' ∉ writeText asciiOnly t := by
  simp only [writeText_eq, List.mem_cons, List.mem_append, List.mem_flatMap, List.not_mem_nil,
    or_false]
  rintro (h | ⟨x, -, h⟩ | h)
  · cases h
  · exact return_not_mem_symbolForm asciiOnly x h
  · cases h

/-! ## Numbers -/

theorem return_not_mem_digits {ds : List Char} (h : ∀ d ∈ ds, isAsciiDigit d = true) :
    '\r' ∉ ds := by
  intro hmem
  cases h _ hmem

theorem return_not_mem_toDigits (n : Nat) : '\r' ∉ Nat.toDigits 10 n :=
  return_not_mem_digits fun _ => Text.isAsciiDigit_of_mem_toDigits

theorem return_not_mem_intChars (n : Int) : '\r' ∉ Text.intChars n := by
  rw [Text.intChars]
  split <;> simp [return_not_mem_toDigits]

theorem return_not_mem_exponentText (width : Nat) (e : Int) :
    '\r' ∉ Layout.exponentText width e := by
  have hzeros (k : Nat) : '\r' ∉ List.replicate k '0' :=
    return_not_mem_digits fun _ => isAsciiDigit_of_mem_zeros
  unfold Layout.exponentText
  split <;> simp [hzeros, return_not_mem_toDigits]

/-- A number in digits holds no carriage return, as it is a numeral. -/
theorem return_not_mem_magnitude (l : Layout) (rank : Nat) : '\r' ∉ l.magnitude rank := by
  obtain ⟨whole, part, e, hform, hwhole, hpart, -⟩ := magnitude_isNumeralOf l rank
  have hfraction : '\r' ∉ fractionForm part := by
    unfold fractionForm
    split <;> simp [return_not_mem_digits hpart]
  have hexponent : '\r' ∉ exponentForm e := by
    cases e with
    | none => exact List.not_mem_nil
    | some p => simp [exponentForm, return_not_mem_exponentText]
  simp [hform, numeral, return_not_mem_digits hwhole.digits, hfraction, hexponent]

variable {style : Style} (h : style.HasNoReturn)
include h

theorem return_not_mem_number (x : Double) : '\r' ∉ style.number.write x := by
  cases hx : x.isFinite with
  | false => exact h.special x hx
  | true =>
    cases x with
    | nan => cases hx
    | signed negative rank =>
      have hfinite : rank.val < Decimal.infinityRank := by simpa [Double.isFinite] using hx
      cases negative <;> simp [Layout.write, hfinite, return_not_mem_magnitude]

/-! ## Values -/

theorem return_not_mem_separator (level : Nat) : '\r' ∉ separator style level := by
  unfold separator
  split
  · exact h.comma
  · next n hn => simp [lineBreak, hn]

omit h in
theorem return_not_mem_lineBreak (level : Nat) : '\r' ∉ lineBreak style level := by
  unfold lineBreak
  split <;> simp

mutual
/-- Written JSON holds no carriage return, whatever the value is. -/
theorem return_not_mem_writeChars (level : Nat) : ∀ v : Json, '\r' ∉ writeChars style level v
  | .null | .bool true | .bool false | .arr [] | .obj [] => by rw [writeChars]; decide
  | .int n => by rw [writeChars]; exact return_not_mem_intChars n
  | .float x => by rw [writeChars]; exact return_not_mem_number h x
  | .str s => by rw [writeChars]; exact return_not_mem_writeText _ s
  | .broken symbols => by rw [writeChars]; exact return_not_mem_writeText _ (.broken symbols)
  | .arr (v :: vs) => by
    simp [writeChars, return_not_mem_lineBreak, return_not_mem_writeChars _ v,
      return_not_mem_writeItems _ vs]
  | .obj ((k, v) :: fs) => by
    simp [writeChars, return_not_mem_lineBreak, return_not_mem_writeText, h.colon,
      return_not_mem_writeChars _ v, return_not_mem_writeFields _ fs]

theorem return_not_mem_writeItems (level : Nat) : ∀ vs : List Json, '\r' ∉ writeItems style level vs
  | [] => by rw [writeItems]; exact List.not_mem_nil
  | v :: vs => by
    simp [writeItems, return_not_mem_separator h, return_not_mem_writeChars _ v,
      return_not_mem_writeItems _ vs]

theorem return_not_mem_writeFields (level : Nat) :
    ∀ fs : List (RawText × Json), '\r' ∉ writeFields style level fs
  | [] => by rw [writeFields]; exact List.not_mem_nil
  | (k, v) :: fs => by
    simp [writeFields, return_not_mem_separator h, return_not_mem_writeText, h.colon,
      return_not_mem_writeChars _ v, return_not_mem_writeFields _ fs]
end

omit h in
theorem hasNoReturn_model (indent : Option Nat) : (Style.model indent).HasNoReturn where
  comma := by simp [Style.model]
  colon := by cases indent <;> simp [Style.model]
  special x hx := by
    cases x with
    | nan => simp [Layout.write, Style.model, modelNumber]
    | signed negative rank =>
      have hinfinite : ¬ rank.val < Decimal.infinityRank := by simpa [Double.isFinite] using hx
      cases negative <;> simp [Layout.write, hinfinite, Style.model, modelNumber]

end Json

end Nanoservice
