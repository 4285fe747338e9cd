import Nanoservice.Text.Blank

/-!
# Raw texts

A text from outside need not be a sequence of characters: an escape can name half of a surrogate
pair without the other half. Such a text is kept symbol by symbol, so nothing of it is lost; only
where a text is shown does the replacement character stand for each half. No rule of this library
has a meaning for a half, so a text is cut and rewritten by what it shows (`RawText.rewrite`). -/

namespace Nanoservice

/-- Half of a surrogate pair, by its sixteen-bit unit. -/
structure Surrogate where
  unit : Nat
  isHalf : 0xD800 ≤ unit ∧ unit ≤ 0xDFFF
  deriving DecidableEq, Repr

/-- One unit of a raw text: a character, or half of a surrogate pair on its own. -/
inductive Symbol where
  | char (c : Char)
  | half (s : Surrogate)
  deriving DecidableEq, Repr

namespace Symbol

/-- The character of a symbol that is one. -/
def char? : Symbol → Option Char
  | .char c => some c
  | .half _ => none

/-- The character that stands for a half where a text is shown. -/
def replacement : Char := '\ufffd'

/-- The character that shows a symbol. -/
def shown : Symbol → Char
  | .char c => c
  | .half _ => replacement

@[simp] theorem shown_char (c : Char) : (char c).shown = c := rfl

@[simp] theorem shown_half (s : Surrogate) : (half s).shown = replacement := rfl

end Symbol

/-- A text from outside: a sequence of characters, or symbols of which some are no characters. -/
inductive RawText where
  | plain (s : String)
  | broken (symbols : List Symbol)
  deriving DecidableEq, Repr

namespace RawText

instance : Coe String RawText := ⟨plain⟩

instance : Inhabited RawText := ⟨plain ""⟩

@[simp] theorem plain_beq_plain (s t : String) : (plain s == plain t) = (s == t) := by
  rw [Bool.eq_iff_iff]
  simp

/-- The text of symbols: a plain one if all of them are characters. -/
def ofSymbols (symbols : List Symbol) : RawText :=
  match symbols.mapM Symbol.char? with
  | some cs => .plain (String.ofList cs)
  | none => .broken symbols

/-- The symbols of a text. -/
def symbols : RawText → List Symbol
  | .plain s => s.toList.map .char
  | .broken symbols => symbols

/-- A text as it is shown. -/
def shown : RawText → String
  | .plain s => s
  | .broken symbols => String.ofList (symbols.map Symbol.shown)

/-- The spelled form of a text: three replacement characters for each half, one for each byte that
would stand for it. -/
def spelled : RawText → String
  | .plain s => s
  | .broken symbols => String.ofList (symbols.flatMap fun s =>
      match s with
      | .char c => [c]
      | .half _ => List.replicate 3 Symbol.replacement)

/-- A text is whole when it is a sequence of characters. -/
def isWhole : RawText → Bool
  | .plain _ => true
  | .broken _ => false

@[simp] theorem isWhole_plain (s : String) : (plain s).isWhole = true := rfl

/-- A text without symbols. -/
def isEmpty : RawText → Bool
  | .plain s => s.isEmpty
  | .broken symbols => symbols.isEmpty

/-- A text of blanks alone; half of a surrogate pair is no blank. -/
def isBlank (t : RawText) : Bool :=
  Text.isBlankText t.shown

/-- Two texts in a row. -/
def append : RawText → RawText → RawText
  | .plain s, .plain t => .plain (s ++ t)
  | s, t => .broken (s.symbols ++ t.symbols)

instance : Append RawText := ⟨append⟩

/-- A text shows its symbols. -/
theorem shown_eq (t : RawText) : t.shown = String.ofList (t.symbols.map Symbol.shown) := by
  cases t with
  | plain s => simp [shown, symbols, Function.comp_def]
  | broken symbols => rfl

theorem symbols_append (t u : RawText) : (t ++ u).symbols = t.symbols ++ u.symbols := by
  cases t <;> cases u
  case plain.plain s t =>
    change (s ++ t).toList.map Symbol.char = _
    rw [String.toList_append, List.map_append]
    rfl
  all_goals rfl

@[simp] theorem shown_append (t u : RawText) : (t ++ u).shown = t.shown ++ u.shown := by
  rw [shown_eq, shown_eq t, shown_eq u, symbols_append, List.map_append, String.ofList_append]

/-- Behind one word texts stay different. -/
theorem plain_append_inj {s : String} {t u : RawText} : plain s ++ t = plain s ++ u ↔ t = u := by
  refine ⟨fun h => ?_, fun h => congrArg _ h⟩
  cases t <;> cases u
  case plain.plain t u => exact congrArg plain ((String.append_right_inj s).1 (plain.inj h))
  case broken.broken t u => exact congrArg broken (List.append_cancel_left (broken.inj h))
  all_goals cases h

/-! ## Rewriting -/

/-- Puts symbols in the place of the replacement characters of a list, from left to right. -/
def restore : List Symbol → List Char → List Symbol
  | _, [] => []
  | [], c :: cs => .char c :: restore [] cs
  | s :: ss, c :: cs =>
    if c = Symbol.replacement then s :: restore ss cs else .char c :: restore (s :: ss) cs

/-- A text rewritten by a function that neither drops nor makes replacement characters: what it
makes of the shown text, with all halves in their order again. -/
def rewrite (f : String → String) : RawText → RawText
  | .plain s => .plain (f s)
  | .broken symbols => .broken (restore (symbols.filter (·.shown = Symbol.replacement))
      (f (String.ofList (symbols.map Symbol.shown))).toList)

/-- A text without its blank margins. -/
def trim (t : RawText) : RawText :=
  t.rewrite Text.trim

/-- Symbols that are characters make a plain text. -/
theorem ofSymbols_map_char (cs : List Char) :
    ofSymbols (cs.map Symbol.char) = .plain (String.ofList cs) := by
  have hmap : (cs.map Symbol.char).mapM Symbol.char? = some cs := by
    induction cs with
    | nil => rfl
    | cons c cs ih => simp [List.mapM_cons, Symbol.char?, ih]
  rw [ofSymbols, hmap]

@[simp] theorem ofSymbols_symbols_plain (s : String) :
    ofSymbols (plain s).symbols = .plain s := by
  rw [symbols, ofSymbols_map_char, String.ofList_toList]

@[simp] theorem shown_plain (s : String) : (plain s).shown = s := rfl

@[simp] theorem isBlank_plain (s : String) : (plain s).isBlank = Text.isBlankText s := rfl

@[simp] theorem rewrite_plain (f : String → String) (s : String) :
    (plain s).rewrite f = plain (f s) := rfl

@[simp] theorem isWhole_rewrite (f : String → String) (t : RawText) :
    (t.rewrite f).isWhole = t.isWhole := by
  cases t <;> rfl

/-- Symbols that show the replacement character show the list in which they were put. -/
theorem map_shown_restore {ss : List Symbol} (h : ∀ s ∈ ss, s.shown = Symbol.replacement)
    (cs : List Char) : (restore ss cs).map Symbol.shown = cs := by
  induction cs generalizing ss with
  | nil => simp [restore]
  | cons c cs ih =>
    cases ss with
    | nil => simp [restore, ih]
    | cons s ss =>
      have htail := ih fun s' hs' => h s' (List.mem_cons_of_mem _ hs')
      by_cases hc : c = Symbol.replacement
      · simp [restore, hc, h s List.mem_cons_self, htail]
      · simp [restore, hc, ih h]

/-- Symbols that are put back where they were. -/
theorem restore_map_shown (ss : List Symbol) :
    restore (ss.filter (·.shown = Symbol.replacement)) (ss.map Symbol.shown) = ss := by
  induction ss with
  | nil => rfl
  | cons s ss ih =>
    by_cases hs : s.shown = Symbol.replacement
    · simp [restore, hs, ih]
    · have hchar : .char s.shown = s := by
        cases s with
        | char c => rfl
        | half unit => exact absurd rfl hs
      rw [List.map_cons, List.filter_cons_of_neg (by simpa using hs)]
      cases hmarks : ss.filter (·.shown = Symbol.replacement) with
      | nil => rw [restore, hchar, ← hmarks, ih]
      | cons t ts => rw [restore, if_neg hs, hchar, ← hmarks, ih]

/-- Characters that are no replacement characters stay in front of what is restored. -/
theorem restore_append {cs : List Char} (h : Symbol.replacement ∉ cs) (ss : List Symbol)
    (ds : List Char) : restore ss (cs ++ ds) = cs.map .char ++ restore ss ds := by
  induction cs with
  | nil => rfl
  | cons c cs ih =>
    obtain ⟨hc, hcs⟩ := not_or.1 fun hmem => h (List.mem_cons.2 hmem)
    cases ss with
    | nil => simpa [restore] using ih hcs
    | cons s ss => simpa [restore, Ne.symm hc] using ih hcs

/-- A rewritten text shows what its shown text is rewritten to. -/
@[simp] theorem shown_rewrite (f : String → String) (t : RawText) :
    (t.rewrite f).shown = f t.shown := by
  cases t with
  | plain s => rfl
  | broken symbols =>
    simp only [rewrite, shown]
    rw [map_shown_restore (by simp), String.ofList_toList]

/-- A word in front of a rewritten text might as well be put there by the rewriting. -/
theorem plain_append_rewrite {s : String} (h : Symbol.replacement ∉ s.toList) (f : String → String)
    (t : RawText) : plain s ++ t.rewrite f = t.rewrite fun u => s ++ f u := by
  cases t with
  | plain u => rfl
  | broken symbols =>
    change broken _ = broken _
    rw [String.toList_append, restore_append h]
    rfl

/-- What a rewriting keeps at the end of the shown text it keeps symbol by symbol, if no replacement
character is in what it cuts off and in what it puts in front. -/
theorem symbols_rewrite {f : String → String} {t : RawText} {cut put rest : List Char}
    (hshown : t.shown.toList = cut ++ rest) (hf : (f t.shown).toList = put ++ rest)
    (hcut : Symbol.replacement ∉ cut) (hput : Symbol.replacement ∉ put) :
    ∃ kept, t.symbols = cut.map .char ++ kept ∧
      (t.rewrite f).symbols = put.map .char ++ kept := by
  cases t with
  | plain s =>
    rw [shown] at hshown hf
    refine ⟨rest.map .char, ?_, ?_⟩
    · rw [symbols, hshown, List.map_append]
    · rw [rewrite, symbols, hf, List.map_append]
  | broken symbols =>
    rw [shown, String.toList_ofList] at hshown
    rw [shown] at hf
    refine ⟨restore (symbols.filter (·.shown = Symbol.replacement)) rest, ?_, ?_⟩
    · rw [← restore_append hcut, ← hshown, restore_map_shown, RawText.symbols]
    · rw [← restore_append hput, ← hf, rewrite, RawText.symbols]

/-- A text whose shown text stays as it is stays as it is. -/
theorem rewrite_eq_self {f : String → String} {t : RawText} (h : f t.shown = t.shown) :
    t.rewrite f = t := by
  cases t with
  | plain s => exact congrArg plain h
  | broken symbols =>
    simp only [shown] at h
    rw [rewrite, h, String.toList_ofList, restore_map_shown]

end RawText

end Nanoservice
