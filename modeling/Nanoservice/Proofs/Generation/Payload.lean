import Nanoservice.Proofs.Generation.Completion
import Nanoservice.Proofs.Json.Halves

/-!
# The object inside a reply

An object that is written as JSON begins and ends with a brace. So nothing of it is taken for blanks
around it or for a Markdown fence, whatever stands in its texts: stripping leaves it as it was
written (`Fence.strip_margins`, `Fence.strip_fenced`), and decoding what is left gives the object
back (`Generation.decode_written`).
-/

namespace Nanoservice

open Text (isBlank isBlankText trimChars dropEndWhile Trimmed)

namespace Fence

/-- A text in braces. -/
def IsBraced (cs : List Char) : Prop :=
  ∃ inner, cs = '\x7b' :: (inner ++ ['\x7d'])

variable {cs left right opening before behind : List Char} {s : String}

/-- The last character of a text in braces is the closing one, whatever stands in front. -/
theorem IsBraced.getLast? (h : IsBraced cs) (front : List Char) :
    (front ++ cs).getLast? = some '\x7d' := by
  obtain ⟨inner, rfl⟩ := h
  rw [← List.cons_append, ← List.append_assoc, List.getLast?_concat]

theorem IsBraced.trimmed (h : IsBraced cs) : Trimmed isBlank cs := by
  have hlast := h.getLast? []
  obtain ⟨inner, rfl⟩ := h
  constructor
  · intro c hc
    obtain rfl := Option.some.inj hc
    decide
  · intro c hc
    obtain rfl := Option.some.inj (hlast.symm.trans hc)
    decide

/-- A text that ends with no backtick is not closed. -/
theorem beforeClosing_eq_self (h : ∀ c ∈ cs.getLast?, c ≠ '\x60') : beforeClosing cs = cs := by
  refine if_neg fun hclosed => ?_
  have hend : cs.drop (cs.length - 3) = mark := eq_of_beq hclosed
  have hlast : cs.getLast? = some '\x60' := by
    rw [← List.take_append_drop (cs.length - 3) cs, hend]
    simp [List.getLast?_append, mark]
  exact h '\x60' hlast rfl

/-- Of a closed text what stands before the closing is left, without the blanks in front of it. -/
theorem beforeClosing_append (cs : List Char) :
    beforeClosing (cs ++ mark) = dropEndWhile isBlank cs := by
  have hlength : (cs ++ mark).length - 3 = cs.length := by simp [mark]
  have hclosed : isClosed (cs ++ mark) = true := by
    rw [isClosed, hlength, List.drop_left]
    rfl
  rw [beforeClosing, if_pos hclosed, hlength, List.take_left]

/-- Behind blanks a text in braces does not go on as an opening does. -/
theorem IsBraced.ne_json (h : IsBraced cs) (hbefore : ∀ c ∈ before, isBlank c = true)
    (tail rest : List Char) : before ++ (cs ++ tail) ≠ "json".toList ++ rest := by
  obtain ⟨inner, rfl⟩ := h
  intro heq
  cases before with
  | nil => cases heq
  | cons c before =>
    obtain rfl : c = 'j' := (List.cons.inj heq).1
    exact absurd (hbefore 'j' List.mem_cons_self) (by decide)

/-- Stripping leaves a text in braces without the blanks around it. -/
theorem strip_margins (h : IsBraced cs) (hleft : ∀ c ∈ left, isBlank c = true)
    (hright : ∀ c ∈ right, isBlank c = true) (hs : s.toList = left ++ cs ++ right) :
    strip s = String.ofList cs := by
  have hself : trimChars isBlank cs = cs := Text.trimChars_eq_self_iff.2 h.trimmed
  have hopening : afterOpening cs = cs := by
    refine afterOpening_eq_self fun tail htail => ?_
    obtain ⟨inner, rfl⟩ := h
    cases htail
  have hclosing : beforeClosing cs = cs := by
    refine beforeClosing_eq_self fun c hc => ?_
    obtain rfl := Option.some.inj ((h.getLast? []).symm.trans hc)
    decide
  rw [strip, hs]
  simp only [Text.trimChars_margins hleft h.trimmed hright, hopening, hself, hclosing]

/-- What is left of a fence around a text in braces behind its opening. -/
theorem afterOpening_fenced (h : IsBraced cs) (hbefore : ∀ c ∈ before, isBlank c = true)
    (hopening : opening ∈ openings) (tail : List Char) :
    afterOpening (opening ++ (before ++ (cs ++ tail))) = cs ++ tail := by
  rw [afterOpening_append hopening (h.ne_json hbefore tail), List.dropWhile_append_of_pos hbefore]
  obtain ⟨inner, rfl⟩ := h
  rfl

/-- Stripping leaves a text in braces without the fence around it, and without the blanks inside
and outside of the fence. -/
theorem strip_fenced (h : IsBraced cs) (hleft : ∀ c ∈ left, isBlank c = true)
    (hbefore : ∀ c ∈ before, isBlank c = true) (hbehind : ∀ c ∈ behind, isBlank c = true)
    (hright : ∀ c ∈ right, isBlank c = true) (hopening : opening ∈ openings)
    (hs : s.toList = left ++ (opening ++ (before ++ (cs ++ behind)) ++ mark) ++ right) :
    strip s = String.ofList cs := by
  have htrimmed : Trimmed isBlank (cs ++ (behind ++ mark)) := by
    constructor
    · have hhead := h.trimmed.1
      obtain ⟨inner, rfl⟩ := h
      exact hhead
    · intro c hc
      obtain rfl : '\x60' = c := by simpa [List.getLast?_append, mark] using hc
      decide
  have hbraces : dropEndWhile isBlank (cs ++ behind) = cs := by
    rw [Text.dropEndWhile_append hbehind, Text.dropEndWhile_eq_self h.trimmed.2]
  calc strip s
      = String.ofList (beforeClosing (trimChars isBlank (afterOpening
          (opening ++ (before ++ (cs ++ behind)) ++ mark)))) := by
        rw [strip, hs]
        simp only [Text.trimChars_margins hleft ((trimmed_of_mem_openings hopening).2 _) hright]
    _ = String.ofList (beforeClosing (cs ++ (behind ++ mark))) := by
        simp only [List.append_assoc, afterOpening_fenced h hbefore hopening,
          Text.trimChars_eq_self_iff.2 htrimmed]
    _ = String.ofList cs := by rw [← List.append_assoc, beforeClosing_append, hbraces]

end Fence

namespace Json

/-- An object is written in braces. -/
theorem isBraced_writeChars (style : Style) (level : Nat) (fs : List (RawText × Json)) :
    Fence.IsBraced (writeChars style level (.obj fs)) := by
  cases fs with
  | nil => exact ⟨[], by rw [writeChars]; rfl⟩
  | cons f fs =>
    obtain ⟨key, v⟩ := f
    rw [writeChars]
    exact ⟨_, rfl⟩

end Json

namespace Generation

variable {fs : List (RawText × Json)} {style : Json.Style}
  {left right opening before behind : String}

/-- A written object with a name that does not count as absent and with a list of workflows is
decoded as the object. -/
theorem decode_write (hfs : Json.IsSpelled (.obj fs)) (hstyle : style.IsPlain)
    (hname : ((fs.lookup (.plain "name")).getD .null).isFalsy = false)
    (hworkflows : ∃ ws, fs.lookup (.plain "workflows") = some (.arr ws)) :
    Reply.decode ((Json.obj fs).write style) = .ok (.ok (.obj fs)) := by
  obtain ⟨ws, hws⟩ := hworkflows
  have hshape : Reply.hasShape (.obj fs) = true := by
    simp [Reply.hasShape, hname, hws, Json.items?]
  rw [Reply.decode, Json.read_write_plain hstyle hfs]
  simp only [hshape, if_true]

/-- A reply that is a written object between blanks, or in a Markdown fence with blanks inside and
outside of it, is decoded as the object. -/
theorem decode_written (hfs : Json.IsSpelled (.obj fs)) (hstyle : style.IsPlain)
    (hname : ((fs.lookup (.plain "name")).getD .null).isFalsy = false)
    (hworkflows : ∃ ws, fs.lookup (.plain "workflows") = some (.arr ws))
    (hleft : isBlankText left = true) (hbefore : isBlankText before = true)
    (hbehind : isBlankText behind = true) (hright : isBlankText right = true)
    (hopening : opening = "```" ∨ opening = "```json") :
    Reply.decode (Fence.strip (left ++ (Json.obj fs).write style ++ right)) =
        .ok (.ok (.obj fs)) ∧
      Reply.decode (Fence.strip (left ++ opening ++ before ++ (Json.obj fs).write style ++
        behind ++ "```" ++ right)) = .ok (.ok (.obj fs)) := by
  have hdecode := decode_write hfs hstyle hname hworkflows
  have hbraced := Json.isBraced_writeChars style 0 fs
  have hmem : opening.toList ∈ Fence.openings := by
    rcases hopening with rfl | rfl
    · exact .head _
    · exact .tail _ (.head _)
  rw [isBlankText, List.all_eq_true] at hleft hbefore hbehind hright
  constructor
  · rw [Fence.strip_margins hbraced hleft hright (by simp [Json.write])]
    exact hdecode
  · rw [Fence.strip_fenced hbraced hleft hbefore hbehind hright hmem
      (by simp [Json.write, Fence.mark])]
    exact hdecode

/-- An object with fences in its texts and a letter beyond the sixteen-bit units. -/
def fencedTexts : List (RawText × Json) :=
  [("name", .str "```json\n```"), ("workflows", .arr [.str "\x7d```", .str "😀"])]

theorem decode_written_fencedTexts :
    Reply.decode (Fence.strip (" " ++ "```" ++ "\n" ++ (Json.obj fencedTexts).write .line ++ "\t" ++
      "```" ++ "\n")) = .ok (.ok (.obj fencedTexts)) := by
  have hspelled : Json.IsSpelled (.obj fencedTexts) := by
    refine .obj (by simp [fencedTexts]) (by simp [fencedTexts, Json.IsSpelledText]) ?_
    simp only [fencedTexts, List.forall_mem_cons]
    refine ⟨.str _, .arr ?_, List.forall_mem_nil _⟩
    simp only [List.forall_mem_cons]
    exact ⟨.str _, .str _, List.forall_mem_nil _⟩
  have hboth := @decode_written fencedTexts .line " " "\n" "```" "\n" "\t" hspelled
    Json.isPlain_line rfl ⟨_, rfl⟩ (by decide) (by decide) (by decide) (by decide) (.inl rfl)
  exact hboth.2

end Generation

end Nanoservice
