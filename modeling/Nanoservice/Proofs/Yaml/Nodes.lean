import Nanoservice.Proofs.Yaml.Scalars

/-!
# Documents read back

What a document means is said without its text: literals stand for what they resolve to, texts for
themselves, and the name of a node for what is under its anchor (`Tree.value?`). `load_document`
says that the loader finds just this in the text of the document, provided that each of its texts
and keys is read back (`Tree.isLegible`).

The loader's three functions read nodes, items and entries, each with one less of the bound on their
steps than the function that calls it; so one induction on the bound (`steps`) does for all of them,
and `Steps` is what it carries.
-/

namespace Nanoservice.Yaml

/-! ## What a document means -/

/-- The name of an anchor. -/
def isName (a : String) : Bool :=
  !a.isEmpty && a.toList.all isNameChar

mutual
/-- What a node means, and the anchors behind it. -/
def Tree.value? (anchors : Anchors) : Tree → Option (Json × Anchors)
  | .literal cs => if isBareWord cs then (resolve cs).map fun v => (v, anchors) else none
  | .text s => some (.str s, anchors)
  | .broken symbols => some (.ofText (.ofSymbols symbols), anchors)
  | .list ts => (itemValues? anchors ts).map fun (vs, anchors) => (.arr vs, anchors)
  | .map es => (entryValues? anchors es).map fun (fs, anchors) => (.obj (Table.ofLast fs), anchors)
  | .anchored a es =>
    match entryValues? anchors es with
    | some (fs, anchors) =>
      if isName a && (anchors.lookup a).isNone then
        some (.obj (Table.ofLast fs), (a, .obj (Table.ofLast fs)) :: anchors)
      else none
    | none => none
  | .named a => if isName a then (anchors.lookup a).map fun v => (v, anchors) else none

/-- What the items of a list mean, and the anchors behind them. -/
def itemValues? (anchors : Anchors) : List Tree → Option (List Json × Anchors)
  | [] => some ([], anchors)
  | t :: ts =>
    match t.value? anchors with
    | some (v, anchors) => (itemValues? anchors ts).map fun (vs, anchors) => (v :: vs, anchors)
    | none => none

/-- What the entries of a map mean, and the anchors behind them. -/
def entryValues? (anchors : Anchors) :
    List (RawText × Tree) → Option (List (RawText × Json) × Anchors)
  | [] => some ([], anchors)
  | (key, t) :: es =>
    match t.value? anchors with
    | some (v, anchors) =>
      (entryValues? anchors es).map fun (fs, anchors) =>
        ((.ofSymbols key.symbols, v) :: fs, anchors)
    | none => none
end

/-! ## Texts and keys of a document -/

mutual
/-- Each text and each key of a node is read back from where it is written. -/
def Tree.isLegible (compact : Bool) (indent : Nat) : Tree → Bool
  | .text s => isLegibleText false ⟨0, indent + 2, true⟩ s
  | .broken symbols => foldsSafely ⟨0, indent + 2, true⟩ symbols
  | .list ts => areLegibleItems (if compact then indent + 2 else indent) ts
  | .map es | .anchored _ es => areLegibleEntries (indent + 2) es
  | .literal _ | .named _ => true

/-- Each text and each key of the items of a list is read back. -/
def areLegibleItems (indent : Nat) : List Tree → Bool
  | [] => true
  | t :: ts => t.isLegible true indent && areLegibleItems indent ts

/-- Each text and each key of the entries of a map is read back. -/
def areLegibleEntries (indent : Nat) : List (RawText × Tree) → Bool
  | [] => true
  | (key, t) :: es =>
    isLegibleKey indent key && t.isLegible (!isShortKey key) indent && areLegibleEntries indent es
end

/-! ## The start of a node -/

theorem endsWord_newLine (k : Nat) (cs : List Char) : endsWord (newLine k ++ cs) = true := by
  simp [newLine, endsWord, isSeparator, isBreak]

/-- Behind a mark and its node's front stands a blank or a line break. -/
theorem endsWord_writeNode (compact : Bool) (indent column : Nat) (t : Tree) (cs : List Char) :
    endsWord (writeNode compact indent column t ++ cs) = true := by
  have hopening (indent : Nat) (ds : List Char) :
      endsWord (opening compact indent ++ ds) = true := by
    cases compact with
    | true => rfl
    | false => exact endsWord_newLine indent ds
  cases t with
  | literal | text | broken | named => rfl
  | list ts =>
    cases ts with
    | nil => rfl
    | cons t ts =>
      rw [writeNode, List.append_assoc]
      exact hopening _ _
  | map es =>
    cases es with
    | nil => rfl
    | cons e es =>
      rw [writeNode]
      simp only [List.append_assoc]
      exact hopening _ _
  | anchored a es => cases es <;> rfl

/-- A token starts here that is neither an anchor nor a name nor a bracket. -/
def StartsBlock (cs : List Char) : Prop :=
  ∃ c tail, cs = c :: tail ∧ isGapChar c = false ∧ c ∉ ['&', '*', '[', '\x7b']

theorem StartsBlock.startsToken {cs : List Char} (h : StartsBlock cs) : StartsToken cs := by
  obtain ⟨c, tail, rfl, hgap, -⟩ := h
  rintro d ⟨⟩
  exact hgap

theorem StartsBlock.ne_nil {cs : List Char} (h : StartsBlock cs) : cs ≠ [] := by
  obtain ⟨c, tail, rfl, -⟩ := h
  exact List.cons_ne_nil c tail

theorem startsBlock_of_readScalar {least : Nat} {cs : List Char} {r : Json × Gap × List Char}
    (h : readScalar least cs = some r) : StartsBlock cs := by
  obtain ⟨c, tail, hcs, hgap, -, hc⟩ := exists_head_of_readScalar h
  exact ⟨c, tail, hcs, hgap, hc⟩

theorem startsBlock_keyPart (indent : Nat) (key : RawText) {rest : List Char}
    (hrest : endsWord rest = true) : StartsBlock ((keyPart indent key).chars ++ rest) := by
  cases hkey : isShortKey key with
  | true =>
    rw [chars_keyPart_short hkey]
    exact startsBlock_of_readScalar (readScalar_shortKey hkey (Nat.le_refl (indent + 2)) hrest)
  | false =>
    rw [chars_keyPart_long hkey]
    exact ⟨_, _, rfl, by decide, by decide⟩

theorem takeGap_blank {cs : List Char} (h : StartsToken cs) :
    takeGap (' ' :: cs) = (.blanks 1, cs) := by
  have hblank : ∀ c ∈ [' '], isGapChar c = true := List.forall_mem_singleton.2 isGapChar_blank
  exact takeGap_append hblank h

variable {fuel parent column k : Nat} {inMap inline compact : Bool} {anchors anchors' : Anchors}
  {rest : List Char}

/-- What the reader of nodes does on the line of a mark, where no anchor, name or bracket stands. -/
theorem readNode_inline {cs : List Char} (h : StartsBlock cs) :
    readNode (fuel + 1) inMap inline parent anchors (' ' :: cs) =
      if inline && isMark '-' cs then
        (readItems fuel false (parent + 1 + 1) anchors cs).map fun (vs, more) => (.arr vs, more)
      else if inline && (isMark '?' cs || (readShortKey? parent cs).isSome) then
        (readEntries fuel (parent + 1 + 1) anchors cs).map fun (fs, more) =>
          (.obj (Table.ofLast fs), more)
      else
        match readScalar (parent + 1) cs with
        | some (v, gap, rest) => (gap.next? rest).map fun next => (v, anchors, next)
        | none => none := by
  obtain ⟨c, tail, rfl, -, hc⟩ := id h
  simp only [List.mem_cons, List.not_mem_nil, or_false, not_or] at hc
  rw [readNode, takeGap_blank h.startsToken]
  split
  · next heq => cases heq
  · next heq => cases heq
  · next n rest heq =>
    obtain ⟨rfl, rfl⟩ : 1 = n ∧ c :: tail = rest := by simpa using heq
    split
    · next heq => exact absurd (List.cons.inj heq).1 hc.1
    · next heq => exact absurd (List.cons.inj heq).1 hc.2.1
    · next heq => exact absurd (List.cons.inj heq).1 hc.2.2.1
    · next heq => exact absurd (List.cons.inj heq).1 hc.2.2.2
    · rfl

/-- A scalar at the end of a line is read as one. -/
theorem readNode_scalar {form : List Char} {v : Json}
    (h : readScalar (parent + 1) (form ++ (newLine k ++ rest)) =
      some (v, .lines (some '\n') [] k, rest)) :
    readNode (fuel + 1) inMap inline parent anchors (' ' :: (form ++ (newLine k ++ rest))) =
      some (v, anchors, k, rest) := by
  rw [readNode_inline (startsBlock_of_readScalar h), isMark_of_readScalar h (.inl rfl),
    isMark_of_readScalar h (.inr rfl), readShortKey?_of_newLine h, h]
  simp [Gap.next?]

/-- Empty brackets are read as an empty list. -/
theorem readNode_noItems (hrest : StartsToken rest) :
    readNode (fuel + 1) inMap inline parent anchors (' ' :: '[' :: ']' :: (newLine k ++ rest)) =
      some (.arr [], anchors, k, rest) := by
  have hstart : StartsToken ('[' :: ']' :: (newLine k ++ rest)) := by
    rintro c ⟨⟩
    decide
  rw [readNode, takeGap_blank hstart]
  simp [takeGap_newLine k hrest, Gap.next?]

/-- Empty braces are read as an empty map. -/
theorem readNode_noEntries (hrest : StartsToken rest) :
    readNode (fuel + 1) inMap inline parent anchors
      (' ' :: '\x7b' :: '\x7d' :: (newLine k ++ rest)) = some (.obj [], anchors, k, rest) := by
  have hstart : StartsToken ('\x7b' :: '\x7d' :: (newLine k ++ rest)) := by
    rintro c ⟨⟩
    decide
  rw [readNode, takeGap_blank hstart]
  simp [takeGap_newLine k hrest, Gap.next?]

/-! ## Names -/

/-- A name is taken off the front of a text that does not go on with it. -/
theorem takeName {a : String} (ha : isName a = true) {cs : List Char}
    (h : ∀ c ∈ cs.head?, isNameChar c = false) :
    String.ofList ((a.toList ++ cs).takeWhile isNameChar) = a ∧
      (a.toList ++ cs).dropWhile isNameChar = cs := by
  rw [isName, Bool.and_eq_true, List.all_eq_true] at ha
  rw [List.takeWhile_append_of_pos ha.2, List.dropWhile_append_of_pos ha.2]
  cases cs with
  | nil => simp
  | cons c cs => simp [h c rfl]

theorem head_newLine (k : Nat) (cs : List Char) :
    ∀ c ∈ (newLine k ++ cs).head?, isNameChar c = false := by
  rintro c ⟨⟩
  decide

/-- The name of a node is read as the node with its anchor. -/
theorem readNode_named {a : String} (ha : isName a = true) {v : Json}
    (h : anchors.lookup a = some v) (hrest : StartsToken rest) :
    readNode (fuel + 1) inMap inline parent anchors
        (' ' :: '*' :: (a.toList ++ (newLine k ++ rest))) = some (v, anchors, k, rest) := by
  have hstart : StartsToken ('*' :: (a.toList ++ (newLine k ++ rest))) := by
    rintro c ⟨⟩
    decide
  obtain ⟨hname, hleft⟩ := takeName ha (head_newLine k rest)
  rw [readNode, takeGap_blank hstart]
  simp [hname, hleft, h, takeGap_newLine k hrest, Gap.next?]

/-- A node with an anchor is read as the node, and kept under the anchor. -/
theorem readNode_anchored {a : String} (ha : isName a = true) (h : anchors'.lookup a = none)
    {cs : List Char} {v : Json} (hname : ∀ c ∈ cs.head?, isNameChar c = false)
    (hnode : ∀ c ∈ (takeGap cs).2.head?, c ∉ ['&', '*'])
    (hread : readNode fuel inMap false parent anchors cs = some (v, anchors', k, rest)) :
    readNode (fuel + 1) inMap inline parent anchors (' ' :: '&' :: (a.toList ++ cs)) =
      some (v, (a, v) :: anchors', k, rest) := by
  have hstart : StartsToken ('&' :: (a.toList ++ cs)) := by
    rintro c ⟨⟩
    decide
  have hany : (takeGap cs).2.head?.any ['&', '*'].contains = false := by
    rw [Option.any_eq_false]
    intro c hc
    simpa using hnode c hc
  have hempty : a.isEmpty = false := by
    rw [isName, Bool.and_eq_true, Bool.not_eq_true'] at ha
    exact ha.1
  obtain ⟨hname, hleft⟩ := takeName ha hname
  rw [readNode, takeGap_blank hstart]
  simp only [hname, hleft, hany, hread, hempty, h]
  simp

/-! ## The parts of a node -/

/-- The items of a list from the first dash on. -/
def itemsChars (indent : Nat) (t : Tree) (ts : List Tree) : List Char :=
  '-' :: (writeNode true indent (indent + 1) t ++ writeItems indent ts)

/-- The entries of a map from the first key on. -/
def entriesChars (indent : Nat) (key : RawText) (t : Tree) (es : List (RawText × Tree)) :
    List Char :=
  (keyPart indent key).chars ++
    (writeNode (keyPart indent key).compact indent (keyPart indent key).column t ++
      writeEntries indent es)

theorem writeItems_cons (indent : Nat) (t : Tree) (ts : List Tree) :
    writeItems indent (t :: ts) = newLine indent ++ itemsChars indent t ts := by
  rw [writeItems, itemsChars]

theorem writeEntries_cons (indent : Nat) (key : RawText) (t : Tree) (es : List (RawText × Tree)) :
    writeEntries indent ((key, t) :: es) = newLine indent ++ entriesChars indent key t es := by
  rw [writeEntries, entriesChars]
  simp only [List.append_assoc]

theorem writeNode_list (compact : Bool) (indent column : Nat) (t : Tree) (ts : List Tree) :
    writeNode compact indent column (.list (t :: ts)) =
      opening compact (if compact then indent + 2 else indent) ++
        itemsChars (if compact then indent + 2 else indent) t ts := by
  rw [writeNode, itemsChars]

theorem writeNode_map (compact : Bool) (indent column : Nat) (key : RawText) (t : Tree)
    (es : List (RawText × Tree)) :
    writeNode compact indent column (.map ((key, t) :: es)) =
      opening compact (indent + 2) ++ entriesChars (indent + 2) key t es := by
  rw [writeNode, entriesChars]
  simp only [List.append_assoc]

/-- Behind its anchor a map is written as one that does not start on the line of its mark. -/
theorem writeNode_anchored (compact : Bool) (indent column : Nat) (a : String)
    (es : List (RawText × Tree)) :
    writeNode compact indent column (.anchored a es) =
      ' ' :: '&' :: (a.toList ++ writeNode false indent column (.map es)) := by
  cases es with
  | nil => rw [writeNode, writeNode]
  | cons e es =>
    rw [writeNode, writeNode]
    simp only [opening, List.append_assoc, Bool.false_eq_true, if_false]

theorem compact_keyPart (indent : Nat) (key : RawText) :
    (keyPart indent key).compact = !isShortKey key := by
  unfold keyPart
  cases isShortKey key <;> rfl

theorem length_keyPart_pos (indent : Nat) (key : RawText) :
    0 < (keyPart indent key).chars.length := by
  unfold keyPart
  split <;> simp

/-- Entries start with a key, and no dash. -/
theorem starts_entriesChars (indent : Nat) (key : RawText) (t : Tree) (es : List (RawText × Tree))
    (cs : List Char) :
    StartsBlock (entriesChars indent key t es ++ cs) ∧
      isMark '-' (entriesChars indent key t es ++ cs) = false := by
  rw [entriesChars, List.append_assoc, List.append_assoc]
  have hends := endsWord_writeNode (keyPart indent key).compact indent
    (keyPart indent key).column t (writeEntries indent es ++ cs)
  exact ⟨startsBlock_keyPart indent key hends, (starts_keyPart hends).2.1⟩

/-- Items start with a dash. -/
theorem starts_itemsChars (indent : Nat) (t : Tree) (ts : List Tree) (cs : List Char) :
    StartsBlock (itemsChars indent t ts ++ cs) ∧
      isMark '-' (itemsChars indent t ts ++ cs) = true := by
  rw [itemsChars, List.cons_append, List.append_assoc]
  refine ⟨⟨_, _, rfl, by decide, by decide⟩, ?_⟩
  rw [isMark, endsWord_writeNode true indent (indent + 1) t]
  rfl

/-! ## Steps -/

/-- With a bound on their steps the readers of nodes, items and entries find what was written. -/
structure Steps (fuel : Nat) : Prop where
  /-- A node is found up to the line behind it. A list in the column of its map ends there at a
  token that is no dash. -/
  node {inMap compact : Bool} {indent column k : Nat} {anchors anchors' : Anchors} {t : Tree}
    {v : Json} {rest : List Char} (ht : t.value? anchors = some (v, anchors'))
    (hlegible : t.isLegible compact indent = true)
    (hfuel : (writeNode compact indent column t).length ≤ fuel) (hk : k ≤ indent)
    (hrest : StartsToken rest)
    (hlist : ∀ ts, t = .list ts → compact = false →
      inMap = true ∧ (k = indent → isMark '-' rest = false)) :
    readNode fuel inMap compact indent anchors
      (writeNode compact indent column t ++ (newLine k ++ rest)) = some (v, anchors', k, rest)
  /-- Items are found up to a line that cannot have another item. -/
  items {inMap : Bool} {indent k : Nat} {anchors anchors' : Anchors} {t : Tree} {ts : List Tree}
    {vs : List Json} {rest : List Char} (hts : itemValues? anchors (t :: ts) = some (vs, anchors'))
    (hlegible : areLegibleItems indent (t :: ts) = true)
    (hfuel : (itemsChars indent t ts).length ≤ fuel) (hk : k ≤ indent) (hrest : StartsToken rest)
    (hend : rest = [] ∨ k < indent ∨ inMap = true ∧ isMark '-' rest = false) :
    readItems fuel inMap indent anchors (itemsChars indent t ts ++ (newLine k ++ rest)) =
      some (vs, anchors', k, rest)
  /-- Entries are found up to a line that cannot have another entry. -/
  entries {indent k : Nat} {anchors anchors' : Anchors} {key : RawText} {t : Tree}
    {es : List (RawText × Tree)} {fs : List (RawText × Json)} {rest : List Char}
    (hes : entryValues? anchors ((key, t) :: es) = some (fs, anchors'))
    (hlegible : areLegibleEntries indent ((key, t) :: es) = true)
    (hfuel : (entriesChars indent key t es).length ≤ fuel) (hk : k ≤ indent)
    (hrest : StartsToken rest) (hend : rest = [] ∨ k < indent) :
    readEntries fuel indent anchors (entriesChars indent key t es ++ (newLine k ++ rest)) =
      some (fs, anchors', k, rest)

/-- Behind an anchor comes the end of its name, and then neither an anchor nor a name. -/
theorem starts_behindAnchor (indent column : Nat) (es : List (RawText × Tree)) (cs : List Char) :
    (∀ c ∈ (writeNode false indent column (.map es) ++ cs).head?, isNameChar c = false) ∧
      ∀ c ∈ (takeGap (writeNode false indent column (.map es) ++ cs)).2.head?,
        c ∉ ['&', '*'] := by
  cases es with
  | nil =>
    have hstart : StartsToken ('\x7b' :: '\x7d' :: cs) := by
      rintro c ⟨⟩
      decide
    rw [writeNode, List.cons_append, List.cons_append, List.singleton_append,
      takeGap_blank hstart]
    constructor <;> rintro c ⟨⟩ <;> decide
  | cons e es =>
    obtain ⟨key, t⟩ := e
    obtain ⟨hstart, -⟩ := starts_entriesChars (indent + 2) key t es cs
    rw [writeNode_map, List.append_assoc, opening, if_neg Bool.false_ne_true,
      takeGap_newLine (indent + 2) hstart.startsToken]
    refine ⟨head_newLine (indent + 2) _, ?_⟩
    obtain ⟨c, tail, heq, -, hc⟩ := hstart
    rw [heq]
    rintro d ⟨⟩
    simp only [List.mem_cons, List.not_mem_nil, or_false, not_or] at hc ⊢
    exact ⟨hc.1, hc.2.1⟩

theorem isKey_entriesChars {indent : Nat} {key : RawText} {t : Tree} {es : List (RawText × Tree)}
    (h : areLegibleEntries (indent + 2) ((key, t) :: es) = true) (cs : List Char) :
    (isMark '?' (entriesChars (indent + 2) key t es ++ cs) ||
      (readShortKey? indent (entriesChars (indent + 2) key t es ++ cs)).isSome) = true := by
  rw [areLegibleEntries, Bool.and_eq_true, Bool.and_eq_true] at h
  rw [entriesChars, List.append_assoc, List.append_assoc]
  exact isKey_keyPart h.1.1 (by omega) (endsWord_writeNode _ _ _ t _)

theorem of_itemValues?_cons {t : Tree} {ts : List Tree} {vs : List Json}
    (h : itemValues? anchors (t :: ts) = some (vs, anchors')) :
    ∃ v anchors₁ vs', t.value? anchors = some (v, anchors₁) ∧
      itemValues? anchors₁ ts = some (vs', anchors') ∧ vs = v :: vs' := by
  rw [itemValues?] at h
  split at h
  · next v anchors₁ ht =>
    obtain ⟨⟨vs', anchors₂⟩, hts, heq⟩ := Option.map_eq_some_iff.1 h
    obtain ⟨rfl, rfl⟩ := Prod.mk.inj heq
    exact ⟨v, anchors₁, vs', ht, hts, rfl⟩
  · cases h

theorem of_entryValues?_cons {key : RawText} {t : Tree} {es : List (RawText × Tree)}
    {fs : List (RawText × Json)} (h : entryValues? anchors ((key, t) :: es) = some (fs, anchors')) :
    ∃ v anchors₁ fs', t.value? anchors = some (v, anchors₁) ∧
      entryValues? anchors₁ es = some (fs', anchors') ∧
        fs = (.ofSymbols key.symbols, v) :: fs' := by
  rw [entryValues?] at h
  split at h
  · next v anchors₁ ht =>
    obtain ⟨⟨fs', anchors₂⟩, hes, heq⟩ := Option.map_eq_some_iff.1 h
    obtain ⟨rfl, rfl⟩ := Prod.mk.inj heq
    exact ⟨v, anchors₁, fs', ht, hes, rfl⟩
  · cases h

section
variable {indent : Nat} (ih : Steps fuel)
include ih

/-- The step of the reader of items. -/
theorem Steps.readItems_succ {t : Tree} {ts : List Tree} {vs : List Json}
    (hts : itemValues? anchors (t :: ts) = some (vs, anchors'))
    (hlegible : areLegibleItems indent (t :: ts) = true)
    (hfuel : (itemsChars indent t ts).length ≤ fuel + 1) (hk : k ≤ indent)
    (hrest : StartsToken rest)
    (hend : rest = [] ∨ k < indent ∨ inMap = true ∧ isMark '-' rest = false) :
    readItems (fuel + 1) inMap indent anchors (itemsChars indent t ts ++ (newLine k ++ rest)) =
      some (vs, anchors', k, rest) := by
  obtain ⟨v, anchors₁, vs, ht, htail, rfl⟩ := of_itemValues?_cons hts
  rw [areLegibleItems, Bool.and_eq_true] at hlegible
  have hdrop : (itemsChars indent t ts ++ (newLine k ++ rest)).drop 1 =
      writeNode true indent (indent + 1) t ++ (writeItems indent ts ++ (newLine k ++ rest)) := by
    rw [itemsChars, List.cons_append, List.append_assoc]
    rfl
  rw [readItems, (starts_itemsChars indent t ts _).2, hdrop]
  simp only [itemsChars, List.length_cons, List.length_append] at hfuel
  -- The first item is a node whose reader stops at the next dash or at the end.
  have hnode {k : Nat} {rest : List Char} (hk : k ≤ indent) (hrest : StartsToken rest) :
      readNode fuel false true indent anchors
        (writeNode true indent (indent + 1) t ++ (newLine k ++ rest)) =
        some (v, anchors₁, k, rest) :=
    ih.node ht hlegible.1 (by omega) hk hrest (by rintro ts - h; cases h)
  cases ts with
  | nil =>
    obtain ⟨rfl, rfl⟩ := Prod.mk.inj (Option.some.inj htail)
    rw [writeItems, List.nil_append, hnode hk hrest]
    rcases hend with rfl | hend | ⟨hmap, hdash⟩
    · simp
    · simp [hend]
    · rcases Nat.lt_or_eq_of_le hk with hlt | rfl
      · simp [hlt]
      · simp [hmap, hdash]
  | cons t' ts =>
    rw [writeItems_cons] at hfuel ⊢
    rw [List.length_append] at hfuel
    have hmore := ih.items htail hlegible.2 (by omega) hk hrest hend
    obtain ⟨hstart, hdash⟩ := starts_itemsChars indent t' ts (newLine k ++ rest)
    have hne := hstart.ne_nil
    rw [List.append_assoc, hnode (Nat.le_refl indent) hstart.startsToken]
    simp [hdash, hne, hmore]

/-- The step of the reader of entries. -/
theorem Steps.readEntries_succ {key : RawText} {t : Tree} {es : List (RawText × Tree)}
    {fs : List (RawText × Json)} (hes : entryValues? anchors ((key, t) :: es) = some (fs, anchors'))
    (hlegible : areLegibleEntries indent ((key, t) :: es) = true)
    (hfuel : (entriesChars indent key t es).length ≤ fuel + 1) (hk : k ≤ indent)
    (hrest : StartsToken rest) (hend : rest = [] ∨ k < indent) :
    readEntries (fuel + 1) indent anchors (entriesChars indent key t es ++ (newLine k ++ rest)) =
      some (fs, anchors', k, rest) := by
  obtain ⟨v, anchors₁, fs, ht, htail, rfl⟩ := of_entryValues?_cons hes
  rw [areLegibleEntries, Bool.and_eq_true, Bool.and_eq_true] at hlegible
  obtain ⟨⟨hkey, hvalue⟩, hmore⟩ := hlegible
  have hends := endsWord_writeNode (!isShortKey key) indent (keyPart indent key).column t
    (writeEntries indent es ++ (newLine k ++ rest))
  rw [entriesChars, compact_keyPart, List.append_assoc, List.append_assoc, readEntries,
    readKey?_keyPart hkey hends]
  rw [entriesChars, compact_keyPart, List.length_append, List.length_append] at hfuel
  have hpos := length_keyPart_pos indent key
  -- The value of the first entry is a node whose reader stops at the next key or at the end.
  have hnode {k : Nat} {rest : List Char} (hk : k ≤ indent) (hrest : StartsToken rest)
      (hdash : k = indent → isMark '-' rest = false) :
      readNode fuel true (!isShortKey key) indent anchors
        (writeNode (!isShortKey key) indent (keyPart indent key).column t ++
          (newLine k ++ rest)) = some (v, anchors₁, k, rest) :=
    ih.node ht hvalue (by omega) hk hrest fun ts hts hcompact => ⟨rfl, hdash⟩
  cases es with
  | nil =>
    obtain ⟨rfl, rfl⟩ := Prod.mk.inj (Option.some.inj htail)
    have hdash : k = indent → isMark '-' rest = false := by
      rintro rfl
      rcases hend with rfl | hend
      · rfl
      · exact absurd hend (Nat.lt_irrefl k)
    simp only [writeEntries, List.nil_append, hnode hk hrest hdash]
    rcases hend with rfl | hend
    · simp
    · simp [hend]
  | cons e es =>
    obtain ⟨key', t'⟩ := e
    rw [writeEntries_cons] at hfuel ⊢
    rw [List.length_append] at hfuel
    have htail := ih.entries htail hmore (by omega) hk hrest hend
    obtain ⟨hstart, hdash⟩ := starts_entriesChars indent key' t' es (newLine k ++ rest)
    have hne := hstart.ne_nil
    simp only [List.append_assoc, hnode (Nat.le_refl indent) hstart.startsToken fun _ => hdash]
    simp [hne, htail]

/-- The step of the reader of nodes at a list. -/
theorem Steps.readNode_list {ts : List Tree} {v : Json}
    (ht : (Tree.list ts).value? anchors = some (v, anchors'))
    (hlegible : (Tree.list ts).isLegible compact indent = true)
    (hfuel : (writeNode compact indent column (.list ts)).length ≤ fuel + 1) (hk : k ≤ indent)
    (hrest : StartsToken rest)
    (hlist : compact = false → inMap = true ∧ (k = indent → isMark '-' rest = false)) :
    readNode (fuel + 1) inMap compact indent anchors
      (writeNode compact indent column (.list ts) ++ (newLine k ++ rest)) =
      some (v, anchors', k, rest) := by
  rw [Tree.value?] at ht
  obtain ⟨⟨vs, anchors₁⟩, hts, heq⟩ := Option.map_eq_some_iff.1 ht
  obtain ⟨rfl, rfl⟩ := Prod.mk.inj heq
  rw [Tree.isLegible] at hlegible
  cases ts with
  | nil =>
    obtain ⟨rfl, rfl⟩ := Prod.mk.inj (Option.some.inj hts)
    exact readNode_noItems hrest
  | cons t ts =>
    rw [writeNode_list, List.length_append] at hfuel
    rw [writeNode_list, List.append_assoc]
    cases compact with
    | true =>
      simp only [if_true] at *
      have hread : readItems fuel false (indent + 2) anchors
          (itemsChars (indent + 2) t ts ++ (newLine k ++ rest)) = some (vs, anchors₁, k, rest) :=
        ih.items hts hlegible (by simp [opening] at hfuel; omega) (Nat.le_add_right_of_le hk) hrest
          (.inr (.inl (Nat.lt_add_right 1 (Nat.lt_succ_of_le hk))))
      obtain ⟨hstart, hdash⟩ := starts_itemsChars (indent + 2) t ts (newLine k ++ rest)
      rw [opening, if_pos rfl, List.singleton_append, readNode_inline hstart]
      simp [hdash, hread]
    | false =>
      simp only [Bool.false_eq_true, if_false] at *
      obtain ⟨rfl, hnext⟩ := hlist trivial
      have hend : rest = [] ∨ k < indent ∨ true = true ∧ isMark '-' rest = false :=
        .inr ((Nat.lt_or_eq_of_le hk).imp_right fun h => ⟨rfl, hnext h⟩)
      have hread := ih.items hts hlegible (by simp [opening, newLine] at hfuel; omega) hk hrest hend
      obtain ⟨hstart, hdash⟩ := starts_itemsChars indent t ts (newLine k ++ rest)
      rw [opening, if_neg Bool.false_ne_true, readNode, takeGap_newLine indent hstart.startsToken]
      simp [hdash, hread]

/-- The step of the reader of nodes at a map. -/
theorem Steps.readNode_map {es : List (RawText × Tree)} {v : Json}
    (ht : (Tree.map es).value? anchors = some (v, anchors'))
    (hlegible : (Tree.map es).isLegible compact indent = true)
    (hfuel : (writeNode compact indent column (.map es)).length ≤ fuel + 1) (hk : k ≤ indent)
    (hrest : StartsToken rest) :
    readNode (fuel + 1) inMap compact indent anchors
      (writeNode compact indent column (.map es) ++ (newLine k ++ rest)) =
      some (v, anchors', k, rest) := by
  rw [Tree.value?] at ht
  obtain ⟨⟨fs, anchors₁⟩, hes, heq⟩ := Option.map_eq_some_iff.1 ht
  obtain ⟨rfl, rfl⟩ := Prod.mk.inj heq
  rw [Tree.isLegible] at hlegible
  cases es with
  | nil =>
    obtain ⟨rfl, rfl⟩ := Prod.mk.inj (Option.some.inj hes)
    exact readNode_noEntries hrest
  | cons e es =>
    obtain ⟨key, t⟩ := e
    rw [writeNode_map, List.length_append] at hfuel
    rw [writeNode_map, List.append_assoc]
    have hpos : 0 < (opening compact (indent + 2)).length := by
      cases compact <;> simp [opening, newLine]
    have hdeeper : k < indent + 2 := Nat.lt_add_right 1 (Nat.lt_succ_of_le hk)
    have hread := ih.entries hes hlegible (by omega) (Nat.le_of_lt hdeeper) hrest (.inr hdeeper)
    obtain ⟨hstart, hdash⟩ := starts_entriesChars (indent + 2) key t es (newLine k ++ rest)
    cases compact with
    | true =>
      have hkey := isKey_entriesChars hlegible (newLine k ++ rest)
      rw [opening, if_pos rfl, List.singleton_append, readNode_inline hstart, hdash, hkey]
      simp [hread]
    | false =>
      rw [opening, if_neg Bool.false_ne_true, readNode,
        takeGap_newLine (indent + 2) hstart.startsToken]
      simp [hdash, hread]

/-- The step of the reader of nodes at a map with an anchor. -/
theorem Steps.readNode_anchoredMap {a : String} {es : List (RawText × Tree)} {v : Json}
    (ht : (Tree.anchored a es).value? anchors = some (v, anchors'))
    (hlegible : (Tree.anchored a es).isLegible compact indent = true)
    (hfuel : (writeNode compact indent column (.anchored a es)).length ≤ fuel + 1) (hk : k ≤ indent)
    (hrest : StartsToken rest) :
    readNode (fuel + 1) inMap compact indent anchors
      (writeNode compact indent column (.anchored a es) ++ (newLine k ++ rest)) =
      some (v, anchors', k, rest) := by
  rw [Tree.value?] at ht
  split at ht
  · next fs anchors₁ hes =>
    split at ht
    · next hname =>
      obtain ⟨rfl, rfl⟩ := Prod.mk.inj (Option.some.inj ht)
      rw [Bool.and_eq_true, Option.isNone_iff_eq_none] at hname
      have hmap : (Tree.map es).value? anchors = some (.obj (Table.ofLast fs), anchors₁) := by
        rw [Tree.value?, hes, Option.map_some]
      rw [writeNode_anchored, List.length_cons, List.length_cons, List.length_append] at hfuel
      have hlegible : (Tree.map es).isLegible false indent = true := hlegible
      have hread : readNode fuel inMap false indent anchors
          (writeNode false indent column (.map es) ++ (newLine k ++ rest)) =
          some (.obj (Table.ofLast fs), anchors₁, k, rest) :=
        ih.node hmap hlegible (by omega) hk hrest (by rintro ts h; cases h)
      obtain ⟨hnext, hnode⟩ := starts_behindAnchor indent column es (newLine k ++ rest)
      rw [writeNode_anchored, List.cons_append, List.cons_append, List.append_assoc]
      exact readNode_anchored hname.1 hname.2 hnext hnode hread
    · cases ht
  · cases ht

/-- The step of the reader of nodes. -/
theorem Steps.readNode_succ {t : Tree} {v : Json} (ht : t.value? anchors = some (v, anchors'))
    (hlegible : t.isLegible compact indent = true)
    (hfuel : (writeNode compact indent column t).length ≤ fuel + 1) (hk : k ≤ indent)
    (hrest : StartsToken rest)
    (hlist : ∀ ts, t = .list ts → compact = false →
      inMap = true ∧ (k = indent → isMark '-' rest = false)) :
    readNode (fuel + 1) inMap compact indent anchors
      (writeNode compact indent column t ++ (newLine k ++ rest)) = some (v, anchors', k, rest) := by
  have hends := ends_newLine (Nat.lt_succ_of_le hk) hrest
  cases t with
  | literal cs =>
    rw [Tree.value?] at ht
    split at ht
    · next hword =>
      obtain ⟨v, hv, heq⟩ := Option.map_eq_some_iff.1 ht
      obtain ⟨rfl, rfl⟩ := Prod.mk.inj heq
      rw [writeNode, List.cons_append]
      exact readNode_scalar (by rw [readScalar_word hword hends, hv, Option.map_some])
    · cases ht
  | text s =>
    obtain ⟨rfl, rfl⟩ : .str s = v ∧ anchors = anchors' := by simpa [Tree.value?] using ht
    rw [Tree.isLegible] at hlegible
    rw [writeNode, List.cons_append]
    exact readNode_scalar (readScalar_scalar hlegible (Nat.succ_pos _) (Nat.le_succ _) hends)
  | broken symbols =>
    rw [Tree.value?] at ht
    obtain ⟨rfl, rfl⟩ := Prod.mk.inj (Option.some.inj ht)
    rw [Tree.isLegible] at hlegible
    rw [writeNode, List.cons_append]
    exact readNode_scalar (readScalar_doubleQuoted hlegible (Nat.succ_pos _) hends)
  | list ts => exact ih.readNode_list ht hlegible hfuel hk hrest (hlist ts rfl)
  | map es => exact ih.readNode_map ht hlegible hfuel hk hrest
  | anchored a es => exact ih.readNode_anchoredMap ht hlegible hfuel hk hrest
  | named a =>
    rw [Tree.value?] at ht
    split at ht
    · next hname =>
      obtain ⟨v, hv, heq⟩ := Option.map_eq_some_iff.1 ht
      obtain ⟨rfl, rfl⟩ := Prod.mk.inj heq
      rw [writeNode, List.cons_append, List.cons_append]
      exact readNode_named hname hv hrest
    · cases ht

end

/-- The front of a node is not empty. -/
theorem length_writeNode_pos (compact : Bool) (indent column : Nat) (t : Tree) :
    0 < (writeNode compact indent column t).length := by
  have hopening (indent : Nat) : 0 < (opening compact indent).length := by
    cases compact <;> simp [opening, newLine]
  cases t with
  | literal | text | broken | named => simp [writeNode]
  | list ts =>
    cases ts with
    | nil => simp [writeNode]
    | cons t ts =>
      rw [writeNode_list, List.length_append]
      exact Nat.add_pos_left (hopening _) _
  | map es =>
    cases es with
    | nil => simp [writeNode]
    | cons e es =>
      rw [writeNode_map, List.length_append]
      exact Nat.add_pos_left (hopening _) _
  | anchored a es => simp [writeNode_anchored]

/-- The readers find what was written when the bound on their steps allows for its characters. -/
theorem steps (fuel : Nat) : Steps fuel := by
  induction fuel with
  | zero =>
    refine ⟨?_, ?_, ?_⟩
    · rintro inMap compact indent column k anchors anchors' t v rest - - hfuel
      exact absurd (length_writeNode_pos compact indent column t) (by omega)
    · rintro inMap indent k anchors anchors' t ts vs rest - - hfuel
      simp [itemsChars] at hfuel
    · rintro indent k anchors anchors' key t es fs rest - - hfuel
      have hpos := length_keyPart_pos indent key
      rw [entriesChars, List.length_append] at hfuel
      omega
  | succ fuel ih => exact ⟨ih.readNode_succ, ih.readItems_succ, ih.readEntries_succ⟩

/-! ## Documents -/

/-- The loader finds in the text of a document what the document means, if its texts and keys are
read back. -/
theorem load_document {es : List (RawText × Tree)} {fs : List (RawText × Json)} {anchors : Anchors}
    (hes : entryValues? [] es = some (fs, anchors)) (hlegible : areLegibleEntries 0 es = true) :
    load (document es) = some (.obj (Table.ofLast fs)) := by
  cases es with
  | nil =>
    obtain ⟨rfl, rfl⟩ := Prod.mk.inj (Option.some.inj hes)
    rfl
  | cons e es =>
    obtain ⟨key, t⟩ := e
    have hlines : (writeEntries 0 ((key, t) :: es)).drop 1 ++ ['\n'] =
        entriesChars 0 key t es ++ (newLine 0 ++ []) := by
      rw [writeEntries_cons]
      rfl
    obtain ⟨⟨c, tail, hstart, -, hc⟩, -⟩ := starts_entriesChars 0 key t es (newLine 0 ++ [])
    have hread := (steps ((entriesChars 0 key t es ++ (newLine 0 ++ [])).length + 1)).entries hes
      hlegible (by rw [List.length_append]; omega) (Nat.le_refl 0) (by rintro c ⟨⟩) (.inl rfl)
    rw [document, load, String.toList_ofList, hlines]
    · rw [hstart] at hread ⊢
      split
      · next heq =>
        simp only [List.mem_cons, List.not_mem_nil, or_false, not_or] at hc
        exact absurd (List.cons.inj heq).1 hc.2.2.2
      · rw [hread]
    · simp

end Nanoservice.Yaml
