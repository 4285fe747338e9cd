import Nanoservice.OutputFile
import Nanoservice.Proofs.Literal
import Nanoservice.Proofs.Service.Name
import Nanoservice.Service.Source

/-!
# Statements of generated code

Generated code is read a line at a time: a `Reader` takes a fixed word, a name or a literal off the
front of a line, and a statement is a sequence of these that fills its line. Reading is defined
without regard to how code is generated, so what a file says (`Statement.all`) is a property of its
text alone.

A text made of lines has these lines (`Statement.lines_ofLines`) if none of them holds a line feed,
which is what `Statement.IsLine` says.
-/

namespace Nanoservice.Statement

/-! ## Lines -/

/-- A text begins with given characters. -/
def Begins (cs : List Char) (s : String) : Prop :=
  cs <+: s.toList

theorem begins_literal {s : String} {cs : List Char} (hs : s = String.ofList cs) : Begins cs s := by
  rw [hs, Begins, String.toList_ofList]

theorem begins_head {s : String} {c : Char} {cs : List Char} (hs : s = String.ofList (c :: cs)) :
    Begins [c] s := by
  rw [hs, Begins, String.toList_ofList]
  exact ⟨cs, rfl⟩

theorem Begins.append {s : String} {cs : List Char} (h : Begins cs s) (t : String) :
    Begins cs (s ++ t) := by
  rw [Begins, String.toList_append]
  exact h.trans (List.prefix_append _ _)

/-- A text without a line feed. -/
def IsLine (s : String) : Prop :=
  '\n' ∉ s.toList

/-- The lines of a text. -/
def lines (source : String) : List String :=
  (source.toList.splitOn '\n').map String.ofList

/-- What a text is made of need not be computed for a literal, which is known by its characters. -/
theorem isLine_literal {s : String} {cs : List Char} (hs : s = String.ofList cs)
    (h : cs.contains '\n' = false) : IsLine s := by
  rw [hs, IsLine, String.toList_ofList]
  intro hmem
  rw [List.contains_iff_mem.2 hmem] at h
  cases h

@[simp] theorem isLine_append {s t : String} : IsLine (s ++ t) ↔ IsLine s ∧ IsLine t := by
  rw [IsLine, String.toList_append, List.mem_append, not_or]
  rfl

@[simp] theorem isLine_quoteRaw (t : RawText) : IsLine (Literal.quoteRaw t) := by
  rw [IsLine, Literal.quoteRaw, String.toList_ofList]
  exact Literal.newline_not_mem_rawChars _

@[simp] theorem isLine_quote (s : String) : IsLine (Literal.quote s) :=
  isLine_quoteRaw (.plain s)

/-- A text of characters of names that is not empty. -/
structure IsName (s : String) : Prop where
  nonempty : s ≠ ""
  chars : ∀ c ∈ s.toList, Name.isNameChar c = true

theorem IsName.isLine {s : String} (h : IsName s) : IsLine s := by
  intro hmem
  cases h.chars _ hmem

/-- A text made of lines has these lines. -/
theorem lines_ofLines {ls : List String} (hne : ls ≠ []) (h : ∀ l ∈ ls, IsLine l) :
    lines (OutputFile.ofLines ls) = ls := by
  have hsep : "\n".toList = ['\n'] := rfl
  rw [lines, OutputFile.ofLines, String.toList_intercalate, hsep, List.splitOn_intercalate]
  · rw [List.map_map]
    exact (List.map_congr_left fun l _ => String.ofList_toList).trans (List.map_id ls)
  · intro l hl
    obtain ⟨s, hs, rfl⟩ := List.mem_map.1 hl
    exact h s hs
  · simpa using hne

/-! ## Readers -/

/-- What takes something off the front of a line. -/
abbrev Reader (α : Type) : Type :=
  StateT (List Char) Option α

variable {α β : Type}

/-- Takes a fixed word. -/
def word (w : String) : Reader Unit :=
  fun cs => (Json.afterWord? w.toList cs).map fun rest => ((), rest)

/-- Takes the characters of a name. -/
def name : Reader String :=
  fun cs =>
    if (cs.takeWhile Name.isNameChar).isEmpty then none
    else some (String.ofList (cs.takeWhile Name.isNameChar), cs.dropWhile Name.isNameChar)

/-- Takes a literal of a text of characters. -/
def text : Reader String :=
  Literal.readText?

/-- Takes a literal of a text of any symbols. -/
def rawText : Reader RawText :=
  Literal.readRaw?

/-- Takes a literal of a list of texts. -/
def texts : Reader (List RawText) :=
  Literal.readTexts?

/-- Takes what comes before the next blank. -/
def dottedName : Reader (List Char) :=
  fun cs => some (cs.takeWhile (· != ' '), cs.dropWhile (· != ' '))

/-- Takes all that is left. -/
def remainder : Reader (List Char) :=
  fun cs => some (cs, [])

/-- What a statement says that fills its line. -/
def read? (statement : Reader α) (line : String) : Option α :=
  match statement line.toList with
  | some (a, []) => some a
  | _ => none

/-- What the statements of a kind say in a text, in order. -/
def all (statement : Reader α) (source : String) : List α :=
  (lines source).filterMap (read? statement)

/-- Where a reader takes something, the next one goes on. -/
theorem bind_of_eq {r : Reader α} {a : α} {cs rest : List Char} (h : r cs = some (a, rest))
    (f : α → Reader β) : (r >>= f) cs = f a rest := by
  change (r cs).bind (fun p => f p.1 p.2) = f a rest
  rw [h, Option.bind_some]

/-- Where a reader takes nothing, the next one does not go on. -/
theorem bind_of_none {r : Reader α} {cs : List Char} (h : r cs = none) (f : α → Reader β) :
    (r >>= f) cs = none := by
  change (r cs).bind (fun p => f p.1 p.2) = none
  rw [h, Option.bind_none]

/-- A statement is read from a line that it fills. -/
theorem read?_of_eq {statement : Reader α} {a : α} {line : String}
    (h : statement line.toList = some (a, [])) : read? statement line = some a := by
  rw [read?, h]

/-- A literal line from whose characters a statement is not read. -/
theorem read?_literal_none {statement : Reader α} {line : String} {cs : List Char}
    (hline : line = String.ofList cs) (h : statement cs = none) : read? statement line = none := by
  rw [read?, hline, String.toList_ofList, h]

/-- A literal line from whose characters a statement is read. -/
theorem read?_literal_some {statement : Reader α} {line : String} {cs : List Char} {a : α}
    (hline : line = String.ofList cs) (h : statement cs = some (a, [])) :
    read? statement line = some a := by
  rw [read?, hline, String.toList_ofList, h]

/-- A line behind a literal from whose characters a statement is not read. -/
theorem read?_begins_none {statement : Reader α} {line : String} {cs : List Char}
    (hline : Begins cs line) (h : ∀ rest, statement (cs ++ rest) = none) :
    read? statement line = none := by
  obtain ⟨rest, hrest⟩ := hline
  rw [read?, ← hrest, h]

theorem word_append (w : String) (rest : List Char) :
    word w (w.toList ++ rest) = some ((), rest) := by
  have hafter : ∀ ws : List Char, Json.afterWord? ws (ws ++ rest) = some rest := by
    intro ws
    induction ws with
    | nil => rfl
    | cons c ws ih => rwa [List.cons_append, Json.afterWord?, if_pos rfl]
  rw [word, hafter, Option.map_some]

theorem word_toList (w : String) : word w w.toList = some ((), []) := by
  have hread := word_append w []
  rwa [List.append_nil] at hread

/-- A name is taken up to the first character that is none of a name. -/
theorem name_append {s : String} (h : IsName s) {rest : List Char}
    (hrest : ∀ c ∈ rest.head?, Name.isNameChar c = false) :
    name (s.toList ++ rest) = some (s, rest) := by
  have hstop : rest.takeWhile Name.isNameChar = [] ∧ rest.dropWhile Name.isNameChar = rest := by
    cases rest with
    | nil => exact ⟨rfl, rfl⟩
    | cons c rest => simp [hrest c rfl]
  have htake : (s.toList ++ rest).takeWhile Name.isNameChar = s.toList := by
    rw [List.takeWhile_append_of_pos h.chars, hstop.1, List.append_nil]
  have hdrop : (s.toList ++ rest).dropWhile Name.isNameChar = rest := by
    rw [List.dropWhile_append_of_pos h.chars, hstop.2]
  have hempty : s.toList.isEmpty = false := by simpa using h.nonempty
  simp [name, htake, hdrop, hempty]

/-- A name at the end of a line is taken. -/
theorem name_toList {s : String} (h : IsName s) : name s.toList = some (s, []) := by
  have hread : name (s.toList ++ []) = some (s, []) := name_append h (by simp)
  rwa [List.append_nil] at hread

theorem text_append (s : String) {rest : List Char}
    (hrest : ∀ q ∈ rest.head?, q ≠ '\'' ∧ q ≠ '"') :
    text ((Literal.quote s).toList ++ rest) = some (s, rest) := by
  rw [Literal.quote, String.toList_ofList]
  exact Literal.readText?_quoteChars s hrest

theorem rawText_append (t : RawText) {rest : List Char}
    (hrest : ∀ q ∈ rest.head?, q ≠ '\'' ∧ q ≠ '"') :
    rawText ((Literal.quoteRaw t).toList ++ rest) = some (.ofSymbols t.symbols, rest) := by
  rw [Literal.quoteRaw, String.toList_ofList]
  exact Literal.readRaw?_rawChars t hrest

theorem text_toList (s : String) : text (Literal.quote s).toList = some (s, []) := by
  have hread : text ((Literal.quote s).toList ++ []) = some (s, []) := text_append s (by simp)
  rwa [List.append_nil] at hread

theorem texts_toList (ts : List RawText) :
    texts (Source.texts ts).toList = some (ts.map fun t => .ofSymbols t.symbols, []) := by
  have hread := Literal.readTexts?_texts ts []
  rwa [List.append_nil, ← String.toList_ofList (l := Literal.valueChars _)] at hread

/-! ## Statements -/

/-- A class of the package of nodes is imported: its module and its name. -/
def nodeImport : Reader (String × String) := do
  word "from app.nodes."
  let module ← name
  word " import "
  let className ← name
  return (module, className)

/-- A module of the package of workflows is imported. -/
def workflowImport : Reader String := do
  word "from app.workflows import "
  name

/-- A text is entered in a registry with a value that begins with a name and has a given ending. -/
def entry (ending : String) : Reader (String × String) := do
  word "    "
  let key ← text
  word ": "
  let value ← name
  word ending
  return (key, value)

/-- The name of a node is entered with its class. -/
def nodeEntry : Reader (String × String) :=
  entry "(),"

/-- The name of a workflow is entered with its module. -/
def workflowEntry : Reader (String × String) :=
  entry ".execute,"

/-- A class is defined. -/
def classHead : Reader String := do
  word "class "
  let className ← name
  word ":"
  return className

/-- A text is assigned to a constant. -/
def constant (target : String) : Reader String := do
  word target
  text

/-- A class is given the name of its node. -/
def className : Reader String :=
  constant "    NAME = "

/-- A module is given the name of its workflow. -/
def moduleName : Reader String :=
  constant "NAME = "

/-- A module lists the steps of its workflow. -/
def steps : Reader (List RawText) := do
  word "STEPS = "
  texts

/-- A handler is defined. -/
def handler : Reader String := do
  word "async def "
  let function ← name
  word "(request: Request):"
  return function

/-- A request is passed to a workflow. -/
def served : Reader String := do
  word "    return await WORKFLOWS["
  let workflow ← text
  word "](await _context(request))"
  return workflow

/-- Names are imported from a module. -/
def imported : Reader (List String) := do
  word "from "
  let _ ← dottedName
  word " import "
  let names ← remainder
  return ((names.splitOnP fun c => c == ',' || c == ' ').filter (!·.isEmpty)).map String.ofList

/-- A value is assigned to a name. -/
def assigned : Reader (List String) := do
  let target ← name
  word " = "
  let _ ← remainder
  return [target]

/-- A function is defined. -/
def defined : Reader (List String) := do
  word "async def "
  let function ← name
  word "("
  let _ ← remainder
  return [function]

/-- Names are bound. -/
def bound : Reader (List String) :=
  fun cs => (imported cs).or ((assigned cs).or (defined cs))

/-- The names that a text binds outside of its functions, in order. -/
def boundNames (source : String) : List String :=
  (all bound source).flatten

/-- A line either binds names or begins with a character of no name, as what is inside of functions
and decorators do. -/
def BindsOrNot (line : String) : Prop :=
  (read? bound line).isSome = true ∨ ∀ c ∈ line.toList.head?, Name.isNameChar c = false

/-- No other statements stand outside of functions than those that bind names. -/
def OnlyBinds (source : String) : Prop :=
  ∀ line ∈ lines source, BindsOrNot line

/-! ## Reading what was generated -/

section
variable {m c f : String}

theorem read?_nodeImport (hm : IsName m) (hc : IsName c) :
    read? nodeImport ("from app.nodes." ++ m ++ " import " ++ c) = some (m, c) := by
  have hmodule (rest : List Char) :
      name (m.toList ++ (" import ".toList ++ rest)) = some (m, " import ".toList ++ rest) :=
    name_append hm fun c hc => by cases hc; rfl
  apply read?_of_eq
  simp only [String.toList_append, List.append_assoc]
  rw [nodeImport, bind_of_eq (word_append _ _), bind_of_eq (hmodule _),
    bind_of_eq (word_append _ _), bind_of_eq (name_toList hc)]
  rfl

theorem read?_workflowImport (hm : IsName m) :
    read? workflowImport ("from app.workflows import " ++ m) = some m := by
  apply read?_of_eq
  rw [String.toList_append, workflowImport, bind_of_eq (word_append _ _), name_toList hm]

theorem read?_entry {ending : String} (key : String) (hm : IsName m)
    (hending : ∀ c ∈ ending.toList.head?, Name.isNameChar c = false) :
    read? (entry ending) ("    " ++ Literal.quote key ++ ": " ++ m ++ ending) = some (key, m) := by
  have hkey (rest : List Char) : text ((Literal.quote key).toList ++ (": ".toList ++ rest)) =
      some (key, ": ".toList ++ rest) :=
    text_append key fun q hq => by cases hq; decide
  apply read?_of_eq
  simp only [String.toList_append, List.append_assoc]
  rw [entry, bind_of_eq (word_append _ _), bind_of_eq (hkey _), bind_of_eq (word_append _ _),
    bind_of_eq (name_append hm hending), bind_of_eq (word_toList _)]
  rfl

theorem read?_classHead (hc : IsName c) : read? classHead ("class " ++ c ++ ":") = some c := by
  have hclass : name (c.toList ++ ":".toList) = some (c, ":".toList) :=
    name_append hc fun c hc => by cases hc; rfl
  apply read?_of_eq
  simp only [String.toList_append, List.append_assoc]
  rw [classHead, bind_of_eq (word_append _ _), bind_of_eq hclass, bind_of_eq (word_toList _)]
  rfl

theorem read?_constant (target s : String) :
    read? (constant target) (target ++ Literal.quote s) = some s := by
  apply read?_of_eq
  rw [String.toList_append, constant, bind_of_eq (word_append _ _), text_toList]

theorem read?_steps (ts : List RawText) :
    read? steps ("STEPS = " ++ Source.texts ts) = some (ts.map fun t => .ofSymbols t.symbols) := by
  apply read?_of_eq
  rw [String.toList_append, steps, bind_of_eq (word_append _ _), texts_toList]

theorem read?_handler (hf : IsName f) :
    read? handler ("async def " ++ f ++ "(request: Request):") = some f := by
  have hfunction : name (f.toList ++ "(request: Request):".toList) =
      some (f, "(request: Request):".toList) :=
    name_append hf fun c hc => by cases hc; rfl
  apply read?_of_eq
  simp only [String.toList_append, List.append_assoc]
  rw [handler, bind_of_eq (word_append _ _), bind_of_eq hfunction, bind_of_eq (word_toList _)]
  rfl

theorem read?_served (w : String) :
    read? served ("    return await WORKFLOWS[" ++ Literal.quote w ++
      "](await _context(request))") = some w := by
  have hworkflow : text ((Literal.quote w).toList ++ "](await _context(request))".toList) =
      some (w, "](await _context(request))".toList) :=
    text_append w fun q hq => by cases hq; decide
  apply read?_of_eq
  simp only [String.toList_append, List.append_assoc]
  rw [served, bind_of_eq (word_append _ _), bind_of_eq hworkflow, bind_of_eq (word_toList _)]
  rfl

theorem read?_bound_handler (hf : IsName f) :
    read? bound ("async def " ++ f ++ "(request: Request):") = some [f] := by
  have hfunction (rest : List Char) :
      name (f.toList ++ ("(".toList ++ rest)) = some (f, "(".toList ++ rest) :=
    name_append hf fun c hc => by cases hc; rfl
  apply read?_of_eq
  have hparts : ("async def " ++ f ++ "(request: Request):").toList =
      "async def ".toList ++ (f.toList ++ ("(".toList ++ "request: Request):".toList)) := by
    simp only [String.toList_append, List.append_assoc]
    rfl
  have himported : imported ("async def " ++ f ++ "(request: Request):").toList = none := by
    rw [hparts]
    rfl
  have hassigned : assigned ("async def " ++ f ++ "(request: Request):").toList = none := by
    rw [hparts]
    rfl
  rw [bound, himported, hassigned, Option.none_or, Option.none_or, hparts, defined,
    bind_of_eq (word_append _ _), bind_of_eq (hfunction _), bind_of_eq (word_append _ _)]
  rfl

theorem bindsOrNot_literal {line : String} {cs : List Char} {names : List String}
    (hline : line = String.ofList cs) (h : bound cs = some (names, [])) : BindsOrNot line :=
  .inl (by rw [read?_literal_some hline h, Option.isSome_some])

theorem bindsOrNot_begins {line : String} {c : Char} (hline : Begins [c] line)
    (hc : Name.isNameChar c = false) : BindsOrNot line := by
  obtain ⟨cs, hcs⟩ := hline
  rw [BindsOrNot, ← hcs]
  exact .inr fun d hd => by cases hd; exact hc

theorem bindsOrNot_empty : BindsOrNot "" :=
  .inr fun c hc => by cases hc

/-- No name is bound in a line that does not begin with a character of a name. -/
theorem read?_bound_of_begins {line : String} {c : Char} (hline : Begins [c] line)
    (hc : Name.isNameChar c = false) : read? bound line = none := by
  refine read?_begins_none hline fun cs => ?_
  have hword {w : Char} (hw : Name.isNameChar w = true) (ws : List Char) :
      Json.afterWord? (w :: ws) (c :: cs) = none := by
    rw [Json.afterWord?, if_neg]
    rintro rfl
    rw [hw] at hc
    cases hc
  have hfrom : word "from " (c :: cs) = none := by
    rw [word, show "from ".toList = 'f' :: "rom ".toList from rfl, hword rfl, Option.map_none]
  have hasync : word "async def " (c :: cs) = none := by
    rw [word, show "async def ".toList = 'a' :: "sync def ".toList from rfl, hword rfl,
      Option.map_none]
  have hname : name (c :: cs) = none := by simp [name, hc]
  rw [List.singleton_append, bound, imported, bind_of_none hfrom, assigned, bind_of_none hname,
    defined, bind_of_none hasync]
  rfl

end

end Nanoservice.Statement
