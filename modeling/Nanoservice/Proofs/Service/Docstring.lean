import Nanoservice.Proofs.Json.Read
import Nanoservice.Proofs.Service.Closed

/-!
# The docstring of generated packages

The name of a model stands as it is in the docstring of its package, while all other texts are
written as literals. `Docstring.read?` reads a literal between three double quotes: it takes the
escapes of the language, ends at the first three quotes that no backslash guards, and has line feeds
for line ends. The docstring of a package says the name of its model, and nothing stands behind it,
exactly when the name is inert (`Backend.docstring_says_name`): it holds no three quotes in a row,
no carriage return, no null and no backslash in front of a mark that makes an escape. Names of
accepted candidates need not be inert (`Candidate.docstring_ends_early`).

That a name which is not inert does not read to itself is a matter of counting: an escape reads to
fewer characters than it has, and nothing reads to more.
-/

namespace Nanoservice

namespace Docstring

/-! ## The reader -/

/-- The quotes around a docstring. -/
def fence : List Char :=
  ['"', '"', '"']

/-- Behind a backslash these characters are not kept with it. -/
def isEscapeMark (c : Char) : Bool :=
  ['"', '\'', '\\', '\n', '\r', '\x00', 'a', 'b', 'f', 'n', 'r', 't', 'v', 'x', 'u', 'U', 'N', '0',
    '1', '2', '3', '4', '5', '6', '7'].contains c

/-- The controls that have letters of their own, but for those of lines and tabs. -/
def control? : Char → Option Char
  | 'a' => some '\x07'
  | 'b' => some '\x08'
  | 'f' => some '\x0c'
  | 'v' => some '\x0b'
  | _ => none

/-- What is left when the line feed behind a carriage return is taken with it. -/
def afterReturn : List Char → List Char
  | '\n' :: cs => cs
  | cs => cs

/-- The octal digits that a list begins with, three at most. -/
def octalDigits (cs : List Char) : List Char :=
  (cs.take 3).takeWhile fun c => '0' ≤ c && c ≤ '7'

/-- The number that octal digits write. -/
def octalNumber (ds : List Char) : Nat :=
  ds.foldl (fun n d => 8 * n + (d.toNat - 48)) 0

/-- Reads what stands behind a backslash. A line end there joins two lines, and a mark that makes no
escape is kept together with the backslash. Names of characters are not looked up, so an escape that
uses one is refused, and so is one that makes half of a surrogate pair. -/
def readEscape? : List Char → Option (List Char × List Char)
  | [] => none
  | mark :: cs =>
    if !isEscapeMark mark then some (['\\', mark], cs)
    else if mark = '\n' then some ([], cs)
    else if mark = '\r' then some ([], afterReturn cs)
    else
      match octalDigits (mark :: cs), control? mark with
      | d :: ds, _ => some ([Char.ofNat (octalNumber (d :: ds))], cs.drop ds.length)
      | [], some c => some ([c], cs)
      | [], none => do
        let (symbol, rest) ← Literal.readEscape? (mark :: cs)
        let c ← symbol.char?
        return ([c], rest)

/-- Reads a character or an escape. -/
def readPiece? : List Char → Option (List Char × List Char)
  | [] => none
  | c :: cs =>
    if c = '\\' then readEscape? cs
    else if c = '\r' then some (['\n'], afterReturn cs)
    else if c = '\x00' then none
    else some ([c], cs)

/-- Reads what stands in front of the closing quotes. -/
def readBody? : Nat → List Char → Option (List Char × List Char)
  | 0, _ => none
  | fuel + 1, cs =>
    match Json.afterWord? fence cs with
    | some rest => some ([], rest)
    | none => do
      let (piece, rest) ← readPiece? cs
      let (more, rest) ← readBody? fuel rest
      return (piece ++ more, rest)

/-- The text that a docstring at the front of a source says, and what follows it. -/
def read? (source : String) : Option (String × String) := do
  let cs ← Json.afterWord? fence source.toList
  let (body, rest) ← readBody? (cs.length + 1) cs
  return (String.ofList body, String.ofList rest)

/-- A text that reads to itself in front of a blank: no three quotes end it, and no escape, line
end or null is in it. -/
def isInert : List Char → Bool
  | '"' :: '"' :: '"' :: _ => false
  | '\\' :: mark :: cs => !isEscapeMark mark && isInert cs
  | c :: cs => c != '\r' && c != '\x00' && isInert cs
  | [] => true

/-- A character that takes no part in an escape, a line end or closing quotes. -/
def IsPlain (c : Char) : Prop :=
  c ≠ '"' ∧ c ≠ '\\' ∧ c ≠ '\r' ∧ c ≠ '\x00'

/-! ## Nothing reads to more characters -/

theorem length_afterReturn (cs : List Char) : (afterReturn cs).length ≤ cs.length := by
  unfold afterReturn
  split <;> simp

/-- An escape in a literal has its mark at least. -/
theorem length_literalEscape {mark : Char} {s : Symbol} {cs rest : List Char}
    (h : Literal.readEscape? (mark :: cs) = some (s, rest)) : rest.length ≤ cs.length := by
  rw [Literal.readEscape?] at h
  split at h
  · obtain ⟨_, -, hp⟩ := Option.map_eq_some_iff.1 h
    cases hp
    exact Nat.le_refl _
  · split at h
    · obtain ⟨_, -, hp⟩ := Option.map_eq_some_iff.1 h
      cases hp
      simp
    · cases h

/-- An escape reads to fewer characters than it has with its backslash. -/
theorem length_readEscape? {mark : Char} {cs piece rest : List Char}
    (h : readEscape? (mark :: cs) = some (piece, rest)) (hmark : isEscapeMark mark = true) :
    piece.length + rest.length < cs.length + 2 := by
  rw [readEscape?, hmark, Bool.not_true, if_neg Bool.false_ne_true] at h
  split at h
  · cases h
    simp
  · split at h
    · cases h
      have hle := length_afterReturn cs
      simp only [List.length_nil]
      omega
    · split at h
      · cases h
        simp only [List.length_singleton, List.length_drop]
        omega
      · cases h
        simp only [List.length_singleton]
        omega
      · obtain ⟨⟨s, rest'⟩, hread, h⟩ := Option.bind_eq_some_iff.1 h
        obtain ⟨c, -, hp⟩ := Option.bind_eq_some_iff.1 h
        cases hp
        have hle := length_literalEscape hread
        simp only [List.length_singleton]
        omega

/-- A mark that makes no escape is kept with its backslash. -/
theorem readPiece?_of_kept {mark : Char} (h : isEscapeMark mark = false) (cs : List Char) :
    readPiece? ('\\' :: mark :: cs) = some (['\\', mark], cs) := by
  rw [readPiece?, if_pos rfl, readEscape?, h, Bool.not_false, if_pos rfl]

/-- A character that begins no escape and ends no line is read as it is. -/
theorem readPiece?_of_plain {c : Char} (hslash : c ≠ '\\') (hreturn : c ≠ '\r')
    (hnull : c ≠ '\x00') (cs : List Char) : readPiece? (c :: cs) = some ([c], cs) := by
  rw [readPiece?, if_neg hslash, if_neg hreturn, if_neg hnull]

/-- A piece reads to no more characters than it has. -/
theorem length_readPiece? {cs piece rest : List Char} (h : readPiece? cs = some (piece, rest)) :
    piece.length + rest.length ≤ cs.length := by
  cases cs with
  | nil => cases h
  | cons c cs =>
    by_cases hslash : c = '\\'
    · rw [hslash] at h
      cases cs with
      | nil => cases h
      | cons mark cs =>
        cases hmark : isEscapeMark mark with
        | false =>
          rw [readPiece?_of_kept hmark] at h
          cases h
          simp only [List.length_cons, List.length_nil]
          omega
        | true =>
          have hlt := length_readEscape? h hmark
          simp only [List.length_cons]
          omega
    · rw [readPiece?, if_neg hslash] at h
      split at h
      · cases h
        have hle := length_afterReturn cs
        simp only [List.length_cons, List.length_nil]
        omega
      · split at h
        · cases h
        · cases h
          simp only [List.length_cons, List.length_nil]
          omega

/-! ## The body -/

/-- What is read in front of the closing quotes has no more characters than stand there. -/
theorem length_readBody? {fuel : Nat} {cs body rest : List Char}
    (h : readBody? fuel cs = some (body, rest)) : body.length + rest.length + 3 ≤ cs.length := by
  induction fuel generalizing cs body with
  | zero => cases h
  | succ fuel ih =>
    rw [readBody?] at h
    split at h
    · next hend =>
      cases h
      rw [Json.afterWord?_eq_some.1 hend, List.length_append]
      simp only [fence, List.length_cons, List.length_nil]
      omega
    · obtain ⟨⟨piece, left⟩, hpiece, h⟩ := Option.bind_eq_some_iff.1 h
      obtain ⟨⟨more, rest'⟩, hmore, h⟩ := Option.bind_eq_some_iff.1 h
      cases h
      have hle := length_readPiece? hpiece
      have hrest := ih hmore
      rw [List.length_append]
      omega

/-- A body goes on with a piece where no closing quotes stand. -/
theorem readBody?_of_piece {fuel : Nat} {cs left piece body rest : List Char}
    (hopen : Json.afterWord? fence cs = none) (hpiece : readPiece? cs = some (piece, left)) :
    readBody? (fuel + 1) cs = some (body, rest) ↔
      ∃ more, readBody? fuel left = some (more, rest) ∧ piece ++ more = body := by
  simp [readBody?, hopen, hpiece, Option.bind_eq_some_iff]

/-- No closing quotes stand where an inert text begins that a blank follows. -/
theorem afterWord?_of_isInert {cs : List Char} (h : isInert cs = true) (after : List Char) :
    Json.afterWord? fence (cs ++ ' ' :: after) = none := by
  match cs, h with
  | [], _ => rfl
  | [_], _ => simp [fence, Json.afterWord?]
  | [_, _], _ => simp [fence, Json.afterWord?]
  | a :: b :: c :: cs, h =>
    rw [Option.eq_none_iff_forall_ne_some]
    intro rest hrest
    obtain ⟨rfl, rfl, rfl, -⟩ : a = '"' ∧ b = '"' ∧ c = '"' ∧ _ := by
      simpa [fence] using Json.afterWord?_eq_some.1 hrest
    cases h

/-- Characters that begin no escape and are no quotes are read up to the closing quotes. -/
theorem readBody?_plain {cs : List Char} (h : ∀ c ∈ cs, IsPlain c) (rest : List Char) {fuel : Nat}
    (hfuel : cs.length < fuel) :
    readBody? fuel (cs ++ (fence ++ rest)) = some (cs, rest) := by
  induction cs generalizing fuel with
  | nil =>
    obtain ⟨fuel, rfl⟩ := Nat.exists_eq_succ_of_ne_zero (Nat.ne_of_gt hfuel)
    rw [List.nil_append, readBody?, Json.afterWord?_eq_some.2 rfl]
  | cons c cs ih =>
    obtain ⟨fuel, rfl⟩ := Nat.exists_eq_succ_of_ne_zero (Nat.ne_of_gt (Nat.zero_lt_of_lt hfuel))
    obtain ⟨⟨hquote, hslash, hreturn, hnull⟩, hcs⟩ := List.forall_mem_cons.1 h
    have hopen : Json.afterWord? fence (c :: (cs ++ (fence ++ rest))) = none := by
      rw [fence, Json.afterWord?, if_neg (Ne.symm hquote)]
    exact (readBody?_of_piece hopen (readPiece?_of_plain hslash hreturn hnull _)).2
      ⟨cs, ih hcs (Nat.lt_of_succ_lt_succ hfuel), rfl⟩

/-- A backslash that guards no mark is the last character. -/
theorem eq_nil_of_slash {c : Char} {cs : List Char}
    (h : ∀ mark cs', c = '\\' → cs = mark :: cs' → False) (hc : c = '\\') : cs = [] := by
  cases cs with
  | nil => rfl
  | cons mark cs => exact (h mark cs hc rfl).elim

/-- An inert text is read as it is in front of a blank and plain characters. -/
theorem readBody?_of_isInert {cs tail : List Char} (h : isInert cs = true)
    (htail : ∀ c ∈ tail, IsPlain c) (rest : List Char) {fuel : Nat}
    (hfuel : cs.length + tail.length + 1 < fuel) :
    readBody? fuel (cs ++ ' ' :: (tail ++ (fence ++ rest))) = some (cs ++ ' ' :: tail, rest) := by
  have hplain : ∀ c ∈ ' ' :: tail, IsPlain c :=
    List.forall_mem_cons.2 ⟨by simp [IsPlain], htail⟩
  induction cs using isInert.induct generalizing fuel with
  | case1 cs => cases h
  | case2 mark cs ih =>
    obtain ⟨fuel, rfl⟩ := Nat.exists_eq_succ_of_ne_zero (Nat.ne_of_gt (Nat.zero_lt_of_lt hfuel))
    have hopen := afterWord?_of_isInert h (tail ++ (fence ++ rest))
    obtain ⟨hmark, hcs⟩ : isEscapeMark mark = false ∧ isInert cs = true := by
      simpa [isInert] using h
    refine (readBody?_of_piece hopen (readPiece?_of_kept hmark _)).2 ⟨_, ih hcs ?_, rfl⟩
    simp only [List.length_cons] at hfuel
    omega
  | case3 c cs hfence hslash ih =>
    obtain ⟨fuel, rfl⟩ := Nat.exists_eq_succ_of_ne_zero (Nat.ne_of_gt (Nat.zero_lt_of_lt hfuel))
    have hopen := afterWord?_of_isInert h (tail ++ (fence ++ rest))
    rw [List.length_cons] at hfuel
    by_cases hc : c = '\\'
    · -- A backslash at the end is kept with the blank that follows.
      obtain rfl := eq_nil_of_slash hslash hc
      subst hc
      refine (readBody?_of_piece hopen (readPiece?_of_kept (by decide) _)).2
        ⟨_, readBody?_plain htail rest ?_, rfl⟩
      rw [List.length_nil] at hfuel
      omega
    · obtain ⟨⟨hreturn, hnull⟩, hcs⟩ : (c ≠ '\r' ∧ c ≠ '\x00') ∧ isInert cs = true := by
        simpa [isInert] using h
      refine (readBody?_of_piece hopen (readPiece?_of_plain hc hreturn hnull _)).2
        ⟨_, ih hcs ?_, rfl⟩
      omega
  | case4 => exact readBody?_plain hplain rest (by simpa using hfuel)

/-- What reads to some text begins with a piece and no closing quotes. -/
theorem exists_piece {fuel : Nat} {cs body rest : List Char} {c : Char}
    (h : readBody? fuel cs = some (c :: body, rest)) :
    Json.afterWord? fence cs = none ∧ ∃ fuel piece left more,
      readPiece? cs = some (piece, left) ∧ readBody? fuel left = some (more, rest) ∧
        piece ++ more = c :: body := by
  cases fuel with
  | zero => cases h
  | succ fuel =>
    rw [readBody?] at h
    split at h
    · cases h
    · next hopen =>
      obtain ⟨⟨piece, left⟩, hpiece, h⟩ := Option.bind_eq_some_iff.1 h
      obtain ⟨⟨more, rest'⟩, hmore, h⟩ := Option.bind_eq_some_iff.1 h
      have hbody : piece ++ more = c :: body ∧ rest' = rest := by simpa using h
      exact ⟨hopen, fuel, piece, left, more, hpiece, hbody.2 ▸ hmore, hbody.1⟩

/-- A text that is read as it is, with all in front of the closing quotes, is inert. -/
theorem isInert_of_readBody? {cs tail more rest : List Char} {fuel : Nat}
    (h : readBody? fuel (cs ++ tail) = some (cs ++ more, rest))
    (htail : tail.length ≤ more.length + rest.length + 3) : isInert cs = true := by
  induction cs using isInert.induct generalizing fuel with
  | case1 cs =>
    obtain ⟨hopen, -⟩ := exists_piece h
    cases hopen
  | case2 mark cs ih =>
    simp only [List.cons_append] at h
    obtain ⟨-, fuel, piece, left, body, hpiece, hbody, happend⟩ := exists_piece h
    cases hmark : isEscapeMark mark with
    | true =>
      have hlt := length_readEscape? hpiece hmark
      have hle := length_readBody? hbody
      have hlength := congrArg List.length happend
      simp only [List.length_append, List.length_cons] at hlt hlength
      omega
    | false =>
      have hkept := readPiece?_of_kept hmark (cs ++ tail)
      obtain ⟨rfl, rfl⟩ : ['\\', mark] = piece ∧ cs ++ tail = left := by
        simpa using hkept.symm.trans hpiece
      obtain rfl : body = cs ++ more := by simpa using happend
      simp [isInert, hmark, ih hbody]
  | case3 c cs hfence hslash ih =>
    by_cases hc : c = '\\'
    · rw [hc, eq_nil_of_slash hslash hc]
      rfl
    · obtain ⟨-, fuel, piece, left, body, hpiece, hbody, happend⟩ := exists_piece h
      rw [List.cons_append, readPiece?, if_neg hc] at hpiece
      split at hpiece
      · next hreturn =>
        cases hpiece
        rw [hreturn] at happend
        cases happend
      · next hreturn =>
        split at hpiece
        · cases hpiece
        · next hnull =>
          cases hpiece
          obtain rfl : body = cs ++ more := by simpa using happend
          simp [isInert, hreturn, hnull, ih hbody]
  | case4 => rfl

/-! ## Docstrings of packages -/

/-- Behind the opening quotes a body is read. -/
theorem read?_eq_some {source body rest : String} {cs : List Char}
    (hsource : source.toList = fence ++ cs) :
    read? source = some (body, rest) ↔
      readBody? (cs.length + 1) cs = some (body.toList, rest.toList) := by
  simp [read?, hsource, Json.afterWord?_eq_some.2 rfl, Option.bind_eq_some_iff, ← String.toList_inj]

/-- The docstring of a package says the name, with nothing behind it, exactly when the name is
inert. -/
theorem read?_docstring (name : String) :
    read? (Source.docstring (name ++ " service.")) = some (name ++ " service.", "\n") ↔
      isInert name.toList = true := by
  have hfence : "\"\"\"".toList = fence ∧ "\"\"\"\n".toList = fence ++ "\n".toList := ⟨rfl, rfl⟩
  have hservice : " service.".toList = ' ' :: ['s', 'e', 'r', 'v', 'i', 'c', 'e', '.'] := rfl
  have hsource : (Source.docstring (name ++ " service.")).toList =
      fence ++ (name.toList ++ ' ' :: (['s', 'e', 'r', 'v', 'i', 'c', 'e', '.'] ++
        (fence ++ "\n".toList))) := by
    simp only [Source.docstring, String.toList_append, hfence, hservice, List.append_assoc,
      List.cons_append]
  rw [read?_eq_some hsource, String.toList_append, hservice]
  constructor
  · intro h
    refine isInert_of_readBody? h ?_
    simp only [fence, List.length_cons, List.length_append, List.length_nil]
    omega
  · intro h
    refine readBody?_of_isInert h (by simp [IsPlain]) _ ?_
    simp only [List.length_append, List.length_cons]
    omega

/-- Escapes stand for characters, an unknown one for itself, and a guarded line end for nothing. -/
example : read? "\"\"\"\\x41\\102\\d\\\n.\"\"\"\n" = some ("AB\\d.", "\n") := by decide +kernel

end Docstring

namespace Backend

open OutputFile Docstring

/-- The package of a service begins with a docstring that gives the name of the model and nothing
else exactly when the name is inert. -/
theorem docstring_says_name (b : Backend) :
    ∃ source, textsAt b.serviceFiles "app/__init__.py" = [source] ∧
      (read? source = some (b.name ++ " service.", "\n") ↔ isInert b.name.toList = true) := by
  refine ⟨_, b.textsAt_serviceFiles ?_, read?_docstring b.name⟩
  simp [serviceFiles]

end Backend

namespace Candidate

open OutputFile Docstring

/-- A candidate whose name closes the docstring of its package and opens another one. -/
def statementName : Fields :=
  [("name", .str "\"\"\"+x+\"\"\""), ("workflows", .arr [])]

/-- A candidate with three quotes in its name is accepted, and the docstring of its package ends at
these quotes. -/
theorem docstring_ends_early : ∃ m source, validate "0" (.obj statementName) = .ok m ∧
    textsAt m.serviceFiles "app/__init__.py" = [source] ∧
    read? source = some ("", "+x+\"\"\" service.\"\"\"\n") := by
  have hread : validate "0" (.obj statementName) =
      .ok ⟨"0", "\"\"\"+x+\"\"\"", "", "0.1.0", [], [], []⟩ := by
    refine validate_eq_ok.2 ⟨_, rfl, rfl, rfl, ?_, by cbv⟩
    exact rfl
  refine ⟨_, Source.docstring ("\"\"\"+x+\"\"\"" ++ " service."), hread, ?_, ?_⟩
  · apply Backend.textsAt_serviceFiles
    exact List.mem_cons_self
  · decide +kernel

end Candidate

end Nanoservice
