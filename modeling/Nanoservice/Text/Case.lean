/-!
# Letter case towards ASCII keywords

Keywords such as `GET` or `database` are read without regard to case. Only comparison with ASCII
keywords is ever asked for, so the maps below act on the ASCII letters and on the few other
characters whose full Unicode upper-case or lower-case form holds an ASCII character; every other
character is kept, as neither it nor its form can match an ASCII keyword.
-/

namespace Nanoservice.Text

/-- The characters outside ASCII whose full upper-case form holds an ASCII letter. -/
def upperForms : List (Char × List Char) :=
  [('\u00df', ['S', 'S']), ('\u0131', ['I']), ('\u0149', ['\u02bc', 'N']), ('\u017f', ['S']),
   ('\u01f0', ['J', '\u030c']), ('\u1e96', ['H', '\u0331']), ('\u1e97', ['T', '\u0308']),
   ('\u1e98', ['W', '\u030a']), ('\u1e99', ['Y', '\u030a']), ('\u1e9a', ['A', '\u02be']),
   ('\ufb00', ['F', 'F']), ('\ufb01', ['F', 'I']), ('\ufb02', ['F', 'L']),
   ('\ufb03', ['F', 'F', 'I']), ('\ufb04', ['F', 'F', 'L']), ('\ufb05', ['S', 'T']),
   ('\ufb06', ['S', 'T'])]

/-- The characters outside ASCII whose full lower-case form holds an ASCII letter. -/
def lowerForms : List (Char × List Char) :=
  [('\u0130', ['i', '\u0307']), ('\u212a', ['k'])]

/-- The upper-case form of one character, exact as far as ASCII letters are concerned. -/
def upperChar (c : Char) : List Char :=
  if c.toNat < 128 then [c.toUpper] else (upperForms.lookup c).getD [c]

/-- The lower-case form of one character, exact as far as ASCII letters are concerned. -/
def lowerChar (c : Char) : List Char :=
  if c.toNat < 128 then [c.toLower] else (lowerForms.lookup c).getD [c]

/-- The upper-case form of a text, for comparison with ASCII keywords. -/
def upper (s : String) : String :=
  String.ofList (s.toList.flatMap upperChar)

/-- The lower-case form of a text, for comparison with ASCII keywords. -/
def lower (s : String) : String :=
  String.ofList (s.toList.flatMap lowerChar)

end Nanoservice.Text
