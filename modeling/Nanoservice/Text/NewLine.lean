/-!
# Line ends

A carriage return, alone or in front of a line feed, ends a line like a line feed does. Texts that
are read from disk have line feeds only.
-/

namespace Nanoservice.Text

/-- A text with a line feed at the end of every line. -/
def lineFeeds : List Char → List Char
  | [] => []
  | '\r' :: '\n' :: cs => '\n' :: lineFeeds cs
  | c :: cs => (if c = '\r' then '\n' else c) :: lineFeeds cs

/-- A text without the line feed at its end, if there is one. -/
def withoutFinalLineFeed (cs : List Char) : List Char :=
  if cs.getLast? = some '\n' then cs.dropLast else cs

end Nanoservice.Text
