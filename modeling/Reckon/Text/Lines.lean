/-!
# Lines of a text

A line ends at a line feed, a carriage return (a following line feed belongs to it), a vertical
tab, a form feed, one of the separators U+001C to U+001E, a next-line character, or a Unicode line
or paragraph separator. A text that ends with a line break has no empty last line.
-/

namespace Reckon.Text

/-- The character ends a line. -/
def isLineBreak (c : Char) : Bool :=
  ['\n', '\r', '\x0b', '\x0c', '\x1c', '\x1d', '\x1e', '\x85', '\u2028', '\u2029'].contains c

/-- The lines of a text whose first line has begun with `current`, last character first. -/
def linesFrom (current : List Char) : List Char → List (List Char)
  | [] => if current.isEmpty then [] else [current.reverse]
  | '\r' :: '\n' :: rest => current.reverse :: linesFrom [] rest
  | c :: rest =>
    if isLineBreak c then current.reverse :: linesFrom [] rest
    else linesFrom (c :: current) rest

/-- The lines of a text, without their line breaks. -/
def lines (cs : List Char) : List (List Char) :=
  linesFrom [] cs

end Reckon.Text
