import Reckon.Text.Numeral
import Reckon.Text.Printable

/-!
# Quoted text

A quoted text stands between apostrophes, or between quotation marks if it holds an apostrophe and
no quotation mark. A backslash goes before the quote in use and before a backslash; tab, line feed
and carriage return have escapes of their own, and any other character that is not printable is
written by its code point.
-/

namespace Reckon.Text

/-- A character inside the given quotes. -/
def quotedChar (quote c : Char) : List Char :=
  if c == quote || c == '\\' then ['\\', c]
  else if c == '\t' then ['\\', 't']
  else if c == '\n' then ['\\', 'n']
  else if c == '\r' then ['\\', 'r']
  else if isPrintable c then [c]
  else (codePointEscape c).toList

/-- A text between quotes. -/
def quoted (text : String) : String :=
  let cs := text.toList
  let quote := if cs.contains '\x27' && !cs.contains '\x22' then '\x22' else '\x27'
  String.ofList (quote :: cs.flatMap (quotedChar quote) ++ [quote])

end Reckon.Text
