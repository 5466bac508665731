import Reckon.Text.Numeral

/-!
# String literals in assembly text

The text of a string literal must stay on its line, so control characters are written as a backslash
and three octal digits. Escapes that the source already has are left as they are.
-/

namespace Reckon.Code

/-- The character is a control character of ASCII. -/
def isControl (c : Char) : Bool :=
  c.toNat < 0x20 || c.toNat == 0x7F

/-- A character of a string literal. -/
def escapeChar (c : Char) : List Char :=
  if isControl c then '\\' :: (Text.padded 8 3 c.toNat).toList else [c]

/-- The text of a string literal with its control characters written as escapes. -/
def escapeControls (cs : List Char) : List Char :=
  cs.flatMap escapeChar

end Reckon.Code
