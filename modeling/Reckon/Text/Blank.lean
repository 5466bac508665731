import Reckon.Text.CodeRange

/-!
# Blank characters

`isBlank` is the Unicode notion of white space together with the four ASCII separators
U+001C to U+001F. `trim` removes blanks at both ends of a text, `trimRight` at its end only.
-/

namespace Reckon.Text

/-- The blank characters: tab to carriage return, the ASCII separators and the space, and the
Unicode spaces and line separators. -/
def blankRanges : List (Nat × Nat) :=
  [(0x9, 0xD), (0x1C, 0x20), (0x85, 0x85), (0xA0, 0xA0), (0x1680, 0x1680), (0x2000, 0x200A),
    (0x2028, 0x2029), (0x202F, 0x202F), (0x205F, 0x205F), (0x3000, 0x3000)]

/-- The character is blank. -/
def isBlank (c : Char) : Bool :=
  inRanges blankRanges c

/-- The text without the blanks at its end. -/
def trimRight (cs : List Char) : List Char :=
  (cs.reverse.dropWhile isBlank).reverse

/-- The text without the blanks at either end. -/
def trim (cs : List Char) : List Char :=
  trimRight (cs.dropWhile isBlank)

end Reckon.Text
