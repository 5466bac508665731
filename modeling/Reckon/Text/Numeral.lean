/-!
# Numerals

Numbers written in base eight and sixteen with lower-case digits. `padded` fills with zeros up to a
least width, `signedHex` writes the sign before the `0x` mark.
-/

namespace Reckon.Text

/-- The digits of `n` in the given base, filled with zeros on the left up to `width`. -/
def padded (base width n : Nat) : String :=
  let digits := Nat.toDigits base n
  String.ofList (List.replicate (width - digits.length) '0' ++ digits)

/-- A number in base sixteen with its mark; the sign of a negative number comes first. -/
def signedHex (n : Int) : String :=
  (if n < 0 then "-0x" else "0x") ++ padded 16 1 n.natAbs

/-- A character by its code point: two, four or eight digits in base sixteen after a backslash and
the letter that announces their number. -/
def codePointEscape (c : Char) : String :=
  if c.toNat ≤ 0xFF then "\\x" ++ padded 16 2 c.toNat
  else if c.toNat ≤ 0xFFFF then "\\u" ++ padded 16 4 c.toNat
  else "\\U" ++ padded 16 8 c.toNat

end Reckon.Text
