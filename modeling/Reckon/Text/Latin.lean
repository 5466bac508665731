import Reckon.Text.Numeral

/-!
# One byte for each character

Characters up to U+00FF are written as the byte of their code point. A text with any other character
has no such form, and `encodeLatin` reports the first maximal run of the characters it refuses.
-/

namespace Reckon.Text

/-- The first maximal run of characters that do not fit in one byte. -/
structure Unencodable where
  /-- Position of the first character of the run. -/
  position : Nat
  /-- The first character of the run. -/
  first : Char
  /-- Number of characters in the run. -/
  length : Nat
  deriving DecidableEq, Repr

/-- What is said about a text that does not fit. -/
def Unencodable.message (run : Unencodable) : String :=
  if run.length ≤ 1 then
    s!"'latin-1' codec can't encode character '" ++ codePointEscape run.first ++
      s!"' in position {run.position}: ordinal not in range(256)"
  else
    s!"'latin-1' codec can't encode characters in position {run.position}" ++
      s!"-{run.position + run.length - 1}: ordinal not in range(256)"

/-- The character fits in one byte. -/
def fitsByte (c : Char) : Bool :=
  c.toNat < 256

/-- The bytes of a text, one for each character. -/
def encodeLatin (cs : List Char) : Except Unencodable (List UInt8) :=
  match cs.dropWhile fitsByte with
  | [] => .ok (cs.map fun c => c.toNat.toUInt8)
  | c :: rest =>
    .error
      { position := (cs.takeWhile fitsByte).length
        first := c
        length := 1 + (rest.takeWhile fun d => !fitsByte d).length }

/-- The text whose characters have the given bytes as code points. -/
def decodeLatin (bytes : List UInt8) : List Char :=
  bytes.map fun b => Char.ofNat b.toNat

end Reckon.Text
