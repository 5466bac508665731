import Reckon.Text.CodeRange
import Reckon.Text.Latin

/-!
# The bytes of a string directive

Escapes in a string directive: a backslash and `x` with one or two digits of base sixteen, a
backslash with one to three octal digits, the letters for line feed, tab, carriage return, backspace
and form feed, and any other character for itself. A backslash at the very end stands for itself.
-/

namespace Reckon.Assembly

/-- The value of a digit in bases up to sixteen. -/
def hexValue? (c : Char) : Option Nat :=
  if Text.isAsciiDigit c then some (c.toNat - '0'.toNat)
  else if 'a' ≤ c && c ≤ 'f' then some (c.toNat - 'a'.toNat + 10)
  else if 'A' ≤ c && c ≤ 'F' then some (c.toNat - 'A'.toNat + 10)
  else none

/-- A digit of base sixteen. -/
def isHexDigit (c : Char) : Bool :=
  (hexValue? c).isSome

/-- A digit of base eight. -/
def isOctalDigit (c : Char) : Bool :=
  '0' ≤ c && c ≤ '7'

/-- The number that a row of digits denotes in a base. -/
def digitsValue (base : Nat) (digits : List Char) : Nat :=
  digits.foldl (fun value c => base * value + (hexValue? c).getD 0) 0

/-- What a character stands for after a backslash when it begins no numeral. -/
def simpleEscape (c : Char) : Char :=
  match c with
  | 'n' => '\n'
  | 't' => '\t'
  | 'r' => '\r'
  | 'b' => '\x08'
  | 'f' => '\x0c'
  | c => c

/-- What a backslash and `first` stand for, and how many characters of the text after `first` belong
to the escape. -/
def escape (first : Char) (after : List Char) : Char × Nat :=
  if first == 'x' then
    let digits := (after.take 2).takeWhile isHexDigit
    if digits.isEmpty then ('x', 0) else (Char.ofNat (digitsValue 16 digits), digits.length)
  else if isOctalDigit first then
    let digits := (after.take 2).takeWhile isOctalDigit
    (Char.ofNat (digitsValue 8 (first :: digits) % 256), digits.length)
  else (simpleEscape first, 0)

/-- The text with its escapes replaced by what they stand for. -/
def unescape : List Char → List Char
  | [] => []
  | ['\\'] => ['\\']
  | '\\' :: first :: after =>
    let (c, used) := escape first after
    c :: unescape (after.drop used)
  | c :: rest => c :: unescape rest
termination_by cs => cs.length
decreasing_by
  · simp only [List.length_drop, List.length_cons]
    omega
  · simp

/-- The bytes of a string directive. -/
def stringBytes (raw : List Char) : Except Text.Unencodable (List UInt8) :=
  Text.encodeLatin (unescape raw)

end Reckon.Assembly
