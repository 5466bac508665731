/-!
# Limits of size

Some results are too large to be made: a text longer than any index can tell, a number with more
digits than can be counted, or either of them beyond what a memory can hold.
-/

namespace Reckon

/-- In what way a result is too large. -/
inductive TooLarge where
  /-- A text longer than any index. -/
  | index
  /-- A number with too many digits. -/
  | digits
  /-- A result beyond what a memory can hold. -/
  | memory
  deriving DecidableEq, Repr

/-- The wording of a limit. There are no words left when memory runs out. -/
def TooLarge.message : TooLarge → String
  | index => "cannot fit 'int' into an index-sized integer"
  | digits => "too many digits in integer"
  | memory => ""

/-- Characters or bits that no memory holds. -/
def memoryLimit : Int := 0x100000000000

/-- The least number that is no index, two to the power of 63. -/
def indexLimit : Int := 0x8000000000000000

/-- Why there is no text of a length. -/
def textTooLarge? (length : Int) : Option TooLarge :=
  if indexLimit ≤ length then some .index
  else if memoryLimit ≤ length then some .memory
  else none

/-- The most bits of a number whose digits, of thirty bits each and four bytes long, can be
counted. -/
def bitLimit : Int := 30 * ((indexLimit - 25) / 4 - 1)

/-- Why there is no power of two with an exponent. -/
def powerTooLarge? (exponent : Int) : Option TooLarge :=
  if bitLimit < exponent then some .digits
  else if memoryLimit ≤ exponent then some .memory
  else none

/-- Why a number cannot be shifted. -/
inductive ShiftError where
  | negative
  | tooLarge (reason : TooLarge)
  deriving DecidableEq, Repr

/-- The wording of a shift error. -/
def ShiftError.message : ShiftError → String
  | negative => "negative shift count"
  | tooLarge reason => reason.message

end Reckon
