import Reckon.Capacity

/-!
# Words

Numbers of a fixed count of bits. `wrap` keeps the low bits of a number, `signed` reads them as a
number with sign.
-/

namespace Reckon.Machine

/-- The number of words of `bits` bits, a power of two. -/
def modulus (bits : Nat) : Nat :=
  Nat.pow 2 bits

/-- The low `bits` bits of a number. -/
def wrap (bits : Nat) (value : Int) : Nat :=
  (value % modulus bits).toNat

/-- The low `bits` bits of a number, read with sign. -/
def signed (bits : Nat) (value : Int) : Int :=
  value.bmod (modulus bits)

/-- The low bytes of a number, read with sign. There is no such reading without a byte, nor for
more bytes than a number can have. -/
def signedBytes (value width : Int) : Except ShiftError Int :=
  if width ≤ 0 then .error .negative
  else
    match powerTooLarge? (8 * width) with
    | some reason => .error (.tooLarge reason)
    | none =>
      let bits := 8 * width.toNat
      -- A number that leaves the highest bit to its sign is its own reading, however wide the word.
      .ok (if value.natAbs.log2 + 1 < bits then value else signed bits value)

theorem modulus_pos (bits : Nat) : 0 < modulus bits :=
  Nat.pow_pos (by decide)

theorem wrap_lt (bits : Nat) (value : Int) : wrap bits value < modulus bits := by
  have pos := modulus_pos bits
  have lower := Int.emod_nonneg value (show (modulus bits : Int) ≠ 0 by omega)
  have upper := Int.emod_lt_of_pos value (show (0 : Int) < modulus bits by omega)
  unfold wrap
  omega

end Reckon.Machine
