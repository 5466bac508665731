import Reckon.Text.Blank

/-!
# Decimal digits

Every script's decimal digits count, each with its value from zero to nine. A numeral may have at
most `digitLimit` digits, leading zeros included; `readNatural` refuses longer ones and says how
many digits it was given. `readInteger?` reads a whole text as a signed number: blanks around it
are ignored, the ASCII separators apart, a sign stands directly before the digits, and single low
lines may part the digits.

Numbers are written under the same limit: `isWritable` tells those that have few enough digits, and
a `Decimal` is such a number. What is read can be written (`isWritable_of_readInteger?`).
-/

namespace Reckon.Text

/-- The zeros of the scripts that have decimal digits. The nine code points after a zero are the
digits one to nine. -/
def zeroDigits : List Nat :=
  [0x30, 0x660, 0x6F0, 0x7C0, 0x966, 0x9E6, 0xA66, 0xAE6, 0xB66, 0xBE6, 0xC66, 0xCE6, 0xD66,
    0xDE6, 0xE50, 0xED0, 0xF20, 0x1040, 0x1090, 0x17E0, 0x1810, 0x1946, 0x19D0, 0x1A80, 0x1A90,
    0x1B50, 0x1BB0, 0x1C40, 0x1C50, 0xA620, 0xA8D0, 0xA900, 0xA9D0, 0xA9F0, 0xAA50, 0xABF0,
    0xFF10, 0x104A0, 0x10D30, 0x11066, 0x110F0, 0x11136, 0x111D0, 0x112F0, 0x11450, 0x114D0,
    0x11650, 0x116C0, 0x11730, 0x118E0, 0x11950, 0x11C50, 0x11D50, 0x11DA0, 0x16A60, 0x16AC0,
    0x16B50, 0x1D7CE, 0x1D7D8, 0x1D7E2, 0x1D7EC, 0x1D7F6, 0x1E140, 0x1E2F0, 0x1E950, 0x1FBF0]

/-- The value of a decimal digit of any script. -/
def digitValue? (c : Char) : Option Nat :=
  (zeroDigits.find? fun origin => origin ≤ c.toNat && c.toNat ≤ origin + 9).map (c.toNat - ·)

/-- The character is a decimal digit of some script. -/
def isDigit (c : Char) : Bool :=
  (digitValue? c).isSome

/-- The number that a row of digits denotes. -/
def naturalValue (digits : List Char) : Nat :=
  digits.foldl (fun value c => 10 * value + (digitValue? c).getD 0) 0

/-- The greatest number of digits of a numeral that is read. -/
def digitLimit : Nat := 4300

/-- A numeral with more digits than are read. -/
structure TooManyDigits where
  /-- Number of digits of the numeral. -/
  count : Nat
  deriving DecidableEq, Repr

/-- What is said about a numeral that is too long. -/
def TooManyDigits.message (e : TooManyDigits) : String :=
  s!"Exceeds the limit ({digitLimit} digits) for integer string conversion: value has {e.count} " ++
    "digits; use sys.set_int_max_str_digits() to increase the limit"

/-- The number that a row of digits denotes, unless there are too many of them. -/
def readNatural (digits : List Char) : Except TooManyDigits Nat :=
  if digits.length ≤ digitLimit then .ok (naturalValue digits) else .error ⟨digits.length⟩

/-- A number is written with at most as many digits as are read. -/
def isWritable (n : Int) : Bool :=
  n.natAbs < Nat.pow 10 digitLimit

/-- What is said about a number with too many digits to be written. -/
def unwritableMessage : String :=
  s!"Exceeds the limit ({digitLimit} digits) for integer string conversion; " ++
    "use sys.set_int_max_str_digits() to increase the limit"

theorem isWritable_of_lt {n : Int} (h : n.natAbs < 0x10000000000000000) : isWritable n = true := by
  have bound : 0x10000000000000000 ≤ Nat.pow 10 digitLimit := by decide +kernel
  exact decide_eq_true (Nat.lt_of_lt_of_le h bound)

/-- A number that can be written. -/
structure Decimal where
  value : Int
  writable : isWritable value = true
  deriving DecidableEq, Repr

instance : ToString Decimal := ⟨fun d => toString d.value⟩

/-- A number of at most 64 bits. -/
def Decimal.ofInt (n : Int) (h : n.natAbs < 0x10000000000000000 := by decide) : Decimal :=
  ⟨n, isWritable_of_lt h⟩

/-- The digits of a numeral in which single low lines may stand between digits. -/
def partedDigits? : List Char → Option (List Char)
  | [] => none
  | [c] => if isDigit c then some [c] else none
  | c :: '_' :: rest => if isDigit c then (partedDigits? rest).map (c :: ·) else none
  | c :: rest => if isDigit c then (partedDigits? rest).map (c :: ·) else none

/-- The character may stand around a number: the ASCII separators are blanks that may not. -/
def isMargin (c : Char) : Bool :=
  isBlank c && !inRanges [(0x1C, 0x1F)] c

/-- Whether a text begins with a minus sign, and what comes after its sign, if it has one. -/
def splitSign : List Char → Bool × List Char
  | '-' :: rest => (true, rest)
  | '+' :: rest => (false, rest)
  | rest => (false, rest)

/-- The signed number that a whole text denotes, if it denotes one that is not too long. -/
def readInteger? (cs : List Char) : Option Int := do
  let (negative, unsigned) := splitSign ((cs.dropWhile isMargin).reverse.dropWhile isMargin).reverse
  let digits ← partedDigits? unsigned
  let value ← (readNatural digits).toOption
  return if negative then -(value : Int) else value

theorem getD_digitValue?_le (c : Char) : (digitValue? c).getD 0 ≤ 9 := by
  unfold digitValue?
  cases found : zeroDigits.find? fun origin => origin ≤ c.toNat && c.toNat ≤ origin + 9 with
  | none => exact Nat.zero_le 9
  | some origin =>
    have near := List.find?_some found
    simp only [Bool.and_eq_true, decide_eq_true_eq] at near
    show c.toNat - origin ≤ 9
    omega

theorem naturalValue_lt (digits : List Char) : naturalValue digits < Nat.pow 10 digits.length := by
  -- digits read from the left: what is read so far makes room for one more
  have step (digits : List Char) : ∀ value count : Nat, value < Nat.pow 10 count →
      digits.foldl (fun value c => 10 * value + (digitValue? c).getD 0) value <
        Nat.pow 10 (count + digits.length) := by
    induction digits with
    | nil => exact fun value count bound => bound
    | cons c digits ih =>
      intro value count bound
      have digit := getD_digitValue?_le c
      have longer : Nat.pow 10 (count + 1) = Nat.pow 10 count * 10 := rfl
      have later := ih (10 * value + (digitValue? c).getD 0) (count + 1) (by omega)
      rwa [List.length_cons, Nat.add_comm digits.length, ← Nat.add_assoc]
  have bound := step digits 0 0 Nat.zero_lt_one
  rwa [Nat.zero_add] at bound

theorem isWritable_of_readNatural {digits : List Char} {value : Nat}
    (read : readNatural digits = .ok value) : isWritable value = true := by
  unfold readNatural at read
  split at read
  · next short =>
    cases read
    have room {limit : Nat} (short : digits.length ≤ limit) :
        naturalValue digits < Nat.pow 10 limit :=
      Nat.lt_of_lt_of_le (naturalValue_lt digits) (Nat.pow_le_pow_right (Nat.succ_pos 9) short)
    exact decide_eq_true (room short)
  · cases read

/-- A number that is read is short enough to be written. -/
theorem isWritable_of_readInteger? {cs : List Char} {n : Int} (read : readInteger? cs = some n) :
    isWritable n = true := by
  unfold readInteger? at read
  generalize splitSign _ = parts at read
  obtain ⟨negative, unsigned⟩ := parts
  obtain ⟨digits, -, read⟩ := Option.bind_eq_some_iff.mp read
  obtain ⟨value, natural, read⟩ := Option.bind_eq_some_iff.mp read
  have bound : decide (value < Nat.pow 10 digitLimit) = true := by
    cases result : readNatural digits with
    | error e =>
      rw [result] at natural
      cases natural
    | ok value' =>
      rw [result] at natural
      cases natural
      exact isWritable_of_readNatural result
  have same : n.natAbs = value := by
    cases read
    cases negative with
    | true => exact Int.natAbs_neg value
    | false => rfl
  unfold isWritable
  rw [same]
  exact bound

end Reckon.Text
