import Std.Data.TreeMap
import Reckon.Fault
import Reckon.Machine.Word

/-!
# Memory

Bytes at addresses from zero on. Words are stored least byte first. Accesses reach the first
`memorySize` bytes; any other is out of bounds.

Main statements: reading a byte after setting one gives the new byte at its address and the old byte
elsewhere (`Memory.byte_setByte`); long words, which are treated half by half to save time, are the
words read and set byte by byte (`Memory.longWord_eq_word`, `Memory.setLongWord_eq_setWord`).
-/

namespace Reckon.Machine

/-- Number of bytes that programs can reach. -/
def memorySize : Nat := 0x100000

/-- The bytes of the memory. -/
structure Memory where
  /-- Number of bytes. -/
  size : Nat
  /-- The bytes that were set; all others are zero. -/
  cells : Std.TreeMap Nat UInt8

namespace Memory

/-- The byte at an address. -/
def byte (m : Memory) (address : Nat) : UInt8 :=
  m.cells.getD address 0

/-- The memory with another byte at an address. -/
def setByte (m : Memory) (address : Nat) (value : UInt8) : Memory :=
  { m with cells := m.cells.insert address value }

theorem byte_setByte (m : Memory) (a b : Nat) (value : UInt8) :
    (m.setByte a value).byte b = if a = b then value else m.byte b := by
  simp [byte, setByte, Std.TreeMap.getD_insert]

/-- The word of `size` bytes at an address, least byte first. -/
def word (m : Memory) (address : Nat) : (size : Nat) → Nat
  | 0 => 0
  | size + 1 => (m.byte address).toNat + 256 * m.word (address + 1) size

/-- The memory with the low `size` bytes of a value at an address, least byte first. -/
def setWord (m : Memory) (address value : Nat) : (size : Nat) → Memory
  | 0 => m
  | size + 1 => (m.setByte address value.toUInt8).setWord (address + 1) (value / 256) size

/-- What a byte counts that has `size` bytes below it. -/
def unit (size : Nat) : Nat :=
  Nat.pow 256 size

theorem unit_succ (size : Nat) : unit (size + 1) = unit size * 256 :=
  rfl

/-- A word is its low part and its high part. -/
theorem word_add (m : Memory) (address s t : Nat) :
    m.word address (s + t) = m.word address s + unit s * m.word (address + s) t := by
  induction s generalizing address with
  | zero => simp [word, unit]
  | succ s ih =>
    rw [Nat.succ_add, word, word, ih, Nat.add_assoc address 1 s, Nat.add_comm 1 s, unit_succ,
      Nat.mul_add, Nat.add_assoc, Nat.mul_comm (unit s) 256, Nat.mul_assoc]

/-- Setting a word sets its low part and its high part. -/
theorem setWord_add (m : Memory) (address value s t : Nat) :
    m.setWord address value (s + t) =
      (m.setWord address value s).setWord (address + s) (value / unit s) t := by
  induction s generalizing m address value with
  | zero => simp [setWord, unit]
  | succ s ih =>
    rw [Nat.succ_add, setWord, setWord, ih, Nat.add_assoc address 1 s, Nat.add_comm 1 s,
      Nat.div_div_eq_div_mul, unit_succ, Nat.mul_comm 256]

/-- Only the low bytes of a value are set. -/
theorem setWord_mod (m : Memory) (address value s : Nat) :
    m.setWord address (value % unit s) s = m.setWord address value s := by
  induction s generalizing m address value with
  | zero => rfl
  | succ s ih =>
    have low : (value % unit (s + 1)).toUInt8 = value.toUInt8 := by
      apply UInt8.toNat_inj.mp
      simp only [Nat.toUInt8_eq, UInt8.toNat_ofNat', unit_succ]
      exact Nat.mod_mod_of_dvd _ (Nat.dvd_mul_left 256 (unit s))
    rw [setWord, setWord, low, unit_succ, Nat.mul_comm, Nat.mod_mul_right_div_self, ih]

/-- Words up to this number of bytes are treated byte by byte. -/
def shortWord : Nat := 512

/-- The word of `size` bytes at an address, put together from its halves. -/
def longWord (m : Memory) (address size : Nat) : Nat :=
  if _h : size ≤ shortWord then m.word address size
  else
    let half := size / 2
    m.longWord address half + unit half * m.longWord (address + half) (size - half)
termination_by size
decreasing_by
  all_goals
    simp only [shortWord] at _h
    omega

@[simp] theorem longWord_eq_word (m : Memory) (address size : Nat) :
    m.longWord address size = m.word address size := by
  fun_induction longWord m address size with
  | case1 => rfl
  | case2 address size _ half low high =>
    rw [low, high, ← word_add, Nat.add_sub_cancel' (Nat.div_le_self size 2)]

/-- The memory with the low `size` bytes of a value at an address, half by half. -/
def setLongWord (m : Memory) (address value size : Nat) : Memory :=
  if _h : size ≤ shortWord then m.setWord address value size
  else
    let half := size / 2
    let lower := m.setLongWord address (value % unit half) half
    lower.setLongWord (address + half) (value / unit half) (size - half)
termination_by size
decreasing_by
  all_goals
    simp only [shortWord] at _h
    omega

@[simp] theorem setLongWord_eq_setWord (m : Memory) (address value size : Nat) :
    m.setLongWord address value size = m.setWord address value size := by
  fun_induction setLongWord m address value size with
  | case1 => rfl
  | case2 m address value size _ half lower low _ high =>
    rw [high, show lower = _ from low, setWord_mod, ← setWord_add,
      Nat.add_sub_cancel' (Nat.div_le_self size 2)]

/-- The access to `size` bytes at an address stays within reach; sizes below zero may be asked for
too. -/
def reaches (address size : Int) : Bool :=
  0 ≤ address && address + size ≤ memorySize

/-- Reads a word of `size` bytes. -/
def read (m : Memory) (address : Int) (size : Nat) : Except Fault Nat :=
  if reaches address size then .ok (m.longWord address.toNat size)
  else .error (.raised (.outOfBounds address) none)

/-- Writes the low `size` bytes of a value. -/
def write (m : Memory) (address value : Int) (size : Nat) : Except Fault Memory :=
  if reaches address size then .ok (m.setLongWord address.toNat (wrap (8 * size) value) size)
  else .error (.raised (.outOfBounds address) none)

/-- Reads a word of any size. There is nothing to read of one that ends before it begins; an end
below zero is counted from the end of the memory. -/
def readSized (m : Memory) (address size : Int) : Except Fault Nat :=
  if 0 ≤ size then m.read address size.toNat
  else if reaches address size then
    let stop := if address + size < 0 then address + size + m.size else address + size
    .ok (m.longWord address.toNat (stop - address).toNat)
  else .error (.raised (.outOfBounds address) none)

/-- Writes a word of any size; a value has no bits below the first. -/
def writeSized (m : Memory) (address value size : Int) : Except Fault Memory :=
  if 0 ≤ size then m.write address value size.toNat
  else if reaches address size then .error (.shift .negative)
  else .error (.raised (.outOfBounds address) none)

/-- The bytes from an address up to the first zero among the next `count` bytes, after those in
`before`, last byte first. -/
def bytesToZeroFrom? (m : Memory) (before : List UInt8) (address : Nat) :
    (count : Nat) → Option (List UInt8)
  | 0 => none
  | count + 1 =>
    let first := m.byte address
    if first = 0 then some before.reverse
    else m.bytesToZeroFrom? (first :: before) (address + 1) count

/-- Reads the bytes from an address up to the next zero. -/
def readText (m : Memory) (address : Int) : Except Fault (List UInt8) :=
  if reaches address 1 then
    match m.bytesToZeroFrom? [] address.toNat (m.size - address.toNat) with
    | some bytes => .ok bytes
    | none => .error .endlessText
  else .error (.raised (.outOfBounds address) none)

/-- The memory with bytes set from an address on. -/
def setBytes (m : Memory) (address : Nat) : List UInt8 → Memory
  | [] => m
  | first :: rest => (m.setByte address first).setBytes (address + 1) rest

/-- A memory that holds nothing but the data of a program. Data that does not fit makes it
longer. -/
def ofData (data : List UInt8) : Memory :=
  let empty : Memory := ⟨max memorySize (Assembly.dataBase + data.length), ∅⟩
  empty.setBytes Assembly.dataBase data

end Memory

end Reckon.Machine
