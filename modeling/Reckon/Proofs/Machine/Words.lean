import Mathlib
import Reckon.Machine.State

/-!
# Words in registers and in memory

Cutting a number to a count of bits and reading it with sign are the conversions of bit vectors
(`Machine.wrap_eq`, `Machine.signed_eq`). A word that was set in memory is read back, and setting a
word leaves all bytes outside it alone (`Memory.word_setWord_self`,
`Memory.word_setWord_of_disjoint`).
-/

namespace Reckon.Machine

/-! ## Bit vectors -/

theorem wrap_eq (bits : Nat) (value : Int) : wrap bits value = (BitVec.ofInt bits value).toNat := by
  rw [BitVec.toNat_ofInt]
  rfl

theorem signed_eq (bits : Nat) (value : Int) :
    signed bits value = (BitVec.ofInt bits value).toInt := by
  rw [BitVec.toInt_ofInt]
  rfl

/-- The low bits of a word. -/
theorem wrap_toNat {n : Nat} (bits : Nat) (word : BitVec n) :
    wrap bits word.toNat = (word.setWidth bits).toNat := by
  rw [wrap_eq, BitVec.ofInt_natCast, BitVec.toNat_ofNat, BitVec.toNat_setWidth]

theorem wrap_toNat_self {n : Nat} (word : BitVec n) : wrap n word.toNat = word.toNat := by
  rw [wrap_toNat, BitVec.setWidth_eq]

theorem wrap_of_lt {bits value : Nat} (small : value < modulus bits) : wrap bits value = value := by
  have toInt : ((value : Int) % (modulus bits : Int)) = ((value % modulus bits : Nat) : Int) := rfl
  rw [wrap, toInt, Int.toNat_natCast, Nat.mod_eq_of_lt small]

/-! ## Words in memory -/

namespace Memory

variable {m m' : Memory}

theorem word_congr {address size : Nat}
    (same : ∀ b, address ≤ b → b < address + size → m.byte b = m'.byte b) :
    m.word address size = m'.word address size := by
  induction size generalizing address with
  | zero => rfl
  | succ size ih =>
    rw [word, word, same address (by omega) (by omega), ih fun b lower upper => ?_]
    exact same b (by omega) (by omega)

theorem byte_setWord_of_outside {address size b : Nat} (value : Nat)
    (outside : b < address ∨ address + size ≤ b) :
    (m.setWord address value size).byte b = m.byte b := by
  induction size generalizing m address value with
  | zero => rfl
  | succ size ih =>
    rw [setWord, ih (value / 256) (by omega), byte_setByte, if_neg (by omega)]

/-- A word that does not touch the one that is set stays as it was. -/
theorem word_setWord_of_disjoint {a b s t : Nat} (value : Nat) (disjoint : a + s ≤ b ∨ b + t ≤ a) :
    (m.setWord a value s).word b t = m.word b t :=
  word_congr fun _ lower upper => byte_setWord_of_outside value (by omega)

theorem size_setWord (m : Memory) (address value size : Nat) :
    (m.setWord address value size).size = m.size := by
  induction size generalizing m address value with
  | zero => rfl
  | succ size ih =>
    rw [setWord, ih]
    rfl

/-- A word that was set is read back, cut to its size. -/
theorem word_setWord_self (m : Memory) (address value size : Nat) :
    (m.setWord address value size).word address size = value % unit size := by
  induction size generalizing m address value with
  | zero => exact (Nat.mod_one value).symm
  | succ size ih =>
    rw [setWord, word, ih, byte_setWord_of_outside _ (.inl (Nat.lt_succ_self address)),
      byte_setByte,
      if_pos rfl, unit_succ, Nat.mul_comm (unit size), Nat.mod_mul]
    simp

theorem word_lt (m : Memory) (address size : Nat) : m.word address size < unit size := by
  induction size generalizing address with
  | zero => exact Nat.one_pos
  | succ size ih =>
    have low := (m.byte address).toNat_lt
    have high := ih (address + 1)
    rw [word, unit_succ]
    omega

theorem reaches_of_le {address size : Nat} (inside : address + size ≤ memorySize) :
    reaches address size = true := by
  simp only [reaches, Bool.and_eq_true, decide_eq_true_eq]
  omega

theorem read_of_le {address size : Nat} (inside : address + size ≤ memorySize) :
    m.read address size = .ok (m.word address size) := by
  rw [read, if_pos (reaches_of_le inside), Int.toNat_natCast, longWord_eq_word]

theorem write_of_le {address size : Nat} (inside : address + size ≤ memorySize) (value : Int) :
    m.write address value size = .ok (m.setWord address (wrap (8 * size) value) size) := by
  rw [write, if_pos (reaches_of_le inside), Int.toNat_natCast, setLongWord_eq_setWord]

/-! ## Data -/

/-- The memory holds the data of a program. -/
structure HoldsData (m : Memory) (data : List UInt8) : Prop where
  within : Assembly.dataBase + data.length ≤ m.size
  byte : ∀ k (inside : k < data.length), m.byte (Assembly.dataBase + k) = data[k]

theorem HoldsData.setWord {data : List UInt8} {address : Nat} (holds : m.HoldsData data)
    (beyond : Assembly.dataBase + data.length ≤ address) (value size : Nat) :
    (m.setWord address value size).HoldsData data := by
  refine ⟨(size_setWord ..).symm ▸ holds.within, fun k inside => ?_⟩
  rw [byte_setWord_of_outside value (.inl (by omega))]
  exact holds.byte k inside

theorem byte_setBytes_of_outside {address b : Nat} {bytes : List UInt8}
    (outside : b < address ∨ address + bytes.length ≤ b) :
    (m.setBytes address bytes).byte b = m.byte b := by
  induction bytes generalizing m address with
  | nil => rfl
  | cons first rest ih =>
    rw [List.length_cons] at outside
    rw [setBytes, ih (by omega), byte_setByte, if_neg (by omega)]

theorem byte_setBytes {address k : Nat} {bytes : List UInt8} (inside : k < bytes.length) :
    (m.setBytes address bytes).byte (address + k) = bytes[k] := by
  induction bytes generalizing m address k with
  | nil => exact absurd inside (Nat.not_lt_zero k)
  | cons first rest ih =>
    rw [setBytes]
    cases k with
    | zero =>
      rw [byte_setBytes_of_outside (.inl (by omega)), byte_setByte]
      simp
    | succ k =>
      rw [List.length_cons] at inside
      rw [← Nat.add_assoc, Nat.add_right_comm, ih (Nat.lt_of_succ_lt_succ inside)]
      rfl

theorem size_setBytes (m : Memory) (address : Nat) (bytes : List UInt8) :
    (m.setBytes address bytes).size = m.size := by
  induction bytes generalizing m address with
  | nil => rfl
  | cons first rest ih => exact ih ..

theorem holdsData_ofData (data : List UInt8) : (ofData data).HoldsData data :=
  ⟨(size_setBytes ..).symm ▸ Nat.le_max_right .., fun _ inside => byte_setBytes inside⟩

/-- Memory is zero beyond the data. -/
theorem word_ofData_of_le {data : List UInt8} {address size : Nat}
    (beyond : Assembly.dataBase + data.length ≤ address) : (ofData data).word address size = 0 := by
  have zero : ∀ b, address ≤ b → (ofData data).byte b = 0 := fun b lower =>
    (byte_setBytes_of_outside (.inr (by omega))).trans rfl
  induction size generalizing address with
  | zero => rfl
  | succ size ih =>
    rw [word, zero address (Nat.le_refl _), ih (by omega) fun b lower => zero b (by omega)]
    rfl

end Memory

end Reckon.Machine
