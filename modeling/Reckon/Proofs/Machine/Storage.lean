import Reckon.Proofs.Machine.WellFormed

/-!
# Memory holds what was written

Words are written byte by byte, least byte first, whatever their number of bytes. A write sets the
bytes of its own range and no others, so that accesses of different widths may overlap: reading a
part of what was written gives that part of the value (`Memory.word_setWord_part`).

Main statement: when a write is refused, and what is read anywhere after one that is not
(`Memory.read_of_write`).
-/

namespace Reckon.Machine

/-- The part of a number that begins with a digit is not touched by cutting the number behind it. -/
theorem emod_ediv_emod {scale : Int} (pos : 0 < scale) (value : Int) {rest part : Int}
    (divides : part ∣ rest) : value % (scale * rest) / scale % part = value / scale % part := by
  have cut : value % (scale * rest) = value + scale * -(rest * (value / (scale * rest))) := by
    rw [Int.emod_def, Int.mul_neg, ← Int.mul_assoc, Int.sub_eq_add_neg]
  have multiple : part ∣ -(rest * (value / (scale * rest))) :=
    Int.dvd_neg.mpr (divides.mul_right _)
  rw [cut, Int.add_mul_ediv_left _ _ pos.ne', Int.add_emod, Int.emod_eq_zero_of_dvd multiple,
    Int.add_zero, Int.emod_emod]

namespace Memory

variable {m m' : Memory}

theorem unit_eq (size : Nat) : unit size = 2 ^ (8 * size) := by
  rw [Nat.pow_mul]
  rfl

/-- A part of a word that was set is that part of the value. -/
theorem word_setWord_part (m : Memory) (address value : Nat) {skipped part size : Nat}
    (inside : skipped + part ≤ size) :
    (m.setWord address value size).word (address + skipped) part =
      value / unit skipped % unit part := by
  obtain ⟨rest, rfl⟩ : ∃ rest, size = skipped + (part + rest) := ⟨size - skipped - part, by omega⟩
  rw [setWord_add, setWord_add, word_setWord_of_disjoint _ (.inr (Nat.le_refl _)),
    word_setWord_self]

/-- The low bytes of a number, and of them a part. -/
theorem wrap_div_unit (value : Int) {skipped part size : Nat} (inside : skipped + part ≤ size) :
    ((wrap (8 * size) value / unit skipped % unit part : Nat) : Int) =
      value / 2 ^ (8 * skipped) % 2 ^ (8 * part) := by
  obtain ⟨rest, rfl⟩ : ∃ rest, size = skipped + (part + rest) := ⟨size - skipped - part, by omega⟩
  have whole : ((wrap (8 * (skipped + (part + rest))) value : Nat) : Int) =
      value % (2 ^ (8 * skipped) * 2 ^ (8 * (part + rest))) := by
    rw [← Int.pow_add, ← Nat.mul_add]
    exact Int.toNat_of_nonneg (Int.emod_nonneg _ (Int.ofNat_ne_zero.mpr (modulus_pos _).ne'))
  have divides : (2 ^ (8 * part) : Int) ∣ 2 ^ (8 * (part + rest)) :=
    pow_dvd_pow 2 (by omega)
  rw [Int.natCast_emod, Int.natCast_ediv, whole, unit_eq, unit_eq]
  push_cast
  exact emod_ediv_emod (by positivity) value divides

theorem reaches_iff {address : Int} {size : Nat} :
    reaches address size = true ↔ 0 ≤ address ∧ address + size ≤ memorySize := by
  simp [reaches]

theorem write_eq_ok {a v : Int} {s : Nat} (written : m.write a v s = .ok m') :
    ∃ place : Nat, a = place ∧ place + s ≤ memorySize ∧
      m' = m.setWord place (wrap (8 * s) v) s := by
  have yields := m.yields_write a v s
  rw [written] at yields
  cases yields with
  | ok stored => exact stored

theorem read_congr {b : Int} {t : Nat}
    (same : ∀ place : Nat, b = place → m'.word place t = m.word place t) :
    m'.read b t = m.read b t := by
  unfold read
  split
  · next reached =>
    have lower := (reaches_iff.mp reached).1
    rw [longWord_eq_word, longWord_eq_word, same b.toNat (Int.toNat_of_nonneg lower).symm]
  · rfl

/-- Memory holds what was written. A write of `s` bytes at the address `a` is refused exactly if it
is out of reach, and then there is no other memory than before. Otherwise

* the memory keeps its length;
* the word that was written is read back, cut to `s` bytes;
* a word that shares no byte with it is read as before, also if it is out of reach;
* a part of it, `k` bytes from its beginning, is read as that part of the value.

The address and the value are any integers. -/
theorem read_of_write (m : Memory) (a v : Int) (s : Nat) :
    (∀ fault, m.write a v s = .error fault ↔
      fault = .raised (.outOfBounds a) none ∧ (a < 0 ∨ memorySize < a + s)) ∧
    ∀ m', m.write a v s = .ok m' →
      m'.size = m.size ∧
      (m'.read a s).map Int.ofNat = .ok (v % 2 ^ (8 * s)) ∧
      (∀ (b : Int) (t : Nat), Disjoint (Set.Ico b (b + t)) (Set.Ico a (a + s)) →
        m'.read b t = m.read b t) ∧
      ∀ k t : Nat, k + t ≤ s →
        (m'.read (a + k) t).map Int.ofNat = .ok (v / 2 ^ (8 * k) % 2 ^ (8 * t)) := by
  refine ⟨fun fault => ?_, fun m' written => ?_⟩
  · by_cases reached : reaches a s = true
    · have inside := reaches_iff.mp reached
      rw [write, if_pos reached]
      exact iff_of_false (fun refused => by cases refused) fun outside => by omega
    · have outside := mt reaches_iff.mpr reached
      rw [write, if_neg reached, Except.error.injEq, eq_comm]
      exact (and_iff_left (by omega)).symm
  · obtain ⟨place, rfl, inside, rfl⟩ := write_eq_ok written
    have part (k t : Nat) (within : k + t ≤ s) :
        ((m.setWord place (wrap (8 * s) v) s).read ((place : Int) + k) t).map Int.ofNat =
          .ok (v / 2 ^ (8 * k) % 2 ^ (8 * t)) := by
      rw [← Int.natCast_add, read_of_le (by omega), word_setWord_part m place _ within]
      exact congrArg Except.ok (wrap_div_unit v within)
    refine ⟨size_setWord .., ?_, fun b t apart => ?_, part⟩
    · have all := part 0 s (Nat.zero_add s).le
      simpa using all
    · rw [Set.Ico_disjoint_Ico] at apart
      refine read_congr ?_
      rintro other rfl
      -- An empty word is read as zero, and an empty write changes nothing.
      by_cases nothing : s = 0 ∨ t = 0
      · rcases nothing with rfl | rfl <;> rfl
      · exact word_setWord_of_disjoint _ (by omega)

end Memory

end Reckon.Machine
