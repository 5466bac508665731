import Reckon.Machine.Session
import Reckon.Proofs.Machine.Words

/-!
# Division with sign

The machine divides a number of 64 bits, whose high half is in `edx` and whose low half is in `eax`,
by the low half of a register, all of them read with sign. The quotient is rounded towards zero. It
may have up to 64 bits and has to fit into 32. The remainder always fits, because it is smaller than
the divisor (`Machine.toInt_remainder`).

Main statement: which fault a division raises, and what it leaves in the registers if it raises none
(`Session.execute_division`).
-/

namespace Reckon.Machine

/-! ## Rounding towards zero -/

/-- A number without what stands behind its point. -/
def truncate (x : ℚ) : ℤ := if 0 ≤ x then ⌊x⌋ else ⌈x⌉

theorem truncate_neg (x : ℚ) : truncate (-x) = -truncate x := by
  unfold truncate
  rcases lt_trichotomy x 0 with neg | rfl | pos
  · rw [if_pos (by linarith), if_neg (by linarith), Int.floor_neg]
  · simp
  · rw [if_neg (by linarith), if_pos (by linarith), Int.ceil_neg]

theorem truncate_div_natCast (a b : Nat) : truncate ((a : ℚ) / b) = (a : ℤ).tdiv b := by
  have nonneg : (0 : ℚ) ≤ (a : ℚ) / b := by positivity
  rw [truncate, if_pos nonneg, Int.tdiv_eq_ediv_of_nonneg (Int.natCast_nonneg a)]
  exact Rat.floor_intCast_div_natCast a b

/-- The quotient of two integers, towards zero. -/
theorem truncate_div (a b : ℤ) : truncate ((a : ℚ) / b) = a.tdiv b := by
  obtain ⟨n, rfl | rfl⟩ := a.eq_nat_or_neg <;> obtain ⟨k, rfl | rfl⟩ := b.eq_nat_or_neg
  · exact truncate_div_natCast n k
  · rw [Int.tdiv_neg, ← truncate_div_natCast, ← truncate_neg, Int.cast_neg, div_neg]
    rfl
  · rw [Int.neg_tdiv, ← truncate_div_natCast, ← truncate_neg, Int.cast_neg, neg_div]
    rfl
  · rw [Int.neg_tdiv_neg, ← truncate_div_natCast, Int.cast_neg, Int.cast_neg, neg_div_neg_eq]
    rfl

/-! ## Halves of registers -/

/-- The low half of a register. -/
def lowHalf (m : Machine) (r : Register) : BitVec 32 := BitVec.ofInt 32 (m.get r)

/-- Two halves put together and read with sign. -/
theorem signed_halves (m : Machine) (high low : Register) :
    signed 64 (wrap 32 (m.get high) * 0x100000000 + wrap 32 (m.get low)) =
      (m.lowHalf high ++ m.lowHalf low).toInt := by
  have whole : ((wrap 32 (m.get high) : Int) * 0x100000000 + wrap 32 (m.get low)) =
      ((m.lowHalf high ++ m.lowHalf low).toNat : Int) := by
    rw [BitVec.toNat_append, ← Nat.shiftLeft_add_eq_or_of_lt (m.lowHalf low).isLt,
      Nat.shiftLeft_eq, wrap_eq, wrap_eq]
    rfl
  rw [whole, signed_eq, BitVec.ofInt_natCast, BitVec.ofNat_toNat, BitVec.setWidth_eq]

/-- A number of 32 bits with sign is read back from its bits. -/
theorem toInt_ofInt_wrap {value : Int} (lower : -0x80000000 ≤ value) (upper : value < 0x80000000) :
    (BitVec.ofInt 32 (wrap 32 value)).toInt = value := by
  rw [wrap_eq, BitVec.ofInt_natCast, BitVec.ofNat_toNat, BitVec.setWidth_eq, BitVec.toInt_ofInt]
  exact Int.bmod_eq_of_le (by omega) (by omega)

/-- A remainder is smaller than the divisor. -/
theorem natAbs_tmod_lt (dividend : Int) {divisor : Int} (nonzero : divisor ≠ 0) :
    (dividend.tmod divisor).natAbs < divisor.natAbs := by
  rw [Int.natAbs_tmod]
  exact Nat.mod_lt _ (Int.natAbs_pos.mpr nonzero)

/-- The remainder of a division by a number of 32 bits has no more bits. -/
theorem toInt_remainder (dividend : Int) {divisor : BitVec 32} (nonzero : divisor.toInt ≠ 0) :
    (BitVec.ofInt 32 (wrap 32 (dividend.tmod divisor.toInt))).toInt =
      dividend.tmod divisor.toInt := by
  have small := natAbs_tmod_lt dividend nonzero
  have lower := divisor.le_toInt
  have upper := divisor.toInt_lt
  exact toInt_ofInt_wrap (by omega) (by omega)

/-! ## The instruction -/

/-- The machine with a quotient in `eax` and a remainder in `edx`. -/
def withQuotient (m : Machine) (quotient remainder : Int) : Machine :=
  (m.set .rax (wrap 32 quotient)).set .rdx (wrap 32 remainder)

/-- What a division by any register comes to. -/
theorem divide_register (m : Machine) (r : Register) (line : Nat) :
    m.divide ⟨"idiv", [.register r .double], line⟩ =
      let dividend := (m.lowHalf .rdx ++ m.lowHalf .rax).toInt
      let divisor := (m.lowHalf r).toInt
      let quotient := truncate ((dividend : ℚ) / divisor)
      if divisor = 0 then .error (.onLine line .divisionByZero)
      else if -2 ^ 31 ≤ quotient ∧ quotient < 2 ^ 31 then
        .ok (m.withQuotient quotient (dividend.tmod divisor))
      else .error (.onLine line .quotientOverflow) := by
  rw [divide]
  dsimp only
  rw [signed_halves, signed_eq, truncate_div, quotientOf_eq_tdiv]
  generalize (m.lowHalf .rdx ++ m.lowHalf .rax).toInt = dividend
  rw [show (BitVec.ofInt 32 (m.get r)).toInt = (m.lowHalf r).toInt from rfl]
  generalize (m.lowHalf r).toInt = divisor
  rw [Int.mul_comm, ← Int.tmod_def]
  generalize dividend.tdiv divisor = quotient
  split
  · rfl
  · by_cases large : quotient < -0x80000000 ∨ 0x80000000 ≤ quotient
    · rw [if_pos large, if_neg (by omega)]
    · rw [if_neg large, if_pos (by omega)]
      rfl

namespace Session

variable {World : Type}

/-- The session after a division has the quotient in `eax` and the remainder in `edx`, with nothing
in their upper halves, and is as before otherwise. -/
structure Divided (dividend divisor : Int) (s s' : Session World) : Prop where
  whole : dividend = (s'.machine.lowHalf .rax).toInt * divisor + (s'.machine.lowHalf .rdx).toInt
  smaller : |(s'.machine.lowHalf .rdx).toInt| < |divisor|
  sign : (s'.machine.lowHalf .rdx).toInt = 0 ∨
    (s'.machine.lowHalf .rdx).toInt.sign = dividend.sign
  quotient : 0 ≤ s'.machine.get .rax ∧ s'.machine.get .rax < 2 ^ 32
  remainder : 0 ≤ s'.machine.get .rdx ∧ s'.machine.get .rdx < 2 ^ 32
  others : ∀ r, r ≠ .rax → r ≠ .rdx → s'.machine.get r = s.machine.get r
  rest : s' = { s with machine := { s.machine with registers := s'.machine.registers } }

theorem divided_withQuotient {dividend quotient : Int} {divisor : BitVec 32}
    (nonzero : divisor.toInt ≠ 0) (divides : quotient = dividend.tdiv divisor.toInt)
    (lower : -2 ^ 31 ≤ quotient) (upper : quotient < 2 ^ 31) (s : Session World) :
    Divided dividend divisor.toInt s
      { s with machine := s.machine.withQuotient quotient (dividend.tmod divisor.toInt) } := by
  have inEax := toInt_ofInt_wrap lower upper
  have inEdx := toInt_remainder dividend nonzero
  have word (value : Int) : 0 ≤ (wrap 32 value : Int) ∧ (wrap 32 value : Int) < 2 ^ 32 :=
    ⟨Int.natCast_nonneg _, Int.ofNat_lt.mpr (wrap_lt 32 value)⟩
  refine ⟨?_, ?_, ?_, word _, word _, fun r notEax notEdx => ?_, rfl⟩
  · show dividend = (BitVec.ofInt 32 (wrap 32 _)).toInt * _ + (BitVec.ofInt 32 (wrap 32 _)).toInt
    rw [inEax, inEdx, divides, Int.mul_comm]
    exact (Int.mul_tdiv_add_tmod dividend divisor.toInt).symm
  · show |(BitVec.ofInt 32 (wrap 32 _)).toInt| < _
    rw [inEdx, Int.abs_eq_natAbs, Int.abs_eq_natAbs]
    exact Int.ofNat_lt.mpr (natAbs_tmod_lt dividend nonzero)
  · show (BitVec.ofInt 32 (wrap 32 _)).toInt = 0 ∨ (BitVec.ofInt 32 (wrap 32 _)).toInt.sign = _
    rw [inEdx, Int.sign_tmod]
    split
    · next divides => exact .inl (Int.tmod_eq_zero_of_dvd divides)
    · exact .inr rfl
  · show ((s.machine.registers.set .rax _).set .rdx _).get r = _
    rw [Registers.get_set_of_ne _ _ notEdx.symm, Registers.get_set_of_ne _ _ notEax.symm]
    rfl

/-- Division follows the processor. Take any session and any register, also `eax` or `edx`; its low
half is the divisor, and the number whose high half is `edx` and whose low half is `eax` is the
dividend. The division raises a fault exactly if the divisor is zero, or if it is not zero and the
quotient, towards zero, does not fit into 32 bits with sign; then the session is as before.
Otherwise quotient and remainder are in `eax` and `edx`, and nothing else has changed. -/
theorem execute_division (setup : Setup World) (s : Session World) (r : Register) (line : Nat) :
    let dividend := (s.machine.lowHalf .rdx ++ s.machine.lowHalf .rax).toInt
    let divisor := (s.machine.lowHalf r).toInt
    let quotient := truncate ((dividend : ℚ) / divisor)
    let fits := -2 ^ 31 ≤ quotient ∧ quotient < 2 ^ 31
    let done := s.execute setup ⟨"idiv", [.register r .double], line⟩
    (done.2 = some (.onLine line .divisionByZero) ↔ divisor = 0) ∧
      (done.2 = some (.onLine line .quotientOverflow) ↔ divisor ≠ 0 ∧ ¬ fits) ∧
      (done.2 = none ↔ divisor ≠ 0 ∧ fits) ∧
      (done.2 ≠ none → done.1 = s) ∧
      (done.2 = none → Divided dividend divisor s done.1) := by
  intro dividend divisor quotient fits done
  have executed : done = s.attempt (s.machine.orUnchanged
      (if divisor = 0 then .error (.onLine line .divisionByZero)
      else if fits then .ok (s.machine.withQuotient quotient (dividend.tmod divisor))
      else .error (.onLine line .quotientOverflow))) :=
    congrArg (fun result => s.attempt (s.machine.orUnchanged result))
      (divide_register s.machine r line)
  have different : Fault.onLine line .divisionByZero ≠ .onLine line .quotientOverflow := by
    intro same
    cases same
  generalize done = outcome at executed ⊢
  by_cases zero : divisor = 0
  · rw [if_pos zero] at executed
    subst executed
    simp [attempt, orUnchanged, zero, different]
  rw [if_neg zero] at executed
  by_cases inside : fits
  · rw [if_pos inside] at executed
    subst executed
    have divided := divided_withQuotient zero (truncate_div dividend divisor) inside.1 inside.2 s
    simpa [attempt, orUnchanged, zero, inside] using divided
  · rw [if_neg inside] at executed
    subst executed
    simp [attempt, orUnchanged, zero, inside, different.symm]

end Session

end Reckon.Machine
