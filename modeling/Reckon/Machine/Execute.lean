import Reckon.Machine.State
import Reckon.Opcode

/-!
# Instructions

What each instruction does to the machine, calls of outside routines apart. `Machine.execute` is
given the machine with its instruction pointer already moved past the instruction. A fault leaves
the machine as it was, but for the stack pointer when a push, a pop or a call has moved it.
-/

namespace Reckon.Machine

open Reckon.Assembly (Image Instruction Operand)

/-- The width of an instruction: that of its first register operand. -/
def operandWidth (i : Instruction) : Except Fault Width :=
  let width? := i.operands.findSome? fun
    | Operand.register _ w => some w
    | _ => none
  match width? with
  | some width => .ok width
  | none => .error (.onLine i.line (.ambiguousSize i.mnemonic))

/-- The fault of an instruction with the wrong number of operands. -/
def wrongCount (i : Instruction) (expected : Nat) : Fault :=
  .onLine i.line (.operandCount i.mnemonic expected i.operands.length)

/-- Copies the source to the destination. -/
def move (m : Machine) (image : Image) (i : Instruction) : Except Fault Machine :=
  match i.operands with
  | [source, destination] => do
    let width ← operandWidth i
    let value ← m.read image i.line width source
    m.write image i.line width value destination
  | _ => .error (wrongCount i 2)

/-- Replaces the destination by a combination of destination and source. -/
def combine (m : Machine) (image : Image) (i : Instruction) (operation : Nat → Nat → Int) :
    Except Fault Machine :=
  match i.operands with
  | [source, destination] => do
    let width ← operandWidth i
    let left ← m.read image i.line width destination
    let right ← m.read image i.line width source
    m.write image i.line width (operation left right) destination
  | _ => .error (wrongCount i 2)

/-- The quotient of two numbers, rounded towards zero: that of their magnitudes, negated if one of
the numbers is negative and the other is not. -/
def quotientOf (dividend divisor : Int) : Int :=
  let magnitude : Int := (dividend.natAbs / divisor.natAbs : Nat)
  if decide (dividend < 0) != decide (divisor < 0) then -magnitude else magnitude

/-- This is the division of integers towards zero. -/
theorem quotientOf_eq_tdiv (dividend divisor : Int) :
    quotientOf dividend divisor = dividend.tdiv divisor := by
  have natural (n : Nat) : decide (Int.ofNat n < 0) = false :=
    decide_eq_false (Int.not_lt.mpr (Int.natCast_nonneg n))
  have negative (n : Nat) : decide (Int.negSucc n < 0) = true :=
    decide_eq_true (Int.negSucc_lt_zero n)
  unfold quotientOf
  cases dividend with
  | ofNat a =>
    cases divisor with
    | ofNat b => rw [natural, natural]; rfl
    | negSucc b => rw [natural, negative]; rfl
  | negSucc a =>
    cases divisor with
    | ofNat b => rw [negative, natural]; rfl
    | negSucc b => rw [negative, negative]; rfl

/-- Divides the number with high half `edx` and low half `eax` by a register. The quotient, rounded
towards zero, goes to `eax`, the remainder to `edx`. -/
def divide (m : Machine) (i : Instruction) : Except Fault Machine :=
  match i.operands with
  | [.register r .double] =>
    let divisor := signed 32 (m.get r)
    let dividend := signed 64 (wrap 32 (m.get .rdx) * 0x100000000 + wrap 32 (m.get .rax))
    let quotient := quotientOf dividend divisor
    if divisor = 0 then .error (.onLine i.line .divisionByZero)
    else if quotient < -0x80000000 ∨ 0x80000000 ≤ quotient then
      .error (.onLine i.line .quotientOverflow)
    else
      .ok ((m.set .rax (wrap 32 quotient)).set .rdx (wrap 32 (dividend - quotient * divisor)))
  | [_] => .error (.onLine i.line .divisorOperand)
  | _ => .error (wrongCount i 1)

/-- Puts the address of a place in memory into a register. -/
def loadAddress (m : Machine) (image : Image) (i : Instruction) : Except Fault Machine :=
  match i.operands with
  | [.memory base displacement symbol?, .register r w] => do
    let address ← m.address image i.line base displacement symbol?
    m.write image i.line .quad address (.register r w)
  | [_, _] => .error (.onLine i.line .addressOperands)
  | _ => .error (wrongCount i 2)

/-- Pushes an operand. -/
def pushOperand (m : Machine) (image : Image) (i : Instruction) : Attempt :=
  match i.operands with
  | [source] =>
    match m.read image i.line .quad source with
    | .ok value => m.push value
    | .error fault => (m, some fault)
  | _ => (m, some (wrongCount i 1))

/-- Pops into an operand. The stack pointer stays raised if the operand cannot be written. -/
def popOperand (m : Machine) (image : Image) (i : Instruction) : Attempt :=
  match i.operands with
  | [destination] =>
    match m.pop with
    | .ok (value, raised) => raised.orUnchanged (raised.write image i.line .quad value destination)
    | .error fault => (m, some fault)
  | _ => (m, some (wrongCount i 1))

/-- Calls a label of the program: the place to return to goes on the stack. -/
def callLabel (m : Machine) (target : Nat) : Attempt :=
  match m.push m.counter with
  | (m', none) => ({ m' with counter := target }, none)
  | (m', some fault) => (m', some fault)

/-- Returns to the place on top of the stack. -/
def returnToCaller (m : Machine) (i : Instruction) : Except Fault Machine :=
  match i.operands with
  | [] => do
    let (target, raised) ← m.pop
    return { raised with counter := target }
  | _ => .error (wrongCount i 0)

/-- Ends the program with the first argument register. -/
def exit (m : Machine) : Machine :=
  { m with exit? := some (m.get .rdi) }

/-- The number of the system call that ends a process. -/
def exitNumber : Int := 60

/-- Asks the system for a service, of which there is only the end of the program. -/
def systemCall (m : Machine) (i : Instruction) : Except Fault Machine :=
  if m.get .rax = exitNumber then .ok m.exit
  else if !Text.isWritable (m.get .rax) then .error .unwritable
  else .error (.onLine i.line (.unsupportedSystemCall (m.get .rax)))

end Reckon.Machine
