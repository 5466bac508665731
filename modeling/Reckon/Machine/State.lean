import Reckon.Machine.Memory
import Reckon.Machine.Registers

/-!
# Machine states

A machine has registers, memory, an instruction pointer that counts instructions, and the exit value
once the program has ended. The operations here read and write operands and move words between the
stack and the machine.
-/

namespace Reckon

open Reckon.Machine

/-- The state of the machine. -/
structure Machine where
  registers : Registers
  memory : Memory
  /-- Index of the next instruction. -/
  counter : Nat
  /-- What the program ended with, once it has ended. -/
  exit? : Option Int

namespace Machine

/-- The value of a register. -/
def get (m : Machine) (r : Register) : Int :=
  m.registers.get r

/-- The machine with another value in a register. -/
def set (m : Machine) (r : Register) (value : Int) : Machine :=
  { m with registers := m.registers.set r value }

/-- The machine before the first instruction of a program: data in memory, an empty stack. -/
def entry (image : Assembly.Image) : Except Fault Machine :=
  match image.codeLabels.get? "_start" with
  | none => .error (.raised .noEntry none)
  | some counter =>
    .ok
      { registers := Registers.zero.set .rsp memorySize
        memory := .ofData image.data.toList
        counter
        exit? := none }

/-- The address of a place in memory. -/
def address (m : Machine) (image : Assembly.Image) (line : Nat) (base : Assembly.Base)
    (displacement : Int) (symbol? : Option String) : Except Fault Nat :=
  match base with
  | .rip =>
    match symbol?.bind image.dataLabels.get? with
    | some address => .ok address
    | none => .error (.onLine line (.undefinedDataLabel symbol?))
  | .register r =>
    match symbol? with
    | some symbol => .error (.onLine line (.symbolicDisplacement symbol))
    | none => .ok (wrap 64 (m.get r + displacement))

/-- Reads an operand; a constant and a place in memory are `width` wide, a register as its name
says. -/
def read (m : Machine) (image : Assembly.Image) (line : Nat) (width : Width) :
    Assembly.Operand → Except Fault Nat
  | .immediate value => .ok (wrap (8 * width.bytes) value)
  | .register r w => .ok (wrap (8 * w.bytes) (m.get r))
  | .memory base displacement symbol? => do
    let address ← m.address image line base displacement symbol?
    m.memory.read address width.bytes
  | .symbol name => .error (.onLine line (.cannotRead (.symbol name)))

/-- Writes an operand; writing the low half of a register clears the high half. -/
def write (m : Machine) (image : Assembly.Image) (line : Nat) (width : Width) (value : Int) :
    Assembly.Operand → Except Fault Machine
  | .register r w => .ok (m.set r (wrap (8 * w.bytes) value))
  | .memory base displacement symbol? => do
    let address ← m.address image line base displacement symbol?
    let memory ← m.memory.write address value width.bytes
    return { m with memory }
  | operand => .error (.onLine line (.cannotWrite operand))

/-- What an attempt comes to: the machine after it, and the fault if it failed. -/
abbrev Attempt := Machine × Option Fault

/-- The attempt that leaves the machine as it was if it fails. -/
def orUnchanged (m : Machine) : Except Fault Machine → Attempt
  | .ok m' => (m', none)
  | .error fault => (m, some fault)

/-- Pushes a word. The stack pointer stays lowered if there is no room for the word. -/
def push (m : Machine) (value : Int) : Attempt :=
  let lowered := m.set .rsp (m.get .rsp - 8)
  match lowered.memory.write (lowered.get .rsp) value 8 with
  | .ok memory => ({ lowered with memory }, none)
  | .error fault => (lowered, some fault)

/-- Pops a word. -/
def pop (m : Machine) : Except Fault (Nat × Machine) := do
  let value ← m.memory.read (m.get .rsp) 8
  return (value, m.set .rsp (m.get .rsp + 8))

end Machine

end Reckon
