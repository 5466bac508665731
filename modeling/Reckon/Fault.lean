import Reckon.Assembly
import Reckon.Capacity
import Reckon.Text.Digit
import Reckon.Text.Latin

/-!
# Faults

What can stop the reading of assembly text or the run of a program. A fault that was raised has a
cause and, where one is to blame, the number of a line. The others come from reading and writing
text and numbers: a number with too many digits to be read or written, a string whose characters do
not fit in bytes, a string in memory that never ends, and a word of less than no bytes.
-/

namespace Reckon

/-- Why assembly text cannot be read or a program cannot go on. -/
inductive Fault.Cause where
  /-- A reason given in words. -/
  | general (text : String)
  | unsupportedRegister (text : String)
  | unsupportedBase (name : String)
  | unreadableOperand (text : String)
  | malformedString (text : String)
  | unsupportedDirective (name : String)
  /-- The program has no entry point. -/
  | noEntry
  /-- The program took more steps than it was allowed. -/
  | stepLimit (limit : Int)
  /-- The instruction pointer left the program. -/
  | ranPastEnd
  /-- An observer stopped the program. -/
  | stopped
  | outOfBounds (address : Int)
  | undefinedDataLabel (name? : Option String)
  | symbolicDisplacement (name : String)
  | cannotRead (operand : Assembly.Operand)
  | cannotWrite (operand : Assembly.Operand)
  | ambiguousSize (mnemonic : String)
  | operandCount (mnemonic : String) (expected found : Nat)
  | unsupportedInstruction (mnemonic : String)
  /-- The divisor is not a register of 32 bits. -/
  | divisorOperand
  | divisionByZero
  | quotientOverflow
  /-- The operands of an address computation are not a place in memory and a register. -/
  | addressOperands
  | indirectCall
  | misalignedCall (name : String)
  | undefinedSymbol (name : String)
  | unsupportedSystemCall (number : Int)
  deriving DecidableEq, Repr

/-- The wording of a cause. -/
def Fault.Cause.message : Fault.Cause → String
  | general text => text
  | unsupportedRegister text => s!"unsupported register '{text}'"
  | unsupportedBase name => s!"unsupported base register '%{name}'"
  | unreadableOperand text => s!"cannot parse operand '{text}'"
  | malformedString text => s!"malformed string directive: {text}"
  | unsupportedDirective name => s!"unsupported directive '{name}'"
  | noEntry => "program has no _start label"
  | stepLimit limit => s!"step limit of {limit} exceeded"
  | ranPastEnd => "execution ran past the end of the program"
  | stopped => "execution stopped by instruction hook"
  | outOfBounds address => s!"memory access out of bounds at {Text.signedHex address}"
  | undefinedDataLabel name? =>
    let name := name?.getD "None"
    s!"undefined data label '{name}'"
  | symbolicDisplacement name => s!"symbolic displacement '{name}' needs %rip"
  | cannotRead operand => s!"cannot read operand {operand.describe}"
  | cannotWrite operand => s!"cannot write operand {operand.describe}"
  | ambiguousSize mnemonic => s!"ambiguous operand size for '{mnemonic}'"
  | operandCount mnemonic expected found =>
    s!"'{mnemonic}' takes {expected} operands, got {found}"
  | unsupportedInstruction mnemonic => s!"unsupported instruction '{mnemonic}'"
  | divisorOperand => "idiv is only supported with a 32-bit register"
  | divisionByZero => "division by zero"
  | quotientOverflow => "division quotient overflow"
  | addressOperands => "lea needs a memory source and register destination"
  | indirectCall => "indirect calls are not supported"
  | misalignedCall name => s!"stack misaligned at call to '{name}'"
  | undefinedSymbol name => s!"undefined symbol '{name}'"
  | unsupportedSystemCall number => s!"unsupported system call {number}"

/-- What stops the reading of assembly text or the run of a program. -/
inductive Fault where
  /-- A fault raised for a cause, on a line if one is to blame. -/
  | raised (cause : Fault.Cause) (line? : Option Int)
  /-- A numeral with more digits than are read. -/
  | numeral (error : Text.TooManyDigits)
  /-- A string whose characters do not fit in bytes. -/
  | encoding (error : Text.Unencodable)
  /-- A string in memory that never ends. -/
  | endlessText
  /-- A number with more digits than are written. -/
  | unwritable
  /-- A number that cannot be shifted by the bits of a word. -/
  | shift (error : ShiftError)
  deriving DecidableEq, Repr

namespace Fault

/-- A fault on a line. -/
def onLine (line : Int) (cause : Cause) : Fault := raised cause (some line)

/-- The fault of a run that has used up its budget of steps. It tells the budget, which may have too
many digits to be written. -/
@[irreducible] def outOfSteps (limit : Int) : Fault :=
  if Text.isWritable limit then raised (.stepLimit limit) none else unwritable

/-- The wording of a fault, without its line. -/
def plainMessage : Fault → String
  | raised cause _ => cause.message
  | numeral error => error.message
  | encoding error => error.message
  | endlessText => "subsection not found"
  | unwritable => Text.unwritableMessage
  | shift error => error.message

/-- The wording of a fault. -/
def message : Fault → String
  | raised cause (some line) => s!"line {line}: {cause.message}"
  | fault => fault.plainMessage

end Fault

end Reckon
