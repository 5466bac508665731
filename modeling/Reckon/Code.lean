import Reckon.Opcode
import Reckon.Register
import Reckon.Text.Numeral

/-!
# Machine code as it is emitted

Emitted instructions refer to variables by their index and to string literals by their place in the
pool. `Line.render` gives the assembly text of a line.
-/

namespace Reckon.Code

/-- Bytes of one variable. -/
def wordSize : Nat := 4

/-- How far below the frame pointer the slot of a variable lies. -/
def slotOffset (index : Int) : Int :=
  (index + 1) * wordSize

/-- An operand of an emitted instruction. -/
inductive Operand where
  /-- A constant. -/
  | immediate (value : Int)
  /-- A register in a width. -/
  | register (register : Register) (width : Width)
  /-- The slot of a variable. -/
  | slot (index : Int)
  /-- The address of a string literal by its place in the pool. -/
  | literal (place : Nat)
  /-- A routine or label. -/
  | symbol (name : String)
  deriving DecidableEq, Repr

/-- The label of the string literal at a place in the pool. -/
def literalLabel (place : Nat) : String :=
  s!".LS{place}"

/-- The assembly text of an operand. -/
def Operand.render : Operand → String
  | immediate value => s!"${value}"
  | register r w => "%" ++ r.name w
  | slot index => s!"-{slotOffset index}(%rbp)"
  | literal place => literalLabel place ++ "(%rip)"
  | symbol name => name

/-- An emitted instruction, source operand first. -/
structure Instruction where
  opcode : Opcode
  operands : List Operand
  deriving DecidableEq, Repr

/-- A line of emitted assembly. -/
inductive Line where
  /-- A directive, with its argument if it has one. -/
  | directive (name : String) (argument? : Option String)
  /-- A label. -/
  | label (name : String)
  /-- An instruction. -/
  | instruction (instruction : Instruction)
  /-- A remark, which runs to the end of its line. -/
  | comment (text : String)
  deriving DecidableEq, Repr

/-- A text filled with spaces on the right up to a width. -/
def padRight (width : Nat) (text : String) : String :=
  text ++ String.ofList (List.replicate (width - text.length) ' ')

/-- The blanks before directives and instructions. -/
def indent : String := "        "

/-- The assembly text of a line. -/
def Line.render : Line → String
  | directive name (some argument) => indent ++ padRight 7 name ++ " " ++ argument
  | directive name none => indent ++ name
  | label name => name ++ ":"
  | instruction ⟨opcode, []⟩ => indent ++ opcode.name
  | instruction ⟨opcode, operands⟩ =>
    indent ++ padRight 8 opcode.name ++ ", ".intercalate (operands.map Operand.render)
  | comment text => indent ++ "# " ++ text

/-- The accumulator, 32 bits of it. -/
def eax : Operand := .register .rax .double

/-- The accumulator, all of it. -/
def rax : Operand := .register .rax .quad

/-- The scratch register, 32 bits of it. -/
def ebx : Operand := .register .rbx .double

/-- The scratch register, all of it. -/
def rbx : Operand := .register .rbx .quad

/-- The stack pointer. -/
def rsp : Operand := .register .rsp .quad

/-- The frame pointer. -/
def rbp : Operand := .register .rbp .quad

/-- An instruction with two operands, as a line. -/
def two (opcode : Opcode) (source destination : Operand) : Line :=
  .instruction ⟨opcode, [source, destination]⟩

/-- An instruction with one operand, as a line. -/
def one (opcode : Opcode) (operand : Operand) : Line :=
  .instruction ⟨opcode, [operand]⟩

end Reckon.Code
