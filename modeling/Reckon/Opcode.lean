/-!
# Operation codes

The instructions that compiled programs are made of, and their names.
-/

namespace Reckon

/-- What an instruction does. -/
inductive Opcode where
  | mov
  | add
  | sub
  | imul
  | xor
  | idiv
  | lea
  | push
  | pop
  | call
  | ret
  | syscall
  deriving DecidableEq, Repr, Inhabited

namespace Opcode

/-- The name of an operation in assembly text. -/
def name : Opcode → String
  | mov => "mov"
  | add => "add"
  | sub => "sub"
  | imul => "imul"
  | xor => "xor"
  | idiv => "idiv"
  | lea => "lea"
  | push => "push"
  | pop => "pop"
  | call => "call"
  | ret => "ret"
  | syscall => "syscall"

/-- All operations. -/
def all : List Opcode :=
  [mov, add, sub, imul, xor, idiv, lea, push, pop, call, ret, syscall]

/-- The operation with a name. -/
def ofName? (text : String) : Option Opcode :=
  all.find? fun opcode => opcode.name == text

end Opcode

end Reckon
