/-!
# Registers

The ten registers that compiled programs use. A register is named in full, all 64 bits, or by its
low 32 bits.
-/

namespace Reckon

/-- A register of the machine. -/
inductive Register where
  | rax
  | rbx
  | rcx
  | rdx
  | rsi
  | rdi
  | rbp
  | rsp
  | r8
  | r9
  deriving DecidableEq, Repr, Inhabited

/-- How much of a register is meant. -/
inductive Width where
  /-- The low 32 bits. -/
  | double
  /-- All 64 bits. -/
  | quad
  deriving DecidableEq, Repr, Inhabited

/-- The number of bytes of a width. -/
def Width.bytes : Width → Nat
  | double => 4
  | quad => 8

namespace Register

/-- The registers in the order in which they are listed. -/
def all : List Register :=
  [rax, rbx, rcx, rdx, rsi, rdi, rbp, rsp, r8, r9]

/-- The registers that pass arguments, first argument first. -/
def arguments : List Register :=
  [rdi, rsi, rdx, rcx, r8, r9]

/-- The name of a register in a width. -/
def name : Register → Width → String
  | rax, .quad => "rax"
  | rax, .double => "eax"
  | rbx, .quad => "rbx"
  | rbx, .double => "ebx"
  | rcx, .quad => "rcx"
  | rcx, .double => "ecx"
  | rdx, .quad => "rdx"
  | rdx, .double => "edx"
  | rsi, .quad => "rsi"
  | rsi, .double => "esi"
  | rdi, .quad => "rdi"
  | rdi, .double => "edi"
  | rbp, .quad => "rbp"
  | rbp, .double => "ebp"
  | rsp, .quad => "rsp"
  | rsp, .double => "esp"
  | r8, .quad => "r8"
  | r8, .double => "r8d"
  | r9, .quad => "r9"
  | r9, .double => "r9d"

/-- The register and width that a name stands for. -/
def ofName? (text : String) : Option (Register × Width) :=
  let candidates := all.flatMap fun r => [(r, Width.quad), (r, Width.double)]
  candidates.find? fun (r, w) => r.name w == text

end Register

end Reckon
