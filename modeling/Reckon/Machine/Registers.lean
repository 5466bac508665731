import Reckon.Register

/-!
# Register files

The values of all registers. A value is an integer; instructions keep it below 2^64, but for the
stack pointer, which may pass below zero before a store is refused.

Main statements: reading a register after writing one gives the value written if they are the same
register, and the old value if they are not.
-/

namespace Reckon.Machine

/-- The values of the registers. -/
structure Registers where
  rax : Int
  rbx : Int
  rcx : Int
  rdx : Int
  rsi : Int
  rdi : Int
  rbp : Int
  rsp : Int
  r8 : Int
  r9 : Int
  deriving DecidableEq, Repr, Inhabited

namespace Registers

/-- All registers hold zero. -/
def zero : Registers := ⟨0, 0, 0, 0, 0, 0, 0, 0, 0, 0⟩

/-- The value of a register. -/
def get (rs : Registers) : Register → Int
  | .rax => rs.rax
  | .rbx => rs.rbx
  | .rcx => rs.rcx
  | .rdx => rs.rdx
  | .rsi => rs.rsi
  | .rdi => rs.rdi
  | .rbp => rs.rbp
  | .rsp => rs.rsp
  | .r8 => rs.r8
  | .r9 => rs.r9

/-- The registers with another value in one of them. -/
def set (rs : Registers) (r : Register) (value : Int) : Registers :=
  match r with
  | .rax => { rs with rax := value }
  | .rbx => { rs with rbx := value }
  | .rcx => { rs with rcx := value }
  | .rdx => { rs with rdx := value }
  | .rsi => { rs with rsi := value }
  | .rdi => { rs with rdi := value }
  | .rbp => { rs with rbp := value }
  | .rsp => { rs with rsp := value }
  | .r8 => { rs with r8 := value }
  | .r9 => { rs with r9 := value }

@[simp] theorem get_set_self (rs : Registers) (r : Register) (value : Int) :
    (rs.set r value).get r = value := by
  cases r <;> rfl

theorem get_set_of_ne (rs : Registers) {r s : Register} (value : Int) (h : r ≠ s) :
    (rs.set r value).get s = rs.get s := by
  cases r <;> cases s <;> simp_all [set, get]

/-- The values of the registers that pass arguments. -/
def arguments (rs : Registers) : List Int :=
  Register.arguments.map rs.get

end Registers

end Reckon.Machine
