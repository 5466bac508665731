import Reckon.Register
import Reckon.Text.Quoted

/-!
# Assembly programs

What assembly text means to the machine: instructions in order, the labels of code and of data, and
the bytes of the data. An instruction keeps the number of its line for messages.
-/

namespace Reckon.Assembly

/-- The address of the data in memory. -/
def dataBase : Nat := 0x1000

/-- What an address is counted from. -/
inductive Base where
  /-- The instruction pointer, which only serves to name a label of data. -/
  | rip
  /-- A register in full. -/
  | register (register : Register)
  deriving DecidableEq, Repr

/-- The name of a base. -/
def Base.name : Base → String
  | rip => "rip"
  | register r => r.name .quad

/-- An operand of an instruction. -/
inductive Operand where
  /-- A constant. -/
  | immediate (value : Int)
  /-- A register in a width. -/
  | register (register : Register) (width : Width)
  /-- A place in memory: a base with a displacement, or with a label. -/
  | memory (base : Base) (displacement : Int) (symbol? : Option String)
  /-- A label or routine. -/
  | symbol (name : String)
  deriving DecidableEq, Repr

/-- How messages show an operand. -/
def Operand.describe : Operand → String
  | immediate value => s!"Immediate(value={value})"
  | register r w => s!"Register(name={Text.quoted (r.name .quad)}, width={w.bytes})"
  | memory base displacement symbol? =>
    let symbol := (symbol?.map Text.quoted).getD "None"
    s!"Memory(base={Text.quoted base.name}, displacement={displacement}, symbol={symbol})"
  | symbol name => s!"Symbol(name={Text.quoted name})"

/-- An instruction as it was read. -/
structure Instruction where
  /-- The name of the operation, in lower case. -/
  mnemonic : String
  /-- The operands, source first. -/
  operands : List Operand
  /-- The number of the line, from one on. -/
  line : Nat
  deriving DecidableEq, Repr, Inhabited

/-- Labels with what they stand for. A label that is set again stands for the later value. -/
structure Labels where
  /-- The labels set, last first. -/
  entries : List (String × Nat)
  deriving DecidableEq, Repr, Inhabited

namespace Labels

/-- No labels. -/
def empty : Labels := ⟨[]⟩

/-- Sets a label. -/
def insert (labels : Labels) (name : String) (value : Nat) : Labels :=
  ⟨(name, value) :: labels.entries⟩

/-- What a label stands for. -/
def get? (labels : Labels) (name : String) : Option Nat :=
  labels.entries.lookup name

end Labels

/-- An assembly program. -/
structure Image where
  /-- The instructions. -/
  instructions : Array Instruction
  /-- Labels of instructions, by index. -/
  codeLabels : Labels
  /-- Labels of data, by address. -/
  dataLabels : Labels
  /-- The data. -/
  data : Array UInt8
  deriving DecidableEq, Repr, Inhabited

/-- The program without instructions and data. -/
def Image.empty : Image := ⟨#[], .empty, .empty, #[]⟩

end Reckon.Assembly
