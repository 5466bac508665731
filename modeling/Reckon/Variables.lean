import Reckon.Text.Quoted

/-!
# Variable tables

The names of a program's variables in the order in which they were first met. The index of a
variable is the position of its name. `resolve` finds a name or adds it at the end.
-/

namespace Reckon

/-- The names of variables in the order of their first occurrence. -/
structure VariableTable where
  /-- The names, each at its index. -/
  names : List String
  deriving DecidableEq, Repr, Inhabited

namespace VariableTable

/-- The table without variables. -/
def empty : VariableTable := ⟨[]⟩

/-- The number of variables. -/
def size (t : VariableTable) : Nat :=
  t.names.length

/-- The index of the first variable with the name, if there is one. -/
def indexOf? (t : VariableTable) (name : String) : Option Nat :=
  t.names.idxOf? name

/-- The table has a variable with the name. -/
def contains (t : VariableTable) (name : String) : Bool :=
  t.names.contains name

/-- The index of the name, which is added at the end if it is new, and the table with it. -/
def resolve (t : VariableTable) (name : String) : Nat × VariableTable :=
  match t.indexOf? name with
  | some index => (index, t)
  | none => (t.size, ⟨t.names ++ [name]⟩)

/-- The table with its names quoted. -/
def render (t : VariableTable) : String :=
  "VariableTable([" ++ ", ".intercalate (t.names.map Text.quoted) ++ "])"

end VariableTable

end Reckon
