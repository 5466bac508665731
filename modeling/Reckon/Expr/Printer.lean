import Reckon.Expr
import Reckon.SourceError

/-!
# Printed expressions

The printed form of an expression shows its structure: every operation in parentheses, every
variable with its index, string literals raw between quotes. A hole and a block have no form of
their own and show as `None`, except as arguments of a call, where they are an error. A block prints
its lines where it is met, before the line of the statement that holds it.
-/

namespace Reckon

/-- What printing an expression gives. -/
structure Printed where
  /-- Lines of the blocks inside the expression. -/
  lines : List String
  /-- The form of the expression itself, if it has one. -/
  text? : Option String
  deriving DecidableEq, Repr

/-- The form of an expression inside another one. -/
def Printed.shown (p : Printed) : String :=
  p.text?.getD "None"

/-- The lines of a statement: those of its blocks, then its own. -/
def Printed.statementLines (p : Printed) : List String :=
  p.lines ++ ["  Expr: " ++ p.shown]

/-- The first line of a program. -/
def VariableTable.header (t : VariableTable) : String :=
  let entries := t.names.zipIdx.map fun (name, index) => s!"{name}={index}"
  "Program [" ++ ", ".intercalate entries ++ "]"

/-- The forms of arguments, or the position of the first that has none. -/
def Printed.arguments (printed : List Printed) : Except SourceError (List String) :=
  match printed.findIdx? fun p => p.text?.isNone with
  | some position => .error (.unprintable position)
  | none => .ok (printed.map Printed.shown)

mutual

/-- The printed form of an expression. -/
def Expr.print : Expr → Except SourceError Printed
  | .number value _ => .ok ⟨[], some (toString value)⟩
  | .string raw _ => .ok ⟨[], some ("\"" ++ raw ++ "\"")⟩
  | .var index name _ => .ok ⟨[], some s!"{name}#{index}"⟩
  | .binary operator _ left right _ => do
    let left ← left.print
    let right ← right.print
    return ⟨left.lines ++ right.lines, some s!"({left.shown} {operator.symbol} {right.shown})"⟩
  | .call name arguments _ => do
    let printed ← Expr.printAll arguments
    let forms ← Printed.arguments printed
    return ⟨printed.flatMap Printed.lines, some (name ++ "(" ++ ", ".intercalate forms ++ ")")⟩
  | .hole _ => .ok ⟨[], none⟩
  | .block statements => do
    let printed ← Expr.printAll statements
    return ⟨VariableTable.empty.header :: printed.flatMap Printed.statementLines, none⟩

/-- The printed forms of expressions in order. -/
def Expr.printAll : List Expr → Except SourceError (List Printed)
  | [] => .ok []
  | e :: rest => do
    let printed ← e.print
    let others ← Expr.printAll rest
    return printed :: others

end

/-- The printed form of a program: its variables, then its statements, each on lines of its own. -/
def Program.print (p : Program) : Except SourceError String := do
  let printed ← Expr.printAll p.statements
  return "\n".intercalate (p.table.header :: printed.flatMap Printed.statementLines)

end Reckon
