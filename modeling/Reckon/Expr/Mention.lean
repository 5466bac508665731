import Reckon.Expr

/-!
# What a program mentions

The numbers, variables and calls of a program in the order of the text, a call before its arguments.
-/

namespace Reckon

/-- Something a program mentions. -/
inductive Mention where
  | number (value : Int)
  | variableName (name : String)
  | routine (name : String)
  deriving DecidableEq, Repr

mutual

/-- What an expression mentions. -/
def Expr.mentions : Expr → List Mention
  | .number value _ => [.number value]
  | .string _ _ => []
  | .var _ name _ => [.variableName name]
  | .binary _ _ left right _ => left.mentions ++ right.mentions
  | .call name arguments _ => .routine name :: Expr.mentionsAll arguments
  | .hole _ => []
  | .block statements => Expr.mentionsAll statements

/-- What a list of expressions mentions. -/
def Expr.mentionsAll : List Expr → List Mention
  | [] => []
  | e :: rest => e.mentions ++ Expr.mentionsAll rest

end

/-- What a program mentions. -/
def Program.mentions (p : Program) : List Mention :=
  Expr.mentionsAll p.statements

end Reckon
