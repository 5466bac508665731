import Reckon.Span
import Reckon.Variables

/-!
# Expressions and programs

An expression is a number, a string literal, a variable, an operation or a call. Assignment is an
operation like the others. Parentheses leave no trace but a wider span. A program is a list of
expressions, its statements, and the table of its variables.

Two further forms belong to the type, so that a tree may be built in parts: a `hole` stands for an
expression of no particular form, and a `block` for a program in the place of an expression. Parsing
yields neither, and neither has machine code. In the same way an `Operator` may be one that only has
a symbol.
-/

namespace Reckon

/-- A binary operator. -/
inductive Operator where
  | add
  | subtract
  | multiply
  | divide
  | assign
  /-- An operator known by its symbol only. -/
  | other (symbol : String)
  deriving DecidableEq, Repr

namespace Operator

/-- The symbol of an operator. -/
def symbol : Operator → String
  | add => "+"
  | subtract => "-"
  | multiply => "*"
  | divide => "/"
  | assign => "="
  | other symbol => symbol

/-- How tightly an operator binds; a greater number binds tighter. -/
def precedence : Operator → Nat
  | assign => 1
  | add | subtract => 2
  | multiply | divide => 3
  | other _ => 0

/-- The least precedence of an operator that belongs to the right operand of this one. Assignments
nest to the right, all other operators to the left. -/
def rightPrecedence : Operator → Nat
  | assign => 1
  | operator => operator.precedence + 1

end Operator

/-- An expression. -/
inductive Expr where
  /-- An integer. -/
  | number (value : Int) (span : Span)
  /-- A string literal by its raw text. -/
  | string (raw : String) (span : Span)
  /-- A variable by its index in the table, with its name. -/
  | var (index : Int) (name : String) (span : Span)
  /-- An operation on two operands. -/
  | binary (operator : Operator) (operatorSpan : Span) (left right : Expr) (span : Span)
  /-- A call of a routine. -/
  | call (name : String) (arguments : List Expr) (span : Span)
  /-- An expression of no particular form. -/
  | hole (span : Span)
  /-- A program without variables in the place of an expression. -/
  | block (statements : List Expr)
  deriving Repr, Inhabited

namespace Expr

/-- The text of an expression, the end of the input for a block. -/
def span : Expr → Span
  | number _ span => span
  | string _ span => span
  | var _ _ span => span
  | binary _ _ _ _ span => span
  | call _ _ span => span
  | hole span => span
  | block _ => .eof

/-- The expression with another span; a block has none to change. -/
def withSpan (span : Span) : Expr → Expr
  | number value _ => number value span
  | string raw _ => string raw span
  | var index name _ => var index name span
  | binary operator operatorSpan left right _ => binary operator operatorSpan left right span
  | call name arguments _ => call name arguments span
  | hole _ => hole span
  | block statements => block statements

end Expr

/-- A program: its statements in order and its variables. -/
structure Program where
  /-- The statements. -/
  statements : List Expr
  /-- The variables, each with a slot at its index. -/
  table : VariableTable
  deriving Repr, Inhabited

end Reckon
