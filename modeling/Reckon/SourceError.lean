import Reckon.Span
import Reckon.Text.Digit

/-!
# Errors in a source text

A `CompileError` is a cause together with the span of the text that is to blame. `Cause` names what
can be wrong with a program, stage by stage; its wording is `Cause.message` and carries no location,
because a diagnostic shows the place in the text.

`SourceError` adds the ways in which work on a program can end that are no complaint about a place
in it: a numeral too long to be read, a number too long to be written, a call argument that has no
printed form, and a wrong expression that has no place.
-/

namespace Reckon

/-- What is wrong with a program. -/
inductive Cause where
  /-- An error of no particular stage. -/
  | general (text : String)
  /-- The text cannot be divided into tokens, for a reason given in words. -/
  | lexical (text : String)
  /-- The tokens do not form a program, for a reason given in words. -/
  | syntactic (text : String)
  /-- The program has no machine code, for a reason given in words. -/
  | lowering (text : String)
  /-- The input ended where more was required. -/
  | unexpectedEnd (expected : String)
  /-- A character that begins no token. -/
  | invalidCharacter (char : String)
  /-- A string literal that is never closed. -/
  | unterminatedString
  /-- An integer literal above the greatest one allowed. -/
  | integerOverflow (literal : String) (limit : Int)
  /-- A token where an expression had to begin. -/
  | expectedExpression (found : String)
  /-- A token where an operator or the end of the expression belonged. -/
  | expectedOperator (found : String)
  /-- The input ended where an operand, an argument or a closing parenthesis was required. -/
  | missingOperand (expected : String)
  /-- The input ended before the semicolon of a statement. -/
  | unterminatedExpression
  /-- A token where a closing parenthesis belonged. -/
  | unclosedGroup (found : String)
  /-- The target of an assignment is not a variable. -/
  | expectedIdentifier
  /-- A string literal where an integer is required. -/
  | expectedInteger
  /-- An operator that has no machine code. -/
  | invalidOperator (symbol : String)
  /-- A call with more arguments than there are argument registers. -/
  | tooManyArguments (name : String) (count limit : Int)
  deriving DecidableEq, Repr

/-- What an unclosed string literal lacks. -/
def Cause.closingQuote : String := "closing '\"' of string literal"

/-- The wording of a cause. -/
def Cause.message : Cause → String
  | general text => text
  | lexical text => text
  | syntactic text => text
  | lowering text => text
  | unexpectedEnd expected => s!"expected {expected}, found end of input"
  | invalidCharacter char => s!"invalid character '{char}'"
  | unterminatedString => s!"expected {closingQuote}, found end of input"
  | integerOverflow literal limit =>
    s!"integer literal {literal} is too large (maximum is {limit})"
  | expectedExpression found => s!"expected expression, found {found}"
  | expectedOperator found => s!"expected binary operator, found {found}"
  | missingOperand expected => s!"expected {expected}, found end of input"
  | unterminatedExpression => "unterminated expression, expected ';'"
  | unclosedGroup found => s!"expected ')', found {found}"
  | expectedIdentifier => "expected identifier as assignment target"
  | expectedInteger => "expected integer expression"
  | invalidOperator symbol => s!"invalid operator '{symbol}'"
  | tooManyArguments name count limit =>
    s!"call to '{name}' passes {count} arguments, at most {limit} are supported"

/-- An error in a program, with the text that is to blame. -/
structure CompileError where
  /-- What is wrong. -/
  cause : Cause
  /-- Where it is wrong. -/
  span : Span
  deriving DecidableEq, Repr

/-- The wording of an error, without its place. -/
def CompileError.message (e : CompileError) : String :=
  e.cause.message

/-- Why a source text yields no result. -/
inductive SourceError where
  /-- An error at a place in the program. -/
  | compile (error : CompileError)
  /-- A numeral with more digits than are read. -/
  | numeral (error : Text.TooManyDigits)
  /-- A call argument, given by its position, that has no printed form. -/
  | unprintable (position : Nat)
  /-- A number with more digits than are written. -/
  | unwritable
  /-- An error is to be reported for a program in the place of an expression, which has no span. -/
  | unplaced
  deriving DecidableEq, Repr

/-- The wording of a source error. -/
def SourceError.message : SourceError → String
  | compile error => error.message
  | numeral error => error.message
  | unprintable position => s!"sequence item {position}: expected str instance, NoneType found"
  | unwritable => Text.unwritableMessage
  | unplaced => "'Program' object has no attribute 'span'"

end Reckon
