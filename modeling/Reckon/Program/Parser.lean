import Reckon.Expr
import Reckon.Log
import Reckon.Token.Lexer

/-!
# Reading a program from its tokens

The parser takes one token after the other and keeps what is open: the operations that wait for
their right operand, and the parentheses and calls around them. An operator first completes the
waiting operations that bind at least as tightly; a token that ends an expression completes them
all. Each token is either taken or refused for good, so the first error is the one reported, and an
error never depends on what follows it.

A name is a variable unless an opening parenthesis follows it. It enters the table of variables when
the token after it has been read.
-/

namespace Reckon.Parser

/-- An operation that waits for its right operand. -/
structure Operation where
  left : Expr
  operator : Operator
  operatorSpan : Span
  deriving Repr

/-- The operation with its right operand. -/
def Operation.complete (o : Operation) (right : Expr) : Expr :=
  .binary o.operator o.operatorSpan o.left right (o.left.span + right.span)

/-- What an opening parenthesis began. -/
inductive Opener where
  /-- A group. -/
  | group (openSpan : Span)
  /-- The arguments of a call, with those already read. -/
  | call (name : String) (nameSpan : Span) (arguments : List Expr)
  deriving Repr

/-- An open parenthesis, and the operations that wait outside it. -/
structure Enclosure where
  opener : Opener
  outside : List Operation
  deriving Repr

/-- What the parser is ready for. -/
inductive Expecting where
  /-- A statement, or the end of the program. -/
  | statement
  /-- An operand. -/
  | operand
  /-- The first argument of a call, or the parenthesis that closes it. -/
  | argument
  /-- What follows a name: an opening parenthesis makes it a call. -/
  | afterName (name : String) (span : Span)
  /-- What follows a complete operand. -/
  | afterOperand (operand : Expr)
  deriving Repr

/-- A program that has been read in part. -/
structure State where
  /-- What may come next. -/
  expecting : Expecting
  /-- Operations that wait for their right operand, innermost first. -/
  pending : List Operation
  /-- Open parentheses, innermost first. -/
  enclosing : List Enclosure
  /-- The complete statements. -/
  statements : List Expr
  /-- The variables met so far. -/
  table : VariableTable
  /-- Number of tokens taken. -/
  consumed : Nat
  deriving Repr

/-- Nothing has been read. -/
def State.initial : State := ⟨.statement, [], [], [], .empty, 0⟩

/-- The operator that a token stands for. -/
def operator? : Token.Kind → Option Operator
  | .plus => some .add
  | .minus => some .subtract
  | .star => some .multiply
  | .slash => some .divide
  | .assign => some .assign
  | _ => none

/-- The token ends an expression without being an operator. -/
def isTerminator : Token.Kind → Bool
  | .semicolon | .closeParen | .comma | .eof => true
  | _ => false

/-- Completes the waiting operations whose right operand an operator of the given precedence does
not extend. -/
def reduce (precedence : Nat) : Expr → List Operation → Expr × List Operation
  | operand, [] => (operand, [])
  | operand, o :: rest =>
    if precedence < o.operator.rightPrecedence then reduce precedence (o.complete operand) rest
    else (operand, o :: rest)

/-- Completes all waiting operations. -/
def reduceAll (operand : Expr) (pending : List Operation) : Expr :=
  pending.foldl (fun right o => o.complete right) operand

/-- What taking a token comes to: the new state, and the error if the token was refused. -/
abbrev Step := State × Option CompileError

namespace State

/-- The state with one more token taken. -/
def count (s : State) (t : Token) : State :=
  { s with consumed := if t.kind = .eof then s.consumed else s.consumed + 1 }

/-- The token is taken and the parser is ready for something else. -/
def take (s : State) (t : Token) (expecting : Expecting) : Step :=
  ({ s.count t with expecting }, none)

/-- The token is refused without having been taken. -/
def refuse (s : State) (t : Token) (cause : Cause) : Step :=
  (s, some ⟨cause, t.span⟩)

/-- The token is taken and turns out to be wrong. -/
def reject (s : State) (t : Token) (cause : Cause) : Step :=
  (s.count t, some ⟨cause, t.span⟩)

/-- A token where an operand must begin. -/
def feedOperand (s : State) (t : Token) : Step :=
  match t.kind with
  | .number value => s.take t (.afterOperand (.number value t.span))
  | .string raw => s.take t (.afterOperand (.string raw t.span))
  | .identifier name => s.take t (.afterName name t.span)
  | .openParen =>
    { s with pending := [], enclosing := ⟨.group t.span, s.pending⟩ :: s.enclosing }.take t .operand
  | .eof => s.reject t (.missingOperand "expression")
  | kind => s.reject t (.expectedExpression kind.describe)

/-- A token that ends a complete expression. -/
def feedTerminator (s : State) (operand : Expr) (t : Token) : Step :=
  let whole := reduceAll operand s.pending
  match s.enclosing with
  | [] =>
    match t.kind with
    | .semicolon =>
      { s with pending := [], statements := s.statements ++ [whole] }.take t .statement
    | .eof => s.reject t .unterminatedExpression
    | kind => s.reject t (.expectedOperator kind.describe)
  | ⟨.group openSpan, outside⟩ :: enclosing =>
    match t.kind with
    | .closeParen =>
      { s with pending := outside, enclosing }.take t
        (.afterOperand (whole.withSpan (openSpan + t.span)))
    | .eof => s.reject t (.missingOperand "')'")
    | kind => s.reject t (.unclosedGroup kind.describe)
  | ⟨.call name nameSpan arguments, outside⟩ :: enclosing =>
    match t.kind with
    | .comma =>
      { s with
        pending := []
        enclosing := ⟨.call name nameSpan (arguments ++ [whole]), outside⟩ :: enclosing }.take t
        .operand
    | .closeParen =>
      { s with pending := outside, enclosing }.take t
        (.afterOperand (.call name (arguments ++ [whole]) (nameSpan + t.span)))
    | .eof => s.reject t (.missingOperand "')'")
    | kind => s.reject t (.unclosedGroup kind.describe)

/-- A token after a complete operand. -/
def feedAfterOperand (s : State) (operand : Expr) (t : Token) : Step :=
  match operator? t.kind with
  | some operator =>
    let (left, pending) := reduce operator.precedence operand s.pending
    { s with pending := ⟨left, operator, t.span⟩ :: pending }.take t .operand
  | none =>
    if isTerminator t.kind then s.feedTerminator operand t
    else s.refuse t (.expectedOperator t.kind.describe)

/-- A token after a name. -/
def feedAfterName (s : State) (name : String) (span : Span) (t : Token) : Step :=
  if t.kind = .openParen then
    { s with
      pending := []
      enclosing := ⟨.call name span [], s.pending⟩ :: s.enclosing }.take t .argument
  else
    let (index, table) := s.table.resolve name
    let operand := Expr.var index name span
    { s with expecting := .afterOperand operand, table }.feedAfterOperand operand t

/-- A token where the first argument of a call may begin. -/
def feedArgument (s : State) (t : Token) : Step :=
  match t.kind, s.enclosing with
  | .closeParen, ⟨.call name nameSpan arguments, outside⟩ :: enclosing =>
    { s with pending := outside, enclosing }.take t
      (.afterOperand (.call name arguments (nameSpan + t.span)))
  | _, _ => s.feedOperand t

/-- The next token of the program. The token of the end of the input is welcome between statements
only. -/
def feed (s : State) (t : Token) : Step :=
  match s.expecting with
  | .statement => if t.kind = .eof then (s, none) else s.feedOperand t
  | .operand => s.feedOperand t
  | .argument => s.feedArgument t
  | .afterName name span => s.feedAfterName name span t
  | .afterOperand operand => s.feedAfterOperand operand t

end State

end Reckon.Parser

namespace Reckon

/-- What reading a program comes to. -/
structure Parsing where
  /-- The program, or the first error. -/
  result : Except SourceError Program
  /-- The variables met. -/
  table : VariableTable
  /-- Number of tokens taken. -/
  consumed : Nat

namespace Parsing

/-- The end of the reading at a state. -/
def ofState (s : Parser.State) (result : Except SourceError Program) : Parsing :=
  ⟨result, s.table, s.consumed⟩

/-- Reads the outcomes of a lexer from a state on, passing over blanks. -/
def ofOutcomes (s : Parser.State) : List Lexer.Outcome → Parsing
  | [] =>
    match s.feed Token.eof with
    | (s', none) => ofState s' (.ok ⟨s'.statements, s'.table⟩)
    | (s', some error) => ofState s' (.error (.compile error))
  | .failure error _ :: _ => ofState s (.error error)
  | .token t :: rest =>
    if t.kind = .whitespace then ofOutcomes s rest
    else
      match s.feed t with
      | (s', none) => ofOutcomes s' rest
      | (s', some error) => ofState s' (.error (.compile error))

/-- Reads a source text. -/
def ofSource (source : String) : Parsing :=
  ofOutcomes .initial (Lexer.ofSource source).outcomes

/-- What is reported about a successful reading. -/
def log (p : Parsing) : List LogRecord :=
  match p.result with
  | .ok program =>
    [{ level := .debug
       origin := "exprc.parser"
       message := s!"Parsed {program.statements.length} statements, " ++
        s!"{p.table.size} variables, {p.consumed} tokens" }]
  | .error _ => []

end Parsing

/-- The program that a source text holds. -/
def Program.parse (source : String) : Except SourceError Program :=
  (Parsing.ofSource source).result

end Reckon
