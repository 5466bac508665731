import Reckon.Code
import Reckon.Expr.Printer
import Reckon.Text.Lines

/-!
# Code for expressions

Every expression leaves its value in the accumulator. The left operand of an operation waits on the
stack while the right one is computed. The arguments of a call are computed onto the stack and then
moved to the argument registers; the registers they take, but for the first, are saved around the
call, and the stack is padded so that its pointer is a multiple of sixteen at the call.

Code is written to a `Draft` as a program is gone through from left to right. The draft also holds
the string literals and the routines met on the way, and counts the words that wait on the stack.
-/

namespace Reckon

/-- The operator computes a number from two numbers. -/
def Operator.isArithmetic : Operator → Bool
  | .add | .subtract | .multiply | .divide => true
  | .assign | .other _ => false

namespace Code

/-- A list with a text added at the end, unless the list has it. -/
def enlist (texts : List String) (text : String) : List String :=
  if text ∈ texts then texts else texts ++ [text]

/-- Code in the making. -/
structure Draft where
  /-- The lines written so far. -/
  lines : Array Line
  /-- The string literals passed so far, each once, by first use. -/
  literals : List String
  /-- The routines called so far, each once, by first call. -/
  externals : List String
  /-- The count of words pushed and not yet popped. -/
  depth : Int

/-- Nothing yet. -/
def Draft.empty : Draft := ⟨#[], [], [], 0⟩

/-- Work on a draft that may fail, and then leaves what it has written. -/
abbrev Drafting := EStateM SourceError Draft

/-- A register in full, as an operand. -/
def whole (r : Register) : Operand := .register r .quad

/-- The argument registers of a call that are saved around it. -/
def savedRegisters (count : Nat) : List Register :=
  (Register.arguments.take count).drop 1

/-- A text on one line. -/
def onOneLine (text : String) : String :=
  " ".intercalate ((Text.lines text.toList).map String.ofList)

namespace Drafting

/-- Writes a line. -/
def write (line : Line) : Drafting Unit :=
  modify fun d => { d with lines := d.lines.push line }

/-- Adds to the count. -/
def count (words : Int) : Drafting Unit :=
  modify fun d => { d with depth := d.depth + words }

/-- Pushes a register, and counts the word. -/
def push (r : Register) : Drafting Unit := do
  write (one .push (whole r))
  count 1

/-- Pops a register, and takes the word off the count. -/
def pop (r : Register) : Drafting Unit := do
  write (one .pop (whole r))
  count (-1)

/-- Fails at a place in the program. -/
def fail (cause : Cause) (span : Span) : Drafting Unit :=
  throw (.compile ⟨cause, span⟩)

/-- Writes a line with a number in it, unless the number is too long to be written. -/
def spell (number : Int) (line : Line) : Drafting Unit :=
  if Text.isWritable number then write line else throw .unwritable

/-- Stores the accumulator in the target of an assignment. A block is refused without a place,
because it has none. -/
def store : Expr → Drafting Unit
  | .var index _ _ => spell (slotOffset index) (two .mov eax (.slot index))
  | .block _ => throw .unplaced
  | target => fail .expectedIdentifier target.span

/-- Combines a left operand on the stack with a right operand in the accumulator. -/
def combine : Operator → Drafting Unit
  | .add => do
    pop .rbx
    write (two .add ebx eax)
  | .subtract => do
    pop .rbx
    write (two .sub eax ebx)
    write (two .mov ebx eax)
  | .multiply => do
    pop .rbx
    write (two .imul ebx eax)
  | .divide => do
    write (two .mov eax ebx)
    pop .rax
    write (two .mov (.immediate 0) (.register .rdx .double))
    write (one .idiv ebx)
  | .assign | .other _ => return ()

/-- Puts the address of a string literal in the accumulator. A literal that was not passed before
goes to the end of the pool. -/
def address (raw : String) : Drafting Unit := do
  modify fun d => { d with literals := enlist d.literals raw }
  let place := (← get).literals.idxOf raw
  write (two .lea (.literal place) rax)

/-- Writes a line that is only there if the count is odd. -/
def pad (odd : Bool) (line : Line) : Drafting Unit :=
  if odd then write line else return ()

/-- Calls a routine between the padding that the count asks for and its removal. -/
def callPadded (name : String) : Drafting Unit := do
  let odd := (← get).depth % 2 == 1
  pad odd (two .sub (.immediate 8) rsp)
  write (two .mov (.immediate 0) eax)
  write (one .call (.symbol name))
  pad odd (two .add (.immediate 8) rsp)

/-- Calls a routine once its arguments are on the stack. -/
def invoke (name : String) (count : Nat) : Drafting Unit := do
  forM (Register.arguments.take count).reverse pop
  callPadded name
  forM (savedRegisters count).reverse pop
  modify fun d => { d with externals := enlist d.externals name }

mutual

/-- The code of an expression. -/
def expression : Expr → Drafting Unit
  | .number value _ => spell value (two .mov (.immediate value) eax)
  | .string _ span => fail .expectedInteger span
  | .var index _ _ => spell (slotOffset index) (two .mov (.slot index) eax)
  | .binary .assign _ target right _ => do
    expression right
    store target
  | .binary operator operatorSpan left right _ =>
    if operator.isArithmetic then do
      expression left
      push .rax
      expression right
      combine operator
    else fail (.invalidOperator operator.symbol) operatorSpan
  | .call name arguments span =>
    let count := arguments.length
    let limit := Register.arguments.length
    if limit < count then fail (.tooManyArguments name count limit) span
    else do
      forM (savedRegisters count) push
      pushArguments arguments
      invoke name count
  | .hole span => fail (.lowering "cannot generate code for Expression") span
  | .block _ => fail (.lowering "cannot generate code for Program") .eof

/-- The code that pushes arguments, where a string literal passes its address. -/
def pushArguments : List Expr → Drafting Unit
  | [] => return ()
  | .string raw _ :: rest => do
    address raw
    push .rax
    pushArguments rest
  | argument :: rest => do
    expression argument
    push .rax
    pushArguments rest

end

/-- Announces a statement in a remark, if remarks are wanted. -/
def announce (comments : Bool) (number : Nat) (statement : Expr) : Drafting Unit :=
  if comments then
    match statement.print with
    | .ok printed => write (.comment (onOneLine s!"statement {number}: {printed.shown}"))
    | .error error => throw error
  else return ()

/-- The cause of a refusal for the count. -/
def unbalanced (depth : Int) : Cause :=
  .lowering s!"unbalanced operand stack ({depth} pushes outstanding)"

/-- Refuses a statement that does not leave the count at zero. -/
def checkDepth (statement : Expr) : Drafting Unit := do
  let depth := (← get).depth
  if depth = 0 then return () else fail (unbalanced depth) statement.span

/-- The code of statements, numbered from `number` on, each announced if `comments` is set. -/
def statements (comments : Bool) (number : Nat) : List Expr → Drafting Unit
  | [] => return ()
  | statement :: rest => do
    announce comments number statement
    expression statement
    checkDepth statement
    statements comments (number + 1) rest

end Drafting

end Code

end Reckon
