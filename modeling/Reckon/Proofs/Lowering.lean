import Reckon.Code.Listing

/-!
# The code of an expression as a value

A draft is worked on from left to right. Beside it stands the code of an expression as a function of
the expression: an `Emission` has lines, the routines called and the first failure, after which
nothing is added. Lowering depends on the number of words outstanding on the stack and on the pool
of string literals, which is taken as known beforehand. `lowered` is what generating code comes to
in these terms.
-/

namespace Reckon.Code

/-- Code that has been emitted, up to the first failure if there is one. -/
structure Emission where
  /-- The lines, in order. -/
  lines : List Line
  /-- The routines called, in order. -/
  calls : List String
  /-- What stopped the emission. -/
  failure? : Option SourceError

namespace Emission

/-- No code. -/
def empty : Emission := ⟨[], [], none⟩

/-- Lines without calls. -/
def emit (lines : List Line) : Emission := ⟨lines, [], none⟩

/-- A failure at a place in the program. -/
def fail (cause : Cause) (span : Span) : Emission := ⟨[], [], some (.compile ⟨cause, span⟩)⟩

/-- A line with a number in it, unless the number is too long to be written. -/
def spell (number : Int) (line : Line) : Emission :=
  if Text.isWritable number then emit [line] else ⟨[], [], some .unwritable⟩

/-- A line that reaches the slot of a variable, unless its offset is too long to be written. -/
def reach (index : Int) (line : Operand → Line) : Emission :=
  spell (slotOffset index) (line (.slot index))

/-- One emission after another; nothing follows a failure. -/
def append (a b : Emission) : Emission :=
  match a.failure? with
  | some _ => a
  | none => ⟨a.lines ++ b.lines, a.calls ++ b.calls, b.failure?⟩

instance : Append Emission := ⟨append⟩

end Emission

/-- The code that combines a left operand on the stack with a right operand in the accumulator. -/
def combine? : Operator → Option (List Line)
  | .add => some [one .pop rbx, two .add ebx eax]
  | .subtract => some [one .pop rbx, two .sub eax ebx, two .mov ebx eax]
  | .multiply => some [one .pop rbx, two .imul ebx eax]
  | .divide =>
    some [two .mov eax ebx, one .pop rax, two .mov (.immediate 0) (.register .rdx .double),
      one .idiv ebx]
  | .assign | .other _ => none

/-- The code that stores the accumulator in the target of an assignment. A block is refused without
a place, because it has none. -/
def store : Expr → Emission
  | .var index _ _ => .reach index fun slot => two .mov eax slot
  | .block _ => ⟨[], [], some .unplaced⟩
  | target => .fail .expectedIdentifier target.span

/-- The code of a call once its arguments are on the stack, with `outstanding` words below them. -/
def invoke (name : String) (count outstanding : Nat) : List Line :=
  let padding := if outstanding % 2 == 1 then [two .sub (.immediate 8) rsp] else []
  let unpadding := if outstanding % 2 == 1 then [two .add (.immediate 8) rsp] else []
  ((Register.arguments.take count).reverse.map fun r => one .pop (whole r)) ++
    padding ++ [two .mov (.immediate 0) eax, one .call (.symbol name)] ++ unpadding ++
    ((savedRegisters count).reverse.map fun r => one .pop (whole r))

mutual

/-- The code of an expression with `depth` words outstanding on the stack. -/
def lower (pool : List String) (depth : Nat) : Expr → Emission
  | .number value _ => .spell value (two .mov (.immediate value) eax)
  | .string _ span => .fail .expectedInteger span
  | .var index _ _ => .reach index fun slot => two .mov slot eax
  | .binary .assign _ target right _ => lower pool depth right ++ store target
  | .binary operator operatorSpan left right _ =>
    match combine? operator with
    | none => .fail (.invalidOperator operator.symbol) operatorSpan
    | some combination =>
      lower pool depth left ++ .emit [one .push rax] ++ lower pool (depth + 1) right ++
        .emit combination
  | .call name arguments span =>
    let count := arguments.length
    let limit := Register.arguments.length
    if limit < count then .fail (.tooManyArguments name count limit) span
    else
      let saved := savedRegisters count
      let outstanding := depth + saved.length
      .emit (saved.map fun r => one .push (whole r)) ++
        lowerArguments pool outstanding arguments ++
        ⟨invoke name count outstanding, [name], none⟩
  | .hole span => .fail (.lowering "cannot generate code for Expression") span
  | .block _ => .fail (.lowering "cannot generate code for Program") .eof

/-- The code that pushes arguments, where a string literal passes its address. -/
def lowerArguments (pool : List String) (depth : Nat) : List Expr → Emission
  | [] => .empty
  | .string raw _ :: rest =>
    .emit [two .lea (.literal (pool.idxOf raw)) rax, one .push rax] ++
      lowerArguments pool (depth + 1) rest
  | argument :: rest =>
    lower pool depth argument ++ .emit [one .push rax] ++ lowerArguments pool (depth + 1) rest

end

mutual

/-- The string literals passed to routines in an expression, in the order of evaluation. -/
def literals : Expr → List String
  | .binary .assign _ _ right _ => literals right
  | .binary _ _ left right _ => literals left ++ literals right
  | .call _ arguments _ => argumentLiterals arguments
  | .number .. | .string .. | .var .. | .hole .. | .block .. => []

/-- The string literals passed to routines in arguments, themselves included. -/
def argumentLiterals : List Expr → List String
  | [] => []
  | .string raw _ :: rest => raw :: argumentLiterals rest
  | argument :: rest => literals argument ++ argumentLiterals rest

end

/-- The pool of a program: its string literals by first use, each once. -/
def pool (statements : List Expr) : List String :=
  (statements.flatMap literals).eraseDups

/-- The remark that announces a statement. -/
def announce (number : Nat) (statement : Expr) : Emission :=
  match statement.print with
  | .ok printed => .emit [.comment (onOneLine s!"statement {number}: {printed.shown}")]
  | .error error => ⟨[], [], some error⟩

/-- The code of statements, numbered from `number` on, each announced if `comments` is set. -/
def lowerStatements (comments : Bool) (pool : List String) (number : Nat) : List Expr → Emission
  | [] => .empty
  | statement :: rest =>
    (if comments then announce number statement else .empty) ++ lower pool 0 statement ++
      lowerStatements comments pool (number + 1) rest

/-- What generating code comes to, from the emission of the statements and the whole pool. -/
def lowered (options : Options) (program : Program) : Generation :=
  let literals := pool program.statements
  let emission := lowerStatements options.comments literals 1 program.statements
  let externals := emission.calls.eraseDups
  match emission.failure? with
  | some error => ⟨.error error, externals⟩
  | none =>
    let freestanding := options.freestanding?.getD externals.isEmpty
    if Text.isWritable (frameSize program.table.size) then
      ⟨.ok ⟨freestanding, program.table.size, emission.lines, literals⟩, externals⟩
    else ⟨.error .unwritable, externals⟩

/-! ## Emissions in a row -/

namespace Emission

variable {a b : Emission}

theorem append_of_failure?_eq_none (complete : a.failure? = none) :
    a ++ b = ⟨a.lines ++ b.lines, a.calls ++ b.calls, b.failure?⟩ := by
  show append a b = _
  rw [append, complete]

theorem append_of_failure?_eq_some {error : SourceError} (failed : a.failure? = some error) :
    a ++ b = a := by
  show append a b = _
  rw [append, failed]

theorem failure?_append (a b : Emission) : (a ++ b).failure? = a.failure?.or b.failure? := by
  cases complete : a.failure? with
  | some error => rw [append_of_failure?_eq_some complete, complete, Option.some_or]
  | none => rw [append_of_failure?_eq_none complete, Option.none_or]

/-- An emission without failure is made of two without failures. -/
theorem failure?_append_eq_none :
    (a ++ b).failure? = none ↔ a.failure? = none ∧ b.failure? = none := by
  rw [failure?_append, Option.or_eq_none_iff]

theorem append_assoc (a b c : Emission) : a ++ b ++ c = a ++ (b ++ c) := by
  obtain ⟨linesA, callsA, failureA⟩ := a
  obtain ⟨linesB, callsB, failureB⟩ := b
  cases failureA with
  | some error => rfl
  | none =>
    cases failureB with
    | some error => rfl
    | none =>
      show Emission.mk (linesA ++ linesB ++ c.lines) (callsA ++ callsB ++ c.calls) c.failure? = _
      rw [List.append_assoc, List.append_assoc]
      rfl

/-- Numbers of up to 64 bits are short enough to be written. -/
theorem spell_of_lt {number : Int} (small : number.natAbs < 0x10000000000000000) (line : Line) :
    spell number line = emit [line] :=
  if_pos (Text.isWritable_of_lt small)

end Emission

/-! ## Operations and arguments -/

theorem combine?_eq_none {operator : Operator} (arithmetic : operator ≠ .assign) :
    combine? operator = none ↔ operator.isArithmetic = false := by
  cases operator with
  | assign => exact absurd rfl arithmetic
  | add | subtract | multiply | divide | other => simp [combine?, Operator.isArithmetic]

section Equations

variable {operator : Operator} {left right argument : Expr} {operatorSpan span : Span}

theorem literals_binary (arithmetic : operator ≠ .assign) :
    literals (.binary operator operatorSpan left right span) = literals left ++ literals right := by
  rw [literals]
  exact arithmetic

theorem lower_binary (arithmetic : operator ≠ .assign) {combination : List Line}
    (combined : combine? operator = some combination) (pool : List String) (depth : Nat) :
    lower pool depth (.binary operator operatorSpan left right span) =
      lower pool depth left ++ .emit [one .push rax] ++ lower pool (depth + 1) right ++
        .emit combination := by
  rw [lower]
  · rw [combined]
  · exact arithmetic

theorem argumentLiterals_cons (other : ∀ raw span, argument ≠ .string raw span) (rest : List Expr) :
    argumentLiterals (argument :: rest) = literals argument ++ argumentLiterals rest := by
  rw [argumentLiterals]
  exact other

theorem lowerArguments_cons (other : ∀ raw span, argument ≠ .string raw span) (rest : List Expr)
    (pool : List String) (depth : Nat) :
    lowerArguments pool depth (argument :: rest) =
      lower pool depth argument ++ .emit [one .push rax] ++
        lowerArguments pool (depth + 1) rest := by
  rw [lowerArguments]
  exact other

end Equations

end Reckon.Code
