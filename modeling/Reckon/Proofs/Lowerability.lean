import Reckon.Proofs.Emission

/-!
# Which programs have machine code

`Expr.Lowerable` says which expressions can be lowered, and `Code.violations` lists everything that
stands in the way of an expression, in the order in which lowering would come across it if it went
on after a failure. An expression is lowerable exactly if the list is empty (`Code.lowerable_iff`),
and lowering fails with the first item of the list (`Code.failure?_lower`).

Numbers are written with a limited number of digits. Both notions leave open which numbers are short
enough: taken with all of them they speak of the form of an expression alone, taken with
`Text.isWritable` they say what is lowered.

Main statement: a program is generated exactly if its statements are lowerable and the size of its
frame can be written, otherwise the first violation is reported, and a generator that is given one
program after another treats each as if it were the only one, whatever draft the one before has left
(`Code.generate_first_violation`).
-/

namespace Reckon

open Code (slotOffset)

/-- The expression is a string literal. -/
def Expr.isLiteral : Expr → Bool
  | .string _ _ => true
  | _ => false

/-- An expression that has machine code, where `short` tells the numbers that can be written: a
number, a variable, an arithmetic operation, an assignment to a variable, or a call with at most six
arguments, each of them lowerable unless it is a string literal. -/
inductive Expr.Lowerable (short : Int → Bool) : Expr → Prop
  | number {value : Int} (span : Span) : short value = true → Lowerable short (.number value span)
  | var {index : Int} (name : String) (span : Span) : short (slotOffset index) = true →
    Lowerable short (.var index name span)
  | arithmetic {operator : Operator} {left right : Expr} (operatorSpan span : Span) :
    operator.isArithmetic = true → Lowerable short left → Lowerable short right →
    Lowerable short (.binary operator operatorSpan left right span)
  | assignment {index : Int} {right : Expr} (name : String) (targetSpan operatorSpan span : Span) :
    short (slotOffset index) = true → Lowerable short right →
    Lowerable short (.binary .assign operatorSpan (.var index name targetSpan) right span)
  | call {arguments : List Expr} (name : String) (span : Span) : arguments.length ≤ 6 →
    (∀ argument ∈ arguments, argument.isLiteral = false → Lowerable short argument) →
    Lowerable short (.call name arguments span)

namespace Code

/-! ## Violations -/

section Violations

variable (short : Int → Bool)

/-- What is wrong with a number that has to be written. -/
def overlong (number : Int) : List SourceError :=
  if short number then [] else [.unwritable]

/-- What is wrong with the target of an assignment. Nothing inside the target counts. -/
def targetViolations : Expr → List SourceError
  | .var index _ _ => overlong short (slotOffset index)
  | .block _ => [.unplaced]
  | target => [.compile ⟨.expectedIdentifier, target.span⟩]

mutual

/-- All that is wrong with an expression: an operator before its operands, the left operand before
the right one, the value of an assignment before its target, the number of arguments before the
arguments. -/
def violations : Expr → List SourceError
  | .number value _ => overlong short value
  | .string _ span => [.compile ⟨.expectedInteger, span⟩]
  | .var index _ _ => overlong short (slotOffset index)
  | .binary .assign _ target right _ => violations right ++ targetViolations short target
  | .binary operator operatorSpan left right _ =>
    (if operator.isArithmetic then []
      else [.compile ⟨.invalidOperator operator.symbol, operatorSpan⟩]) ++
      (violations left ++ violations right)
  | .call name arguments span =>
    (if arguments.length ≤ 6 then []
      else [.compile ⟨.tooManyArguments name arguments.length 6, span⟩]) ++
      argumentViolations arguments
  | .hole span => [.compile ⟨.lowering "cannot generate code for Expression", span⟩]
  | .block _ => [.compile ⟨.lowering "cannot generate code for Program", .eof⟩]

/-- All that is wrong with arguments, among which string literals are allowed. -/
def argumentViolations : List Expr → List SourceError
  | [] => []
  | .string _ _ :: rest => argumentViolations rest
  | argument :: rest => violations argument ++ argumentViolations rest

end

variable {short}

theorem overlong_eq_nil {number : Int} : overlong short number = [] ↔ short number = true := by
  unfold overlong
  split
  · next fits => simp [fits]
  · next long => simp [long]

theorem violations_binary {operator : Operator} {left right : Expr} {operatorSpan span : Span}
    (arithmetic : operator ≠ .assign) :
    violations short (.binary operator operatorSpan left right span) =
      (if operator.isArithmetic then []
        else [.compile ⟨.invalidOperator operator.symbol, operatorSpan⟩]) ++
        (violations short left ++ violations short right) := by
  rw [violations]
  exact arithmetic

theorem argumentViolations_cons {argument : Expr} (other : argument.isLiteral = false)
    (rest : List Expr) : argumentViolations short (argument :: rest) =
      violations short argument ++ argumentViolations short rest := by
  rw [argumentViolations]
  intro raw span same
  rw [same] at other
  cases other

theorem targetViolations_eq_nil {target : Expr} :
    targetViolations short target = [] ↔
      ∃ index name span, target = .var index name span ∧ short (slotOffset index) = true := by
  cases target with
  | var index name span => simp [targetViolations, overlong_eq_nil]
  | number | string | binary | call | hole | block => simp [targetViolations]

theorem lowerable_assignment {target right : Expr} {operatorSpan span : Span} :
    (Expr.binary .assign operatorSpan target right span).Lowerable short ↔
      right.Lowerable short ∧ targetViolations short target = [] := by
  rw [targetViolations_eq_nil]
  constructor
  · intro lowerable
    cases lowerable with
    | arithmetic _ _ known => cases known
    | assignment name targetSpan _ _ fits value => exact ⟨value, _, name, targetSpan, rfl, fits⟩
  · intro parts
    rcases parts with ⟨value, index, name, targetSpan, rfl, fits⟩
    exact .assignment name targetSpan _ _ fits value

theorem lowerable_operation {operator : Operator} {left right : Expr} {operatorSpan span : Span}
    (arithmetic : operator ≠ .assign) :
    (Expr.binary operator operatorSpan left right span).Lowerable short ↔
      operator.isArithmetic = true ∧ left.Lowerable short ∧ right.Lowerable short := by
  constructor
  · intro lowerable
    cases lowerable with
    | arithmetic _ _ known first second => exact ⟨known, first, second⟩
    | assignment => exact absurd rfl arithmetic
  · intro ⟨known, first, second⟩
    exact .arithmetic _ _ known first second

mutual

/-- An expression is lowerable exactly if nothing is wrong with it. -/
theorem lowerable_iff : ∀ e : Expr, e.Lowerable short ↔ violations short e = []
  | .number value span => by
    rw [violations, overlong_eq_nil]
    constructor
    · intro lowerable
      cases lowerable with
      | number _ fits => exact fits
    · exact .number span
  | .string raw span => by
    rw [violations]
    constructor
    · intro lowerable
      cases lowerable
    · intro none
      cases none
  | .var index name span => by
    rw [violations, overlong_eq_nil]
    constructor
    · intro lowerable
      cases lowerable with
      | var _ _ fits => exact fits
    · exact .var name span
  | .binary operator operatorSpan left right span => by
    by_cases assigns : operator = .assign
    · subst assigns
      rw [violations, lowerable_assignment, List.append_eq_nil_iff, lowerable_iff right]
    · rw [violations_binary assigns, lowerable_operation assigns, List.append_eq_nil_iff,
        List.append_eq_nil_iff, lowerable_iff left, lowerable_iff right]
      simp
  | .call name arguments span => by
    rw [violations, List.append_eq_nil_iff, ← passable_iff arguments]
    constructor
    · intro lowerable
      cases lowerable with
      | call _ _ few passable => exact ⟨if_pos few, passable⟩
    · intro ⟨few, passable⟩
      refine .call name span ?_ passable
      by_contra many
      rw [if_neg many] at few
      cases few
  | .hole span => by
    rw [violations]
    constructor
    · intro lowerable
      cases lowerable
    · intro none
      cases none
  | .block statements => by
    rw [violations]
    constructor
    · intro lowerable
      cases lowerable
    · intro none
      cases none

/-- Arguments can be passed exactly if nothing is wrong with them. -/
theorem passable_iff : ∀ arguments : List Expr,
    (∀ argument ∈ arguments, argument.isLiteral = false → argument.Lowerable short) ↔
      argumentViolations short arguments = []
  | [] => by simp [argumentViolations]
  | argument :: rest => by
    rw [List.forall_mem_cons, passable_iff rest]
    cases literal : argument.isLiteral with
    | true =>
      cases argument with
      | string raw span => simp [argumentViolations]
      | number | var | binary | call | hole | block => cases literal
    | false =>
      rw [argumentViolations_cons literal, List.append_eq_nil_iff, lowerable_iff argument]
      simp

end

end Violations

/-! ## Failures -/

theorem Emission.failure?_spell (number : Int) (line : Line) :
    (spell number line).failure? = (overlong Text.isWritable number).head? := by
  unfold spell overlong
  split
  · rfl
  · rfl

theorem failure?_store (target : Expr) :
    (store target).failure? = (targetViolations Text.isWritable target).head? := by
  cases target with
  | var index => rw [store, Emission.reach, Emission.failure?_spell, targetViolations]
  | number | string | binary | call | hole | block => rfl

mutual

/-- Lowering an expression fails with the first thing that is wrong with it. -/
theorem failure?_lower (pool : List String) : ∀ (depth : Nat) (e : Expr),
    (lower pool depth e).failure? = (violations Text.isWritable e).head?
  | _, .number value _ => by
    rw [lower, violations, Emission.failure?_spell]
  | _, .string _ _ => rfl
  | _, .var index _ _ => by
    rw [lower, violations, Emission.reach, Emission.failure?_spell]
  | depth, .binary operator operatorSpan left right _ => by
    by_cases assigns : operator = .assign
    · subst assigns
      rw [lower, violations, Emission.failure?_append, List.head?_append,
        failure?_lower pool depth right, failure?_store]
    · rw [violations_binary assigns]
      cases combined : combine? operator with
      | none =>
        rw [lower, combined, (combine?_eq_none assigns).mp combined]
        · rfl
        · exact assigns
      | some combination =>
        have known : operator.isArithmetic = true := by
          by_contra unknown
          have none := (combine?_eq_none assigns).mpr (Bool.eq_false_iff.mpr unknown)
          cases none.symm.trans combined
        rw [lower_binary assigns combined, if_pos known, List.nil_append, List.head?_append,
          Emission.failure?_append, Emission.failure?_append, Emission.failure?_append,
          failure?_lower pool depth left, failure?_lower pool (depth + 1) right]
        simp [Emission.emit]
  | depth, .call name arguments span => by
    rw [lower, violations]
    dsimp only
    by_cases few : arguments.length ≤ 6
    · rw [if_neg (show ¬ Register.arguments.length < arguments.length from Nat.not_lt.mpr few),
        if_pos few, List.nil_append, Emission.failure?_append, Emission.failure?_append,
        failure?_lowerArguments pool _ arguments]
      simp [Emission.emit]
    · rw [if_pos (show Register.arguments.length < arguments.length from Nat.not_le.mp few),
        if_neg few]
      rfl
  | _, .hole _ => rfl
  | _, .block _ => rfl

theorem failure?_lowerArguments (pool : List String) : ∀ (depth : Nat) (arguments : List Expr),
    (lowerArguments pool depth arguments).failure? =
      (argumentViolations Text.isWritable arguments).head?
  | _, [] => rfl
  | depth, argument :: rest => by
    cases literal : argument.isLiteral with
    | true =>
      cases argument with
      | string raw span =>
        rw [lowerArguments, argumentViolations, Emission.failure?_append,
          failure?_lowerArguments pool (depth + 1) rest]
        rfl
      | number | var | binary | call | hole | block => cases literal
    | false =>
      have other : ∀ raw span, argument ≠ .string raw span := by
        intro raw span same
        rw [same] at literal
        cases literal
      rw [argumentViolations_cons literal, lowerArguments_cons other, List.head?_append,
        Emission.failure?_append, Emission.failure?_append, failure?_lower pool depth argument,
        failure?_lowerArguments pool (depth + 1) rest]
      simp [Emission.emit]

end

theorem failure?_lowerStatements (pool : List String) (number : Nat) (statements : List Expr) :
    (lowerStatements false pool number statements).failure? =
      (statements.flatMap (violations Text.isWritable)).head? := by
  induction statements generalizing number with
  | nil => rfl
  | cons statement rest ih =>
    rw [lowerStatements, List.flatMap_cons, List.head?_append, Emission.failure?_append,
      Emission.failure?_append, failure?_lower, ih]
    simp [Emission.empty]

/-! ## Programs -/

/-- All that stands in the way of a program: what is wrong with its statements in order, then the
size of its frame, which is written last. -/
def programViolations (program : Program) : List SourceError :=
  program.statements.flatMap (violations Text.isWritable) ++
    overlong Text.isWritable (frameSize program.table.size)

theorem programViolations_eq_nil {program : Program} :
    programViolations program = [] ↔
      (∀ statement ∈ program.statements, statement.Lowerable Text.isWritable) ∧
        Text.isWritable (frameSize program.table.size) = true := by
  rw [programViolations, List.append_eq_nil_iff, List.flatMap_eq_nil_iff, overlong_eq_nil]
  simp only [lowerable_iff]

/-- Without remarks, generating code fails with the first thing that stands in the way. -/
theorem generate_eq_error_iff {freestanding? : Option Bool} {program : Program}
    {error : SourceError} :
    (generate ⟨false, freestanding?⟩ program).result = .error error ↔
      (programViolations program).head? = some error := by
  have failure := failure?_lowerStatements (pool program.statements) 1 program.statements
  rw [generate_eq_lowered]
  unfold lowered
  dsimp only
  rw [failure, programViolations, List.head?_append]
  cases (program.statements.flatMap (violations Text.isWritable)).head? with
  | some first => simp
  | none =>
    dsimp only
    rw [overlong]
    split
    · simp
    · simp

theorem exists_generate_iff {freestanding? : Option Bool} {program : Program} :
    (∃ listing, (generate ⟨false, freestanding?⟩ program).result = .ok listing) ↔
      programViolations program = [] := by
  rw [← List.head?_eq_none_iff]
  cases result : (generate ⟨false, freestanding?⟩ program).result with
  | error error =>
    rw [generate_eq_error_iff.mp result]
    simp
  | ok listing =>
    refine ⟨fun _ => ?_, fun _ => ⟨listing, rfl⟩⟩
    cases first : (programViolations program).head? with
    | none => rfl
    | some error => cases (generate_eq_error_iff.mpr first).symm.trans result

/-! ## One program after another -/

namespace Generator

/-- Generates one program after another: what each of them comes to, and the generator after all. -/
def generateAll (g : Generator) : List Program → List (Except SourceError String) × Generator
  | [] => ([], g)
  | program :: rest =>
    let (result, after, _) := g.generate program
    let (results, last) := after.generateAll rest
    (result :: results, last)

theorem generate_eq (g : Generator) (program : Program) :
    let generation := Code.generate g.options program
    let result := generation.result.map Listing.text
    ∃ draft, draft.externals = generation.externals ∧
      g.generate program = (result, ⟨g.options, g.written ++ String.join result.toOption.toList,
        draft⟩, generation.log program) := by
  unfold generate Code.generate
  dsimp only
  rw [run_listing g.options program g.draft]
  cases (Drafting.listing g.options program).run .empty with
  | ok listing d =>
    refine ⟨d, rfl, ?_⟩
    simp [Generation.ofResult, Except.map, Except.toOption, String.join]
  | error error d =>
    refine ⟨d, rfl, ?_⟩
    simp [Generation.ofResult, Except.map, Except.toOption, String.join]

/-- Each program comes to what it comes to alone, the texts of those without error are written one
behind the other, and the routines are those of the last program. -/
theorem generateAll_eq (options : Options) (written : String) (draft : Draft)
    (programs : List Program) :
    let results :=
      programs.map fun program => (Code.generate options program).result.map Listing.text
    ∃ draft', draft'.externals =
        (programs.map fun program => (Code.generate options program).externals).getLastD
          draft.externals ∧
      (Generator.mk options written draft).generateAll programs =
        (results,
          ⟨options, written ++ String.join (results.filterMap Except.toOption), draft'⟩) := by
  induction programs generalizing written draft with
  | nil => exact ⟨draft, rfl, by simp [generateAll, String.join]⟩
  | cons program rest ih =>
    dsimp only at ih ⊢
    obtain ⟨draft₁, externals, generated⟩ := generate_eq ⟨options, written, draft⟩ program
    obtain ⟨draft₂, externals', all⟩ := ih (written ++ String.join
      ((Code.generate options program).result.map Listing.text).toOption.toList) draft₁
    refine ⟨draft₂, by rw [externals', externals, List.map_cons, List.getLastD_cons], ?_⟩
    rw [generateAll, generated]
    dsimp only
    rw [all, List.map_cons, String.append_assoc, ← String.join_append]
    generalize rest.map (fun program => (Code.generate options program).result.map Listing.text) =
      results
    cases (Code.generate options program).result with
    | ok listing => rfl
    | error error => rfl

end Generator

/-! ## Main statement -/

/-- Generating code decides which programs are lowerable, and fails cleanly. A program without
remarks is generated exactly if each of its statements is lowerable, with all numbers short enough
to be written, and so is the size of its frame. Otherwise the first violation in the order of
evaluation is reported. A generator that is given one program after another comes to the same with
each of them as if it were alone, and writes the texts of those without error, one behind the other,
and nothing else. -/
theorem generate_first_violation (freestanding? : Option Bool) (program : Program) :
    ((∃ listing, (generate ⟨false, freestanding?⟩ program).result = .ok listing) ↔
      (∀ statement ∈ program.statements, statement.Lowerable Text.isWritable) ∧
        Text.isWritable (frameSize program.table.size) = true) ∧
      (∀ error, (generate ⟨false, freestanding?⟩ program).result = .error error ↔
        (program.statements.flatMap (violations Text.isWritable) ++
          overlong Text.isWritable (frameSize program.table.size)).head? = some error) ∧
      ∀ (options : Options) (written : String) (draft : Draft) (programs : List Program),
        let results :=
          programs.map fun program => (generate options program).result.map Listing.text
        let run := (Generator.mk options written draft).generateAll programs
        run.1 = results ∧
          run.2.written = written ++ String.join (results.filterMap Except.toOption) ∧
          run.2.externals =
            (programs.map fun program => (generate options program).externals).getLastD
              draft.externals := by
  refine ⟨exists_generate_iff.trans programViolations_eq_nil, fun _ => generate_eq_error_iff, ?_⟩
  intro options written draft programs
  obtain ⟨draft', externals, all⟩ := Generator.generateAll_eq options written draft programs
  dsimp only
  rw [all]
  exact ⟨rfl, rfl, externals⟩

theorem isWritable_slotOffset_of_long :
    Text.isWritable (slotOffset (10 ^ Text.digitLimit - 1)) = false := by
  have offset : slotOffset (10 ^ Text.digitLimit - 1) =
      ((10 ^ Text.digitLimit * 4 : Nat) : Int) := by
    rw [slotOffset, Int.sub_add_cancel]
    push_cast
    rfl
  rw [offset, Text.isWritable, Int.natAbs_natCast, Nat.pow_eq, decide_eq_false_iff_not, Nat.not_lt]
  generalize 10 ^ Text.digitLimit = bound
  omega

/-- A variable of the form that can be lowered, with an index of 4300 nines: the offset of its slot
has one digit more than can be written. -/
theorem generate_long_offset :
    let statement : Expr := .var (10 ^ Text.digitLimit - 1) "x" ⟨0, 1⟩
    statement.Lowerable (fun _ => true) ∧
      (generate ⟨false, none⟩ ⟨[statement], ⟨[]⟩⟩).result = .error .unwritable := by
  intro statement
  refine ⟨.var _ _ rfl, generate_eq_error_iff.mpr ?_⟩
  have long : violations Text.isWritable statement = [.unwritable] := by
    rw [violations, overlong, isWritable_slotOffset_of_long]
    rfl
  rw [programViolations, List.flatMap_singleton, long]
  rfl

end Code

end Reckon
