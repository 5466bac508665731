import Reckon.Diagnostic
import Reckon.Proofs.Errors
import Reckon.Proofs.Parsing.Nesting

/-!
# Diagnostics point into the source

Whichever part of the compiler finds an error, it knows the text that is to blame: the lexer a piece
of the text, the parser a token, the generator a node of a tree. Only the parser can miss something
that is not there, and it then blames the end of the input (`CompileError.Points`).

Main statement: the error of a text is at the end of the input or at a piece of the text, and its
diagnostic has a caret below a character of the text (`Compilation.diagnostic_of_error`).
-/

namespace Reckon

/-- The error stands at the end of the input if it says that the input has ended, and at a piece of
the text otherwise. -/
structure CompileError.Points (source : String) (e : CompileError) : Prop where
  ending : e.cause.isEnding = true → e.span = .eof
  inside : e.cause.isEnding = false → e.span.LiesIn source

theorem Span.LiesIn.ne_eof {source : String} {span : Span} (lies : span.LiesIn source) :
    span ≠ .eof := by
  rintro rfl
  exact absurd lies.nonneg (by decide)

namespace CompileError

variable {source : String} {e : CompileError}

theorem Points.of_liesIn (goes : e.cause.isEnding = false) (lies : e.span.LiesIn source) :
    e.Points source where
  ending ended := by
    rw [goes] at ended
    cases ended
  inside _ := lies

namespace Points

variable (points : e.Points source)

include points

theorem eof_iff : e.span = .eof ↔ e.cause.isEnding = true := by
  refine ⟨fun ended => ?_, points.ending⟩
  by_contra goes
  exact (points.inside (Bool.eq_false_iff.mpr goes)).ne_eof ended

theorem eof_or_liesIn : e.span = .eof ∨ e.span.LiesIn source := by
  cases ended : e.cause.isEnding with
  | true => exact .inl (points.ending ended)
  | false => exact .inr (points.inside ended)

/-- The caret stands below a character of the text, if there is one. -/
theorem exists_caretOffset (nonempty : 0 < source.length) :
    ∃ column : Nat, Diagnostic.caretOffset source e.span = column ∧ column < source.length := by
  rcases points.eof_or_liesIn with ended | lies
  · exact ⟨source.length - 1, by rw [ended]; rfl, Nat.sub_one_lt_of_lt nonempty⟩
  · obtain ⟨nonneg, proper, inside⟩ := lies
    have placed : e.span.isEof = false := decide_eq_false (Int.not_lt.mpr nonneg)
    refine ⟨e.span.start.toNat, ?_, by omega⟩
    rw [Diagnostic.caretOffset, placed, Int.toNat_of_nonneg nonneg]
    rfl

end Points

end CompileError

/-! ## Reading -/

namespace Lexer

/-- The lexer blames a piece of the text. -/
theorem points_of_failureOf? {source : String} {e : CompileError}
    (failed : failureOf? source = some (.compile e)) : e.Points source := by
  obtain ⟨span, member⟩ := Outcome.mem_of_failure? failed
  have lies := liesIn_of_mem_outcomes member
  obtain ⟨text, covers⟩ := exists_covers_of_mem_outcomes member
  cases covers with
  | wrong lexical => exact .of_liesIn (Cause.not_isEnding_of_isLexical lexical) lies

end Lexer

namespace Parsing

/-- The parser blames a token, or the end of the input. -/
theorem points_of_ofSource {source : String} {e : CompileError}
    (failed : (ofSource source).result = .error (.compile e)) : e.Points source := by
  cases refused_of_ofSource failed with
  | @token before after t e split blame _ _ =>
    have member : t ∈ Lexer.tokensOf source := split ▸ List.mem_append_cons_self
    refine .of_liesIn ?_ ?_
    · rw [Bool.eq_false_iff, ne_eq, blame.ending]
      exact Lexer.kind_ne_eof_of_mem_tokensOf member
    · rw [blame.span]
      exact Lexer.liesIn_of_mem_tokensOf member
  | lexical first _ => exact Lexer.points_of_failureOf? first
  | early _ blame _ _ =>
    refine ⟨fun _ => blame.span, fun goes => ?_⟩
    rw [blame.ending.mpr rfl] at goes
    cases goes

end Parsing

/-! ## Code -/

namespace Code

/-- The error is about a node of the tree and not about the end of the input. -/
structure Concerns (e : Expr) (error : CompileError) : Prop where
  node : ∃ n : Expr, n.Within e ∧ n.span = error.span
  goes : error.cause.isEnding = false

variable {short : Int → Bool} {size : Nat} {error : CompileError}

theorem Concerns.within {e e' : Expr} (concerns : Concerns e error)
    (part : ∀ n : Expr, n.Within e → n.Within e') : Concerns e' error := by
  obtain ⟨⟨n, node, span⟩, goes⟩ := concerns
  exact ⟨⟨n, part n node, span⟩, goes⟩

theorem compile_notMem_overlong (number : Int) : .compile error ∉ overlong short number := by
  unfold overlong
  split <;> simp

theorem concerns_of_mem_targetViolations {target : Expr} (sourced : target.Sourced size)
    (member : .compile error ∈ targetViolations short target) : Concerns target error := by
  cases sourced with
  | var => exact absurd member (compile_notMem_overlong _)
  | number | string | binary | call =>
    cases List.mem_singleton.mp member
    exact ⟨⟨_, .self, rfl⟩, rfl⟩

theorem exists_mem_of_mem_argumentViolations {arguments : List Expr}
    (member : .compile error ∈ argumentViolations short arguments) :
    ∃ argument ∈ arguments, .compile error ∈ violations short argument := by
  induction arguments with
  | nil => cases member
  | cons argument rest ih =>
    cases literal : argument.isLiteral with
    | true =>
      cases argument with
      | string raw span =>
        rw [argumentViolations] at member
        obtain ⟨other, later, violated⟩ := ih member
        exact ⟨other, List.mem_cons_of_mem _ later, violated⟩
      | number | var | binary | call | hole | block => cases literal
    | false =>
      rw [argumentViolations_cons literal] at member
      rcases List.mem_append.mp member with here | later
      · exact ⟨argument, List.mem_cons_self, here⟩
      · obtain ⟨other, later, violated⟩ := ih later
        exact ⟨other, List.mem_cons_of_mem _ later, violated⟩

/-- What is wrong with a tree of a source text is wrong with one of its nodes. -/
theorem concerns_of_mem_violations {e : Expr} (sourced : e.Sourced size)
    (member : .compile error ∈ violations short e) : Concerns e error := by
  induction sourced with
  | number | var =>
    rw [violations] at member
    exact absurd member (compile_notMem_overlong _)
  | string =>
    rw [violations] at member
    cases List.mem_singleton.mp member
    exact ⟨⟨_, .self, rfl⟩, rfl⟩
  | @binary operator left right operatorSpan span known target _ ihLeft ihRight =>
    by_cases assigns : operator = .assign
    · subst assigns
      rw [violations] at member
      rcases List.mem_append.mp member with inValue | inTarget
      · exact (ihRight inValue).within fun _ => .right
      · exact (concerns_of_mem_targetViolations target inTarget).within fun _ => .left
    · have arithmetic : operator.isArithmetic = true := by
        cases operator with
        | add | subtract | multiply | divide => rfl
        | assign => exact absurd rfl assigns
        | other => cases known
      rw [violations_binary assigns, if_pos arithmetic, List.nil_append] at member
      rcases List.mem_append.mp member with inLeft | inRight
      · exact (ihLeft inLeft).within fun _ => .left
      · exact (ihRight inRight).within fun _ => .right
  | @call name arguments span isName _ ih =>
    rw [violations] at member
    rcases List.mem_append.mp member with many | inArguments
    · split at many
      · cases many
      · cases List.mem_singleton.mp many
        exact ⟨⟨_, .self, rfl⟩, rfl⟩
    · obtain ⟨argument, among, violated⟩ := exists_mem_of_mem_argumentViolations inArguments
      exact (ih argument among violated).within fun _ => .argument among

/-- An error at a place that the generator reports is one of the things that are wrong with the
statements. -/
theorem exists_mem_of_generate {options : Options} {program : Program}
    (printable : ∀ e ∈ program.statements, e.Printable)
    (failed : (generate options program).result = .error (.compile error)) :
    ∃ statement ∈ program.statements, .compile error ∈ violations Text.isWritable statement := by
  have failure := failure?_lowerStatements_of_printable printable options.comments
    (pool program.statements)
  rw [generate_eq_lowered] at failed
  unfold lowered at failed
  dsimp only at failed
  split at failed
  · next stopped =>
    cases failed
    exact List.mem_flatMap.mp (List.mem_of_mem_head? (failure.symm.trans stopped))
  · split at failed <;> cases failed

/-- The generator blames a node of a tree. -/
theorem points_of_generate {source : String} {options : Options} {program : Program}
    (parsed : (Parsing.ofSource source).result = .ok program)
    (failed : (generate options program).result = .error (.compile error)) :
    error.Points source := by
  have sourced := Program.sourced_of_ofSource parsed
  obtain ⟨statement, among, violated⟩ :=
    exists_mem_of_generate (fun e member => (sourced e member).printable) failed
  obtain ⟨⟨n, node, span⟩, goes⟩ := concerns_of_mem_violations (sourced statement among) violated
  obtain ⟨clean, derived⟩ := Parsing.result_eq_ok_iff.mp parsed
  have contains := Grammar.contains_of_derivesProgram derived among node
  refine .of_liesIn goes ?_
  rw [← span]
  exact contains.liesIn (Lexer.ordered_tokensOf clean) fun t => Lexer.liesIn_of_mem_tokensOf

end Code

/-! ## Compilation -/

namespace Compilation

variable {options : Code.Options} {source : String} {e : CompileError}

theorem points_of_error (failed : ofSource options source = .error (.compile e)) :
    e.Points source := by
  rcases stage_of_error failed with reading | ⟨program, parsed, generated⟩
  · exact Parsing.points_of_ofSource reading
  · exact Code.points_of_generate parsed generated

/-- There is nothing wrong with the empty text. -/
theorem ne_empty_of_error (failed : ofSource options source = .error (.compile e)) :
    source ≠ "" := by
  rintro rfl
  have read : (Parsing.ofSource "").result = .ok ⟨[], .empty⟩ := by cbv
  rcases stage_of_error failed with reading | ⟨program, parsed, generated⟩
  · cases read.symm.trans reading
  · cases read.symm.trans parsed
    obtain ⟨statement, among, -⟩ := Code.exists_mem_of_generate (List.forall_mem_nil _) generated
    cases among

/-- Diagnostics point into the source. Take an error that a text is refused with, under any options.
The text is not empty. The error stands at the end of the input or covers a piece of the text that
is not empty; it stands at the end exactly if an operand or the end of a statement is missing. The
caret stands below a character of the text, and the diagnostic is the message on a line, the text as
it is, and a line with as many blanks as there are characters before that one, and a caret; it can
be made of every text that fits a memory. -/
theorem diagnostic_of_error (failed : ofSource options source = .error (.compile e)) :
    source ≠ "" ∧
    (e.span = .eof ∨
      0 ≤ e.span.start ∧ e.span.start < e.span.stop ∧ e.span.stop ≤ source.length) ∧
    (e.span = .eof ↔
      (∃ expected, e.cause = .missingOperand expected) ∨ e.cause = .unterminatedExpression) ∧
    ∃ column : Nat, Diagnostic.caretOffset source e.span = column ∧ column < source.length ∧
      Diagnostic.render source e = "[error]: " ++ e.message ++ "\n" ++ source ++ "\n" ++
        String.ofList (List.replicate column ' ') ++ "^\n" ∧
      (source.length ≤ memoryLimit →
        Diagnostic.attempt source e = .ok (Diagnostic.render source e)) := by
  have points := points_of_error failed
  have nonempty := ne_empty_of_error failed
  have long : 0 < source.length := by
    rw [Nat.pos_iff_ne_zero, ne_eq, String.length_eq_zero_iff]
    exact nonempty
  refine ⟨nonempty, ?_, points.eof_iff.trans Cause.isEnding_iff, ?_⟩
  · rcases points.eof_or_liesIn with ended | lies
    · exact .inl ended
    · exact .inr ⟨lies.nonneg, lies.proper, lies.inside⟩
  · obtain ⟨column, caret, inside⟩ := points.exists_caretOffset long
    refine ⟨column, caret, inside, ?_, fun fits => ?_⟩
    · unfold Diagnostic.render
      rw [caret, Int.toNat_natCast]
    · have small : textTooLarge? column = none := by
        unfold textTooLarge? indexLimit
        unfold memoryLimit at fits ⊢
        rw [if_neg (by omega), if_neg (by omega)]
      rw [Diagnostic.attempt, caret, small]

/-- The target of an assignment on the second line is a number in parentheses, and a call ends
before its second argument. -/
theorem diagnostic_of_error_of_group :
    let target : CompileError := ⟨.expectedIdentifier, ⟨5, 8⟩⟩
    let ended : CompileError := ⟨.missingOperand "expression", .eof⟩
    (ofSource ⟨true, none⟩ "f();\n(1) = g();" = .error (.compile target) ∧
      Diagnostic.attempt "f();\n(1) = g();" target =
        .ok "[error]: expected identifier as assignment target\nf();\n(1) = g();\n     ^\n") ∧
    ofSource ⟨false, none⟩ "f(1," = .error (.compile ended) ∧
      Diagnostic.attempt "f(1," ended =
        .ok "[error]: expected expression, found end of input\nf(1,\n   ^\n" := by
  intro target ended
  have failed : ofSource ⟨true, none⟩ "f();\n(1) = g();" = .error (.compile target) := by cbv
  have stopped : ofSource ⟨false, none⟩ "f(1," = .error (.compile ended) := by cbv
  obtain ⟨-, -, -, -, -, -, -, made⟩ := diagnostic_of_error failed
  obtain ⟨-, -, -, -, -, -, -, made'⟩ := diagnostic_of_error stopped
  refine ⟨⟨failed, ?_⟩, stopped, ?_⟩
  · rw [made (by decide)]
    rfl
  · rw [made' (by decide)]
    rfl

end Compilation

end Reckon
