import Mathlib.Data.List.Forall2
import Reckon.Proofs.Remarks

/-!
# Programs at other places

The same tokens at other places are read as the same program with other spans. A relation `S` says
which spans correspond; `Expr.Displaced S` holds of trees that are the same but for their spans,
which correspond. If the relation is kept by the union of spans (`Span.Compatible`), the parser goes
through states that are displaced (`Parser.State.Displaced.feed`), and it ends with displaced
programs, or with the same error at corresponding places (`Parsing.displaced_ofTokens`).

Nothing in the code of a program depends on its spans, so displaced programs have the same code, or
the same error at corresponding places (`Code.parallel_generate`).
-/

namespace Reckon

/-- The union of spans that correspond corresponds. -/
def Span.Compatible (S : Span → Span → Prop) : Prop :=
  ∀ ⦃a a' b b' : Span⦄, S a a' → S b b' → S (a + b) (a' + b')

/-- Tokens that are the same but for their spans, which correspond. -/
structure Token.Displaced (S : Span → Span → Prop) (t t' : Token) : Prop where
  kind : t.kind = t'.kind
  span : S t.span t'.span

/-- Errors that are the same but for their spans, which correspond. -/
structure CompileError.Displaced (S : Span → Span → Prop) (e e' : CompileError) : Prop where
  cause : e.cause = e'.cause
  span : S e.span e'.span

/-- Errors that are the same but for their spans, if they have any. -/
inductive SourceError.Displaced (S : Span → Span → Prop) : SourceError → SourceError → Prop
  | compile {e e' : CompileError} : e.Displaced S e' → Displaced S (.compile e) (.compile e')
  | placeless {error : SourceError} : (∀ e, error ≠ .compile e) → Displaced S error error

/-- Both results are errors that are the same but for their spans, or neither is. -/
inductive SourceError.Parallel {α β : Type} (S : Span → Span → Prop) (R : α → β → Prop) :
    Except SourceError α → Except SourceError β → Prop
  | ok {a : α} {b : β} : R a b → Parallel S R (.ok a) (.ok b)
  | error {e e' : SourceError} : e.Displaced S e' → Parallel S R (.error e) (.error e')

/-- Trees that are the same but for their spans, which correspond. -/
inductive Expr.Displaced (S : Span → Span → Prop) : Expr → Expr → Prop
  | number (value : Int) {span span' : Span} : S span span' →
    Displaced S (.number value span) (.number value span')
  | string (raw : String) {span span' : Span} : S span span' →
    Displaced S (.string raw span) (.string raw span')
  | var (index : Int) (name : String) {span span' : Span} : S span span' →
    Displaced S (.var index name span) (.var index name span')
  | binary {left left' right right' : Expr} (operator : Operator)
    {operatorSpan operatorSpan' span span' : Span} : S operatorSpan operatorSpan' →
    Displaced S left left' → Displaced S right right' → S span span' →
    Displaced S (.binary operator operatorSpan left right span)
      (.binary operator operatorSpan' left' right' span')
  | call {arguments arguments' : List Expr} (name : String) {span span' : Span} :
    arguments.length = arguments'.length →
    (∀ pair ∈ arguments.zip arguments', Displaced S pair.1 pair.2) → S span span' →
    Displaced S (.call name arguments span) (.call name arguments' span')

variable {S : Span → Span → Prop}

theorem SourceError.Displaced.message_eq {e e' : SourceError} (displaced : e.Displaced S e') :
    e.message = e'.message := by
  cases displaced with
  | compile displaced => exact congrArg Cause.message displaced.cause
  | placeless => rfl

/-! ## Trees -/

namespace Expr.Displaced

variable {e e' : Expr}

theorem call_of_forall₂ {arguments arguments' : List Expr} {span span' : Span}
    (displaced : List.Forall₂ (Expr.Displaced S) arguments arguments') (name : String)
    (place : S span span') :
    Expr.Displaced S (.call name arguments span) (.call name arguments' span') := by
  obtain ⟨length, pairs⟩ := List.forall₂_iff_zip.mp displaced
  exact .call name length (fun pair member => pairs member) place

theorem span (displaced : e.Displaced S e') : S e.span e'.span := by
  cases displaced <;> assumption

theorem withSpan (displaced : e.Displaced S e') {span span' : Span} (place : S span span') :
    (e.withSpan span).Displaced S (e'.withSpan span') := by
  cases displaced with
  | number value => exact .number value place
  | string raw => exact .string raw place
  | var index name => exact .var index name place
  | binary operator sign left right => exact .binary operator sign left right place
  | call name length pairs => exact .call name length pairs place

/-- Of two displaced trees, both are the same literal or none is one. -/
theorem literal_or (displaced : e.Displaced S e') :
    (∃ raw span span', e = .string raw span ∧ e' = .string raw span') ∨
      (∀ raw span, e ≠ .string raw span) ∧ ∀ raw span, e' ≠ .string raw span := by
  cases displaced with
  | string raw => exact .inl ⟨raw, _, _, rfl, rfl⟩
  | number | var | binary | call =>
    refine .inr ⟨?_, ?_⟩
    all_goals
      intro raw span same
      cases same

end Expr.Displaced

/-! ## Reading -/

namespace Parser

/-- Operations that are the same but for spans. -/
structure Operation.Displaced (S : Span → Span → Prop) (o o' : Operation) : Prop where
  left : o.left.Displaced S o'.left
  operator : o.operator = o'.operator
  span : S o.operatorSpan o'.operatorSpan

/-- Openers that are the same but for spans. -/
inductive Opener.Displaced (S : Span → Span → Prop) : Opener → Opener → Prop
  | group {openSpan openSpan' : Span} : S openSpan openSpan' →
    Displaced S (.group openSpan) (.group openSpan')
  | call (name : String) {nameSpan nameSpan' : Span} {arguments arguments' : List Expr} :
    S nameSpan nameSpan' → List.Forall₂ (Expr.Displaced S) arguments arguments' →
    Displaced S (.call name nameSpan arguments) (.call name nameSpan' arguments')

/-- Open parentheses that are the same but for spans. -/
structure Enclosure.Displaced (S : Span → Span → Prop) (c c' : Enclosure) : Prop where
  opener : c.opener.Displaced S c'.opener
  outside : List.Forall₂ (Operation.Displaced S) c.outside c'.outside

/-- Parsers that are ready for the same, but for spans. -/
inductive Expecting.Displaced (S : Span → Span → Prop) : Expecting → Expecting → Prop
  | statement : Displaced S .statement .statement
  | operand : Displaced S .operand .operand
  | argument : Displaced S .argument .argument
  | afterName (name : String) {span span' : Span} : S span span' →
    Displaced S (.afterName name span) (.afterName name span')
  | afterOperand {e e' : Expr} : e.Displaced S e' →
    Displaced S (.afterOperand e) (.afterOperand e')

/-- States that are the same but for spans. -/
structure State.Displaced (S : Span → Span → Prop) (s s' : State) : Prop where
  expecting : s.expecting.Displaced S s'.expecting
  pending : List.Forall₂ (Operation.Displaced S) s.pending s'.pending
  enclosing : List.Forall₂ (Enclosure.Displaced S) s.enclosing s'.enclosing
  statements : List.Forall₂ (Expr.Displaced S) s.statements s'.statements
  table : s.table = s'.table
  consumed : s.consumed = s'.consumed

/-- Steps to states that are the same but for spans, with errors that are. -/
structure Step.Displaced (S : Span → Span → Prop) (x x' : Step) : Prop where
  state : x.1.Displaced S x'.1
  error : Option.Rel (CompileError.Displaced S) x.2 x'.2

theorem State.displaced_initial : State.initial.Displaced S State.initial :=
  ⟨.statement, .nil, .nil, .nil, rfl, rfl⟩

theorem Operation.Displaced.complete (compatible : Span.Compatible S) {o o' : Operation}
    {right right' : Expr} (waiting : o.Displaced S o') (displaced : right.Displaced S right') :
    (o.complete right).Displaced S (o'.complete right') := by
  unfold Operation.complete
  rw [waiting.operator]
  exact .binary _ waiting.span waiting.left displaced
    (compatible waiting.left.span displaced.span)

theorem displaced_reduce (compatible : Span.Compatible S) (precedence : Nat)
    {pending pending' : List Operation}
    (waiting : List.Forall₂ (Operation.Displaced S) pending pending') {e e' : Expr}
    (displaced : e.Displaced S e') :
    (reduce precedence e pending).1.Displaced S (reduce precedence e' pending').1 ∧
      List.Forall₂ (Operation.Displaced S) (reduce precedence e pending).2
        (reduce precedence e' pending').2 := by
  induction waiting generalizing e e' with
  | nil => exact ⟨displaced, .nil⟩
  | @cons o o' rest rest' here later ih =>
    unfold reduce
    rw [here.operator]
    split
    · exact ih (here.complete compatible displaced)
    · exact ⟨displaced, .cons here later⟩

theorem displaced_reduceAll (compatible : Span.Compatible S) {pending pending' : List Operation}
    (waiting : List.Forall₂ (Operation.Displaced S) pending pending') {e e' : Expr}
    (displaced : e.Displaced S e') :
    (reduceAll e pending).Displaced S (reduceAll e' pending') := by
  induction waiting generalizing e e' with
  | nil => exact displaced
  | cons here _ ih => exact ih (here.complete compatible displaced)

namespace State.Displaced

variable {s s' : State} {t t' : Token} (displaced : s.Displaced S s') (token : t.Displaced S t')

include displaced token

theorem take {x x' : Expecting} (ready : x.Displaced S x') :
    Step.Displaced S (s.take t x) (s'.take t' x') := by
  refine ⟨⟨ready, displaced.pending, displaced.enclosing, displaced.statements, displaced.table,
    ?_⟩, .none⟩
  show (s.count t).consumed = (s'.count t').consumed
  rw [count, count, token.kind, displaced.consumed]

theorem refuse (cause : Cause) : Step.Displaced S (s.refuse t cause) (s'.refuse t' cause) :=
  ⟨displaced, .some ⟨rfl, token.span⟩⟩

theorem reject (cause : Cause) : Step.Displaced S (s.reject t cause) (s'.reject t' cause) := by
  refine ⟨⟨displaced.expecting, displaced.pending, displaced.enclosing, displaced.statements,
    displaced.table, ?_⟩, .some ⟨rfl, token.span⟩⟩
  show (s.count t).consumed = (s'.count t').consumed
  rw [count, count, token.kind, displaced.consumed]

theorem feedOperand : Step.Displaced S (s.feedOperand t) (s'.feedOperand t') := by
  unfold State.feedOperand
  rw [← token.kind]
  cases t.kind with
  | number value => exact displaced.take token (.afterOperand (.number value token.span))
  | string raw => exact displaced.take token (.afterOperand (.string raw token.span))
  | identifier name => exact displaced.take token (.afterName name token.span)
  | openParen =>
    refine take ?_ token .operand
    exact ⟨displaced.expecting, .nil, .cons ⟨.group token.span, displaced.pending⟩
      displaced.enclosing, displaced.statements, displaced.table, displaced.consumed⟩
  | eof => exact displaced.reject token _
  | plus | minus | star | slash | assign | semicolon | closeParen | comma | whitespace =>
    exact displaced.reject token _

variable (compatible : Span.Compatible S)

include compatible

theorem feedTerminator {e e' : Expr} (complete : e.Displaced S e') :
    Step.Displaced S (s.feedTerminator e t) (s'.feedTerminator e' t') := by
  obtain ⟨expecting, pending, enclosing, statements, table, consumed⟩ := s
  obtain ⟨expecting', pending', enclosing', statements', table', consumed'⟩ := s'
  have whole := displaced_reduceAll compatible displaced.pending complete
  obtain ⟨ready, waiting, enclosed, read, tables, taken⟩ := displaced
  dsimp only at ready waiting enclosed read tables taken whole
  unfold State.feedTerminator
  dsimp only
  rw [← token.kind]
  cases enclosed with
  | nil =>
    dsimp only
    split
    · exact take ⟨ready, .nil, .nil, List.rel_append read (.cons whole .nil), tables, taken⟩ token
        .statement
    · exact reject ⟨ready, waiting, .nil, read, tables, taken⟩ token _
    · exact reject ⟨ready, waiting, .nil, read, tables, taken⟩ token _
  | @cons c c' outer outer' here later =>
    obtain ⟨opener, outside⟩ := c
    obtain ⟨opener', outside'⟩ := c'
    obtain ⟨opened, outsides⟩ := here
    have same : State.Displaced S
        ⟨expecting, pending, ⟨opener, outside⟩ :: outer, statements, table, consumed⟩
        ⟨expecting', pending', ⟨opener', outside'⟩ :: outer', statements', table', consumed'⟩ :=
      ⟨ready, waiting, .cons ⟨opened, outsides⟩ later, read, tables, taken⟩
    dsimp only at opened outsides
    cases opened with
    | group place =>
      dsimp only
      split
      · exact take ⟨ready, outsides, later, read, tables, taken⟩ token
          (.afterOperand (whole.withSpan (compatible place token.span)))
      · exact same.reject token _
      · exact same.reject token _
    | call name place arguments =>
      have more := List.rel_append arguments (List.Forall₂.cons whole .nil)
      dsimp only
      split
      · exact take ⟨ready, .nil, .cons ⟨.call name place more, outsides⟩ later, read, tables,
          taken⟩ token .operand
      · exact take ⟨ready, outsides, later, read, tables, taken⟩ token
          (.afterOperand (.call_of_forall₂ more name (compatible place token.span)))
      · exact same.reject token _
      · exact same.reject token _

theorem feedAfterOperand {e e' : Expr} (complete : e.Displaced S e') :
    Step.Displaced S (s.feedAfterOperand e t) (s'.feedAfterOperand e' t') := by
  unfold State.feedAfterOperand
  rw [← token.kind]
  split
  · next operator _ =>
    obtain ⟨operand, waiting⟩ :=
      displaced_reduce compatible operator.precedence displaced.pending complete
    generalize reduce operator.precedence e s.pending = reduced at operand waiting ⊢
    generalize reduce operator.precedence e' s'.pending = reduced' at operand waiting ⊢
    obtain ⟨left, pending⟩ := reduced
    obtain ⟨left', pending'⟩ := reduced'
    refine take ?_ token .operand
    exact ⟨displaced.expecting, .cons ⟨operand, rfl, token.span⟩ waiting, displaced.enclosing,
      displaced.statements, displaced.table, displaced.consumed⟩
  · split
    · exact displaced.feedTerminator token compatible complete
    · exact displaced.refuse token _

theorem feedAfterName (name : String) {span span' : Span} (place : S span span') :
    Step.Displaced S (s.feedAfterName name span t) (s'.feedAfterName name span' t') := by
  unfold State.feedAfterName
  rw [← token.kind, ← displaced.table]
  split
  · refine take ?_ token .argument
    exact ⟨displaced.expecting, .nil, .cons ⟨.call name place .nil, displaced.pending⟩
      displaced.enclosing, displaced.statements, rfl, displaced.consumed⟩
  · generalize s.table.resolve name = resolved
    obtain ⟨index, table⟩ := resolved
    have operand : Expr.Displaced S (.var index name span) (.var index name span') :=
      .var index name place
    refine feedAfterOperand ?_ token compatible operand
    exact ⟨.afterOperand operand, displaced.pending, displaced.enclosing, displaced.statements,
      rfl, displaced.consumed⟩

theorem feedArgument : Step.Displaced S (s.feedArgument t) (s'.feedArgument t') := by
  have operand := displaced.feedOperand token
  have enclosed := displaced.enclosing
  unfold State.feedArgument
  rw [← token.kind]
  generalize s.enclosing = enclosing at enclosed ⊢
  generalize s'.enclosing = enclosing' at enclosed ⊢
  cases enclosed with
  | nil => cases t.kind <;> exact operand
  | @cons c c' outer outer' here later =>
    obtain ⟨opener, outside⟩ := c
    obtain ⟨opener', outside'⟩ := c'
    obtain ⟨opened, outsides⟩ := here
    dsimp only at opened outsides
    cases opened with
    | group => cases t.kind <;> exact operand
    | call name place arguments =>
      cases t.kind with
      | closeParen =>
        refine take ?_ token
          (.afterOperand (.call_of_forall₂ arguments name (compatible place token.span)))
        exact ⟨displaced.expecting, outsides, later, displaced.statements, displaced.table,
          displaced.consumed⟩
      | plus | minus | star | slash | assign | semicolon | openParen | comma | number | string
      | identifier | whitespace | eof => exact operand

/-- The parser treats the same token at another place alike. -/
theorem feed : Step.Displaced S (s.feed t) (s'.feed t') := by
  have ready := displaced.expecting
  unfold State.feed
  generalize s.expecting = expecting at ready ⊢
  generalize s'.expecting = expecting' at ready ⊢
  cases ready with
  | statement =>
    dsimp only
    rw [← token.kind]
    split
    · exact ⟨displaced, .none⟩
    · exact displaced.feedOperand token
  | operand => exact displaced.feedOperand token
  | argument => exact displaced.feedArgument token compatible
  | afterName name place => exact displaced.feedAfterName token compatible name place
  | afterOperand complete => exact displaced.feedAfterOperand token compatible complete

end State.Displaced

end Parser

/-- Programs that are the same but for spans. -/
structure Program.Displaced (S : Span → Span → Prop) (p p' : Program) : Prop where
  statements : List.Forall₂ (Expr.Displaced S) p.statements p'.statements
  table : p.table = p'.table

namespace Parsing

/-- Readings that come to the same but for spans. -/
structure Displaced (S : Span → Span → Prop) (p p' : Parsing) : Prop where
  result : SourceError.Parallel S (Program.Displaced S) p.result p'.result
  consumed : p.consumed = p'.consumed

/-- The same tokens at other places are read alike, up to the end of the input. -/
theorem displaced_ofTokens (compatible : Span.Compatible S) (ends : S .eof .eof)
    {ts ts' : List Token} (tokens : List.Forall₂ (Token.Displaced S) ts ts')
    {s s' : Parser.State} (displaced : s.Displaced S s') :
    Displaced S (ofTokens none s ts) (ofTokens none s' ts') := by
  induction tokens generalizing s s' with
  | nil =>
    have ending : Token.eof.Displaced S Token.eof := ⟨rfl, ends⟩
    have step := displaced.feed ending compatible
    rw [ofTokens, ofTokens, ofOutcomes, ofOutcomes]
    generalize s.feed Token.eof = x at step ⊢
    generalize s'.feed Token.eof = x' at step ⊢
    obtain ⟨s₁, error?⟩ := x
    obtain ⟨s₁', error?'⟩ := x'
    obtain ⟨state, error⟩ := step
    cases error with
    | none => exact ⟨.ok ⟨state.statements, state.table⟩, state.consumed⟩
    | some error => exact ⟨.error (.compile error), state.consumed⟩
  | @cons t t' ts ts' here _ ih =>
    have step := displaced.feed here compatible
    rw [ofTokens, ofTokens]
    generalize s.feed t = x at step ⊢
    generalize s'.feed t' = x' at step ⊢
    obtain ⟨s₁, error?⟩ := x
    obtain ⟨s₁', error?'⟩ := x'
    obtain ⟨state, error⟩ := step
    cases error with
    | none => exact ih state
    | some error => exact ⟨.error (.compile error), state.consumed⟩

end Parsing

/-! ## Printing -/

theorem Expr.printAll_eq {es es' : List Expr}
    (same : List.Forall₂ (fun e e' : Expr => e.print = e'.print) es es') :
    Expr.printAll es = Expr.printAll es' := by
  induction same with
  | nil => rfl
  | cons here _ ih => rw [Expr.printAll, Expr.printAll, here, ih]

/-- The printed form of an expression does not show its span. -/
theorem Expr.Displaced.print_eq {e e' : Expr} (displaced : e.Displaced S e') :
    e.print = e'.print := by
  induction displaced with
  | number | string | var => simp only [Expr.print]
  | binary _ _ _ _ _ ihLeft ihRight => rw [Expr.print, Expr.print, ihLeft, ihRight]
  | call _ length _ _ ih =>
    have same := Expr.printAll_eq (List.forall₂_iff_zip.mpr ⟨length, fun member => ih _ member⟩)
    rw [Expr.print, Expr.print, same]

/-! ## Code -/

namespace Code

/-- Emissions that are the same but for the place of a failure. -/
structure Emission.Displaced (S : Span → Span → Prop) (a b : Emission) : Prop where
  lines : a.lines = b.lines
  calls : a.calls = b.calls
  failure : Option.Rel (SourceError.Displaced S) a.failure? b.failure?

namespace Emission

theorem displaced_of_complete {a : Emission} (complete : a.failure? = none) : a.Displaced S a := by
  refine ⟨rfl, rfl, ?_⟩
  rw [complete]
  exact .none

theorem displaced_fail (cause : Cause) {span span' : Span} (place : S span span') :
    (fail cause span).Displaced S (fail cause span') :=
  ⟨rfl, rfl, .some (.compile ⟨rfl, place⟩)⟩

theorem displaced_spell (number : Int) (line : Line) :
    (spell number line).Displaced S (spell number line) := by
  unfold spell
  split
  · exact displaced_of_complete rfl
  · refine ⟨rfl, rfl, .some (.placeless ?_)⟩
    intro e same
    cases same

theorem displaced_reach (index : Int) (line : Operand → Line) :
    (reach index line).Displaced S (reach index line) := by
  unfold reach
  exact displaced_spell _ _

theorem Displaced.append {a a' b b' : Emission} (first : a.Displaced S a')
    (second : b.Displaced S b') : (a ++ b).Displaced S (a' ++ b') := by
  obtain ⟨lines, calls, failure?⟩ := a
  obtain ⟨lines', calls', failure?'⟩ := a'
  obtain ⟨rfl, rfl, failure⟩ := first
  cases failure with
  | some failure => exact ⟨rfl, rfl, .some failure⟩
  | none =>
    refine ⟨?_, ?_, second.failure⟩
    · exact congrArg (lines ++ ·) second.lines
    · exact congrArg (calls ++ ·) second.calls

end Emission

open Emission

theorem displaced_store {e e' : Expr} (displaced : e.Displaced S e') :
    (store e).Displaced S (store e') := by
  have place := displaced.span
  cases displaced with
  | var =>
    rw [store, store]
    exact displaced_reach _ _
  | number | string | binary | call => exact displaced_fail _ place

theorem displaced_lowerArguments {pool : List String} {es es' : List Expr}
    (displaced : List.Forall₂ (Expr.Displaced S) es es')
    (inside : List.Forall₂ (fun e e' => ∀ depth,
      (lower pool depth e).Displaced S (lower pool depth e')) es es') (depth : Nat) :
    (lowerArguments pool depth es).Displaced S (lowerArguments pool depth es') := by
  induction displaced generalizing depth with
  | nil => exact displaced_of_complete rfl
  | cons here _ ih =>
    cases inside with
    | cons lowered others =>
      have later := ih others (depth + 1)
      rcases here.literal_or with ⟨raw, span, span', rfl, rfl⟩ | ⟨other, other'⟩
      · rw [lowerArguments, lowerArguments]
        exact .append (displaced_of_complete rfl) later
      · rw [lowerArguments_cons other, lowerArguments_cons other']
        exact .append (.append (lowered depth) (displaced_of_complete rfl)) later

/-- The code of an expression does not depend on its span. -/
theorem displaced_lower {e e' : Expr} (displaced : e.Displaced S e') (pool : List String)
    (depth : Nat) : (lower pool depth e).Displaced S (lower pool depth e') := by
  induction displaced generalizing depth with
  | number value =>
    rw [lower, lower]
    exact displaced_spell _ _
  | string raw place => exact displaced_fail _ place
  | var index =>
    rw [lower, lower]
    exact displaced_reach _ _
  | binary operator sign left right _ ihLeft ihRight =>
    by_cases assigns : operator = .assign
    · subst assigns
      rw [lower, lower]
      exact .append (ihRight depth) (displaced_store left)
    · cases combined : combine? operator with
      | none =>
        rw [lower, lower, combined]
        · exact displaced_fail _ sign
        · exact assigns
        · exact assigns
      | some combination =>
        rw [lower_binary assigns combined, lower_binary assigns combined]
        exact .append (.append (.append (ihLeft depth) (displaced_of_complete rfl))
          (ihRight (depth + 1))) (displaced_of_complete rfl)
  | call name length pairs place ih =>
    have arguments := @displaced_lowerArguments S pool _ _
      (List.forall₂_iff_zip.mpr ⟨length, fun member => pairs _ member⟩)
      (List.forall₂_iff_zip.mpr ⟨length, fun member => ih _ member⟩)
    rw [lower, lower]
    dsimp only
    rw [← length]
    split
    · exact displaced_fail _ place
    · exact .append (.append (displaced_of_complete rfl) (arguments _)) (displaced_of_complete rfl)

theorem argumentLiterals_eq {es es' : List Expr}
    (displaced : List.Forall₂ (Expr.Displaced S) es es')
    (inside : List.Forall₂ (fun e e' => literals e = literals e') es es') :
    argumentLiterals es = argumentLiterals es' := by
  induction displaced with
  | nil => rfl
  | cons here _ ih =>
    cases inside with
    | cons same others =>
      rcases here.literal_or with ⟨raw, span, span', rfl, rfl⟩ | ⟨other, other'⟩
      · rw [argumentLiterals, argumentLiterals, ih others]
      · rw [argumentLiterals_cons other, argumentLiterals_cons other', same, ih others]

theorem literals_eq {e e' : Expr} (displaced : e.Displaced S e') : literals e = literals e' := by
  induction displaced with
  | number | string | var => simp only [literals]
  | binary operator _ _ _ _ ihLeft ihRight =>
    by_cases assigns : operator = .assign
    · subst assigns
      rw [literals, literals, ihRight]
    · rw [literals_binary assigns, literals_binary assigns, ihLeft, ihRight]
  | call _ length pairs _ ih =>
    rw [literals, literals]
    exact argumentLiterals_eq (List.forall₂_iff_zip.mpr ⟨length, fun member => pairs _ member⟩)
      (List.forall₂_iff_zip.mpr ⟨length, fun member => ih _ member⟩)

theorem pool_eq {statements statements' : List Expr}
    (displaced : List.Forall₂ (Expr.Displaced S) statements statements') :
    pool statements = pool statements' := by
  have same : statements.flatMap literals = statements'.flatMap literals := by
    induction displaced with
    | nil => rfl
    | cons here _ ih => rw [List.flatMap_cons, List.flatMap_cons, literals_eq here, ih]
  rw [pool, pool, same]

theorem displaced_lowerStatements {statements statements' : List Expr}
    (displaced : List.Forall₂ (Expr.Displaced S) statements statements')
    (printable : ∀ e ∈ statements, e.Printable) (comments : Bool) (pool : List String)
    (number : Nat) :
    (lowerStatements comments pool number statements).Displaced S
      (lowerStatements comments pool number statements') := by
  induction displaced generalizing number with
  | nil => exact displaced_of_complete rfl
  | cons here _ ih =>
    obtain ⟨first, others⟩ := List.forall_mem_cons.mp printable
    obtain ⟨p, printed, -⟩ := first
    rw [lowerStatements, lowerStatements]
    refine .append (.append ?_ (displaced_lower here pool 0)) (ih others (number + 1))
    rw [announce, announce, ← here.print_eq, printed]
    split <;> exact displaced_of_complete rfl

/-- Programs that are the same but for spans have the same code, or the same error. -/
theorem parallel_generate {program program' : Program} (displaced : program.Displaced S program')
    (printable : ∀ e ∈ program.statements, e.Printable) (options : Options) :
    SourceError.Parallel S Eq (generate options program).result
        (generate options program').result ∧
      (generate options program).externals = (generate options program').externals := by
  obtain ⟨lines, calls, failure⟩ := displaced_lowerStatements displaced.statements printable
    options.comments (pool program.statements) 1
  rw [externals_generate, externals_generate, ← pool_eq displaced.statements, calls]
  refine ⟨?_, rfl⟩
  rw [generate_eq_lowered, generate_eq_lowered]
  unfold lowered
  dsimp only
  rw [← pool_eq displaced.statements, ← displaced.table, ← lines, ← calls]
  generalize Emission.failure? (lowerStatements _ _ _ program.statements) = failure? at failure ⊢
  generalize Emission.failure? (lowerStatements _ _ _ program'.statements) = failure?' at failure ⊢
  cases failure with
  | some failure => exact .error failure
  | none =>
    dsimp only
    split
    · exact .ok rfl
    · refine .error (.placeless ?_)
      intro e same
      cases same

end Code

namespace Compilation

/-- Compiled programs with the same assembly text and the same routines. -/
structure SameCode (c c' : Compilation) : Prop where
  assembly : c.assembly = c'.assembly
  externals : c.externals = c'.externals

/-- Texts that are read alike are compiled alike. -/
theorem parallel_ofSource {source source' : String}
    (parsed : SourceError.Parallel S (Program.Displaced S) (Parsing.ofSource source).result
      (Parsing.ofSource source').result) (options : Code.Options) :
    SourceError.Parallel S SameCode (ofSource options source) (ofSource options source') := by
  unfold ofSource ofSourceLogged
  dsimp only
  cases read : (Parsing.ofSource source).result with
  | error error =>
    rw [read] at parsed
    generalize (Parsing.ofSource source').result = result' at parsed ⊢
    cases parsed with
    | error displaced => exact .error displaced
  | ok program =>
    have printable : ∀ e ∈ program.statements, e.Printable :=
      fun e member => (Program.sourced_of_ofSource read e member).printable
    rw [read] at parsed
    generalize (Parsing.ofSource source').result = result' at parsed ⊢
    cases parsed with
    | @ok _ program' displaced =>
      obtain ⟨generated, externals⟩ := Code.parallel_generate displaced printable options
      dsimp only
      generalize (Code.generate options program).result = listing at generated ⊢
      generalize (Code.generate options program').result = listing' at generated ⊢
      cases generated with
      | error displaced => exact .error displaced
      | ok same => exact .ok ⟨congrArg Code.Listing.text same, externals⟩

end Compilation

end Reckon
