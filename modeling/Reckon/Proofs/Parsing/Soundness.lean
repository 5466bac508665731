import Reckon.Proofs.Parsing.Completeness

/-!
# What the parser has taken is derived by the grammar

`State.Read s ts` says that the state is what the tokens `ts` lead to: the tokens are the complete
statements, then for each open parenthesis the operations that wait outside it and what it began,
then the pending operations, then what has been read of the current operand. Every part carries its
derivation, and the table of variables runs through them from left to right.

Main statements: taking a token preserves the relation (`State.Read.feed`), so every run from the
initial state ends in a state that has read its tokens (`State.read_of_takeAll?`), and a run that
ends between statements has read a program (`State.Read.derivesProgram`).
-/

namespace Reckon.Parser

open Reckon.Grammar

/-! ## Pending operations -/

/-- Tokens from which pending operations were read, the innermost operation last. -/
inductive Waiting : VariableTable → List Token → List Operation → VariableTable → Prop
  | nil {t : VariableTable} : Waiting t [] [] t
  | cons {t t₁ t₂ : VariableTable} {ts us : List Token} {pending : List Operation} {o : Operation}
    {kind : Token.Kind} :
    Waiting t ts pending t₁ → Derives (leftCategory o.operator) t₁ us o.left t₂ →
    operator? kind = some o.operator → Fits (category o.operator) pending →
    Waiting t (ts ++ (us ++ [⟨kind, o.operatorSpan⟩])) (o :: pending) t₂

variable {t t₁ t₂ : VariableTable} {ts us : List Token} {pending : List Operation} {e : Expr}

/-- The innermost operation with its right operand is an operation of the grammar. -/
theorem Waiting.complete {o : Operation} {c : Category} (waiting : Waiting t ts (o :: pending) t₁)
    (derived : Derives c t₁ us e t₂) (fits : Fits c (o :: pending)) :
    ∃ ts' us' t', ts ++ us = ts' ++ us' ∧ Waiting t ts' pending t' ∧
      Derives (category o.operator) t' us' (o.complete e) t₂ ∧
      Fits (category o.operator) pending := by
  cases waiting with
  | cons outer left sign fitsOuter =>
    have looser : (rightCategory o.operator).level ≤ c.level := by
      rw [level_rightCategory]
      exact fits o rfl
    refine ⟨_, _, _, ?_, outer,
      Derives.operation o.operatorSpan sign left (derived.lift looser), fitsOuter⟩
    simp only [List.append_assoc, List.cons_append, List.nil_append]

/-- All pending operations together with the operand they wait for are an expression. -/
theorem Waiting.derives_reduceAll {c : Category} (waiting : Waiting t ts pending t₁)
    (derived : Derives c t₁ us e t₂) (fits : Fits c pending) :
    Derives .assignment t (ts ++ us) (reduceAll e pending) t₂ := by
  induction pending generalizing ts us t₁ e c with
  | nil =>
    cases waiting
    exact derived.lift (by cases c <;> decide)
  | cons o pending ih =>
    obtain ⟨ts', us', t', same, outer, whole, fitsOuter⟩ := waiting.complete derived fits
    rw [same]
    exact ih outer whole fitsOuter

/-- An operator completes operations up to an expression of the category of its left operand. -/
theorem Waiting.derives_reduce {c d : Category} {precedence : Nat}
    (waiting : Waiting t ts pending t₁) (derived : Derives c t₁ us e t₂) (fits : Fits c pending)
    (looser : d.level ≤ c.level)
    (reached : ∀ operator : Operator, precedence < operator.rightPrecedence →
      d.level ≤ (category operator).level) :
    ∃ ts' us' t', ts ++ us = ts' ++ us' ∧
      Waiting t ts' (reduce precedence e pending).2 t' ∧
      Derives d t' us' (reduce precedence e pending).1 t₂ ∧
      ∀ o ∈ (reduce precedence e pending).2.head?, o.operator.rightPrecedence ≤ precedence := by
  induction pending generalizing ts us t₁ e c with
  | nil =>
    refine ⟨ts, us, t₁, rfl, waiting, derived.lift looser, ?_⟩
    intro o impossible
    cases impossible
  | cons o pending ih =>
    rw [reduce]
    split
    · next tighter =>
      obtain ⟨ts', us', t', same, outer, whole, fitsOuter⟩ := waiting.complete derived fits
      rw [same]
      exact ih outer whole fitsOuter (reached o.operator tighter)
    · next stops =>
      refine ⟨ts, us, t₁, rfl, waiting, derived.lift looser, ?_⟩
      intro o' innermost
      cases innermost
      exact Nat.le_of_not_lt stops

/-- Every operation fits around a primary expression. -/
theorem rightPrecedence_le (operator : Operator) :
    operator.rightPrecedence ≤ Category.primary.level := by
  cases operator <;> simp [Operator.rightPrecedence, Operator.precedence, Category.level]

/-- What an operator leaves pending is a row of operations that its own operation fits into. -/
theorem Waiting.feed_operator {kind : Token.Kind} {operator : Operator} (span : Span)
    (sign : operator? kind = some operator) (waiting : Waiting t ts pending t₁)
    (derived : Derives .primary t₁ us e t₂) :
    Waiting t (ts ++ us ++ [⟨kind, span⟩])
      (⟨(reduce operator.precedence e pending).1, operator, span⟩ ::
        (reduce operator.precedence e pending).2) t₂ := by
  have fits : Fits .primary pending := fun o _ => rightPrecedence_le o.operator
  have reached : ∀ o : Operator, operator.precedence < o.rightPrecedence →
      (leftCategory operator).level ≤ (category o).level := by
    intro o
    cases kind <;> cases sign <;> cases o <;>
      simp [Operator.precedence, Operator.rightPrecedence, leftCategory, category, Category.level]
  obtain ⟨ts', us', t', same, outer, left, stops⟩ :=
    waiting.derives_reduce derived fits (by cases kind <;> cases sign <;> decide) reached
  rw [same, List.append_assoc]
  refine .cons (o := ⟨_, operator, span⟩) outer left sign ?_
  intro o innermost
  rw [level_category sign]
  exact stops o innermost

/-! ## Open parentheses -/

/-- Tokens from which complete statements and open parentheses were read, the innermost parenthesis
last. -/
inductive Enclosed : List Token → List Expr → List Enclosure → VariableTable → Prop
  | program {ts : List Token} {statements : List Expr} {t : VariableTable} :
    DerivesProgram ts statements t → Enclosed ts statements [] t
  | group {ts us : List Token} {statements : List Expr} {enclosing : List Enclosure}
    {pending : List Operation} {t t' : VariableTable} (opening : Span) :
    Enclosed ts statements enclosing t → Waiting t us pending t' →
    Enclosed (ts ++ (us ++ [⟨.openParen, opening⟩])) statements
      (⟨.group opening, pending⟩ :: enclosing) t'
  | call {ts us : List Token} {statements : List Expr} {enclosing : List Enclosure}
    {pending : List Operation} {t t' : VariableTable} (name : String) (span opening : Span) :
    Enclosed ts statements enclosing t → Waiting t us pending t' →
    Enclosed (ts ++ (us ++ [⟨.identifier name, span⟩, ⟨.openParen, opening⟩])) statements
      (⟨.call name span [], pending⟩ :: enclosing) t'
  | argument {ts us vs : List Token} {statements : List Expr} {enclosing : List Enclosure}
    {pending : List Operation} {arguments : List Expr} {t t₁ t₂ : VariableTable} (name : String)
    (span opening comma : Span) :
    Enclosed ts statements enclosing t → Waiting t us pending t₁ →
    DerivesArguments t₁ vs arguments t₂ →
    Enclosed
      (ts ++ (us ++ ⟨.identifier name, span⟩ :: ⟨.openParen, opening⟩ :: (vs ++ [⟨.comma, comma⟩])))
      statements (⟨.call name span arguments, pending⟩ :: enclosing) t₂

variable {statements arguments : List Expr} {enclosing : List Enclosure} {name : String}
  {span opening : Span}

theorem Enclosed.of_group
    (enclosed : Enclosed ts statements (⟨.group opening, pending⟩ :: enclosing) t) :
    ∃ ts' us t', ts = ts' ++ (us ++ [⟨.openParen, opening⟩]) ∧
      Enclosed ts' statements enclosing t' ∧ Waiting t' us pending t := by
  cases enclosed with
  | group _ outer waiting => exact ⟨_, _, _, rfl, outer, waiting⟩

/-- A call without arguments so far has been opened and nothing more. -/
theorem Enclosed.of_call
    (enclosed : Enclosed ts statements (⟨.call name span [], pending⟩ :: enclosing) t) :
    ∃ ts' us t' opening, ts = ts' ++ (us ++ [⟨.identifier name, span⟩, ⟨.openParen, opening⟩]) ∧
      Enclosed ts' statements enclosing t' ∧ Waiting t' us pending t := by
  cases enclosed with
  | call _ _ _ outer waiting => exact ⟨_, _, _, _, rfl, outer, waiting⟩
  | argument _ _ _ _ _ _ derived => exact absurd rfl derived.ne_nil

/-- One more argument of a call. -/
theorem Enclosed.of_argument
    (enclosed : Enclosed ts statements (⟨.call name span arguments, pending⟩ :: enclosing) t)
    (derived : Derives .assignment t us e t₂) :
    ∃ ts' ws vs t₀ t₁ opening,
      ts ++ us = ts' ++ (ws ++ ⟨.identifier name, span⟩ :: ⟨.openParen, opening⟩ :: vs) ∧
      Enclosed ts' statements enclosing t₀ ∧ Waiting t₀ ws pending t₁ ∧
      DerivesArguments t₁ vs (arguments ++ [e]) t₂ := by
  cases enclosed with
  | call _ _ opening outer waiting =>
    refine ⟨_, _, us, _, _, opening, ?_, outer, waiting, .first derived⟩
    simp
  | argument _ _ opening comma outer waiting before =>
    refine ⟨_, _, _, _, _, opening, ?_, outer, waiting, .next comma before derived⟩
    simp

/-! ## States -/

/-- Tokens from which the current operand was read; after a name the table is still the one before
it. -/
inductive Current : Expecting → VariableTable → List Token → VariableTable → Prop
  | statement {t : VariableTable} : Current .statement t [] t
  | operand {t : VariableTable} : Current .operand t [] t
  | argument {t : VariableTable} : Current .argument t [] t
  | afterName {t : VariableTable} (name : String) (span : Span) :
    Current (.afterName name span) t [⟨.identifier name, span⟩] t
  | afterOperand {t t' : VariableTable} {ts : List Token} {e : Expr} :
    Derives .primary t ts e t' → Current (.afterOperand e) t ts t'

namespace State

/-- Between statements nothing is open, and a first argument stands right behind its
parenthesis. -/
def Placed (s : State) : Prop :=
  match s.expecting with
  | .statement => s.enclosing = [] ∧ s.pending = []
  | .argument => s.pending = [] ∧ ∃ name span outside enclosing,
      s.enclosing = ⟨.call name span [], outside⟩ :: enclosing
  | _ => True

/-- The state is what the tokens lead to. -/
def Read (s : State) (ts : List Token) : Prop :=
  s.Placed ∧ ∃ front middle last t₁ t₂, ts = front ++ (middle ++ last) ∧
    Enclosed front s.statements s.enclosing t₁ ∧ Waiting t₁ middle s.pending t₂ ∧
    Current s.expecting t₂ last s.table

theorem read_initial : initial.Read [] :=
  ⟨⟨rfl, rfl⟩, [], [], [], .empty, .empty, rfl, .program .empty, .nil, .statement⟩

theorem Read.settled {s : State} (read : s.Read ts) : s.settled.Read ts := by
  unfold State.settled
  split
  · next name span waiting =>
    obtain ⟨-, front, middle, last, t₁, t₂, rfl, enclosed, outer, current⟩ := read
    rw [waiting] at current
    cases current
    exact ⟨trivial, front, middle, _, t₁, _, rfl, enclosed, outer, .afterOperand (.name name span)⟩
  · exact read

/-- A state that is ready for an operand has read nothing of it. -/
theorem Read.of_ready {s : State} (read : s.Read ts) (ready : s.Ready) :
    ∃ front middle t₁, ts = front ++ middle ∧ Enclosed front s.statements s.enclosing t₁ ∧
      Waiting t₁ middle s.pending s.table := by
  obtain ⟨-, front, middle, last, t₁, t₂, rfl, enclosed, waiting, current⟩ := read
  rcases ready with expecting | expecting | expecting <;> rw [expecting] at current <;>
    cases current
  all_goals exact ⟨front, middle, t₁, by rw [List.append_nil], enclosed, waiting⟩

theorem Read.feedOperand {s s' : State} {token : Token} (read : s.Read ts) (ready : s.Ready)
    (fed : s.feedOperand token = (s', none)) : s'.Read (ts ++ [token]) := by
  obtain ⟨front, middle, t₁, rfl, enclosed, waiting⟩ := read.of_ready ready
  obtain ⟨kind, span⟩ := token
  rw [List.append_assoc]
  cases kind <;> cases fed
  case number value =>
    exact ⟨trivial, front, middle, _, t₁, _, rfl, enclosed, waiting,
      .afterOperand (.number value span)⟩
  case string raw =>
    exact ⟨trivial, front, middle, _, t₁, _, rfl, enclosed, waiting,
      .afterOperand (.string raw span)⟩
  case identifier name =>
    exact ⟨trivial, front, middle, _, t₁, _, rfl, enclosed, waiting, .afterName name span⟩
  case openParen =>
    refine ⟨trivial, _, [], [], s.table, s.table, ?_, .group span enclosed waiting, .nil, .operand⟩
    rw [List.append_nil, List.append_nil]

theorem Read.feedArgument {s s' : State} {token : Token} (read : s.Read ts)
    (expecting : s.expecting = .argument) (fed : s.feedArgument token = (s', none)) :
    s'.Read (ts ++ [token]) := by
  unfold State.feedArgument at fed
  split at fed
  · next name nameSpan arguments outside enclosing closes opened =>
    obtain ⟨front, middle, t₁, rfl, enclosed, waiting⟩ := read.of_ready (.inr (.inr expecting))
    have placed := read.1
    unfold Placed at placed
    rw [expecting] at placed
    obtain ⟨noPending, _, _, _, _, fresh⟩ := placed
    rw [opened] at fresh
    cases fresh
    rw [noPending] at waiting
    cases waiting
    rw [opened] at enclosed
    obtain ⟨ts', us, t', opening, rfl, outer, outside⟩ := enclosed.of_call
    obtain ⟨kind, closing⟩ := token
    obtain rfl : kind = .closeParen := closes
    cases fed
    refine ⟨trivial, ts', us, _, t', s.table, ?_, outer, outside,
      .afterOperand (.bareCall _ _ opening closing)⟩
    simp
  · exact read.feedOperand (.inr (.inr expecting)) fed

/-- A token that ends an expression ends one that the grammar derives. -/
theorem Read.feedTerminator {s s' : State} {operand : Expr} {token : Token} (read : s.Read ts)
    (held : s.expecting = .afterOperand operand)
    (fed : s.feedTerminator operand token = (s', none)) : s'.Read (ts ++ [token]) := by
  obtain ⟨-, front, middle, last, t₁, t₂, rfl, enclosed, waiting, current⟩ := read
  rw [held] at current
  cases current with
  | afterOperand derived =>
    have whole : Derives .assignment t₁ (middle ++ last) (reduceAll operand s.pending) s.table :=
      waiting.derives_reduceAll derived fun o _ => rightPrecedence_le o.operator
    obtain ⟨kind, span⟩ := token
    unfold State.feedTerminator at fed
    split at fed
    · next none =>
      rw [none] at enclosed
      cases enclosed with
      | program program =>
        cases kind <;> cases fed
        have read := Enclosed.program (.statement span program whole)
        rw [← none] at read
        refine ⟨⟨none, rfl⟩, _, [], [], s.table, s.table, ?_, read, .nil, .statement⟩
        simp
    · next opening outside enclosing opened =>
      rw [opened] at enclosed
      obtain ⟨ts', us, t', rfl, outer, outerWaiting⟩ := enclosed.of_group
      cases kind <;> cases fed
      refine ⟨trivial, ts', us, _, t', t₁, ?_, outer, outerWaiting,
        .afterOperand (.group opening span whole)⟩
      simp
    · next name nameSpan arguments outside enclosing opened =>
      rw [opened] at enclosed
      obtain ⟨ts', ws, vs, t₀, t', opening, same, outer, outerWaiting, derived⟩ :=
        enclosed.of_argument whole
      cases kind <;> cases fed
      case comma =>
        refine ⟨trivial, _, [], [], s.table, s.table, ?_,
          .argument name nameSpan opening span outer outerWaiting derived, .nil, .operand⟩
        rw [same]
        simp
      case closeParen =>
        refine ⟨trivial, ts', ws, _, t₀, t', ?_, outer, outerWaiting,
          .afterOperand (.call name nameSpan opening span derived)⟩
        rw [same]
        simp

theorem Read.feedAfterOperand {s s' : State} {operand : Expr} {token : Token} (read : s.Read ts)
    (held : s.expecting = .afterOperand operand)
    (fed : s.feedAfterOperand operand token = (s', none)) : s'.Read (ts ++ [token]) := by
  unfold State.feedAfterOperand at fed
  split at fed
  · next operator sign =>
    obtain ⟨-, front, middle, last, t₁, t₂, rfl, enclosed, waiting, current⟩ := read
    rw [held] at current
    cases current with
    | afterOperand derived =>
      obtain ⟨kind, span⟩ := token
      cases fed
      refine ⟨trivial, front, _, [], t₁, s.table, ?_, enclosed,
        waiting.feed_operator span sign derived, .operand⟩
      simp
  · split at fed
    · exact read.feedTerminator held fed
    · cases fed

theorem Read.feedOpening {s s' : State} {name : String} {span opening : Span} (read : s.Read ts)
    (waits : s.expecting = .afterName name span)
    (fed : s.feedAfterName name span ⟨.openParen, opening⟩ = (s', none)) :
    s'.Read (ts ++ [⟨.openParen, opening⟩]) := by
  obtain ⟨-, front, middle, last, t₁, t₂, rfl, enclosed, waiting, current⟩ := read
  rw [waits] at current
  cases current
  cases fed
  refine ⟨⟨rfl, name, span, s.pending, s.enclosing, rfl⟩, _, [], [], s.table, s.table, ?_,
    .call name span opening enclosed waiting, .nil, .argument⟩
  simp

/-- Taking a token: the state after it has read the tokens with that one. -/
theorem Read.feed {s s' : State} {token : Token} (read : s.Read ts) (inside : token.kind ≠ .eof)
    (fed : s.feed token = (s', none)) : s'.Read (ts ++ [token]) := by
  cases expecting : s.expecting with
  | statement =>
    simp only [State.feed, expecting, if_neg inside] at fed
    exact read.feedOperand (.inl expecting) fed
  | operand =>
    simp only [State.feed, expecting] at fed
    exact read.feedOperand (.inr (.inl expecting)) fed
  | argument =>
    simp only [State.feed, expecting] at fed
    exact read.feedArgument expecting fed
  | afterName name span =>
    by_cases opens : token.kind = .openParen
    · simp only [State.feed, expecting] at fed
      obtain ⟨kind, opening⟩ := token
      cases opens
      exact read.feedOpening expecting fed
    · rw [← feed_settled opens] at fed
      have held : s.settled.expecting =
          .afterOperand (.var (s.table.resolve name).1 name span) := by
        simp only [State.settled, expecting]
      rw [feed_of_afterOperand held] at fed
      exact read.settled.feedAfterOperand held fed
  | afterOperand operand =>
    rw [feed_of_afterOperand expecting] at fed
    exact read.feedAfterOperand expecting fed

/-- Every run: the state after a row of tokens has read them. -/
theorem Read.takeAll? {s s' : State} {us : List Token} (read : s.Read ts)
    (inside : ∀ token ∈ us, token.kind ≠ .eof) (taken : s.takeAll? us = some s') :
    s'.Read (ts ++ us) := by
  induction us generalizing s ts with
  | nil =>
    cases taken
    rwa [List.append_nil]
  | cons token us ih =>
    obtain ⟨s₁, fed, rest⟩ := takeAll?_cons_eq_some taken
    have read₁ := read.feed (inside token List.mem_cons_self) fed
    have read' := ih read₁ (fun u member => inside u (List.mem_cons_of_mem token member)) rest
    rwa [List.append_assoc] at read'

theorem read_of_takeAll? {s : State} (inside : ∀ token ∈ ts, token.kind ≠ .eof)
    (taken : initial.takeAll? ts = some s) : s.Read ts :=
  read_initial.takeAll? inside taken

/-- A state between statements has read a program. -/
theorem Read.derivesProgram {s : State} (read : s.Read ts) (between : s.expecting = .statement) :
    DerivesProgram ts s.statements s.table := by
  have placed := read.1
  unfold Placed at placed
  rw [between] at placed
  obtain ⟨front, middle, t₁, rfl, enclosed, waiting⟩ := read.of_ready (.inl between)
  rw [placed.1] at enclosed
  rw [placed.2] at waiting
  cases waiting
  cases enclosed with
  | program program => rwa [List.append_nil]

end State

end Reckon.Parser
