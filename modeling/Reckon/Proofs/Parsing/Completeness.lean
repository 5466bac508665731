import Reckon.Proofs.Grammar
import Reckon.Proofs.Parsing.Feeding

/-!
# The parser takes what the grammar derives

A state `Reads` tokens as a tree when it takes them all and then holds an operand over some further
pending operations which, completed, give the tree. The bound on these operations is what the next
operator relies on: it completes exactly them (`reduce_append`) and leaves the operations that were
pending before.

Main statements: tokens derived by a category are read by every state that is ready for an operand
and whose pending operations the category fits into (`State.reads_of_derives`); a program is taken
from the initial state (`State.takeAll?_of_derivesProgram`).
-/

namespace Reckon.Parser

open Reckon.Grammar

/-! ## Completing pending operations -/

/-- A category fits into pending operations if the innermost of them takes its right operand from
that category or a looser one. -/
def Fits (c : Category) (pending : List Operation) : Prop :=
  ∀ o ∈ pending.head?, o.operator.rightPrecedence ≤ c.level

theorem Fits.nil (c : Category) : Fits c [] := by
  intro o impossible
  cases impossible

theorem Fits.cons {c : Category} {o : Operation} (pending : List Operation)
    (looser : o.operator.rightPrecedence ≤ c.level) : Fits c (o :: pending) := by
  intro o' innermost
  cases innermost
  exact looser

theorem Fits.mono {c c' : Category} {pending : List Operation} (looser : c.level ≤ c'.level)
    (fits : Fits c pending) : Fits c' pending :=
  fun o innermost => Nat.le_trans (fits o innermost) looser

/-- An operator completes the operations that bind tighter and stops at the first that does not. -/
theorem reduce_append {precedence : Nat} {inner pending : List Operation} (operand : Expr)
    (tighter : ∀ o ∈ inner, precedence < o.operator.rightPrecedence)
    (looser : ∀ o ∈ pending.head?, o.operator.rightPrecedence ≤ precedence) :
    reduce precedence operand (inner ++ pending) = (reduceAll operand inner, pending) := by
  induction inner generalizing operand with
  | nil =>
    cases pending with
    | nil => rfl
    | cons o pending =>
      have stops : ¬ precedence < o.operator.rightPrecedence := Nat.not_lt.mpr (looser o rfl)
      rw [List.nil_append, reduce, if_neg stops]
      rfl
  | cons o inner ih =>
    rw [List.cons_append, reduce, if_pos (tighter o List.mem_cons_self),
      ih _ fun o' member => tighter o' (List.mem_cons_of_mem o member)]
    rfl

theorem reduceAll_concat (operand : Expr) (inner : List Operation) (o : Operation) :
    reduceAll operand (inner ++ [o]) = o.complete (reduceAll operand inner) := by
  rw [reduceAll, List.foldl_append]
  rfl

namespace State

/-! ## Single tokens -/

/-- The parser is ready for an operand. -/
def Ready (s : State) : Prop :=
  s.expecting = .statement ∨ s.expecting = .operand ∨ s.expecting = .argument

/-- The tokens that begin an operand. -/
def begins : Token.Kind → Bool
  | .number _ | .string _ | .identifier _ | .openParen => true
  | _ => false

theorem feed_of_ready {s : State} {t : Token} (ready : s.Ready) (first : begins t.kind = true) :
    s.feed t = s.feedOperand t := by
  have closing : t.kind ≠ .closeParen := by
    intro kind
    rw [kind] at first
    cases first
  have ending : t.kind ≠ .eof := by
    intro kind
    rw [kind] at first
    cases first
  rcases ready with waiting | waiting | waiting
  · simp only [feed, waiting, if_neg ending]
  · simp only [feed, waiting]
  · simp only [feed, waiting, feedArgument]
    split
    · next kind _ => exact absurd kind closing
    · rfl

theorem take_of_ne_eof (s : State) {t : Token} (ending : t.kind ≠ .eof) (expecting : Expecting) :
    s.take t expecting = ({ s with expecting, consumed := s.consumed + 1 }, none) := by
  rw [take, count, if_neg ending]

/-- The state that holds an operand over further pending operations, after `taken` tokens. -/
def holding (s : State) (operand : Expr) (inner : List Operation) (table : VariableTable)
    (taken : Nat) : State :=
  { s with
    expecting := .afterOperand operand
    pending := inner ++ s.pending
    table
    consumed := s.consumed + taken }

/-- The bound on what the operations inside an expression of a category take to their right. -/
def bound : Category → Nat
  | .assignment => 0
  | c => c.level

/-- The state takes the tokens and then holds the tree, as an operand under operations that the
category bounds. -/
def Reads (s : State) (c : Category) (ts : List Token) (e : Expr) (table : VariableTable) : Prop :=
  ∃ s' operand inner, s.takeAll? ts = some s' ∧
    s'.settled = s.holding operand inner table ts.length ∧
    reduceAll operand inner = e ∧ ∀ o ∈ inner, bound c < o.operator.rightPrecedence

variable {s : State} {ts us : List Token} {table table' : VariableTable}

theorem Reads.loosen {c c' : Category} {e : Expr} (looser : bound c ≤ bound c')
    (reads : s.Reads c' ts e table) : s.Reads c ts e table := by
  obtain ⟨s', operand, inner, taken, held, complete, bounded⟩ := reads
  exact ⟨s', operand, inner, taken, held, complete,
    fun o member => Nat.lt_of_le_of_lt looser (bounded o member)⟩

/-- A state that is left with a single operand has read it as a primary expression. -/
theorem Reads.of_settled (s' : State) {e : Expr} (taken : s.takeAll? ts = some s')
    (held : s'.settled = s.holding e [] table ts.length) : s.Reads .primary ts e table :=
  ⟨s', e, [], taken, held, rfl, fun o impossible => by cases impossible⟩

/-! ## Operators and terminators after an expression -/

theorem operator_ne {kind : Token.Kind} {operator : Operator}
    (sign : operator? kind = some operator) : kind ≠ .openParen ∧ kind ≠ .eof := by
  cases kind <;> cases sign <;> exact ⟨nofun, nofun⟩

/-- An operator takes everything inside its left operand's category for its left operand. -/
theorem feed_operator {s' : State} {operand : Expr} {inner : List Operation} {taken : Nat}
    {kind : Token.Kind} {operator : Operator} (span : Span)
    (held : s'.settled = s.holding operand inner table taken)
    (sign : operator? kind = some operator)
    (tighter : ∀ o ∈ inner, operator.precedence < o.operator.rightPrecedence)
    (looser : ∀ o ∈ s.pending.head?, o.operator.rightPrecedence ≤ operator.precedence) :
    s'.feed ⟨kind, span⟩ =
      ({ s with
          expecting := .operand
          pending := ⟨reduceAll operand inner, operator, span⟩ :: s.pending
          table
          consumed := s.consumed + (taken + 1) }, none) := by
  obtain ⟨notOpen, notEnd⟩ := operator_ne sign
  have pending : (s.holding operand inner table taken).pending = inner ++ s.pending := rfl
  have ending : (Token.mk kind span).kind ≠ .eof := notEnd
  rw [← feed_settled notOpen, held, feed_of_afterOperand rfl, feedAfterOperand]
  simp only [sign, pending, reduce_append operand tighter looser, take_of_ne_eof _ ending]
  rfl

/-- What ends an expression is fed to the whole of it. -/
theorem feed_terminator {s' : State} {operand : Expr} {inner : List Operation} {taken : Nat}
    {t : Token} (held : s'.settled = s.holding operand inner table taken)
    (ends : isTerminator t.kind = true) :
    s'.feed t = (s.holding operand inner table taken).feedTerminator operand t := by
  have notOpen : t.kind ≠ .openParen := by
    intro opening
    rw [opening] at ends
    cases ends
  have noSign : operator? t.kind = none := by
    cases kind : t.kind <;> rw [kind] at ends <;> first | rfl | cases ends
  rw [← feed_settled notOpen, held, feed_of_afterOperand rfl, feedAfterOperand, noSign]
  exact if_pos ends

/-! ## Operations -/

theorem precedence_le_bound {kind : Token.Kind} {operator : Operator}
    (sign : operator? kind = some operator) :
    operator.precedence ≤ bound (leftCategory operator) := by
  cases kind <;> cases sign <;> decide

theorem bound_category_le {kind : Token.Kind} {operator : Operator}
    (sign : operator? kind = some operator) :
    bound (category operator) ≤ bound (rightCategory operator) ∧
      bound (category operator) < operator.rightPrecedence := by
  cases kind <;> cases sign <;> decide

/-- An operation is read if its operands are. -/
theorem Reads.operation (kind : Token.Kind) {operator : Operator} {left right : Expr} (span : Span)
    (sign : operator? kind = some operator) (fits : Fits (category operator) s.pending)
    (readsLeft : s.Reads (leftCategory operator) ts left table)
    (readsRight : ∀ s₁ : State, s₁.Ready → s₁.table = table →
      Fits (rightCategory operator) s₁.pending →
      s₁.Reads (rightCategory operator) us right table') :
    s.Reads (category operator) (ts ++ ⟨kind, span⟩ :: us)
      (Grammar.operation operator span left right) table' := by
  obtain ⟨s', operand, inner, taken, held, rfl, bounded⟩ := readsLeft
  -- What is pending inside the left operand binds tighter than the sign and is reduced; what was
  -- pending before it does not and stays.
  have tighter : ∀ o ∈ inner, operator.precedence < o.operator.rightPrecedence :=
    fun o member => Nat.lt_of_le_of_lt (precedence_le_bound sign) (bounded o member)
  have looser : ∀ o ∈ s.pending.head?, o.operator.rightPrecedence ≤ operator.precedence := by
    intro o innermost
    rw [← level_category sign]
    exact fits o innermost
  have fed := feed_operator span held sign tighter looser
  let waiting : Operation := ⟨reduceAll operand inner, operator, span⟩
  let s₁ : State :=
    { s with
      expecting := .operand
      pending := waiting :: s.pending
      table
      consumed := s.consumed + (ts.length + 1) }
  have fitsRight : Fits (rightCategory operator) s₁.pending :=
    Fits.cons s.pending (Nat.le_of_eq (level_rightCategory operator).symm)
  obtain ⟨s₂, operand', inner', taken', held', rfl, bounded'⟩ :=
    readsRight s₁ (.inr (.inl rfl)) rfl fitsRight
  refine ⟨s₂, operand', inner' ++ [waiting], ?_, ?_, reduceAll_concat .., ?_⟩
  · rw [takeAll?_append_of_taken taken, takeAll?_cons_of_taken fed]
    exact taken'
  · rw [held']
    simp only [holding, s₁, List.append_assoc, List.cons_append, List.nil_append,
      List.length_append, List.length_cons]
    congr 1
    omega
  · obtain ⟨right, own⟩ := bound_category_le sign
    intro o member
    rcases List.mem_append.mp member with inside | here
    · exact Nat.lt_of_le_of_lt right (bounded' o inside)
    · obtain rfl := List.mem_singleton.mp here
      exact own

/-! ## Primary expressions -/

theorem Reads.number (ready : s.Ready) (value : Nat) (span : Span) :
    s.Reads .primary [⟨.number value, span⟩] (.number value span) s.table := by
  have fed : s.feed ⟨.number value, span⟩ =
      (s.holding (.number value span) [] s.table 1, none) := by
    rw [feed_of_ready ready rfl]
    rfl
  exact .of_settled _ (takeAll?_cons_of_taken fed []) rfl

theorem Reads.string (ready : s.Ready) (raw : String) (span : Span) :
    s.Reads .primary [⟨.string raw, span⟩] (.string raw span) s.table := by
  have fed : s.feed ⟨.string raw, span⟩ = (s.holding (.string raw span) [] s.table 1, none) := by
    rw [feed_of_ready ready rfl]
    rfl
  exact .of_settled _ (takeAll?_cons_of_taken fed []) rfl

theorem feed_identifier (ready : s.Ready) (name : String) (span : Span) :
    s.feed ⟨.identifier name, span⟩ =
      ({ s with expecting := .afterName name span, consumed := s.consumed + 1 }, none) := by
  rw [feed_of_ready ready rfl]
  rfl

theorem Reads.name (ready : s.Ready) (name : String) (span : Span) :
    s.Reads .primary [⟨.identifier name, span⟩] (.var (s.table.resolve name).1 name span)
      (s.table.resolve name).2 :=
  .of_settled _ (takeAll?_cons_of_taken (feed_identifier ready name span) []) rfl

/-- The state inside a call, with the arguments already read. -/
def enter (s : State) (name : String) (span : Span) (arguments : List Expr) : State :=
  { s with
    expecting := .argument
    pending := []
    enclosing := ⟨.call name span arguments, s.pending⟩ :: s.enclosing }

/-- The state with more tokens counted. -/
def counting (s : State) (taken : Nat) : State :=
  { s with consumed := s.consumed + taken }

theorem takeAll?_opening (ready : s.Ready) (name : String) (span opening : Span) :
    s.takeAll? [⟨.identifier name, span⟩, ⟨.openParen, opening⟩] =
      some ((s.counting 2).enter name span []) := by
  rw [takeAll?_cons_of_taken (feed_identifier ready name span)]
  rfl

theorem Reads.bareCall (ready : s.Ready) (name : String) (span opening closing : Span) :
    s.Reads .primary
      [⟨.identifier name, span⟩, ⟨.openParen, opening⟩, ⟨.closeParen, closing⟩]
      (.call name [] (span + closing)) s.table := by
  have taken := takeAll?_append_of_taken (takeAll?_opening ready name span opening)
    [⟨.closeParen, closing⟩]
  exact .of_settled (s.holding (.call name [] (span + closing)) [] s.table 3) taken rfl

/-- The state inside a call takes the tokens as arguments: all but the last are complete, and the
last is held as an operand. -/
def ReadsArguments (s : State) (name : String) (span : Span) (ts : List Token) (es : List Expr)
    (table : VariableTable) : Prop :=
  ∃ s' operand inner front, (s.enter name span []).takeAll? ts = some s' ∧
    s'.settled = (s.enter name span front).holding operand inner table ts.length ∧
    es = front ++ [reduceAll operand inner]

theorem ReadsArguments.first {name : String} {span : Span} {e : Expr}
    (reads : (s.enter name span []).Reads .assignment ts e table) :
    s.ReadsArguments name span ts [e] table := by
  obtain ⟨s', operand, inner, taken, held, rfl, -⟩ := reads
  exact ⟨s', operand, inner, [], taken, held, rfl⟩

theorem ReadsArguments.next {name : String} {span : Span} {es : List Expr} {e : Expr} (comma : Span)
    (readsFront : s.ReadsArguments name span ts es table)
    (readsLast : ∀ s₁ : State, s₁.Ready → s₁.table = table → s₁.pending = [] →
      s₁.Reads .assignment us e table') :
    s.ReadsArguments name span (ts ++ ⟨.comma, comma⟩ :: us) (es ++ [e]) table' := by
  obtain ⟨s', operand, inner, front, taken, held, rfl⟩ := readsFront
  let s₁ : State :=
    { s.enter name span (front ++ [reduceAll operand inner]) with
      expecting := .operand
      table
      consumed := s.consumed + (ts.length + 1) }
  have fed : s'.feed ⟨.comma, comma⟩ = (s₁, none) := by
    rw [feed_terminator held rfl]
    simp only [feedTerminator, holding, enter, List.append_nil]
    rfl
  obtain ⟨s₂, operand', inner', taken', held', rfl, -⟩ := readsLast s₁ (.inr (.inl rfl)) rfl rfl
  refine ⟨s₂, operand', inner', front ++ [reduceAll operand inner], ?_, ?_, rfl⟩
  · rw [takeAll?_append_of_taken taken, takeAll?_cons_of_taken fed]
    exact taken'
  · rw [held']
    simp only [holding, enter, s₁, List.length_append, List.length_cons]
    congr 1
    omega

theorem Reads.call {name : String} {span : Span} {es : List Expr} (opening closing : Span)
    (ready : s.Ready) (reads : (s.counting 2).ReadsArguments name span ts es table) :
    s.Reads .primary
      (⟨.identifier name, span⟩ :: ⟨.openParen, opening⟩ :: (ts ++ [⟨.closeParen, closing⟩]))
      (.call name es (span + closing)) table := by
  obtain ⟨s', operand, inner, front, taken, held, rfl⟩ := reads
  let e : Expr := .call name (front ++ [reduceAll operand inner]) (span + closing)
  have fed : s'.feed ⟨.closeParen, closing⟩ = (s.holding e [] table (ts.length + 3), none) := by
    rw [feed_terminator held rfl]
    simp only [feedTerminator, holding, enter, List.append_nil]
    rw [take_of_ne_eof (t := ⟨.closeParen, closing⟩) _ nofun]
    simp only [counting, e, List.nil_append]
    congr 2
    omega
  have opened := takeAll?_append_of_taken (takeAll?_opening ready name span opening)
    (ts ++ [⟨.closeParen, closing⟩])
  refine .of_settled (s.holding e [] table (ts.length + 3)) ?_ ?_
  · rw [takeAll?_append_of_taken taken, takeAll?_cons_of_taken fed] at opened
    exact opened
  · rw [settled_of_afterOperand rfl, List.length_cons, List.length_cons, List.length_append]
    rfl

theorem Reads.group {e : Expr} (opening closing : Span) (ready : s.Ready)
    (reads : ∀ s₁ : State, s₁.Ready → s₁.table = s.table → s₁.pending = [] →
      s₁.Reads .assignment ts e table) :
    s.Reads .primary (⟨.openParen, opening⟩ :: (ts ++ [⟨.closeParen, closing⟩]))
      (e.withSpan (opening + closing)) table := by
  let s₁ : State :=
    { s with
      expecting := .operand
      pending := []
      enclosing := ⟨.group opening, s.pending⟩ :: s.enclosing
      consumed := s.consumed + 1 }
  have opened : s.feed ⟨.openParen, opening⟩ = (s₁, none) := by
    rw [feed_of_ready ready rfl]
    rfl
  obtain ⟨s', operand, inner, taken, held, rfl, -⟩ := reads s₁ (.inr (.inl rfl)) rfl rfl
  let e : Expr := (reduceAll operand inner).withSpan (opening + closing)
  have fed : s'.feed ⟨.closeParen, closing⟩ = (s.holding e [] table (ts.length + 2), none) := by
    rw [feed_terminator held rfl]
    simp only [feedTerminator, holding, s₁, List.append_nil]
    rw [take_of_ne_eof (t := ⟨.closeParen, closing⟩) _ nofun]
    simp only [e, List.nil_append]
    congr 2
    omega
  refine .of_settled (s.holding e [] table (ts.length + 2)) ?_ ?_
  · rw [takeAll?_cons_of_taken opened, takeAll?_append_of_taken taken,
      takeAll?_cons_of_taken fed]
    rfl
  · rw [settled_of_afterOperand rfl, List.length_cons, List.length_append]
    rfl

/-! ## Whole expressions and programs -/

mutual

-- By recursion on the derivation; a chain rule only changes the bound on the operations inside.

/-- Tokens that a category derives are read by every state that the category fits into. -/
theorem reads_of_derives : ∀ {c : Category} {t t' : VariableTable} {ts : List Token} {e : Expr},
    Derives c t ts e t' → ∀ s : State, s.Ready → s.table = t → Fits c s.pending →
    s.Reads c ts e t'
  | _, _, _, _, _, .sum derived, s, ready, table, fits =>
    (reads_of_derives derived s ready table (fits.mono (by decide))).loosen (by decide)
  | _, _, _, _, _, .assignment sign left right, s, ready, table, fits =>
    Reads.operation .assign sign rfl fits
      (reads_of_derives left s ready table (fits.mono (by decide)))
      (reads_of_derives right)
  | _, _, _, _, _, .product derived, s, ready, table, fits =>
    (reads_of_derives derived s ready table (fits.mono (by decide))).loosen (by decide)
  | _, _, _, _, _, .additive sign kind left right, s, ready, table, fits => by
    have readsLeft := reads_of_derives left s ready table fits
    have readsRight := reads_of_derives right
    cases kind with
    | plus => exact Reads.operation .plus sign rfl fits readsLeft readsRight
    | minus => exact Reads.operation .minus sign rfl fits readsLeft readsRight
  | _, _, _, _, _, .primary derived, s, ready, table, fits =>
    (reads_of_derives derived s ready table (fits.mono (by decide))).loosen (by decide)
  | _, _, _, _, _, .multiplicative sign kind left right, s, ready, table, fits => by
    have readsLeft := reads_of_derives left s ready table fits
    have readsRight := reads_of_derives right
    cases kind with
    | star => exact Reads.operation .star sign rfl fits readsLeft readsRight
    | slash => exact Reads.operation .slash sign rfl fits readsLeft readsRight
  | _, _, _, _, _, .number value span, s, ready, table, _ =>
    table ▸ Reads.number ready value span
  | _, _, _, _, _, .string raw span, s, ready, table, _ =>
    table ▸ Reads.string ready raw span
  | _, _, _, _, _, .name name span, s, ready, table, _ =>
    table ▸ Reads.name ready name span
  | _, _, _, _, _, .bareCall name span opening closing, s, ready, table, _ =>
    table ▸ Reads.bareCall ready name span opening closing
  | _, _, _, _, _, .call name span opening closing derived, s, ready, table, _ =>
    Reads.call opening closing ready
      (readsArguments_of_derives derived (s.counting 2) name span table)
  | _, _, _, _, _, .group opening closing derived, s, ready, table, _ =>
    Reads.group opening closing ready fun s₁ ready₁ table₁ empty =>
      reads_of_derives derived s₁ ready₁ (table₁.trans table) (empty ▸ Fits.nil _)

/-- Tokens that are derived as arguments are read inside every call. -/
theorem readsArguments_of_derives : ∀ {t t' : VariableTable} {ts : List Token} {es : List Expr},
    DerivesArguments t ts es t' → ∀ (s : State) (name : String) (span : Span), s.table = t →
    s.ReadsArguments name span ts es t'
  | _, _, _, _, .first derived, s, name, span, table =>
    .first (reads_of_derives derived (s.enter name span []) (.inr (.inr rfl)) table (Fits.nil _))
  | _, _, _, _, .next comma front last, s, name, span, table =>
    (readsArguments_of_derives front s name span table).next comma
      fun s₁ ready₁ table₁ empty =>
        reads_of_derives last s₁ ready₁ table₁ (empty ▸ Fits.nil _)

end

/-- The state after a whole program. -/
def finished (statements : List Expr) (table : VariableTable) (taken : Nat) : State :=
  ⟨.statement, [], [], statements, table, taken⟩

/-- A derived program is taken from beginning to end. -/
theorem takeAll?_of_derivesProgram {statements : List Expr}
    (derived : DerivesProgram ts statements table) :
    initial.takeAll? ts = some (finished statements table ts.length) := by
  induction derived with
  | empty => rfl
  | @statement t t' ts us statements e semicolon _ derived ih =>
    let s := finished statements t ts.length
    obtain ⟨s', operand, inner, taken, held, rfl, -⟩ :=
      reads_of_derives derived s (.inl rfl) rfl (Fits.nil _)
    have fed : s'.feed ⟨.semicolon, semicolon⟩ =
        (finished (statements ++ [reduceAll operand inner]) t' (ts.length + us.length + 1),
          none) := by
      rw [feed_terminator held rfl]
      simp only [feedTerminator, holding, s, finished, List.append_nil]
      rfl
    rw [takeAll?_append_of_taken ih, takeAll?_append_of_taken taken, takeAll?_cons_of_taken fed,
      List.length_append, List.length_append]
    rfl

end State

end Reckon.Parser
