import Reckon.Proofs.Lexemes
import Reckon.Proofs.Parsing.Soundness

/-!
# The parser accepts exactly the programs of the grammar

The row of tokens that the initial state takes up to a point between statements is a program, and
every program is such a row (`State.isProgram_iff`). With the end of the input, which is welcome
between statements only, this is the language of the whole parser.

Main statement: a source text is read as a program if and only if it has no lexical error and its
tokens are derived as that program; the number of tokens taken is then the number of tokens there
are (`Parsing.ofSource_eq_ok_iff`).
-/

namespace Reckon

open Grammar

namespace Parser.State

/-- The programs of the grammar are the rows of tokens taken up to a point between statements. -/
theorem isProgram_iff {ts : List Token} {program : Program}
    (inside : ∀ t ∈ ts, t.kind ≠ .eof) :
    IsProgram ts program ↔
      initial.takeAll? ts = some (finished program.statements program.table ts.length) := by
  constructor
  · intro derived
    exact takeAll?_of_derivesProgram derived
  · intro taken
    exact (read_of_takeAll? inside taken).derivesProgram rfl

theorem eq_finished_of_takeAll? {ts : List Token} {s : State} (inside : ∀ t ∈ ts, t.kind ≠ .eof)
    (taken : initial.takeAll? ts = some s) (between : s.expecting = .statement) :
    IsProgram ts ⟨s.statements, s.table⟩ ∧ s = finished s.statements s.table ts.length := by
  have derived := (read_of_takeAll? inside taken).derivesProgram between
  have again := takeAll?_of_derivesProgram derived
  rw [taken] at again
  exact ⟨derived, Option.some.inj again⟩

/-- The end of the input is taken between statements and nowhere else. -/
theorem feed_eof {s s' : State} (fed : s.feed Token.eof = (s', none)) :
    s.expecting = .statement ∧ s' = s := by
  have refused : ∀ (s : State) (e : Expr), s.expecting = .afterOperand e →
      s.feed Token.eof ≠ (s', none) := by
    intro s e held fed
    rw [feed_of_afterOperand held] at fed
    unfold feedAfterOperand feedTerminator at fed
    split at fed
    · next sign => cases sign
    · split at fed
      · split at fed <;> cases fed
      · cases fed
  cases expecting : s.expecting with
  | statement =>
    simp only [feed, expecting] at fed
    cases fed
    exact ⟨rfl, rfl⟩
  | operand =>
    simp only [feed, expecting] at fed
    cases fed
  | argument =>
    simp only [feed, expecting] at fed
    cases fed
  | afterName name span =>
    have notOpen : Token.eof.kind ≠ .openParen := by decide
    rw [← feed_settled notOpen] at fed
    have held : s.settled.expecting = .afterOperand (.var (s.table.resolve name).1 name span) := by
      simp only [settled, expecting]
    exact absurd fed (refused s.settled _ held)
  | afterOperand e => exact absurd fed (refused s e expecting)

end Parser.State

namespace Parsing

open Reckon.Parser Reckon.Parser.State

/-- A row of tokens is read to the end exactly if no failure follows it and it is a program. -/
theorem ofTokens_eq_ok_iff {failure? : Option SourceError} {ts : List Token} {program : Program}
    {table : VariableTable} {consumed : Nat} (inside : ∀ t ∈ ts, t.kind ≠ .eof) :
    ofTokens failure? .initial ts = ⟨.ok program, table, consumed⟩ ↔
      failure? = none ∧ IsProgram ts program ∧ table = program.table ∧ consumed = ts.length := by
  constructor
  · intro read
    cases taken : State.initial.takeAll? ts with
    | none =>
      obtain ⟨before, t, after, s₁, s₂, error, rfl, taken, refused⟩ :=
        exists_refused_of_takeAll?_eq_none taken
      rw [ofTokens_of_refused taken refused] at read
      cases read
    | some s =>
      rw [ofTokens_of_all_taken taken] at read
      cases failure? with
      | some error => cases read
      | none =>
        simp only [ofTokens, ofOutcomes] at read
        split at read
        · next s' fed =>
          obtain ⟨between, rfl⟩ := feed_eof fed
          obtain ⟨derived, ended⟩ := eq_finished_of_takeAll? inside taken between
          cases read
          exact ⟨rfl, derived, rfl, congrArg State.consumed ended⟩
        · cases read
  · rintro ⟨rfl, derived, rfl, rfl⟩
    have taken := (isProgram_iff inside).mp derived
    rw [ofTokens_of_all_taken taken]
    rfl

/-- A text that is read as a program has no lexical error, and its tokens are derived as that
program; and conversely. -/
theorem result_eq_ok_iff {source : String} {program : Program} :
    (ofSource source).result = .ok program ↔
      Lexer.failureOf? source = none ∧ IsProgram (Lexer.tokensOf source) program := by
  have known : ∀ t ∈ Lexer.tokensOf source, t.kind ≠ .eof :=
    fun t => Lexer.kind_ne_eof_of_mem_tokensOf
  rw [ofSource_eq]
  constructor
  · intro parsed
    have read : ofTokens (Lexer.failureOf? source) .initial (Lexer.tokensOf source) =
        ⟨.ok program, (ofTokens (Lexer.failureOf? source) .initial (Lexer.tokensOf source)).table,
          (ofTokens (Lexer.failureOf? source) .initial (Lexer.tokensOf source)).consumed⟩ := by
      rw [← parsed]
    obtain ⟨clean, derived, -⟩ := (ofTokens_eq_ok_iff known).mp read
    exact ⟨clean, derived⟩
  · rintro ⟨clean, derived⟩
    rw [(ofTokens_eq_ok_iff known).mpr ⟨clean, derived, rfl, rfl⟩]

/-- The language of the parser: a source text is read as a program exactly if it has no lexical
error and its tokens, blanks left out, are derived as that program, whose statements and variables
are those of the derivation. All of its tokens have then been taken. -/
theorem ofSource_eq_ok_iff (source : String) (program : Program) (table : VariableTable)
    (consumed : Nat) :
    ofSource source = ⟨.ok program, table, consumed⟩ ↔
      Lexer.failureOf? source = none ∧ IsProgram (Lexer.tokensOf source) program ∧
        table = program.table ∧ consumed = (Lexer.tokensOf source).length := by
  rw [ofSource_eq]
  exact ofTokens_eq_ok_iff fun t => Lexer.kind_ne_eof_of_mem_tokensOf

end Parsing

end Reckon
