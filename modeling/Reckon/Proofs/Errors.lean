import Reckon.Proofs.Lexing.Tiling
import Reckon.Proofs.Lowerability
import Reckon.Proofs.Parsing.FirstError
import Reckon.Proofs.Parsing.VariableCount
import Reckon.Proofs.Remarks

/-!
# The errors of a source text

What is wrong with a program is an error at a place in it, with one exception: a row of more than
4300 digits is not read at all, whatever it denotes (`Lexer.outcome_readNumber`). Lowering a tree of
a source text meets no other failure, as long as the offsets of its variables can be written
(`Code.placed_lower`), which they can in every text whose length is an index.

Main statement: which errors a source text can have, when a lexical error is the one reported, and
what the lexer makes of each row of digits (`Compilation.errors_of_source`).
-/

namespace Reckon

/-! ## Rows of digits -/

namespace Lexer

/-- What becomes of a row of digits: up to 4300 of them are a number, which is a token if it is not
above the greatest literal and an error otherwise. -/
def numeralOutcome (digits : List Char) (span : Span) : Outcome :=
  if 4300 < digits.length then .failure (.numeral ⟨digits.length⟩) span
  else if 2 ^ 31 - 1 < Nat.ofDigitChars 10 digits 0 then
    .failure (.compile ⟨.integerOverflow (String.ofList digits) (2 ^ 31 - 1), span⟩) span
  else .token ⟨.number (Nat.ofDigitChars 10 digits 0), span⟩

theorem outcome_readNumber {digits : List Char} (decimal : ∀ c ∈ digits, c.isDigit = true)
    (span : Span) : (readNumber digits).outcome span = numeralOutcome digits span := by
  by_cases long : 4300 < digits.length
  · have unread : Text.readNatural digits = .error ⟨digits.length⟩ := if_neg (Nat.not_le.mpr long)
    rw [readNumber, unread, numeralOutcome, if_pos long]
    rfl
  · have short : digits.length ≤ Text.digitLimit := Nat.not_lt.mp long
    have read : Text.readNatural digits = .ok (Nat.ofDigitChars 10 digits 0) := by
      rw [Text.readNatural, if_pos short, Text.naturalValue_eq_ofDigitChars decimal]
    rw [readNumber, read, numeralOutcome, if_neg long]
    by_cases large : 2 ^ 31 - 1 < Nat.ofDigitChars 10 digits 0
    · rw [if_pos large]
      exact congrArg (Reading.outcome span) (if_pos large)
    · rw [if_neg large]
      exact congrArg (Reading.outcome span) (if_neg large)

/-- The outcome of a piece of text with what stands after it: the piece is a whole row of digits,
and the outcome is what becomes of them. -/
structure Outcome.Numeral (o : Outcome) (text after : List Char) : Prop where
  decimal : ∀ c ∈ text, c.isDigit = true
  ends : ∀ c ∈ after.head?, c.isDigit = false
  outcome : o = numeralOutcome text o.span

theorem span_outcome (reading : Reading) (span : Span) : (reading.outcome span).span = span := by
  cases reading <;> rfl

/-- A piece of the text that begins with a digit is the whole row of digits that stands there. -/
theorem numeral_of_scan {first : Char} {rest : List Char} (span : Span)
    (digit : ∃ c ∈ (scan first rest).text.head?, c.isDigit = true) :
    ((scan first rest).reading.outcome span).Numeral (scan first rest).text
      (scan first rest).rest := by
  have head : (scan first rest).text.head? = some first := by
    have same := congrArg List.head? (scanned first rest).append
    rwa [List.head?_append_of_ne_nil _ (text_ne_nil first rest)] at same
  rw [head] at digit
  obtain ⟨c, same, digit⟩ := digit
  cases same
  rw [show scan first rest = run Text.isAsciiDigit readNumber first rest from scan_digit digit]
  refine ⟨forall_mem_run digit, run_ends Text.isAsciiDigit readNumber, ?_⟩
  rw [span_outcome]
  exact outcome_readNumber (forall_mem_run digit) span

/-- Every outcome of a text stands for a piece of it. -/
theorem exists_numeral_of_mem_outcomes {source : String} {l : Lexer} {before : List Char}
    (whole : source.toList = before ++ l.rest) (position : before.length = l.position)
    {o : Outcome} (member : o ∈ l.outcomes) :
    ∃ front text after, source.toList = front ++ (text ++ after) ∧ text ≠ [] ∧
      o.span = ⟨front.length, (front.length + text.length : Nat)⟩ ∧
      ((∃ c ∈ text.head?, c.isDigit = true) → o.Numeral text after) := by
  obtain ⟨front, first, rest, split, rfl⟩ := exists_scan_of_mem_outcomes whole position member
  refine ⟨front, _, _, ?_, text_ne_nil first rest, span_outcome _ _, numeral_of_scan _⟩
  rw [split, (scanned first rest).append]

theorem exists_covers_of_mem_outcomes {l : Lexer} {o : Outcome} (member : o ∈ l.outcomes) :
    ∃ text, o.Covers text := by
  fun_induction outcomes l with
  | case1 l ended => cases member
  | case2 l outcome l' called ih =>
    rcases List.mem_cons.mp member with rfl | later
    · obtain ⟨text, -, -, -, -, covers⟩ := exists_piece_of_next? called
      exact ⟨text, covers⟩
    · exact ih later

/-- The first lexical error of a text is an error at a place, or a row of too many digits. -/
theorem failureOf?_cases {source : String} {error : SourceError}
    (failed : failureOf? source = some error) :
    (∃ e, error = .compile e ∧ e.cause.isLexical = true) ∨ ∃ long, error = .numeral long := by
  obtain ⟨span, member⟩ := Outcome.mem_of_failure? failed
  obtain ⟨text, covers⟩ := exists_covers_of_mem_outcomes member
  cases covers with
  | wrong lexical => exact .inl ⟨_, rfl, lexical⟩
  | tooLong => exact .inr ⟨_, rfl⟩

end Lexer

/-! ## Reading -/

namespace Parsing

open Reckon.Parser Reckon.Parser.State Grammar

variable {source : String} {error : SourceError}

/-- An error in reading is an error at a place, or a row of too many digits. -/
theorem error_of_ofSource (failed : (ofSource source).result = .error error) :
    (∃ e, error = .compile e) ∨
      Lexer.failureOf? source = some error ∧ ∃ long, error = .numeral long := by
  cases refused_of_ofSource failed with
  | token => exact .inl ⟨_, rfl⟩
  | lexical first viable =>
    rcases Lexer.failureOf?_cases first with ⟨e, same, -⟩ | long
    · exact .inl ⟨e, same⟩
    · exact .inr ⟨first, long⟩
  | early => exact .inl ⟨_, rfl⟩

/-- A lexical error is reported exactly if the tokens before it could go on to a program. -/
theorem reports_lexical_iff (lexical : Lexer.failureOf? source = some error) :
    (ofSource source).result = .error error ↔ Viable (Lexer.tokensOf source) := by
  constructor
  · intro failed
    cases refused_of_ofSource failed with
    | token split blame viable impossible =>
      -- A token is refused for a cause that is no lexical one.
      exact absurd (Lexer.isLexical_of_failureOf? lexical)
        (Cause.not_isLexical_of_isSyntactic blame.syntactic)
    | lexical first viable => exact viable
    | early none _ _ _ =>
      rw [none] at lexical
      cases lexical
  · intro viable
    obtain ⟨s, taken⟩ := (viable_iff fun t => Lexer.kind_ne_eof_of_mem_tokensOf).mp viable
    rw [ofSource_eq, ofTokens_of_all_taken taken, lexical]
    rfl

end Parsing

/-! ## Code -/

namespace Code

/-- The emission fails, if it does, at a place, or because a number is too long to be written, which
needs something to be large. -/
def Emission.Placed (large : Prop) (a : Emission) : Prop :=
  ∀ error, a.failure? = some error → (∃ e, error = .compile e) ∨ error = .unwritable ∧ large

variable {large : Prop}

namespace Emission

theorem placed_of_complete {a : Emission} (complete : a.failure? = none) : a.Placed large := by
  intro error failed
  cases complete.symm.trans failed

theorem placed_fail (cause : Cause) (span : Span) : (fail cause span).Placed large := by
  intro error failed
  cases failed
  exact .inl ⟨_, rfl⟩

theorem placed_spell {number : Int} (line : Line)
    (writable : ¬ large → Text.isWritable number = true) : (spell number line).Placed large := by
  unfold spell
  split
  · exact placed_of_complete rfl
  · next unwritable =>
    intro error failed
    cases failed
    exact .inr ⟨rfl, Classical.not_not.mp fun small => unwritable (writable small)⟩

theorem Placed.append {a b : Emission} (first : a.Placed large) (second : b.Placed large) :
    (a ++ b).Placed large := by
  cases complete : a.failure? with
  | some error =>
    rw [append_of_failure?_eq_some complete]
    exact first
  | none =>
    rw [append_of_failure?_eq_none complete]
    exact second

end Emission

open Emission

theorem placed_lowerArguments {pool : List String} {arguments : List Expr}
    (placed : ∀ argument ∈ arguments, ∀ depth, (lower pool depth argument).Placed large)
    (depth : Nat) :
    (lowerArguments pool depth arguments).Placed large := by
  induction arguments generalizing depth with
  | nil => exact placed_of_complete rfl
  | cons argument rest ih =>
    obtain ⟨here, others⟩ := List.forall_mem_cons.mp placed
    have later := ih others (depth + 1)
    by_cases literal : ∃ raw span, argument = .string raw span
    · obtain ⟨raw, span, rfl⟩ := literal
      rw [lowerArguments]
      exact .append (placed_of_complete rfl) later
    · rw [lowerArguments_cons fun raw span same => literal ⟨raw, span, same⟩]
      exact .append (.append (here depth) (placed_of_complete rfl)) later

section Lowering

variable {size : Nat} (writable : ¬ large → ∀ index : Nat, index < size →
  Text.isWritable (slotOffset index) = true)

include writable

theorem placed_store {target : Expr} (sourced : target.Sourced size) :
    (store target).Placed large := by
  cases sourced with
  | var name span inside =>
    rw [store, reach]
    exact placed_spell _ fun small => writable small _ inside
  | number | string | binary | call => exact placed_fail _ _

/-- Lowering a tree of a source text fails, if it does, at a place, as long as its offsets can be
written. -/
theorem placed_lower {e : Expr} (sourced : e.Sourced size) (pool : List String) (depth : Nat) :
    (lower pool depth e).Placed large := by
  induction sourced generalizing depth with
  | number span bounded =>
    rw [lower]
    refine placed_spell _ fun _ => Text.isWritable_of_lt ?_
    unfold maxLiteral at bounded
    omega
  | string => exact placed_fail _ _
  | var name span inside =>
    rw [lower, reach]
    exact placed_spell _ fun small => writable small _ inside
  | @binary operator left right operatorSpan span known target _ ihLeft ihRight =>
    by_cases assigns : operator = .assign
    · subst assigns
      rw [lower]
      exact .append (ihRight depth) (placed_store writable target)
    · cases combined : combine? operator with
      | none =>
        rw [lower, combined]
        · exact placed_fail _ _
        · exact assigns
      | some combination =>
        rw [lower_binary assigns combined]
        exact .append (.append (.append (ihLeft depth) (placed_of_complete rfl))
          (ihRight (depth + 1))) (placed_of_complete rfl)
  | call span isName _ ih =>
    rw [lower]
    dsimp only
    split
    · exact placed_fail _ _
    · exact .append (.append (placed_of_complete rfl) (placed_lowerArguments ih _))
        (placed_of_complete rfl)

theorem placed_lowerStatements {statements : List Expr}
    (sourced : ∀ e ∈ statements, e.Sourced size) (comments : Bool) (pool : List String)
    (number : Nat) : (lowerStatements comments pool number statements).Placed large := by
  induction statements generalizing number with
  | nil => exact placed_of_complete rfl
  | cons statement rest ih =>
    obtain ⟨here, others⟩ := List.forall_mem_cons.mp sourced
    obtain ⟨p, printed, -⟩ := here.printable
    rw [lowerStatements]
    refine .append (.append ?_ (placed_lower writable here pool 0)) (ih others (number + 1))
    rw [announce, printed]
    split <;> exact placed_of_complete rfl

end Lowering

/-- Remarks cause no failure. -/
theorem failure?_lowerStatements_of_printable {statements : List Expr}
    (printable : ∀ e ∈ statements, e.Printable) (comments : Bool) (pool : List String) :
    (lowerStatements comments pool 1 statements).failure? =
      (statements.flatMap (violations Text.isWritable)).head? := by
  rw [← failure?_lowerStatements pool 1]
  cases comments with
  | false => rfl
  | true =>
    have same := congrArg Emission.failure? (withoutRemarks_lowerStatements printable pool 1)
    exact same

/-- Generating the code of a source text fails, if it does, at a place, as long as the length of the
text is an index. -/
theorem placed_generate {source : String} {program : Program} {options : Options}
    {error : SourceError} (parsed : (Parsing.ofSource source).result = .ok program)
    (failed : (generate options program).result = .error error) :
    (∃ e, error = .compile e) ∨ error = .unwritable ∧ indexLimit ≤ source.length := by
  have few : ¬ indexLimit ≤ source.length → program.table.size + 8 ≤ 2 ^ 62 :=
    fun short => Program.size_table_lt parsed (Int.not_le.mp short)
  have writable : ¬ indexLimit ≤ source.length → ∀ index : Nat, index < program.table.size →
      Text.isWritable (slotOffset index) = true := by
    intro short index inside
    have bound := few short
    refine Text.isWritable_of_lt ?_
    unfold slotOffset wordSize
    omega
  have placed := placed_lowerStatements writable (Program.sourced_of_ofSource parsed)
    options.comments (pool program.statements) 1
  rw [generate_eq_lowered] at failed
  unfold lowered at failed
  dsimp only at failed
  split at failed
  · next stopped =>
    cases failed
    exact placed _ stopped
  · split at failed
    · cases failed
    · next unwritable =>
      cases failed
      refine .inr ⟨rfl, Int.not_lt.mp fun short => unwritable (Text.isWritable_of_lt ?_)⟩
      have bound := few (Int.not_le.mpr short)
      unfold frameSize wordSize stackAlignment
      omega

end Code

namespace Compilation

open Grammar Lexer

variable {options : Code.Options} {source : String} {error : SourceError}

theorem ofSource_of_error (failed : (Parsing.ofSource source).result = .error error) :
    ofSource options source = .error error := by
  unfold ofSource ofSourceLogged
  dsimp only
  rw [failed]

/-- An error of a compilation is one of the reading or one of the generated code. -/
theorem stage_of_error (failed : ofSource options source = .error error) :
    (Parsing.ofSource source).result = .error error ∨
      ∃ program, (Parsing.ofSource source).result = .ok program ∧
        (Code.generate options program).result = .error error := by
  unfold ofSource ofSourceLogged at failed
  dsimp only at failed
  split at failed
  · next parsed =>
    cases failed
    exact .inl parsed
  · next program parsed =>
    split at failed
    · next generated =>
      cases failed
      exact .inr ⟨program, parsed, generated⟩
    · cases failed

/-- A text that begins with a row of too many digits is refused, whatever the digits denote. -/
theorem ofSource_of_long_numeral {c : Char} {digits rest : List Char}
    (decimal : ∀ d ∈ c :: digits, d.isDigit = true) (long : 4300 < (c :: digits).length)
    (ends : ∀ d ∈ rest.head?, d.isDigit = false) (options : Code.Options) :
    ofSource options (String.ofList ((c :: digits) ++ rest)) =
      .error (.numeral ⟨(c :: digits).length⟩) := by
  obtain ⟨digit, continues⟩ := List.forall_mem_cons.mp decimal
  have scanned : scan c (digits ++ rest) =
      ⟨readNumber (c :: digits), c :: digits, rest⟩ := by
    rw [scan_digit digit]
    exact run_append readNumber continues ends
  have stop : (Lexer.ofSource (String.ofList ((c :: digits) ++ rest))).next? =
      some (.failure (.numeral ⟨(c :: digits).length⟩) ⟨0, (c :: digits).length⟩,
        ⟨rest, 0, (c :: digits).length⟩) := by
    rw [Lexer.ofSource, String.toList_ofList, next?, List.cons_append]
    dsimp only
    rw [scanned, outcome_readNumber decimal, numeralOutcome, if_pos long]
    simp
  have outcomes := outcomes_of_next? stop
  refine ofSource_of_error ?_
  rw [Parsing.ofSource_eq, failureOf?, tokensOf, outcomes]
  rfl

/-- The errors of a source text, under any options.

* An error is one at a place in the text; or it is the first lexical error of the text, and this is
  a row of too many digits; or a number of the code is too long to be written, which needs a text
  longer than any index.
* The first lexical error is the one reported exactly if the tokens before it could go on to a
  program.
* A piece of the text that begins with a digit is the whole row of digits that stands there. It is a
  number token with the value that the digits denote if there are at most 4300 of them and the value
  is at most 2 ^ 31 - 1; an error that covers the row if there are at most 4300 of them and the
  value is greater; and a row of too many digits otherwise. -/
theorem errors_of_source (options : Code.Options) (source : String) :
    (∀ error, ofSource options source = .error error →
      (∃ e, error = .compile e) ∨
      (failureOf? source = some error ∧ ∃ long, error = .numeral long) ∨
      (error = .unwritable ∧ indexLimit ≤ source.length)) ∧
    (∀ error, failureOf? source = some error →
      (ofSource options source = .error error ↔ Viable (tokensOf source))) ∧
    ∀ o ∈ (Lexer.ofSource source).outcomes, ∃ before text after,
      source.toList = before ++ (text ++ after) ∧ text ≠ [] ∧
        o.span = ⟨before.length, (before.length + text.length : Nat)⟩ ∧
        ((∃ c ∈ text.head?, c.isDigit = true) → o.Numeral text after) := by
  refine ⟨fun error failed => ?_, fun error lexical => ?_, fun o member => ?_⟩
  · rcases stage_of_error failed with reading | ⟨program, parsed, generated⟩
    · rcases Parsing.error_of_ofSource reading with placed | long
      · exact .inl placed
      · exact .inr (.inl long)
    · rcases Code.placed_generate parsed generated with placed | endless
      · exact .inl placed
      · exact .inr (.inr endless)
  · rw [← Parsing.reports_lexical_iff lexical]
    refine ⟨fun failed => ?_, ofSource_of_error⟩
    rcases stage_of_error failed with reading | ⟨program, parsed, -⟩
    · exact reading
    · obtain ⟨clean, -⟩ := Parsing.result_eq_ok_iff.mp parsed
      cases clean.symm.trans lexical
  · exact exists_numeral_of_mem_outcomes (List.nil_append source.toList).symm rfl member

/-- The number one with 4300 zeros before it is no literal, and the error is none at a place. -/
theorem error_of_leading_zeros :
    let numeral := List.replicate 4300 '0' ++ ['1']
    Nat.ofDigitChars 10 numeral 0 = 1 ∧
      ofSource ⟨false, none⟩ (String.ofList (numeral ++ [';'])) = .error (.numeral ⟨4301⟩) := by
  intro numeral
  have zeros : numeral = '0' :: (List.replicate 4299 '0' ++ ['1']) := by
    rw [← List.cons_append, ← List.replicate_succ]
  have length : numeral.length = 4301 := by
    rw [List.length_append, List.length_replicate, List.length_singleton]
  have decimal : ∀ d ∈ numeral, d.isDigit = true := by
    intro d member
    rcases List.mem_append.mp member with zero | one
    · rw [(List.mem_replicate.mp zero).2]
      rfl
    · rw [List.mem_singleton.mp one]
      rfl
  have value : ∀ n, Nat.ofDigitChars 10 (List.replicate n '0' ++ ['1']) 0 = 1 := by
    intro n
    rw [Nat.ofDigitChars_append, Nat.ofDigitChars_replicate_zero, Nat.mul_zero]
    rfl
  refine ⟨value 4300, ?_⟩
  rw [zeros] at decimal length ⊢
  rw [ofSource_of_long_numeral decimal (by omega) (by simp) ⟨false, none⟩, length]

end Compilation

end Reckon
