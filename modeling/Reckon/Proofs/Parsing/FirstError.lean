import Mathlib
import Reckon.Proofs.Parsing.Acceptance

/-!
# The first error wins

Every state that the parser reaches can still be brought to the end of a program: an operand is put
where one is missing, the open parentheses are closed, and a semicolon ends the statement
(`State.exists_completion`). So the rows of tokens that the parser takes are exactly those that can
be extended to a program (`State.viable_iff`), and a token is refused at the earliest moment at
which no program is possible any more. `Parsing.Refused` lists the ways in which a text is refused.

Main statement: an error of the parser stands at the first token that makes the tokens impossible,
at the end of the input only if nothing but the end is wrong, and a lexical error is reported
exactly if the tokens before it are still possible (`Parsing.first_error`).
-/

namespace Reckon

open Grammar

namespace Parser.State

/-! ## Every reachable state can be completed -/

/-- A token that stands nowhere in particular. -/
def loose (kind : Token.Kind) : Token := ⟨kind, .eof⟩

/-- Closing parentheses, and a semicolon. -/
def closing : Nat → List Token
  | 0 => [loose .semicolon]
  | n + 1 => loose .closeParen :: closing n

theorem kind_of_mem_closing {n : Nat} {t : Token} (member : t ∈ closing n) :
    t.kind = .closeParen ∨ t.kind = .semicolon := by
  induction n with
  | zero =>
    rw [List.mem_singleton.mp member]
    exact .inr rfl
  | succ n ih =>
    rcases List.mem_cons.mp member with rfl | later
    · exact .inl rfl
    · exact ih later

/-- A closing parenthesis is welcome after an operand in any enclosure. -/
theorem exists_feed_closeParen {s : State} {e : Expr} {enclosure : Enclosure}
    {enclosing : List Enclosure} (held : s.expecting = .afterOperand e)
    (enclosed : s.enclosing = enclosure :: enclosing) :
    ∃ s' e', s.feed (loose .closeParen) = (s', none) ∧ s'.expecting = .afterOperand e' ∧
      s'.enclosing = enclosing := by
  have fed := feed_of_afterOperand held (loose .closeParen)
  obtain ⟨opener, outside⟩ := enclosure
  cases opener with
  | group opening =>
    simp only [feedAfterOperand, loose, operator?, isTerminator, feedTerminator, enclosed] at fed
    exact ⟨_, _, fed, rfl, rfl⟩
  | call name span arguments =>
    simp only [feedAfterOperand, loose, operator?, isTerminator, feedTerminator, enclosed] at fed
    exact ⟨_, _, fed, rfl, rfl⟩

theorem exists_closed {s : State} {e : Expr} (held : s.expecting = .afterOperand e) :
    ∃ s', s.takeAll? (closing s.enclosing.length) = some s' ∧ s'.expecting = .statement := by
  induction enclosed : s.enclosing generalizing s e with
  | nil =>
    have fed := feed_of_afterOperand held (loose .semicolon)
    simp only [feedAfterOperand, loose, operator?, isTerminator, feedTerminator, enclosed] at fed
    exact ⟨_, takeAll?_cons_of_taken fed [], rfl⟩
  | cons enclosure enclosing ih =>
    obtain ⟨s₁, e', fed, held', enclosed'⟩ := exists_feed_closeParen held enclosed
    obtain ⟨s', taken, between⟩ := ih held' enclosed'
    refine ⟨s', ?_, between⟩
    rw [List.length_cons, closing, takeAll?_cons_of_taken fed]
    exact taken

theorem takeAll?_settled {s : State} {t : Token} (closed : t.kind ≠ .openParen) (ts : List Token) :
    s.settled.takeAll? (t :: ts) = s.takeAll? (t :: ts) := by
  rw [takeAll?, takeAll?, feed_settled closed]

theorem takeAll?_settled_closing (s : State) (n : Nat) :
    s.settled.takeAll? (closing n) = s.takeAll? (closing n) := by
  cases n with
  | zero => exact takeAll?_settled (t := loose .semicolon) nofun []
  | succ n => exact takeAll?_settled (t := loose .closeParen) nofun (closing n)

/-- From every state some row of tokens leads to the end of a statement. -/
theorem exists_completion (s : State) :
    ∃ more s', (∀ t ∈ more, t.kind ≠ .eof) ∧ s.takeAll? more = some s' ∧
      s'.expecting = .statement := by
  have inside : ∀ n, ∀ t ∈ closing n, t.kind ≠ .eof := by
    intro n t member
    rcases kind_of_mem_closing member with kind | kind
    · rw [kind]
      exact nofun
    · rw [kind]
      exact nofun
  -- Where an operand is missing a number is put; a name that no parenthesis follows is a variable.
  by_cases ready : s.Ready
  · let s₁ := s.holding (.number 0 .eof) [] s.table 1
    have fed : s.feed (loose (.number 0)) = (s₁, none) := by
      rw [feed_of_ready ready rfl]
      rfl
    obtain ⟨s', taken, between⟩ := exists_closed (s := s₁) rfl
    refine ⟨loose (.number 0) :: closing s₁.enclosing.length, s', ?_, ?_, between⟩
    · intro t member
      rcases List.mem_cons.mp member with rfl | later
      · exact nofun
      · exact inside _ t later
    · rw [takeAll?_cons_of_taken fed]
      exact taken
  · have held : ∃ e, s.settled.expecting = .afterOperand e := by
      unfold settled
      cases expecting : s.expecting with
      | statement => exact absurd (.inl expecting) ready
      | operand => exact absurd (.inr (.inl expecting)) ready
      | argument => exact absurd (.inr (.inr expecting)) ready
      | afterName name span => exact ⟨_, rfl⟩
      | afterOperand e => exact ⟨e, expecting⟩
    obtain ⟨e, held⟩ := held
    obtain ⟨s', taken, between⟩ := exists_closed held
    rw [takeAll?_settled_closing] at taken
    exact ⟨closing s.settled.enclosing.length, s', inside _, taken, between⟩

/-- What can be extended to a program is what the parser takes. -/
theorem viable_iff {ts : List Token} (inside : ∀ t ∈ ts, t.kind ≠ .eof) :
    Viable ts ↔ ∃ s, initial.takeAll? ts = some s := by
  constructor
  · rintro ⟨more, program, derived⟩
    have taken := takeAll?_of_derivesProgram derived
    rw [takeAll?_append] at taken
    obtain ⟨s, here, -⟩ := Option.bind_eq_some_iff.mp taken
    exact ⟨s, here⟩
  · rintro ⟨s, taken⟩
    obtain ⟨more, s', insideMore, completed, between⟩ := exists_completion s
    have all : ∀ t ∈ ts ++ more, t.kind ≠ .eof := by
      intro t member
      rcases List.mem_append.mp member with first | later
      · exact inside t first
      · exact insideMore t later
    have whole : initial.takeAll? (ts ++ more) = some s' := by
      rw [takeAll?_append_of_taken taken]
      exact completed
    exact ⟨more, ⟨s'.statements, s'.table⟩, (read_of_takeAll? all whole).derivesProgram between⟩

/-! ## What an error of the parser says -/

/-- The error is one of the parser's, about the token, and says that the input has ended exactly if
the token does. -/
structure Blame (t : Token) (error : CompileError) : Prop where
  span : error.span = t.span
  syntactic : error.cause.isSyntactic = true
  ending : error.cause.isEnding = true ↔ t.kind = .eof

/-- An error of the step is about the token. -/
def Blames (t : Token) (step : Step) : Prop :=
  ∀ error, step.2 = some error → Blame t error

variable {s : State} {t : Token}

theorem blames_take (s : State) (t : Token) (expecting : Expecting) :
    Blames t (s.take t expecting) :=
  nofun

theorem blames_refuse {cause : Cause} (syntactic : cause.isSyntactic = true)
    (ending : cause.isEnding = true ↔ t.kind = .eof) : Blames t (s.refuse t cause) := by
  intro error same
  cases same
  exact ⟨rfl, syntactic, ending⟩

theorem blames_reject {cause : Cause} (syntactic : cause.isSyntactic = true)
    (ending : cause.isEnding = true ↔ t.kind = .eof) : Blames t (s.reject t cause) := by
  intro error same
  cases same
  exact ⟨rfl, syntactic, ending⟩

theorem blames_feedOperand (s : State) (t : Token) : Blames t (s.feedOperand t) := by
  unfold feedOperand
  split
  · exact blames_take _ _ _
  · exact blames_take _ _ _
  · exact blames_take _ _ _
  · exact blames_take _ _ _
  · next ended => exact blames_reject rfl (iff_of_true rfl ended)
  · next goes => exact blames_reject rfl (iff_of_false Bool.false_ne_true goes)

theorem blames_feedTerminator (s : State) (operand : Expr) (t : Token) :
    Blames t (s.feedTerminator operand t) := by
  unfold feedTerminator
  split
  · split
    · exact blames_take _ _ _
    · next ended => exact blames_reject rfl (iff_of_true rfl ended)
    · next goes => exact blames_reject rfl (iff_of_false Bool.false_ne_true goes)
  · split
    · exact blames_take _ _ _
    · next ended => exact blames_reject rfl (iff_of_true rfl ended)
    · next goes => exact blames_reject rfl (iff_of_false Bool.false_ne_true goes)
  · split
    · exact blames_take _ _ _
    · exact blames_take _ _ _
    · next ended => exact blames_reject rfl (iff_of_true rfl ended)
    · next goes => exact blames_reject rfl (iff_of_false Bool.false_ne_true goes)

theorem blames_feedAfterOperand (s : State) (operand : Expr) (t : Token) :
    Blames t (s.feedAfterOperand operand t) := by
  unfold feedAfterOperand
  split
  · exact blames_take _ _ _
  · split
    · exact blames_feedTerminator _ _ _
    · next goes =>
      refine blames_refuse rfl (iff_of_false Bool.false_ne_true fun ended => goes ?_)
      rw [ended]
      rfl

/-- An error of the parser is about the token that it was fed. -/
theorem blames_feed (s : State) (t : Token) : Blames t (s.feed t) := by
  unfold feed
  split
  · split
    · exact nofun
    · exact blames_feedOperand _ _
  · exact blames_feedOperand _ _
  · unfold feedArgument
    split
    · exact blames_take _ _ _
    · exact blames_feedOperand _ _
  · unfold feedAfterName
    split
    · exact blames_take _ _ _
    · exact blames_feedAfterOperand _ _ _
  · exact blames_feedAfterOperand _ _ _

end Parser.State

/-! ## Errors of whole texts -/

namespace Parsing

open Reckon.Parser Reckon.Parser.State

/-- How a text is refused: a token makes the tokens up to it impossible, the lexer fails after
tokens that could go on to a program, or such tokens end too early. -/
inductive Refused (source : String) : SourceError → Prop
  | token {before after : List Token} {t : Token} {e : CompileError} :
    Lexer.tokensOf source = before ++ t :: after → Blame t e → Viable before →
    ¬ Viable (before ++ [t]) → Refused source (.compile e)
  | lexical {error : SourceError} : Lexer.failureOf? source = some error →
    Viable (Lexer.tokensOf source) → Refused source error
  | early {e : CompileError} : Lexer.failureOf? source = none → Blame Token.eof e →
    Viable (Lexer.tokensOf source) → (¬ ∃ program, IsProgram (Lexer.tokensOf source) program) →
    Refused source (.compile e)

/-- Tokens that are all taken but cannot end there are no program. -/
theorem not_isProgram_of_refused {ts : List Token} {s s' : State} {e : CompileError}
    (inside : ∀ t ∈ ts, t.kind ≠ .eof) (taken : State.initial.takeAll? ts = some s)
    (refused : s.feed Token.eof = (s', some e)) : ¬ ∃ program, IsProgram ts program := by
  rintro ⟨program, derived⟩
  have accepted := (isProgram_iff inside).mp derived
  rw [taken] at accepted
  cases accepted
  cases refused

/-- A token that is refused makes the tokens up to it impossible. -/
theorem not_viable_of_refused {before : List Token} {t : Token} {s s' : State} {e : CompileError}
    (inside : ∀ u ∈ before ++ [t], u.kind ≠ .eof) (taken : State.initial.takeAll? before = some s)
    (refused : s.feed t = (s', some e)) : ¬ Viable (before ++ [t]) := by
  rw [viable_iff inside, takeAll?_append_of_taken taken, takeAll?, refused]
  rintro ⟨_, impossible⟩
  cases impossible

/-- A text that is not read is refused in one of these ways. -/
theorem refused_of_ofSource {source : String} {error : SourceError}
    (failed : (ofSource source).result = .error error) : Refused source error := by
  have inside : ∀ t ∈ Lexer.tokensOf source, t.kind ≠ .eof :=
    fun t => Lexer.kind_ne_eof_of_mem_tokensOf
  rw [ofSource_eq] at failed
  cases taken : State.initial.takeAll? (Lexer.tokensOf source) with
  | none =>
    obtain ⟨before, t, after, s, s', e, split, taken, refused⟩ :=
      exists_refused_of_takeAll?_eq_none taken
    rw [split, ofTokens_of_refused taken refused] at failed
    cases failed
    have row : ∀ u ∈ before ++ [t], u.kind ≠ .eof := by
      intro u member
      refine inside u ?_
      rw [split, List.append_cons]
      exact List.mem_append_left _ member
    have viable : Viable before :=
      (viable_iff fun u member => row u (List.mem_append_left _ member)).mpr ⟨s, taken⟩
    exact .token split (blames_feed s t e (by rw [refused])) viable
      (not_viable_of_refused row taken refused)
  | some s =>
    have viable := (viable_iff inside).mpr ⟨s, taken⟩
    rw [ofTokens_of_all_taken taken] at failed
    cases lexical : Lexer.failureOf? source with
    | some first =>
      rw [lexical] at failed
      cases failed
      exact .lexical lexical viable
    | none =>
      rw [lexical] at failed
      simp only [ofTokens, ofOutcomes] at failed
      split at failed
      · cases failed
      · next s' e fed =>
        cases failed
        exact .early lexical (blames_feed s Token.eof e (by rw [fed])) viable
          (not_isProgram_of_refused inside taken fed)

/-- What a source text's error says about its tokens, those before the first lexical error:

* an error of the parser at a token stands at the one token that makes them impossible;
* an error of the parser at the end of the input means that the text has no lexical error and that
  its tokens could go on to a program but are none;
* a lexical error is the first of the text, and the tokens before it could go on to a program;
* and if they could, that error is the one reported. -/
theorem first_error (source : String) :
    (∀ e : CompileError, (ofSource source).result = .error (.compile e) →
      e.cause.isSyntactic = true → e.span ≠ .eof →
      ∃ before t after, Lexer.tokensOf source = before ++ t :: after ∧ t.span = e.span ∧
        (∀ u ∈ before ++ after, u.span ≠ e.span) ∧ Viable before ∧ ¬ Viable (before ++ [t])) ∧
    (∀ e : CompileError, (ofSource source).result = .error (.compile e) →
      e.cause.isSyntactic = true → e.span = .eof →
      Lexer.failureOf? source = none ∧ Viable (Lexer.tokensOf source) ∧
        ¬ ∃ program, IsProgram (Lexer.tokensOf source) program) ∧
    (∀ e : CompileError, (ofSource source).result = .error (.compile e) →
      e.cause.isLexical = true →
      Lexer.failureOf? source = some (.compile e) ∧ Viable (Lexer.tokensOf source)) ∧
    (∀ e : CompileError, Lexer.failureOf? source = some (.compile e) →
      Viable (Lexer.tokensOf source) → (ofSource source).result = .error (.compile e)) := by
  refine ⟨?_, ?_, ?_, ?_⟩
  · intro e failed syntactic placed
    cases refused_of_ofSource failed with
    | @token before after t e split blame viable impossible =>
      refine ⟨before, t, after, split, blame.span.symm, ?_, viable, impossible⟩
      intro u member
      rw [blame.span]
      exact Lexer.span_ne_of_tokensOf_eq split member
    | lexical first viable =>
      exact absurd (Lexer.isLexical_of_failureOf? first)
        (Cause.not_isLexical_of_isSyntactic syntactic)
    | early none blame viable incomplete => exact absurd blame.span placed
  · intro e failed syntactic ended
    cases refused_of_ofSource failed with
    | token split blame viable impossible =>
      have member := split ▸ List.mem_append_cons_self
      exact absurd (blame.span.symm.trans ended) (Lexer.span_ne_eof_of_mem_tokensOf member)
    | lexical first viable =>
      exact absurd (Lexer.isLexical_of_failureOf? first)
        (Cause.not_isLexical_of_isSyntactic syntactic)
    | early none blame viable incomplete => exact ⟨none, viable, incomplete⟩
  · intro e failed lexical
    cases refused_of_ofSource failed with
    | token split blame viable impossible =>
      exact absurd lexical (Cause.not_isLexical_of_isSyntactic blame.syntactic)
    | lexical first viable => exact ⟨first, viable⟩
    | early none blame viable incomplete =>
      exact absurd lexical (Cause.not_isLexical_of_isSyntactic blame.syntactic)
  · intro e first viable
    obtain ⟨s, taken⟩ := (viable_iff fun t => Lexer.kind_ne_eof_of_mem_tokensOf).mp viable
    rw [ofSource_eq, ofTokens_of_all_taken taken, first]
    rfl

/-- A token that cannot follow, an early end, and a character that begins no token. -/
theorem first_error_of_each_kind :
    (∃ before t after, Lexer.tokensOf "a = (b c); @" = before ++ t :: after ∧ t.span = ⟨7, 8⟩ ∧
      (∀ u ∈ before ++ after, u.span ≠ ⟨7, 8⟩) ∧ Viable before ∧ ¬ Viable (before ++ [t])) ∧
    (Lexer.failureOf? "f(1," = none ∧ Viable (Lexer.tokensOf "f(1,") ∧
      ¬ ∃ program, IsProgram (Lexer.tokensOf "f(1,") program) ∧
    (Lexer.failureOf? "x = 1 @" = some (.compile ⟨.invalidCharacter "@", ⟨6, 7⟩⟩) ∧
      Viable (Lexer.tokensOf "x = 1 @")) ∧
    (ofSource "f( @").result = .error (.compile ⟨.invalidCharacter "@", ⟨3, 4⟩⟩) := by
  refine ⟨?_, ?_, ?_, ?_⟩
  · exact (first_error "a = (b c); @").1 ⟨.expectedOperator "'c'", ⟨7, 8⟩⟩ (by cbv) rfl nofun
  · exact (first_error "f(1,").2.1 ⟨.missingOperand "expression", .eof⟩ (by cbv) rfl rfl
  · exact (first_error "x = 1 @").2.2.1 ⟨.invalidCharacter "@", ⟨6, 7⟩⟩ (by cbv) rfl
  · refine (first_error "f( @").2.2.2 ⟨.invalidCharacter "@", ⟨3, 4⟩⟩ (by cbv) ?_
    refine (viable_iff fun t => Lexer.kind_ne_eof_of_mem_tokensOf).mpr ?_
    exact Option.isSome_iff_exists.mp (by cbv)

end Parsing

end Reckon
