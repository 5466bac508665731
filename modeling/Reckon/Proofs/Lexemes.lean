import Reckon.Proofs.Parsing.Feeding

/-!
# What the lexer hands out

`Token.Kind.Lexical` says which kinds of tokens can stand in a text: numbers up to the greatest
literal, names made of name characters, string literals whose raw text has no quote that would end
it early and no single backslash at its end. `Lexer.lexical_of_mem_tokensOf` proves it of every
token of a source text, and `Lexer.pairwise_tokensOf` that their spans follow one another.
-/

namespace Reckon

/-- The raw text of a string literal: every quote stands behind a backslash, and the last character
is no backslash that would take the closing quote with it. -/
def isRaw : List Char → Bool
  | [] => true
  | ['\\'] => false
  | '\\' :: '\x22' :: rest => isRaw rest
  | '\\' :: '\\' :: rest => isRaw rest
  | c :: rest => c != '\x22' && isRaw rest

/-- A name: name characters, the first of which may begin one. -/
def isName : List Char → Bool
  | [] => false
  | first :: rest => Lexer.isNameStart first && rest.all Lexer.isNameChar

/-- The kinds of tokens that stand in a text. -/
def Token.Kind.Lexical : Token.Kind → Prop
  | .number value => value ≤ maxLiteral
  | .string raw => isRaw raw.toList = true
  | .identifier name => isName name.toList = true
  | .eof => False
  | _ => True

/-- The errors of the lexer. -/
def Cause.isLexical : Cause → Bool
  | .lexical _ | .invalidCharacter _ | .unterminatedString | .integerOverflow _ _ => true
  | _ => false

/-- The errors of the parser. -/
def Cause.isSyntactic : Cause → Bool
  | .syntactic _ | .expectedExpression _ | .expectedOperator _ | .missingOperand _
  | .unterminatedExpression | .unclosedGroup _ => true
  | _ => false

/-- The errors of the parser that the end of the input makes. -/
def Cause.isEnding : Cause → Bool
  | .missingOperand _ | .unterminatedExpression => true
  | _ => false

theorem Cause.isEnding_iff {cause : Cause} : cause.isEnding = true ↔
    (∃ expected, cause = .missingOperand expected) ∨ cause = .unterminatedExpression := by
  cases cause <;> simp [isEnding]

theorem Cause.not_isEnding_of_isLexical {cause : Cause} (lexical : cause.isLexical = true) :
    cause.isEnding = false := by
  cases cause <;> first | rfl | cases lexical

theorem Cause.not_isLexical_of_isSyntactic {cause : Cause} (syntactic : cause.isSyntactic = true) :
    ¬ cause.isLexical = true := by
  cases cause <;> simp_all [isSyntactic, isLexical]

namespace Lexer

/-! ## String literals -/

theorem isRaw_cons {c : Char} {rest : List Char} (notQuote : c ≠ '\x22')
    (notEscape : c = '\\' → ∃ d tail, rest = d :: tail ∧ d ≠ '\x22' ∧ d ≠ '\\')
    (raw : isRaw rest = true) : isRaw (c :: rest) = true := by
  by_cases backslash : c = '\\'
  · obtain ⟨d, tail, rfl, notQuote', notBackslash⟩ := notEscape backslash
    subst backslash
    rw [isRaw]
    · simp [raw]
    all_goals simp_all
  · rw [isRaw]
    · simp [raw, notQuote]
    all_goals simp_all

/-- The body of a string literal is raw text. -/
theorem isRaw_of_stringBody {cs raw after : List Char} (body : stringBody cs = some (raw, after)) :
    isRaw raw = true := by
  fun_induction stringBody cs generalizing raw after with
  | case1 => cases body
  | case2 rest =>
    cases body
    rfl
  | case3 rest ih =>
    obtain ⟨⟨raw', after'⟩, inner, same⟩ := Option.map_eq_some_iff.1 body
    cases same
    rw [isRaw]
    exact ih inner
  | case4 rest ih =>
    obtain ⟨⟨raw', after'⟩, inner, same⟩ := Option.map_eq_some_iff.1 body
    cases same
    rw [isRaw]
    exact ih inner
  | case5 c rest notQuote notEscapedQuote notEscapedBackslash ih =>
    obtain ⟨⟨raw', after'⟩, inner, same⟩ := Option.map_eq_some_iff.1 body
    cases same
    refine isRaw_cons notQuote ?_ (ih inner)
    intro backslash
    -- The character after the backslash is in the body: neither a quote nor a backslash is there.
    cases rest with
    | nil => cases inner
    | cons d tail =>
      have notQuote' : d ≠ '\x22' := fun quote => notEscapedQuote tail backslash (by rw [quote])
      have notBackslash : d ≠ '\\' :=
        fun other => notEscapedBackslash tail backslash (by rw [other])
      rw [stringBody] at inner
      · obtain ⟨⟨raw'', after''⟩, -, same⟩ := Option.map_eq_some_iff.1 inner
        cases same
        exact ⟨d, raw'', rfl, notQuote', notBackslash⟩
      all_goals simp_all

/-! ## Pieces of text -/

theorem lexical_of_ofSymbol? {c : Char} {kind : Token.Kind}
    (symbol : Token.Kind.ofSymbol? c = some kind) : kind.Lexical := by
  unfold Token.Kind.ofSymbol? at symbol
  split at symbol <;> cases symbol <;> trivial

theorem lexical_of_readNumber {digits : List Char} {kind : Token.Kind}
    (read : readNumber digits = .token kind) : kind.Lexical := by
  unfold readNumber at read
  split at read
  · cases read
  · split at read
    · cases read
    · next bounded =>
      cases read
      exact Nat.le_of_not_lt bounded

theorem isName_run {first : Char} (rest : List Char) (starts : isNameStart first = true) :
    isName (first :: rest.takeWhile isNameChar) = true := by
  simp [isName, starts]

/-- The piece of text that begins with a character, and what it is: one case for each branch of the
scanner. -/
inductive Scanned (first : Char) (rest : List Char) : Piece → Prop
  | sign {kind : Token.Kind} (symbol : Token.Kind.ofSymbol? first = some kind) :
    Scanned first rest ⟨.token kind, [first], rest⟩
  | numeral (digit : Text.isAsciiDigit first = true) :
    Scanned first rest (run Text.isAsciiDigit readNumber first rest)
  | blank (space : isSpace first = true) :
    Scanned first rest (run isSpace (fun _ => .token .whitespace) first rest)
  | literal {raw after : List Char} (quote : first = '\x22')
    (body : stringBody rest = some (raw, after)) :
    Scanned first rest ⟨.token (.string (String.ofList raw)), first :: raw ++ ['\x22'], after⟩
  | unterminated (quote : first = '\x22') (endless : stringBody rest = none) :
    Scanned first rest ⟨.wrong .unterminatedString, first :: rest, []⟩
  | name (starts : isNameStart first = true) : Scanned first rest
    (run isNameChar (fun text => .token (.identifier (String.ofList text))) first rest)
  | invalid : Scanned first rest ⟨.wrong (.invalidCharacter first.toString), [first], rest⟩

theorem scanned (first : Char) (rest : List Char) : Scanned first rest (scan first rest) := by
  unfold scan
  split
  · next symbol => exact .sign symbol
  · split
    · next digit => exact .numeral digit
    · split
      · next space => exact .blank space
      · split
        · next quote =>
          split
          · next body => exact .literal (beq_iff_eq.mp quote) body
          · next endless => exact .unterminated (beq_iff_eq.mp quote) endless
        · split
          · next starts => exact .name starts
          · exact .invalid

/-- A piece that turns out to be a token is one of those that stand in a text. -/
theorem lexical_of_scan {first : Char} {rest : List Char} {kind : Token.Kind}
    (read : (scan first rest).reading = .token kind) : kind.Lexical := by
  have scanned := scanned first rest
  generalize scan first rest = piece at scanned read
  cases scanned with
  | sign symbol =>
    cases read
    exact lexical_of_ofSymbol? symbol
  | numeral => exact lexical_of_readNumber read
  | blank =>
    cases read
    trivial
  | literal _ body =>
    cases read
    show isRaw (String.ofList _).toList = true
    rw [String.toList_ofList]
    exact isRaw_of_stringBody body
  | name starts =>
    cases read
    show isName (String.ofList _).toList = true
    rw [String.toList_ofList]
    exact isName_run rest starts
  | unterminated | invalid => cases read

theorem isLexical_of_readNumber {digits : List Char} {cause : Cause}
    (read : readNumber digits = .wrong cause) : cause.isLexical = true := by
  unfold readNumber at read
  split at read
  · cases read
  · split at read <;> cases read
    rfl

theorem isLexical_of_scan {first : Char} {rest : List Char} {cause : Cause}
    (read : (scan first rest).reading = .wrong cause) : cause.isLexical = true := by
  have scanned := scanned first rest
  generalize scan first rest = piece at scanned read
  cases scanned with
  | numeral => exact isLexical_of_readNumber read
  | unterminated | invalid =>
    cases read
    rfl
  | sign | blank | literal | name => cases read

theorem text_ne_nil (first : Char) (rest : List Char) : (scan first rest).text ≠ [] := by
  have scanned := scanned first rest
  generalize scan first rest = piece at scanned
  cases scanned <;> exact List.cons_ne_nil _ _

/-! ## Outcomes -/

/-- An outcome of a text: what it says, and the place it covers. -/
structure Outcome.Lies (o : Outcome) (start stop : Nat) : Prop where
  /-- A token is of a kind that stands in a text. -/
  lexical : ∀ t, o = .token t → t.kind.Lexical
  /-- A failure is an error of the lexer. -/
  failing : ∀ e span, o = .failure (.compile e) span → e.cause.isLexical = true
  /-- The outcome covers its place. -/
  span_eq : o.span = ⟨start, stop⟩
  /-- The place is not empty. -/
  nonempty : start < stop

/-- One call of the lexer: an outcome from where it stood to where it stands. -/
theorem lies_of_next? {l l' : Lexer} {o : Outcome} (called : l.next? = some (o, l')) :
    o.Lies l.position l'.position := by
  unfold next? at called
  split at called
  · cases called
  · next first rest _ =>
    have longer := List.length_pos_iff.mpr (text_ne_nil first rest)
    cases called
    cases read : (scan first rest).reading with
    | token kind =>
      refine ⟨?_, nofun, rfl, by simp only; omega⟩
      intro t same
      cases same
      exact lexical_of_scan read
    | wrong cause =>
      refine ⟨nofun, ?_, rfl, by simp only; omega⟩
      intro e span same
      cases same
      exact isLexical_of_scan read
    | tooLong error => exact ⟨nofun, nofun, rfl, by simp only; omega⟩

/-- Every outcome of a lexer lies at or after its position. -/
theorem lies_of_mem_outcomes {l : Lexer} {o : Outcome} (member : o ∈ l.outcomes) :
    ∃ start stop, l.position ≤ start ∧ o.Lies start stop := by
  fun_induction outcomes l with
  | case1 l ended => cases member
  | case2 l outcome l' called ih =>
    have lies := lies_of_next? called
    rcases List.mem_cons.mp member with rfl | later
    · exact ⟨_, _, Nat.le_refl _, lies⟩
    · obtain ⟨start, stop, after, lies'⟩ := ih later
      exact ⟨start, stop, Nat.le_trans (Nat.le_of_lt lies.nonempty) after, lies'⟩

/-- The outcomes of a lexer follow one another. -/
theorem pairwise_outcomes (l : Lexer) :
    l.outcomes.Pairwise fun a b => a.span.start < b.span.start := by
  fun_induction outcomes l with
  | case1 => exact .nil
  | case2 l outcome l' called ih =>
    refine .cons ?_ ih
    intro o member
    obtain ⟨start, stop, after, lies⟩ := lies_of_mem_outcomes member
    have first := lies_of_next? called
    rw [first.span_eq, lies.span_eq]
    have := first.nonempty
    show (l.position : Int) < start
    omega

/-! ## The tokens of a source text -/

theorem Outcome.mem_of_mem_tokens {t : Token} {outcomes : List Outcome}
    (member : t ∈ Outcome.tokens outcomes) : .token t ∈ outcomes := by
  fun_induction Outcome.tokens outcomes with
  | case1 => cases member
  | case2 => cases member
  | case3 u rest blank ih => exact List.mem_cons_of_mem _ (ih member)
  | case4 u rest solid ih =>
    rcases List.mem_cons.mp member with rfl | later
    · exact List.mem_cons_self
    · exact List.mem_cons_of_mem _ (ih later)

theorem Outcome.mem_of_failure? {error : SourceError} {outcomes : List Outcome}
    (failed : Outcome.failure? outcomes = some error) : ∃ span, .failure error span ∈ outcomes := by
  fun_induction Outcome.failure? outcomes with
  | case1 => cases failed
  | case2 e span rest =>
    cases failed
    exact ⟨span, List.mem_cons_self⟩
  | case3 t rest ih =>
    obtain ⟨span, member⟩ := ih failed
    exact ⟨span, List.mem_cons_of_mem _ member⟩

theorem lexical_of_mem_tokensOf {source : String} {t : Token} (member : t ∈ tokensOf source) :
    t.kind.Lexical := by
  obtain ⟨_, _, _, lies⟩ := lies_of_mem_outcomes (Outcome.mem_of_mem_tokens member)
  exact lies.lexical t rfl

theorem kind_ne_eof_of_mem_tokensOf {source : String} {t : Token} (member : t ∈ tokensOf source) :
    t.kind ≠ .eof := by
  intro ended
  have lexical := lexical_of_mem_tokensOf member
  rw [ended] at lexical
  exact lexical

theorem span_ne_eof_of_mem_tokensOf {source : String} {t : Token} (member : t ∈ tokensOf source) :
    t.span ≠ .eof := by
  intro ended
  obtain ⟨start, stop, _, lies⟩ := lies_of_mem_outcomes (Outcome.mem_of_mem_tokens member)
  have same : (⟨start, stop⟩ : Span) = .eof := lies.span_eq.symm.trans ended
  have negative : (start : Int) = -1 := congrArg Span.start same
  omega

theorem isLexical_of_failureOf? {source : String} {e : CompileError}
    (failed : failureOf? source = some (.compile e)) : e.cause.isLexical = true := by
  obtain ⟨span, member⟩ := Outcome.mem_of_failure? failed
  obtain ⟨_, _, _, lies⟩ := lies_of_mem_outcomes member
  exact lies.failing e span rfl

theorem Outcome.pairwise_tokens {outcomes : List Outcome}
    (ordered : outcomes.Pairwise fun a b => a.span.start < b.span.start) :
    (Outcome.tokens outcomes).Pairwise fun t u => t.span.start < u.span.start := by
  fun_induction Outcome.tokens outcomes with
  | case1 => exact .nil
  | case2 => exact .nil
  | case3 t rest blank ih => exact ih (List.pairwise_cons.mp ordered).2
  | case4 t rest solid ih =>
    obtain ⟨first, later⟩ := List.pairwise_cons.mp ordered
    refine .cons ?_ (ih later)
    intro u member
    exact first _ (Outcome.mem_of_mem_tokens member)

/-- The tokens of a source text stand one after another. -/
theorem pairwise_tokensOf (source : String) :
    (tokensOf source).Pairwise fun t u => t.span.start < u.span.start :=
  Outcome.pairwise_tokens (pairwise_outcomes _)

/-- No other token of a source text has the span of a token. -/
theorem span_ne_of_tokensOf_eq {source : String} {before after : List Token} {t u : Token}
    (split : tokensOf source = before ++ t :: after) (member : u ∈ before ++ after) :
    u.span ≠ t.span := by
  have ordered := pairwise_tokensOf source
  rw [split] at ordered
  obtain ⟨-, rest, across⟩ := List.pairwise_append.mp ordered
  intro same
  rcases List.mem_append.mp member with first | later
  · have earlier := across u first t List.mem_cons_self
    rw [same] at earlier
    exact Int.lt_irrefl _ earlier
  · have behind := (List.pairwise_cons.mp rest).1 u later
    rw [same] at behind
    exact Int.lt_irrefl _ behind

end Lexer

end Reckon
