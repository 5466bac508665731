import Reckon.Program.Parser

/-!
# Feeding tokens to the parser

`State.takeAll?` feeds a row of tokens and `Parsing.ofTokens` goes on to the end of the input, or to
the failure of the lexer. Reading a source text is `ofTokens` of its tokens up to the first failure
(`Parsing.ofSource_eq`), so blanks are dealt with here once and for all.

After a name the parser waits for one more token before it knows what it has. `State.settled` is the
state in which it has decided for a variable; every token but an opening parenthesis treats both
alike (`State.feed_settled`).
-/

namespace Reckon

/-! ## The tokens of a source text -/

namespace Lexer

/-- The tokens before the first failure, blanks left out. -/
def Outcome.tokens : List Outcome → List Token
  | [] => []
  | .failure _ _ :: _ => []
  | .token t :: rest => if t.kind = .whitespace then tokens rest else t :: tokens rest

/-- The first failure. -/
def Outcome.failure? : List Outcome → Option SourceError
  | [] => none
  | .failure error _ :: _ => some error
  | .token _ :: rest => failure? rest

/-- The tokens of a source text before its first lexical error, blanks left out. -/
def tokensOf (source : String) : List Token :=
  Outcome.tokens (ofSource source).outcomes

/-- The first lexical error of a source text. -/
def failureOf? (source : String) : Option SourceError :=
  Outcome.failure? (ofSource source).outcomes

end Lexer

/-! ## Rows of tokens -/

namespace Parser.State

/-- The state after a row of tokens, if each of them is taken. -/
def takeAll? (s : State) : List Token → Option State
  | [] => some s
  | t :: ts =>
    match s.feed t with
    | (s', none) => s'.takeAll? ts
    | (_, some _) => none

theorem takeAll?_cons_of_taken {s s' : State} {t : Token} (taken : s.feed t = (s', none))
    (ts : List Token) : s.takeAll? (t :: ts) = s'.takeAll? ts := by
  rw [takeAll?, taken]

theorem takeAll?_append (s : State) (ts us : List Token) :
    s.takeAll? (ts ++ us) = (s.takeAll? ts).bind fun s' => s'.takeAll? us := by
  induction ts generalizing s with
  | nil => rfl
  | cons t ts ih =>
    simp only [List.cons_append, takeAll?]
    split
    · exact ih _
    · rfl

/-- A row of tokens is taken token by token. -/
theorem takeAll?_append_of_taken {s s' : State} {ts : List Token} (taken : s.takeAll? ts = some s')
    (us : List Token) : s.takeAll? (ts ++ us) = s'.takeAll? us := by
  rw [takeAll?_append, taken, Option.bind_some]

theorem takeAll?_cons_eq_some {s s' : State} {t : Token} {ts : List Token}
    (taken : s.takeAll? (t :: ts) = some s') :
    ∃ s₁, s.feed t = (s₁, none) ∧ s₁.takeAll? ts = some s' := by
  unfold takeAll? at taken
  split at taken
  · next s₁ fed => exact ⟨s₁, fed, taken⟩
  · cases taken

/-- A row that is not taken has a first token that is refused. -/
theorem exists_refused_of_takeAll?_eq_none {s : State} {ts : List Token}
    (refused : s.takeAll? ts = none) :
    ∃ before t after s₁ s₂ error, ts = before ++ t :: after ∧ s.takeAll? before = some s₁ ∧
      s₁.feed t = (s₂, some error) := by
  induction ts generalizing s with
  | nil => cases refused
  | cons t ts ih =>
    cases fed : s.feed t with
    | mk s₁ error? =>
      cases error? with
      | some error => exact ⟨[], t, ts, s, s₁, error, rfl, rfl, fed⟩
      | none =>
        rw [takeAll?_cons_of_taken fed] at refused
        obtain ⟨before, u, after, s₂, s₃, error, rfl, taken, fed'⟩ := ih refused
        refine ⟨t :: before, u, after, s₂, s₃, error, rfl, ?_, fed'⟩
        rw [takeAll?_cons_of_taken fed]
        exact taken

end Parser.State

namespace Parsing

/-- Reads tokens from a state on, up to the end of the input or the failure that comes after
them. -/
def ofTokens (failure? : Option SourceError) (s : Parser.State) : List Token → Parsing
  | [] =>
    match failure? with
    | some error => ofState s (.error error)
    | none => ofOutcomes s []
  | t :: ts =>
    match s.feed t with
    | (s', none) => ofTokens failure? s' ts
    | (s', some error) => ofState s' (.error (.compile error))

theorem ofOutcomes_eq (s : Parser.State) (outcomes : List Lexer.Outcome) :
    ofOutcomes s outcomes =
      ofTokens (Lexer.Outcome.failure? outcomes) s (Lexer.Outcome.tokens outcomes) := by
  fun_induction ofOutcomes s outcomes with
  | case1 s s' fed => simp [ofTokens, ofOutcomes, Lexer.Outcome.tokens, Lexer.Outcome.failure?, fed]
  | case2 s s' error fed =>
    simp [ofTokens, ofOutcomes, Lexer.Outcome.tokens, Lexer.Outcome.failure?, fed]
  | case3 s error span rest => rfl
  | case4 s t rest blank ih =>
    rw [ih, Lexer.Outcome.tokens, if_pos blank, Lexer.Outcome.failure?]
  | case5 s t rest solid s' fed ih =>
    rw [ih, Lexer.Outcome.tokens, if_neg solid, Lexer.Outcome.failure?, ofTokens, fed]
  | case6 s t rest solid s' error fed =>
    rw [Lexer.Outcome.tokens, if_neg solid, ofTokens, fed]

/-- Reading a source text is reading its tokens up to the first lexical error. -/
theorem ofSource_eq (source : String) :
    ofSource source = ofTokens (Lexer.failureOf? source) .initial (Lexer.tokensOf source) :=
  ofOutcomes_eq ..

variable {failure? : Option SourceError} {s s₁ s₂ : Parser.State}

theorem ofTokens_of_taken {ts us : List Token} (taken : s.takeAll? ts = some s₁) :
    ofTokens failure? s (ts ++ us) = ofTokens failure? s₁ us := by
  induction ts generalizing s with
  | nil =>
    cases taken
    rfl
  | cons t ts ih =>
    obtain ⟨s', fed, rest⟩ := Parser.State.takeAll?_cons_eq_some taken
    rw [List.cons_append, ofTokens, fed]
    exact ih rest

theorem ofTokens_of_all_taken {ts : List Token} (taken : s.takeAll? ts = some s₁) :
    ofTokens failure? s ts = ofTokens failure? s₁ [] := by
  rw [← List.append_nil ts, ofTokens_of_taken taken]

/-- The first token that is refused is what the reading ends with. -/
theorem ofTokens_of_refused {before after : List Token} {t : Token} {error : CompileError}
    (taken : s.takeAll? before = some s₁) (refused : s₁.feed t = (s₂, some error)) :
    ofTokens failure? s (before ++ t :: after) = ofState s₂ (.error (.compile error)) := by
  rw [ofTokens_of_taken taken, ofTokens, refused]

end Parsing

/-! ## Settling a name -/

namespace Parser.State

/-- The state in which a name at the end has become a variable. -/
def settled (s : State) : State :=
  match s.expecting with
  | .afterName name span =>
    { s with
      expecting := .afterOperand (.var (s.table.resolve name).1 name span)
      table := (s.table.resolve name).2 }
  | _ => s

theorem settled_of_afterOperand {s : State} {e : Expr} (ready : s.expecting = .afterOperand e) :
    s.settled = s := by
  unfold settled
  rw [ready]

theorem feed_of_afterOperand {s : State} {e : Expr} (ready : s.expecting = .afterOperand e)
    (t : Token) : s.feed t = s.feedAfterOperand e t := by
  unfold feed
  rw [ready]

/-- Only an opening parenthesis tells a name from a variable. -/
theorem feed_settled {s : State} {t : Token} (closed : t.kind ≠ .openParen) :
    s.settled.feed t = s.feed t := by
  unfold settled
  split
  · next name span waiting =>
    rw [feed_of_afterOperand rfl]
    unfold feed
    rw [waiting]
    simp only [feedAfterName, if_neg closed]
  · rfl

end Parser.State

end Reckon
