import Reckon.Token.Lexer

/-!
# One token of lookahead

A token buffer hands out the tokens of a lexer without the blanks between them. `peek` shows the
next token and leaves it, `next` takes it. At the end of the input both give the token of the end,
as often as they are called. A failure of the lexer is passed on once, and the buffer goes on after
it.
-/

namespace Reckon

/-- A lexer with room for one token that has been looked at. -/
structure TokenBuffer where
  /-- Where tokens come from. -/
  lexer : Lexer
  /-- The token that has been looked at, if any. -/
  slot : Option Token
  /-- Number of tokens taken, the end of the input apart. -/
  consumed : Nat
  deriving DecidableEq, Repr

/-- The next outcome of a lexer that is no blank, the end of the input if there is none. -/
def Lexer.pull (l : Lexer) : Except SourceError Token × Lexer :=
  match _h : l.next? with
  | none => (.ok Token.eof, l)
  | some (.token token, l') =>
    if token.kind = .whitespace then pull l' else (.ok token, l')
  | some (.failure error _, l') => (.error error, l')
termination_by l.rest.length
decreasing_by exact length_rest_lt _h

namespace TokenBuffer

/-- A buffer at the beginning of a text. -/
def ofSource (source : String) : TokenBuffer := ⟨.ofSource source, none, 0⟩

/-- The next token, which stays where it is. -/
def peek (b : TokenBuffer) : Except SourceError Token × TokenBuffer :=
  match b.slot with
  | some token => (.ok token, b)
  | none =>
    match b.lexer.pull with
    | (.ok token, lexer) => (.ok token, { b with lexer, slot := some token })
    | (.error error, lexer) => (.error error, { b with lexer })

/-- The next token, which is taken. -/
def next (b : TokenBuffer) : Except SourceError Token × TokenBuffer :=
  match b.peek with
  | (.ok token, after) =>
    let counted := if token.kind = .eof then after.consumed else after.consumed + 1
    (.ok token, { after with slot := none, consumed := counted })
  | (.error error, after) => (.error error, after)

/-- The span of the last piece the lexer has read, the end of the input once all is read. -/
def currentSpan (b : TokenBuffer) : Span :=
  b.lexer.currentSpan

end TokenBuffer

end Reckon
