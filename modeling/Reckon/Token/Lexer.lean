import Reckon.SourceError
import Reckon.Text.CodeRange
import Reckon.Token

/-!
# Dividing a text into tokens

`Lexer.next?` reads one token from the text that is left. A piece that is no token is a failure; the
lexer has then moved past it and may be asked for more. `Lexer.outcomes` is what repeated calls give
until the text is used up, `Lexer.drain` stops at the first failure.

Main statement: a call of `next?` leaves less text than it found (`Lexer.length_rest_lt`), which is
why every run ends.
-/

namespace Reckon

/-- The greatest integer literal: the accumulator holds 32 bits, with sign. -/
def maxLiteral : Nat := 0x7FFFFFFF

namespace Lexer

/-- The blanks that may stand between tokens. -/
def isSpace (c : Char) : Bool :=
  c == ' ' || c == '\t' || c == '\n' || c == '\r' || c == '\x0c' || c == '\x0b'

/-- The character may begin a name. -/
def isNameStart (c : Char) : Bool :=
  Text.isAsciiLetter c || c == '_'

/-- The character may continue a name. -/
def isNameChar (c : Char) : Bool :=
  isNameStart c || Text.isAsciiDigit c

/-- What a piece of text turned out to be. -/
inductive Reading where
  /-- A token of the given kind. -/
  | token (kind : Token.Kind)
  /-- No token, for the given cause. -/
  | wrong (cause : Cause)
  /-- A numeral with more digits than are read. -/
  | tooLong (error : Text.TooManyDigits)
  deriving DecidableEq, Repr

/-- A row of digits as a token. -/
def readNumber (digits : List Char) : Reading :=
  match Text.readNatural digits with
  | .error e => .tooLong e
  | .ok value =>
    if maxLiteral < value then .wrong (.integerOverflow (String.ofList digits) maxLiteral)
    else .token (.number value)

/-- The raw text of a string literal up to its closing quote, and what follows the quote. A
backslash before a quote or a backslash takes that character with it. -/
def stringBody : List Char → Option (List Char × List Char)
  | [] => none
  | '\x22' :: rest => some ([], rest)
  | '\\' :: '\x22' :: rest =>
    (stringBody rest).map fun (raw, after) => ('\\' :: '\x22' :: raw, after)
  | '\\' :: '\\' :: rest =>
    (stringBody rest).map fun (raw, after) => ('\\' :: '\\' :: raw, after)
  | c :: rest => (stringBody rest).map fun (raw, after) => (c :: raw, after)

/-- A piece of text that begins at some point: what it is, its characters and what follows them. -/
structure Piece where
  /-- What the piece turned out to be. -/
  reading : Reading
  /-- The characters of the piece. -/
  text : List Char
  /-- The text after the piece. -/
  rest : List Char

/-- The longest piece that begins with `first` and goes on as long as `p` holds. -/
def run (p : Char → Bool) (read : List Char → Reading) (first : Char) (rest : List Char) : Piece :=
  let text := first :: rest.takeWhile p
  ⟨read text, text, rest.dropWhile p⟩

/-- The piece that begins with a given character. -/
def scan (first : Char) (rest : List Char) : Piece :=
  match Token.Kind.ofSymbol? first with
  | some kind => ⟨.token kind, [first], rest⟩
  | none =>
    if Text.isAsciiDigit first then run Text.isAsciiDigit readNumber first rest
    else if isSpace first then run isSpace (fun _ => .token .whitespace) first rest
    else if first == '\x22' then
      match stringBody rest with
      | some (raw, after) =>
        ⟨.token (.string (String.ofList raw)), first :: raw ++ ['\x22'], after⟩
      | none => ⟨.wrong .unterminatedString, first :: rest, []⟩
    else if isNameStart first then
      run isNameChar (fun text => .token (.identifier (String.ofList text))) first rest
    else ⟨.wrong (.invalidCharacter first.toString), [first], rest⟩

theorem stringBody_length_le {cs raw after : List Char} (h : stringBody cs = some (raw, after)) :
    after.length ≤ cs.length := by
  fun_induction stringBody cs generalizing raw after with
  | case1 => cases h
  | case2 rest => cases h; simp
  | case3 rest ih =>
    obtain ⟨⟨r, a⟩, e, hr⟩ := Option.map_eq_some_iff.1 h
    cases hr
    have := ih e
    simp only [List.length_cons]
    omega
  | case4 rest ih =>
    obtain ⟨⟨r, a⟩, e, hr⟩ := Option.map_eq_some_iff.1 h
    cases hr
    have := ih e
    simp only [List.length_cons]
    omega
  | case5 c rest _ _ _ ih =>
    obtain ⟨⟨r, a⟩, e, hr⟩ := Option.map_eq_some_iff.1 h
    cases hr
    have := ih e
    simp only [List.length_cons]
    omega

theorem run_rest_length_le (p : Char → Bool) (read : List Char → Reading) (first : Char)
    (rest : List Char) : (run p read first rest).rest.length ≤ rest.length :=
  (List.dropWhile_sublist p).length_le

/-- What follows a piece is no longer than what follows its first character. -/
theorem scan_rest_length_le (first : Char) (rest : List Char) :
    (scan first rest).rest.length ≤ rest.length := by
  unfold scan
  split
  · exact Nat.le_refl _
  · split
    · exact run_rest_length_le ..
    · split
      · exact run_rest_length_le ..
      · split
        · split
          · next e => exact stringBody_length_le e
          · exact Nat.zero_le _
        · split
          · exact run_rest_length_le ..
          · exact Nat.le_refl _

/-- What one call of the lexer gives: a token, or a failure with the text it covers. -/
inductive Outcome where
  | token (token : Token)
  | failure (error : SourceError) (span : Span)
  deriving DecidableEq, Repr

/-- The text that an outcome covers. -/
def Outcome.span : Outcome → Span
  | token t => t.span
  | failure _ span => span

/-- What the reading of the text at `span` amounts to. -/
def Reading.outcome (span : Span) : Reading → Outcome
  | token kind => .token ⟨kind, span⟩
  | wrong cause => .failure (.compile ⟨cause, span⟩) span
  | tooLong error => .failure (.numeral error) span

end Lexer

/-- A text that is being divided into tokens. -/
structure Lexer where
  /-- The text that has not been read. -/
  rest : List Char
  /-- Offset at which the last piece began. -/
  start : Nat
  /-- Offset of the text that has not been read. -/
  position : Nat
  deriving DecidableEq, Repr

namespace Lexer

/-- A lexer at the beginning of a text. -/
def ofSource (source : String) : Lexer := ⟨source.toList, 0, 0⟩

/-- All text has been read. -/
def atEnd (l : Lexer) : Bool :=
  l.rest.isEmpty

/-- The span of the last piece, or the end of the input once all text has been read. -/
def currentSpan (l : Lexer) : Span :=
  if l.atEnd then .eof else ⟨l.start, l.position⟩

/-- The next outcome and the lexer after it; nothing at the end of the text. -/
def next? (l : Lexer) : Option (Outcome × Lexer) :=
  match l.rest with
  | [] => none
  | first :: rest =>
    let piece := scan first rest
    let stop := l.position + piece.text.length
    some (piece.reading.outcome ⟨l.position, stop⟩, ⟨piece.rest, l.position, stop⟩)

/-- A call of the lexer leaves less text than it found. -/
theorem length_rest_lt {l l' : Lexer} {o : Outcome} (h : l.next? = some (o, l')) :
    l'.rest.length < l.rest.length := by
  unfold next? at h
  split at h
  · cases h
  · next first rest e =>
    cases h
    rw [e]
    exact Nat.lt_succ_of_le (scan_rest_length_le first rest)

/-- The outcomes of all calls until the text is used up. -/
def outcomes (l : Lexer) : List Outcome :=
  match _h : l.next? with
  | none => []
  | some (outcome, l') => outcome :: outcomes l'
termination_by l.rest.length
decreasing_by exact length_rest_lt _h

/-- The tokens up to the first failure, that failure, and the lexer after it. Without a failure the
tokens end with the one at the end of the input. -/
def drain (l : Lexer) : List Token × Option SourceError × Lexer :=
  match _h : l.next? with
  | none => ([Token.eof], none, l)
  | some (.token token, l') =>
    let (tokens, error?, last) := drain l'
    (token :: tokens, error?, last)
  | some (.failure error _, l') => ([], some error, l')
termination_by l.rest.length
decreasing_by exact length_rest_lt _h

end Lexer

end Reckon
