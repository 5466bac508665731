import Reckon.Span
import Reckon.Text.Quoted

/-!
# Tokens

A token is a piece of source text with its place. `Token.Kind` says what it is, with the value of a
number, the raw text of a string literal, or the name of an identifier.
-/

namespace Reckon

/-- What a token is. -/
inductive Token.Kind where
  | plus
  | minus
  | star
  | slash
  | assign
  | semicolon
  | openParen
  | closeParen
  | comma
  /-- A decimal integer. -/
  | number (value : Nat)
  /-- A string literal by the text between its quotes, escapes as written. -/
  | string (raw : String)
  /-- A name of a variable or routine. -/
  | identifier (name : String)
  /-- A run of blanks. -/
  | whitespace
  /-- The end of the input. -/
  | eof
  deriving DecidableEq, Repr

namespace Token.Kind

/-- The name of a kind. -/
def name : Kind → String
  | plus => "PLUS"
  | minus => "MINUS"
  | star => "STAR"
  | slash => "SLASH"
  | assign => "ASSIGN"
  | semicolon => "SEMICOLON"
  | openParen => "LPAREN"
  | closeParen => "RPAREN"
  | comma => "COMMA"
  | number _ => "NUMBER"
  | string _ => "STRING"
  | identifier _ => "IDENTIFIER"
  | whitespace => "WHITESPACE"
  | eof => "EOF"

/-- The kind of the token that is the one character given. -/
def ofSymbol? (c : Char) : Option Kind :=
  match c with
  | '+' => some plus
  | '-' => some minus
  | '*' => some star
  | '/' => some slash
  | '=' => some assign
  | ';' => some semicolon
  | '(' => some openParen
  | ')' => some closeParen
  | ',' => some comma
  | _ => none

/-- How messages speak of a token. -/
def describe : Kind → String
  | plus => "'+'"
  | minus => "'-'"
  | star => "'*'"
  | slash => "'/'"
  | assign => "'='"
  | semicolon => "';'"
  | openParen => "'('"
  | closeParen => "')'"
  | comma => "','"
  | number value => s!"'{value}'"
  | string raw => "'\"" ++ raw ++ "\"'"
  | identifier name => s!"'{name}'"
  | whitespace => "whitespace"
  | eof => "end of input"

/-- The value of a token as it is shown, if the token has one. -/
def shownValue? : Kind → Option String
  | number value => some (toString value)
  | string raw => some (Text.quoted raw)
  | identifier name => some (Text.quoted name)
  | _ => none

end Token.Kind

/-- A piece of source text. -/
structure Token where
  /-- What the token is. -/
  kind : Token.Kind
  /-- Where it stands. -/
  span : Span
  deriving DecidableEq, Repr

namespace Token

/-- The token at the end of the input. -/
def eof : Token := ⟨.eof, .eof⟩

/-- How messages speak of the token. -/
def describe (t : Token) : String :=
  t.kind.describe

/-- The token with its kind, value and span. -/
def render (t : Token) : String :=
  match t.kind.shownValue? with
  | some value => s!"Token({t.kind.name}, {value}, {t.span.render})"
  | none => s!"Token({t.kind.name}, {t.span.render})"

end Token

end Reckon
