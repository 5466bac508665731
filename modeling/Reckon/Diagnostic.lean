import Reckon.Capacity
import Reckon.SourceError

/-!
# Diagnostics

A diagnostic shows an error against the source: the message, the source as it stands, and a caret
below the first character of the span. Errors at the end of the input point at the last character.
A span need not lie in the source; `attempt` refuses one that is too far out for any text.
-/

namespace Reckon.Diagnostic

/-- The column of the caret for a span in a text. -/
def caretOffset (source : String) (span : Span) : Int :=
  if span.isEof then ((source.length - 1 : Nat) : Int) else span.start

/-- The diagnostic of an error: message, source and caret, each on lines of its own. -/
def render (source : String) (error : CompileError) : String :=
  let padding := String.ofList (List.replicate (caretOffset source error.span).toNat ' ')
  "[error]: " ++ error.message ++ "\n" ++ source ++ "\n" ++ padding ++ "^\n"

/-- The diagnostic of an error, unless its caret is too far out. -/
def attempt (source : String) (error : CompileError) : Except TooLarge String :=
  match textTooLarge? (caretOffset source error.span) with
  | some reason => .error reason
  | none => .ok (render source error)

end Reckon.Diagnostic
