import Reckon.Build.Toolchain
import Reckon.Diagnostic
import Reckon.Fault

/-!
# Problems of a command

Whatever goes wrong while a command is carried out is reported as a `Problem`: one text on the error
stream and an exit code. Errors in the program are shown against its source, other failures of the
work asked for get one message, and what nobody foresaw counts as internal.
-/

namespace Reckon.Command

/-- How a command ends. -/
inductive ExitCode where
  | success
  /-- The program or the work on it failed. -/
  | failure
  /-- The command was given wrong arguments, or a place it may not write to. -/
  | misuse
  /-- Something went wrong that is not the user's doing. -/
  | internal
  deriving DecidableEq, Repr

/-- The number of an exit code. -/
def ExitCode.number : ExitCode → Nat
  | success => 0
  | failure => 1
  | misuse => 2
  | internal => 3

/-- What can go wrong while a command is carried out. -/
inductive Problem where
  /-- A failure described in words only. -/
  | general (message : String)
  /-- An error in the program. -/
  | program (error : CompileError)
  /-- A tool of a build failed. -/
  | tool (error : Build.ToolError)
  /-- The program could not be run to its end. -/
  | fault (cause : Fault.Cause) (line? : Option Int)
  /-- An argument of the command is wrong. -/
  | argument (message : String)
  /-- A file or directory may not be changed. -/
  | permission (message : String)
  /-- Anything else. -/
  | internal (message : String)
  deriving DecidableEq, Repr

namespace Problem

/-- The problem that an error in a source is. -/
def ofSourceError : SourceError → Problem
  | .compile error => program error
  | error => internal error.message

/-- The problem that a fault is. -/
def ofFault : Fault → Problem
  | .raised cause line? => fault cause line?
  | other => internal other.message

/-- The problem that a failed build is. -/
def ofBuildError : Build.BuildError → Problem
  | .tool error => tool error
  | .file error =>
    if error.obstacle = .permissionDenied then permission error.message
    else internal error.message
  | .mishap mishap =>
    if mishap.denied then permission mishap.message else internal mishap.message

/-- The wording of a problem. -/
def message : Problem → String
  | general message => message
  | program error => error.message
  | tool error => error.message
  | fault cause line? => (Fault.raised cause line?).message
  | argument message => message
  | permission message => message
  | internal message => message

/-- The exit code of a problem. -/
def exitCode : Problem → ExitCode
  | general _ | program _ | tool _ | fault _ _ => .failure
  | argument _ | permission _ => .misuse
  | internal _ => .internal

/-- The kind of work that a problem belongs to, as its report calls it. -/
def stage? : Problem → Option String
  | tool _ => some "Toolchain"
  | fault _ _ => some "Runtime"
  | _ => none

/-- A message with the kind of work that failed, if one is named. -/
def labelled (stage? : Option String) (message : String) : String :=
  match stage? with
  | none | some "" => s!"Error: {message}\n"
  | some stage => s!"{stage} error: {message}\n"

/-- The report of a problem: an error in a program is shown in the source, if there is one. -/
def report (source? : Option String) (stage? : Option String) (p : Problem) : String :=
  match p, source? with
  | program error, some source => Diagnostic.render source error
  | general _, _ | program _, none | tool _, _ | fault _ _, _ => labelled stage? p.message
  | argument message, _ | permission message, _ => s!"Error: {message}\n"
  | internal message, _ => s!"Internal error: {message}\n"

/-- Why a problem cannot be reported: the caret of its diagnostic would be too far out. -/
def obstruction? (source? : Option String) : Problem → Option TooLarge
  | program error =>
    source?.bind fun source => textTooLarge? (Diagnostic.caretOffset source error.span)
  | _ => none

end Problem

end Reckon.Command
