import Reckon.Command.Problem
import Reckon.Command.Request
import Reckon.Expr.Printer
import Reckon.Machine.Console
import Reckon.Machine.Execution

/-!
# The command

Compiles the source text it is given and takes one action on the result: print the tree, print the
assembly, run the program, or build an executable. All that a command reads and writes is a value:
`Request.perform` maps the place where it runs to an `Outcome`.

What becomes of a text on its way to a stream is up to the place (`Place.echo`), and so is whether
work that goes down to any depth of a program is cut short (`Place.accident?`).
-/

namespace Reckon.Command

/-- A stream that a command writes to. -/
inductive Stream where
  | stdout
  | stderr
  deriving DecidableEq, Repr

/-- Work that follows the nesting of a program. -/
inductive Phase where
  | compilation
  /-- Printing the tree. -/
  | printing
  deriving DecidableEq, Repr

/-- Where a command runs. -/
structure Place where
  environment : List (String × String)
  files : Build.FileTree
  /-- How the tools of a build will answer. -/
  answers : List Build.ToolAnswer
  /-- The number of the process. -/
  process : Text.Decimal
  /-- What a text is on the stream that it is written to. -/
  echo : Stream → String → String
  /-- What cuts a phase short, if anything does, such as nesting too deep for the system. -/
  accident? : Phase → Option String

/-- What a command comes to. -/
structure Outcome where
  exitCode : ExitCode
  stdout : String
  stderr : String
  /-- The details of an internal error are wanted. -/
  wantsTrace : Bool
  /-- The commands that were run. -/
  commands : List Build.Command
  /-- The files afterwards. -/
  files : Build.FileTree

/-- The line of a log record on the error stream. All records are shown with their levels if details
are wanted, and the notable ones as they are if not. -/
def logLine (verbose : Bool) (r : LogRecord) : String :=
  if verbose then s!"{r.level.name}: {r.message}\n"
  else if r.level.isNotable then r.message ++ "\n"
  else ""

namespace Outcome

/-- Nothing has been done. -/
def start (files : Build.FileTree) : Outcome :=
  ⟨.success, "", "", false, [], files⟩

/-- Some records are logged. -/
def log (verbose : Bool) (records : List LogRecord) (o : Outcome) : Outcome :=
  { o with stderr := o.stderr ++ String.join (records.map (logLine verbose)) }

/-- A text is printed. -/
def print (place : Place) (text : String) (o : Outcome) : Outcome :=
  { o with stdout := o.stdout ++ place.echo .stdout text }

/-- A text is printed to the error stream. -/
def remark (place : Place) (text : String) (o : Outcome) : Outcome :=
  { o with stderr := o.stderr ++ place.echo .stderr text }

/-- The command ends with a problem. -/
def fail (place : Place) (r : Request) (p : Problem) (o : Outcome) : Outcome :=
  { o.remark place (p.report (some r.source) p.stage?) with
    exitCode := p.exitCode
    wantsTrace := r.verbose && p.exitCode = .internal }

end Outcome

namespace Request

/-- Steps that a program may take. -/
def stepLimit : Int := 1000000

/-- Prints the tree of a program. -/
def printTree (r : Request) (place : Place) (c : Compilation) (o : Outcome) : Outcome :=
  match place.accident? .printing with
  | some message => o.fail place r (.internal message)
  | none =>
    match c.program.print with
    | .ok text => o.print place (text ++ "\n")
    | .error e => o.fail place r (.ofSourceError e)

/-- Runs a program. Its routines print to the console; after them comes its value. -/
def runProgram (r : Request) (place : Place) (c : Compilation) (o : Outcome) : Outcome :=
  let write (stdout text : String) : String := stdout ++ place.echo .stdout text
  let execution := Machine.Execution.ofText c.assembly (Machine.console? write) o.stdout stepLimit
  let o := { o with stdout := execution.world }.log r.verbose execution.log
  match execution.result with
  | .error fault => o.fail place r (.ofFault fault)
  | .ok exit =>
    let o := o.print place s!"{exit.value}\n"
    if r.verbose then o.remark place s!"Executed {exit.steps} instructions\n" else o

/-- What is printed about a program in detail. -/
def details (c : Compilation) : List String :=
  [s!"Tokenized: {c.tokenCount} tokens\n",
    s!"Parsed: {c.program.statements.length} statements\n"] ++
    if c.externals.isEmpty then []
    else ["Linked against libc for: " ++ ", ".intercalate c.externals ++ "\n"]

/-- Builds an executable. -/
def buildProgram (r : Request) (place : Place) (c : Compilation) (o : Outcome) : Outcome :=
  let (settings, records) := Build.Settings.ofEnvironment place.environment
  let toolchain : Build.Toolchain := ⟨settings, "exprc", place.process⟩
  let finish (w : Build.Workshop) : Outcome :=
    { o.log r.verbose (records ++ w.log.toList) with
      commands := w.commands.toList
      files := w.files }
  match (toolchain.build c (.ofString r.output)).run (.opening o.files place.answers) with
  | .error e w => (finish w).fail place r (.ofBuildError e)
  | .ok executable w =>
    let printed := if r.verbose then details c else []
    (printed ++ [s!"Compiled -> {executable.render}\n"]).foldl (fun o text => o.print place text)
      (finish w)

/-- Takes the one action that is asked for. -/
def act (r : Request) (place : Place) (c : Compilation) (o : Outcome) : Outcome :=
  match r.action with
  | .tree => r.printTree place c o
  | .assembly => o.print place c.assembly
  | .run => r.runProgram place c o
  | .build => r.buildProgram place c o

/-- Does what is asked for. -/
def perform (r : Request) (place : Place) : Outcome :=
  match place.accident? .compilation with
  | some message => (Outcome.start place.files).fail place r (.internal message)
  | none =>
    let (result, records) := Compilation.ofSourceLogged ⟨r.comments, none⟩ r.source
    let o := (Outcome.start place.files).log r.verbose records
    match result with
    | .error e => o.fail place r (.ofSourceError e)
    | .ok c => r.act place c o

end Request

end Reckon.Command
