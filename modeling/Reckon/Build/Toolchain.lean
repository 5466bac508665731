import Reckon.Build.FileTree
import Reckon.Build.Settings
import Reckon.Compilation
import Reckon.Text.Blank

/-!
# Assembling and linking

A build writes the assembly text of a program to a file of its own, has it assembled to an object
file and has that linked. The tools are outside: a build only sees their answers. Names of files
combine the number of the process with a count of the names drawn, so no two builds share a file.

Everything a build reads and changes is in its `Workshop`, which is kept when the build fails.
-/

namespace Reckon.Build

/-- A tool that a build uses. -/
inductive Tool where
  | assembler
  | linker
  deriving DecidableEq, Repr

/-- The name of a tool in messages. -/
def Tool.name : Tool → String
  | assembler => "assembler"
  | linker => "linker"

/-- Something outside of a build that broke down, with what is said about it. -/
structure Mishap where
  /-- The system did not permit what was tried. -/
  denied : Bool
  message : String
  deriving DecidableEq, Repr

/-- How a tool answered. -/
inductive ToolAnswer where
  /-- It ran and ended with a status, having written some text to its error stream. -/
  | finished (status : Text.Decimal) (stderr : String)
  /-- There is no such tool. -/
  | missing
  /-- It did not end in time. -/
  | timedOut
  /-- It could not be run, or what it wrote could not be read, for any other reason. -/
  | broken (mishap : Mishap)
  deriving DecidableEq, Repr

/-- A tool that did its work and has nothing to say. -/
def ToolAnswer.success : ToolAnswer := .finished (.ofInt 0) ""

/-- Why a tool did not do its work. -/
inductive ToolError.Cause where
  /-- A reason given in words. -/
  | general (text : String)
  | notFound (tool : Tool) (program : String)
  | timedOut (tool : Tool) (seconds : Text.Decimal)
  | failed (tool : Tool) (status : Text.Decimal)
  deriving DecidableEq, Repr

/-- The wording of a cause. -/
def ToolError.Cause.message : ToolError.Cause → String
  | general text => text
  | notFound tool program => s!"{tool.name} not found: {program}"
  | timedOut tool seconds => s!"{tool.name} timed out after {seconds}s"
  | failed tool status => s!"{tool.name} failed with exit status {status}"

/-- A tool that did not do its work. -/
structure ToolError where
  cause : ToolError.Cause
  /-- The command line of the tool. -/
  command : List String
  /-- The status it ended with, if it ended. -/
  status? : Option Int
  /-- What it wrote to its error stream. -/
  stderr : String
  deriving DecidableEq, Repr

/-- The wording of a tool error: the cause, the command line and what the tool had to say. -/
def ToolError.message (e : ToolError) : String :=
  let command := if e.command.isEmpty then [] else ["command: " ++ " ".intercalate e.command]
  let stderr :=
    if e.stderr.isEmpty then [] else [String.ofList (Text.trimRight e.stderr.toList)]
  "\n".intercalate (e.cause.message :: command ++ stderr)

/-- Why a build failed. -/
inductive BuildError where
  | tool (error : ToolError)
  | file (error : FileError)
  | mishap (mishap : Mishap)
  deriving DecidableEq, Repr

/-- The wording of a build error. -/
def BuildError.message : BuildError → String
  | tool error => error.message
  | file error => error.message
  | mishap m => m.message

/-- A command line with the seconds it may take. -/
structure Command where
  words : List String
  timeout : Text.Decimal
  deriving DecidableEq, Repr

/-- What builds read and change. -/
structure Workshop where
  files : FileTree
  /-- The answers of tools to come; after them every tool succeeds. -/
  answers : List ToolAnswer
  /-- The commands run so far. -/
  commands : Array Command
  /-- Number of names drawn. -/
  drawn : Nat
  /-- What was reported so far. -/
  log : Array LogRecord

/-- A workshop in which nothing has happened. -/
def Workshop.opening (files : FileTree) (answers : List ToolAnswer) : Workshop :=
  ⟨files, answers, #[], 0, #[]⟩

/-- Work that may fail, in a workshop that is kept. -/
abbrev Work := EStateM BuildError Workshop

/-- Reports something. -/
def Work.report (level : LogLevel) (message : String) : Work Unit :=
  modify fun w => { w with log := w.log.push ⟨level, "exprc.toolchain", message⟩ }

/-- Changes the files, as far as they can be changed. -/
def Work.onFiles (change : FileTree → FileTree.Change) : Work Unit := do
  let (files, error?) := change (← get).files
  modify fun w => { w with files }
  match error? with
  | some e => throw (.file e)
  | none => return ()

/-- Has a command run: the next answer is taken, success if there is none. -/
def Work.takeAnswer (command : Command) : Work ToolAnswer := do
  let w ← get
  set { w with answers := w.answers.drop 1, commands := w.commands.push command }
  return w.answers.headD .success

/-- What is used to build programs. -/
structure Toolchain where
  settings : Settings
  /-- The beginning of all names of files. -/
  stem : String
  /-- The number of the process. -/
  process : Text.Decimal
  deriving DecidableEq, Repr

namespace Toolchain

/-- The name with a number. -/
def nameOf (tc : Toolchain) (number : Nat) : String :=
  s!"{tc.stem}-{tc.process}-{number}"

/-- Draws the next name. -/
def nextName (tc : Toolchain) : Work String := do
  let number := (← get).drawn
  modify fun w => { w with drawn := number + 1 }
  return tc.nameOf number

/-- Gives up on a tool. -/
def fail (words : List String) (cause : ToolError.Cause) (status? : Option Int) (stderr : String) :
    Work Unit := do
  Work.report .error cause.message
  throw (.tool ⟨cause, words, status?, stderr⟩)

/-- Runs a tool and takes its answer. -/
def run (tc : Toolchain) (tool : Tool) (words : List String) : Work Unit := do
  Work.report .info (s!"Running {tool.name}: " ++ " ".intercalate words)
  let answer ← Work.takeAnswer ⟨words, tc.settings.timeout⟩
  match answer with
  | .missing => fail words (.notFound tool (words.headD "")) none ""
  | .timedOut => fail words (.timedOut tool tc.settings.timeout) none ""
  | .broken mishap => throw (.mishap mishap)
  | .finished status stderr =>
    if status.value = 0 then return ()
    else fail words (.failed tool status) (some status.value) stderr

/-- Writes an assembly text to a file of its own. The directory is made before the name is drawn,
and the name is drawn before the file is written. -/
def writeAssembly (tc : Toolchain) (assembly : String) : Work Path := do
  let dir := tc.settings.targetDir
  Work.onFiles fun files => files.makeDirectories dir
  let name ← tc.nextName
  let path := dir.join (.ofString (name ++ ".s"))
  Work.onFiles fun files => files.writeFile path assembly
  Work.report .debug s!"Wrote {assembly.length} characters of assembly to {path.render}"
  return path

/-- The command line of the assembler. -/
def assembleWords (tc : Toolchain) (source object : Path) : List String :=
  tc.settings.assembler :: tc.settings.assemblerFlags ++ ["-o", object.render, source.render]

/-- Has an assembly text assembled. -/
def assemble (tc : Toolchain) (assembly : String) : Work Path := do
  let source ← tc.writeAssembly assembly
  let object := source.withSuffix ".o"
  tc.run .assembler (tc.assembleWords source object)
  return object

/-- The command line of the linker. -/
def linkWords (tc : Toolchain) (objects : List Path) (output : Path) (libraries : List String) :
    List String :=
  let dynamic :=
    if libraries.isEmpty then []
    else ["-dynamic-linker", tc.settings.dynamicLinker] ++ libraries.map ("-l" ++ ·)
  [tc.settings.linker, "-o", output.render] ++ objects.map Path.render ++ dynamic

/-- Has object files linked. -/
def link (tc : Toolchain) (objects : List Path) (output : Path) (libraries : List String) :
    Work Path := do
  tc.run .linker (tc.linkWords objects output libraries)
  return output

/-- Builds a compiled program. Libraries are linked if the program calls routines. -/
def build (tc : Toolchain) (c : Compilation) (output : Path) : Work Path := do
  let object ← tc.assemble c.assembly
  let libraries := if c.needsLibrary then tc.settings.libraries else []
  let executable ← tc.link [object] output libraries
  Work.report .info s!"Built {executable.render}"
  return executable

end Toolchain

end Reckon.Build
