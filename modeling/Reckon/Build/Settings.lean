import Reckon.Build.Path
import Reckon.Log
import Reckon.Text.Digit
import Reckon.Text.Quoted

/-!
# Settings of a build

Which tools assemble and link, where their files go, and how long they may take. Environment
variables that are set and not empty take the place of the defaults; a time limit that is no number
is ignored with a warning.
-/

namespace Reckon.Build

/-- How programs are assembled and linked. -/
structure Settings where
  assembler : String
  linker : String
  /-- Directory of the assembly and object files. -/
  targetDir : Path
  assemblerFlags : List String
  /-- Program interpreter of executables linked with libraries. -/
  dynamicLinker : String
  /-- Libraries for programs that call routines. -/
  libraries : List String
  /-- Seconds that a tool may take. -/
  timeout : Text.Decimal
  deriving DecidableEq, Repr

namespace Settings

/-- The settings without any environment. -/
def standard : Settings :=
  { assembler := "as"
    linker := "ld"
    targetDir := .ofString "exprc-target"
    assemblerFlags := ["-g"]
    dynamicLinker := "/lib64/ld-linux-x86-64.so.2"
    libraries := ["c"]
    timeout := .ofInt 60 }

/-- An environment variable that is set and not empty. -/
def lookup? (environment : List (String × String)) (name : String) : Option String :=
  (environment.lookup name).filter (· != "")

/-- The time limit that a text sets, or the standard one and a warning. -/
def readTimeout (text : String) : Text.Decimal × List LogRecord :=
  match read : Text.readInteger? text.toList with
  | some seconds => (⟨seconds, Text.isWritable_of_readInteger? read⟩, [])
  | none =>
    (standard.timeout,
      [{ level := .warning
         origin := "exprc.toolchain"
         message := "Ignoring invalid EXPRC_TIMEOUT value: " ++ Text.quoted text }])

/-- The settings that an environment makes. -/
def ofEnvironment (environment : List (String × String)) : Settings × List LogRecord :=
  let read := lookup? environment
  let (timeout, log) :=
    match read "EXPRC_TIMEOUT" with
    | some text => readTimeout text
    | none => (standard.timeout, [])
  ({ standard with
      assembler := (read "EXPRC_AS").getD standard.assembler
      linker := (read "EXPRC_LD").getD standard.linker
      targetDir := ((read "EXPRC_TARGET_DIR").map Path.ofString).getD standard.targetDir
      dynamicLinker := (read "EXPRC_DYNAMIC_LINKER").getD standard.dynamicLinker
      timeout }, log)

end Settings

end Reckon.Build
