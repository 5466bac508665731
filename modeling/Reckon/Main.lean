import Reckon.Command.Line

/-!
# The executable

Reads what a command needs to know of its surroundings, has it carried out, and writes what it
printed and the files it made. The executable starts no other programs: the tools of a build count
as missing, so a build leaves its assembly file and reports the command that would assemble it.
-/

namespace Reckon.Command

/-- The environment variables that a command reads. -/
def readEnvironment : IO (List (String × String)) :=
  ["EXPRC_AS", "EXPRC_LD", "EXPRC_TARGET_DIR", "EXPRC_DYNAMIC_LINKER", "EXPRC_TIMEOUT"].filterMapM
    fun name => return (← IO.getEnv name).map fun value => (name, value)

/-- What there is at a path. -/
inductive Entry where
  | file
  | directory
  | nothing

/-- What there is at a path: reading a directory fails in a way of its own. -/
def entryAt (path : String) : IO Entry := do
  try
    discard (IO.FS.readBinFile path)
    return .file
  catch
    | .inappropriateType .. => return .directory
    | .permissionDenied .. => return .file
    | _ => return .nothing

/-- The files and directories that a path passes through, added to a tree. -/
def readAlong (path : Build.Path) (tree : Build.FileTree) : IO Build.FileTree := do
  let mut tree := tree
  for n in [1 : path.parts.length + 1] do
    let here : Build.Path := { path with parts := path.parts.take n }
    if let .ok l := tree.locate here then
      match ← entryAt here.render with
      | .directory => tree := { tree with directories := l :: tree.directories }
      | .file => tree := { tree with files := (l, "") :: tree.files }
      | .nothing => pure ()
  return tree

/-- Writes the files of an outcome that were not there before. -/
def writeNew (before after : Build.FileTree) : IO Unit := do
  for (l, text) in after.files do
    unless before.files.contains (l, text) do
      let path : Build.Path :=
        if l.head? = some "/" then ⟨"/", l.drop 1⟩ else ⟨"", l⟩
      IO.FS.createDirAll path.parent.render
      IO.FS.writeFile path.render text

/-- A moment as the number of a process. -/
def moment (time : Nat) : Text.Decimal :=
  .ofInt (time % 0x10000000000000000 : Nat) (by omega)

/-- What a command needs to know of its surroundings. Moments tell apart the names of two runs. -/
def readPlace (words : List String) : IO Place := do
  let environment ← readEnvironment
  let settings := (Build.Settings.ofEnvironment environment).1
  let mut files ← readAlong settings.targetDir (.ofFiles [])
  if let .ok (.work request) := Invocation.ofWords words then
    files ← readAlong (.ofString request.output) files
  return {
    environment
    files
    answers := [.missing]
    process := moment (← IO.monoNanosNow)
    echo := fun _ text => text
    accident? := fun _ => none }

end Reckon.Command

open Reckon.Command in
/-- Carries out a command line. -/
def main (words : List String) : IO UInt32 := do
  let place ← readPlace words
  match run words place with
  | .error e =>
    IO.eprint s!"Usage: exprc [OPTIONS] SOURCE\n\nError: {e.message}\n"
    return ExitCode.misuse.number.toUInt32
  | .ok o =>
    IO.print o.stdout
    IO.eprint o.stderr
    writeNew place.files o.files
    return o.exitCode.number.toUInt32
