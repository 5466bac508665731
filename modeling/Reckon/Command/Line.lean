import Reckon.Command
import Reckon.Command.Arguments

/-!
# Command lines

The words that a command is given are read, and what they ask for is done. Words that cannot be read
are reported by a `UsageError`, and so is an output that is a directory.
-/

namespace Reckon.Command

/-- The version of the command. -/
def versionText : String := "exprc, version 1.0.0\n"

/-- How the command is used. -/
def helpText : String :=
  "Usage: exprc [OPTIONS] SOURCE\n\n" ++
  "  Compile an arithmetic expression program to x86-64.\n\n" ++
  "Options:\n" ++
  "  -o, --output FILE  Executable to produce  [default: out]\n" ++
  "  -S, --assembly     Print the assembly to stdout instead of building\n" ++
  "  --ast              Print AST and exit (for debugging)\n" ++
  "  --run              Execute the program in the emulator and print its exit\n" ++
  "                     value\n" ++
  "  --comments         Annotate the assembly with each statement\n" ++
  "  -v, --verbose      Verbose output\n" ++
  "  --version          Show the version and exit.\n" ++
  "  --help             Show this message and exit.\n"

/-- The output that is asked for is a directory. An empty name is none. -/
def outputIsDirectory (files : Build.FileTree) (output : String) : Bool :=
  output != "" && files.hasDirectory (.ofString output)

/-- Carries out a command line. -/
def run (words : List String) (place : Place) : Except UsageError Outcome := do
  match ← Invocation.ofWords words with
  | .version => return (Outcome.start place.files).print place versionText
  | .help => return (Outcome.start place.files).print place helpText
  | .work request =>
    if outputIsDirectory place.files request.output then
      throw (.outputIsDirectory request.output)
    return request.perform place

end Reckon.Command
