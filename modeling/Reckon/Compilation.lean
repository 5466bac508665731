import Reckon.Code.Listing
import Reckon.Program.Parser

/-!
# Compiling a source text

Compilation reads a program and generates its code. It stops at the first error of either stage.
-/

namespace Reckon

/-- A compiled program. -/
structure Compilation where
  /-- The source text. -/
  source : String
  /-- The program it holds. -/
  program : Program
  /-- Number of tokens of the program, blanks apart. -/
  tokenCount : Nat
  /-- The code. -/
  listing : Code.Listing
  /-- The routines that the program calls, each once, by first call. -/
  externals : List String

namespace Compilation

/-- The assembly text of a compiled program. -/
def assembly (c : Compilation) : String :=
  c.listing.text

/-- The program must be linked with the library. -/
def needsLibrary (c : Compilation) : Bool :=
  !c.externals.isEmpty

/-- What is reported about a compilation as a whole. -/
def record (c : Compilation) : LogRecord :=
  { level := .debug
    origin := "exprc.compiler"
    message := s!"Compiled {c.source.length} characters: {c.tokenCount} tokens, " ++
      s!"{c.program.statements.length} statements" }

/-- Compiles a source text, and reports what was done. -/
def ofSourceLogged (options : Code.Options) (source : String) :
    Except SourceError Compilation × List LogRecord :=
  let parsing := Parsing.ofSource source
  match parsing.result with
  | .error error => (.error error, [])
  | .ok program =>
    let generation := Code.generate options program
    match generation.result with
    | .error error => (.error error, parsing.log)
    | .ok listing =>
      let c : Compilation := ⟨source, program, parsing.consumed, listing, generation.externals⟩
      (.ok c, parsing.log ++ generation.log program ++ [c.record])

/-- Compiles a source text. -/
def ofSource (options : Code.Options) (source : String) : Except SourceError Compilation :=
  (ofSourceLogged options source).1

end Compilation

end Reckon
