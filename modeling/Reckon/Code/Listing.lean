import Reckon.Code.Drafting
import Reckon.Code.Literal
import Reckon.Log

/-!
# Assembly listings

A listing is a whole assembly text: the entry point, which calls `main` and leaves the process with
what `main` returns, the frame of `main` around the code of the statements, and the pool of string
literals. A freestanding program leaves by a system call, any other through the library routine
`exit`.
-/

namespace Reckon.Code

/-- Bytes to which the frame is rounded up. -/
def stackAlignment : Nat := 16

/-- The number of the system call that ends a process. -/
def exitSystemCall : Nat := 60

/-- What a program is compiled to. -/
structure Listing where
  /-- The program leaves by a system call. -/
  freestanding : Bool
  /-- Number of variables. -/
  slots : Nat
  /-- The code of the statements. -/
  body : List Line
  /-- The pool of string literals. -/
  literals : List String

/-- Bytes of the frame: the variables, rounded up. -/
def frameSize (slots : Nat) : Nat :=
  (slots * wordSize + (stackAlignment - 1)) / stackAlignment * stackAlignment

/-- The entry point of the process. -/
def entry (freestanding : Bool) : List Line :=
  let leave :=
    if freestanding then [two .mov (.immediate exitSystemCall) eax, .instruction ⟨.syscall, []⟩]
    else [one .call (.symbol "exit")]
  [.directive ".text" none, .directive ".globl" (some "_start"), .label "_start",
    two .xor (.register .rbp .double) (.register .rbp .double), one .call (.symbol "main"),
    two .mov eax (.register .rdi .double)] ++ leave

/-- The beginning of `main`, which makes room for the variables. -/
def prologue (slots : Nat) : List Line :=
  let frame := frameSize slots
  [.directive ".globl" (some "main"), .label "main", one .push rbp, two .mov rsp rbp] ++
    if frame = 0 then [] else [two .sub (.immediate frame) rsp]

/-- The end of `main`. -/
def epilogue : List Line :=
  [two .mov rbp rsp, one .pop rbp, .instruction ⟨.ret, []⟩]

/-- The pool of string literals, each under its label. -/
def literalLines (literals : List String) : List Line :=
  if literals.isEmpty then []
  else
    .directive ".section" (some ".rodata") ::
      literals.zipIdx.flatMap fun (raw, place) =>
        [.label (literalLabel place),
          .directive ".string"
            (some ("\"" ++ String.ofList (escapeControls raw.toList) ++ "\""))]

/-- The lines of a listing. -/
def Listing.lines (l : Listing) : List Line :=
  entry l.freestanding ++ prologue l.slots ++ l.body ++ epilogue ++ literalLines l.literals ++
    [.directive ".section" (some ".note.GNU-stack,\"\",@progbits")]

/-- The assembly text of a listing. -/
def Listing.text (l : Listing) : String :=
  "\n".intercalate (l.lines.map Line.render) ++ "\n"

/-- How code is generated. -/
structure Options where
  /-- Announce each statement in a remark. -/
  comments : Bool := false
  /-- Leave by a system call or through the library; left open, the library is used exactly if the
  program calls routines. -/
  freestanding? : Option Bool := none
  deriving DecidableEq, Repr

/-- What generating code comes to. -/
structure Generation where
  /-- The listing, or the first error. -/
  result : Except SourceError Listing
  /-- The routines called, each once, by first call; after an error those called before it. -/
  externals : List String

/-- What work on a draft comes to. -/
def Generation.ofResult : EStateM.Result SourceError Draft Listing → Generation
  | .ok listing d => ⟨.ok listing, d.externals⟩
  | .error error d => ⟨.error error, d.externals⟩

/-- The code of a program, on a draft that is cleared first. The size of the frame is written last,
and may be too long to be written where the offsets of all variables are not. -/
def Drafting.listing (options : Options) (program : Program) : Drafting Listing := do
  set Draft.empty
  statements options.comments 1 program.statements
  let d ← get
  let freestanding := options.freestanding?.getD d.externals.isEmpty
  if Text.isWritable (frameSize program.table.size) then
    return ⟨freestanding, program.table.size, d.lines.toList, d.literals⟩
  else throw .unwritable

/-- Generates the code of a program. -/
def generate (options : Options) (program : Program) : Generation :=
  .ofResult ((Drafting.listing options program).run .empty)

/-- What is reported about generated code. -/
def Generation.log (g : Generation) (program : Program) : List LogRecord :=
  match g.result with
  | .ok listing =>
    let mode := if listing.freestanding then "freestanding" else "libc"
    let called := if g.externals.isEmpty then "none" else ", ".intercalate g.externals
    [{ level := .debug
       origin := "exprc.codegen"
       message := s!"Generated {listing.lines.length} lines for " ++
        s!"{program.statements.length} statements ({mode}, externals: {called})" }]
  | .error _ => []

/-- A generator writes the assembly of one program after another to a text. -/
structure Generator where
  /-- How code is generated. -/
  options : Options
  /-- The assembly written so far. -/
  written : String
  /-- The draft of the last program, finished or not. -/
  draft : Draft

/-- The routines called by the last program. -/
def Generator.externals (g : Generator) : List String :=
  g.draft.externals

/-- Generates one more program, on the draft of the last one. A program with an error leaves what is
written as it is. -/
def Generator.generate (g : Generator) (program : Program) :
    Except SourceError String × Generator × List LogRecord :=
  let result := (Drafting.listing g.options program).run g.draft
  let log := (Generation.ofResult result).log program
  match result with
  | .ok listing d =>
    let text := listing.text
    (.ok text, { g with written := g.written ++ text, draft := d }, log)
  | .error error d => (.error error, { g with draft := d }, log)

end Reckon.Code
