import Reckon.Assembly.Reader
import Reckon.Machine.Session

/-!
# Running assembly text

Reads a program from its text and runs it from the entry point, with routines that act on a world.
-/

namespace Reckon.Machine

variable {World : Type}

/-- What running a text comes to. -/
structure Execution (World : Type) where
  /-- How the program ended, or the fault that stopped it. -/
  result : Except Fault Exit
  /-- The world after the run. -/
  world : World
  /-- The calls of outside routines, in order. -/
  calls : Array Call
  /-- What was reported on the way. -/
  log : List LogRecord

/-- A session at the entry point of a program, with the routines it may call. -/
def load (text : String) (routine? : String → Option (Routine World)) (world : World) :
    Except Fault (Setup World × Session World) := do
  let image ← Assembly.Image.ofText text
  let session ← Session.start image world
  return (⟨image, routine?⟩, session)

/-- Runs an assembly text with a budget of steps. -/
def Execution.ofText (text : String) (routine? : String → Option (Routine World)) (world : World)
    (limit : Int) : Execution World :=
  match load text routine? world with
  | .error fault => ⟨.error fault, world, #[], []⟩
  | .ok (setup, session) =>
    let (session', result) := session.run setup Session.unobserved limit
    ⟨result, session'.world, session'.calls, runLog session session' result⟩

end Reckon.Machine
