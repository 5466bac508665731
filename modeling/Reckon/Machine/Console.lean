import Reckon.Machine.Session
import Reckon.Text.Latin

/-!
# Console routines

`putchar` and `puts` in the shape of the library's: one writes a character, the other the text at an
address and a line feed. The world they act on is known to them only by how text is written to it.
-/

namespace Reckon.Machine

variable {World : Type}

/-- Writes the character of the first argument's low byte, and returns it. -/
def putchar (write : World → String → World) : Routine World := fun world machine arguments =>
  let char := wrap 8 (arguments.headD 0)
  (write world (Char.ofNat char).toString, machine, .ok (some char))

/-- Writes the text at the address of the first argument and a line feed, and returns how many
characters were written. -/
def puts (write : World → String → World) : Routine World := fun world machine arguments =>
  match machine.memory.readText (arguments.headD 0) with
  | .ok bytes =>
    let text := String.ofList (Text.decodeLatin bytes)
    (write world (text ++ "\n"), machine, .ok (some (bytes.length + 1)))
  | .error fault => (world, machine, .error fault)

/-- The console routine with a name. -/
def console? (write : World → String → World) (name : String) : Option (Routine World) :=
  if name = "putchar" then some (putchar write)
  else if name = "puts" then some (puts write)
  else none

end Reckon.Machine
