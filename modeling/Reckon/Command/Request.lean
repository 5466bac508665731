/-!
# Requests

What a command is asked to do. Several actions may be asked for, of which one is taken.
-/

namespace Reckon.Command

/-- What a command does with a compiled program. -/
inductive Action where
  /-- Print its tree. -/
  | tree
  /-- Print its assembly text. -/
  | assembly
  /-- Run it and print its value. -/
  | run
  /-- Build an executable. -/
  | build
  deriving DecidableEq, Repr

/-- What a command is asked to do. -/
structure Request where
  /-- The program. -/
  source : String
  /-- The executable to build. -/
  output : String
  /-- Which actions are asked for. -/
  tree : Bool
  assembly : Bool
  run : Bool
  /-- Whether the assembly shows the statements. -/
  comments : Bool
  /-- Whether the work is reported in detail. -/
  verbose : Bool
  deriving DecidableEq, Repr

/-- The one action that is taken: the first that is asked for, and building if none is. -/
def Request.action (r : Request) : Action :=
  if r.tree then .tree
  else if r.assembly then .assembly
  else if r.run then .run
  else .build

end Reckon.Command
