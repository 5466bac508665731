import Reckon.Log
import Reckon.Machine.Execute

/-!
# Runs

A session is a machine on its way through a program: the number of steps taken, the outside world
that routines act on, and the calls of routines so far.

`Session.run` goes on until the program ends, a fault stops it, or it has taken as many steps as it
may. A run that was stopped can be taken up again from the session it left. `Session.visits` lists
the states from which the same run executes its instructions.
-/

namespace Reckon.Machine

open Reckon.Assembly (Image Instruction Operand)

/-- An outside routine: what it makes of the world and the machine when it is given the six words in
the argument registers, and the value it returns if it returns one. It may look at all of the
machine and change it, but it sees neither the program that is run, nor the observer, nor the steps
taken and allowed. -/
def Routine (World : Type) :=
  World → Machine → List Int → World × Machine × Except Fault (Option Int)

/-- A program with the routines it may call. -/
structure Setup (World : Type) where
  /-- The program. -/
  image : Image
  /-- The routine with a name. -/
  routine? : String → Option (Routine World)

/-- A call of an outside routine. -/
structure Call where
  name : String
  arguments : List Int
  deriving DecidableEq, Repr

/-- A machine on its way through a program. -/
structure Session (World : Type) where
  machine : Machine
  /-- Number of instructions executed. -/
  steps : Nat
  /-- What routines act on. -/
  world : World
  /-- The calls of outside routines, in order. -/
  calls : Array Call

/-- How a program ended. -/
structure Exit where
  /-- The exit value, with sign. -/
  value : Int
  /-- What the system reports: the low byte of the value. -/
  status : Nat
  /-- Number of instructions executed. -/
  steps : Nat
  deriving DecidableEq, Repr

namespace Session

variable {World : Type}

/-- The session before the first instruction of a program. -/
def start (image : Image) (world : World) : Except Fault (Session World) :=
  (Machine.entry image).map fun machine => ⟨machine, 0, world, #[]⟩

/-- The session with its machine put back before the first instruction. -/
def restart (s : Session World) (image : Image) : Except Fault (Session World) :=
  (Machine.entry image).map fun machine => { s with machine, steps := 0 }

/-- What an attempt of the machine means for the session. -/
def attempt (s : Session World) (a : Attempt) : Session World × Option Fault :=
  ({ s with machine := a.1 }, a.2)

/-- Calls an outside routine. The stack pointer must be a multiple of sixteen, and the arguments
must be short enough to be reported. -/
def callRoutine (s : Session World) (i : Instruction) (name : String) (routine : Routine World) :
    Session World × Option Fault :=
  if s.machine.get .rsp % 16 ≠ 0 then (s, some (.onLine i.line (.misalignedCall name)))
  else
    let arguments := s.machine.registers.arguments
    if !arguments.all Text.isWritable then (s, some .unwritable)
    else
      let (world, machine, result) := routine s.world s.machine arguments
      let s' := { s with world, machine, calls := s.calls.push ⟨name, arguments⟩ }
      match result with
      | .ok returned => ({ s' with machine := machine.set .rax (wrap 64 (returned.getD 0)) }, none)
      | .error fault => (s', some fault)

/-- Calls by name: a label of the program, the end of the program, or an outside routine. -/
def call (s : Session World) (setup : Setup World) (i : Instruction) :
    Session World × Option Fault :=
  match i.operands with
  | [.symbol name] =>
    match setup.image.codeLabels.get? name with
    | some target => s.attempt (s.machine.callLabel target)
    | none =>
      if name = "exit" then s.attempt (s.machine.exit, none)
      else
        match setup.routine? name with
        | some routine => s.callRoutine i name routine
        | none => (s, some (.onLine i.line (.undefinedSymbol name)))
  | [_] => (s, some (.onLine i.line .indirectCall))
  | _ => (s, some (wrongCount i 1))

/-- Executes an instruction that the instruction pointer has moved past. -/
def execute (s : Session World) (setup : Setup World) (i : Instruction) :
    Session World × Option Fault :=
  let m := s.machine
  let image := setup.image
  match Opcode.ofName? i.mnemonic with
  | some .mov => s.attempt (m.orUnchanged (m.move image i))
  | some .add => s.attempt (m.orUnchanged (m.combine image i fun a b => a + b))
  | some .sub => s.attempt (m.orUnchanged (m.combine image i fun a b => a - b))
  | some .imul => s.attempt (m.orUnchanged (m.combine image i fun a b => a * b))
  | some .xor => s.attempt (m.orUnchanged (m.combine image i fun a b => (a ^^^ b : Nat)))
  | some .idiv => s.attempt (m.orUnchanged (m.divide i))
  | some .lea => s.attempt (m.orUnchanged (m.loadAddress image i))
  | some .push => s.attempt (m.pushOperand image i)
  | some .pop => s.attempt (m.popOperand image i)
  | some .call => s.call setup i
  | some .ret => s.attempt (m.orUnchanged (m.returnToCaller i))
  | some .syscall => s.attempt (m.orUnchanged (m.systemCall i))
  | none => (s, some (.onLine i.line (.unsupportedInstruction i.mnemonic)))

/-- Takes one step: moves past an instruction and executes it. -/
def step (s : Session World) (setup : Setup World) (i : Instruction) :
    Session World × Option Fault :=
  let moved := { s.machine with counter := s.machine.counter + 1 }
  { s with machine := moved, steps := s.steps + 1 }.execute setup i

/-- An observer is shown the index of each instruction and the instruction before it is executed,
and may stop the run there. -/
abbrev Observer := Nat → Instruction → Bool

/-- The observer that never stops a run. -/
def unobserved : Observer := fun _ _ => false

/-- The instruction that comes next. -/
def fetch (s : Session World) (setup : Setup World) : Except Fault Instruction :=
  match setup.image.instructions[s.machine.counter]? with
  | some i => .ok i
  | none => .error (.raised .ranPastEnd none)

/-- Runs for at most `allowed` steps; `limit` is the budget that a fault speaks of. -/
def runFor (setup : Setup World) (stops : Observer) (limit : Int) :
    (allowed : Nat) → Session World → Session World × Except Fault Int
  | allowed, s =>
    match s.machine.exit? with
    | some value => (s, .ok value)
    | none =>
      match allowed with
      | 0 => (s, .error (.outOfSteps limit))
      | allowed + 1 =>
        match s.fetch setup with
        | .error fault => (s, .error fault)
        | .ok i =>
          if stops s.machine.counter i then (s, .error (.onLine i.line .stopped))
          else
            match s.step setup i with
            | (s', none) => runFor setup stops limit allowed s'
            | (s', some fault) => (s', .error fault)

/-- The steps that a budget leaves to a session. -/
def allowance (s : Session World) (limit : Int) : Nat :=
  (limit - s.steps).toNat

/-- Runs until the program ends, a fault stops it, or the budget of steps is used up. -/
def run (s : Session World) (setup : Setup World) (stops : Observer) (limit : Int) :
    Session World × Except Fault Exit :=
  let (s', result) := runFor setup stops limit (s.allowance limit) s
  (s', result.map fun value =>
    let value := signed 32 value
    ⟨value, wrap 8 value, s'.steps⟩)

/-- A state from which an instruction is about to be executed. -/
structure Visit where
  /-- Index of the instruction. -/
  index : Nat
  instruction : Instruction
  registers : Registers

/-- The visits of a run of at most `allowed` steps. -/
def visitsFor (setup : Setup World) (stops : Observer) :
    (allowed : Nat) → Session World → List Visit
  | 0, _ => []
  | allowed + 1, s =>
    match s.machine.exit?, s.fetch setup with
    | none, .ok i =>
      let visit : Visit := ⟨s.machine.counter, i, s.machine.registers⟩
      if stops s.machine.counter i then [visit]
      else
        match s.step setup i with
        | (s', none) => visit :: visitsFor setup stops allowed s'
        | (_, some _) => [visit]
    | _, _ => []

/-- The states from which a run executes its instructions, the one it is stopped at included. -/
def visits (s : Session World) (setup : Setup World) (stops : Observer) (limit : Int) :
    List Visit :=
  visitsFor setup stops (s.allowance limit) s

end Session

/-- What is reported about a call of a routine. -/
def Call.record (c : Call) : LogRecord :=
  { level := .debug
    origin := "exprc.emulator"
    message := "External call " ++ c.name ++ "(" ++
      ", ".intercalate (c.arguments.map fun a => toString a) ++ ")" }

/-- What is reported about the end of a program. -/
def Exit.record (e : Exit) : LogRecord :=
  { level := .debug
    origin := "exprc.emulator"
    message := s!"Program exited with {e.value} after {e.steps} steps" }

/-- What is reported about a run between two sessions: the calls made, and the end if it was
reached. -/
def runLog {World : Type} (before after : Session World) (result : Except Fault Exit) :
    List LogRecord :=
  ((after.calls.toList.drop before.calls.size).map Call.record) ++
    match result with
    | .ok e => [e.record]
    | .error _ => []

end Reckon.Machine
