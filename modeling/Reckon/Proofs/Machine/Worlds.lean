import Reckon.Proofs.Machine.Calls

/-!
# Runs in other worlds

The world of a session is there for the routines; the machine itself knows nothing of it. So a step
that calls no routine is the same in every world, and whatever routines the program has
(`Session.meets_step`). A call of a routine is refused in all worlds or in none
(`Session.callRoutine_cases`).
-/

namespace Reckon.Machine

open Assembly (Instruction)

variable {World World' : Type} {setup : Setup World} {actor : Routine World'}

/-- The program with one routine, of another world, in the place of all its routines. -/
def Setup.inWorld (setup : Setup World) (actor : Routine World') : Setup World' :=
  ⟨setup.image, fun name => (setup.routine? name).map fun _ => actor⟩

namespace Session

/-- The session in another world. -/
def inWorld (s : Session World) (world : World') : Session World' :=
  ⟨s.machine, s.steps, world, s.calls⟩

/-- What an instruction does to a session has nothing to do with the world, and is then the same in
other worlds; or it is a call of a routine. -/
inductive Meets (setup : Setup World) (actor : Routine World') (s : Session World) (i : Instruction)
    (outcome : Session World × Option Fault)
    (elsewhere : World' → Session World' × Option Fault) : Prop
  | nothing : outcome.1.calls = s.calls →
    (∀ world, elsewhere world = (outcome.1.inWorld world, outcome.2)) →
    Meets setup actor s i outcome elsewhere
  | routine {name : String} {routine : Routine World} : setup.routine? name = some routine →
    outcome = s.callRoutine i name routine →
    (∀ world, elsewhere world = (s.inWorld world).callRoutine i name actor) →
    Meets setup actor s i outcome elsewhere

theorem meets_call (s : Session World) (i : Instruction) :
    Meets setup actor s i (s.call setup i)
      fun world => (s.inWorld world).call (setup.inWorld actor) i := by
  obtain ⟨mnemonic, operands, line⟩ := i
  unfold call
  dsimp only [Setup.inWorld]
  split
  · next name =>
    cases labelled : setup.image.codeLabels.get? name with
    | some target => exact .nothing rfl fun world => rfl
    | none =>
      dsimp only
      by_cases exits : name = "exit"
      · simp only [if_pos exits]
        exact .nothing rfl fun world => rfl
      · simp only [if_neg exits]
        cases named : setup.routine? name with
        | none => exact .nothing rfl fun world => rfl
        | some routine => exact .routine named rfl fun world => rfl
  · exact .nothing rfl fun world => rfl
  · exact .nothing rfl fun world => rfl

/-- A step calls a routine, or has nothing to do with the world. -/
theorem meets_step (setup : Setup World) (actor : Routine World') (s : Session World)
    (i : Instruction) :
    Meets setup actor s.moved i (s.step setup i)
      fun world => (s.inWorld world).step (setup.inWorld actor) i := by
  unfold step execute
  dsimp only [Setup.inWorld]
  split
  case h_10 => exact meets_call s.moved i
  all_goals exact .nothing rfl fun world => rfl

/-! ## Calls of routines -/

/-- The session after a routine has come out in some way. -/
def answered (s : Session World) (name : String)
    (outcome : World × Machine × Except Fault (Option Int)) : Session World × Option Fault :=
  let s' : Session World := ⟨outcome.2.1, s.steps, outcome.1,
    s.calls.push ⟨name, s.machine.registers.arguments⟩⟩
  match outcome.2.2 with
  | .ok returned =>
    ({ s' with machine := outcome.2.1.set .rax (wrap 64 (returned.getD 0)) }, none)
  | .error fault => (s', some fault)

/-- A call is refused, whatever the world and the routine, or the routine is run. -/
theorem callRoutine_cases (s : Session World) (i : Instruction) (name : String) :
    (∃ fault, ∀ (World' : Type) (world : World') (routine : Routine World'),
      (s.inWorld world).callRoutine i name routine = (s.inWorld world, some fault)) ∨
    ∀ (World' : Type) (world : World') (routine : Routine World'),
      (s.inWorld world).callRoutine i name routine = (s.inWorld world).answered name
        (routine world s.machine s.machine.registers.arguments) := by
  by_cases misaligned : s.machine.get .rsp % 16 ≠ 0
  · exact .inl ⟨_, fun _ _ _ => if_pos misaligned⟩
  by_cases unwritable : (!s.machine.registers.arguments.all Text.isWritable) = true
  · exact .inl ⟨_, fun _ _ _ => (if_neg misaligned).trans (if_pos unwritable)⟩
  · exact .inr fun _ _ _ => (if_neg misaligned).trans (if_neg unwritable)

theorem calls_answered (s : Session World) (name : String)
    (outcome : World × Machine × Except Fault (Option Int)) :
    (s.answered name outcome).1.calls = s.calls.push ⟨name, s.machine.registers.arguments⟩ := by
  obtain ⟨world, m, fault | returned⟩ := outcome
  · rfl
  · rfl

/-- What a routine comes to has the same effect in all worlds, but for the world. -/
theorem answered_inWorld (s : Session World) (name : String) (m : Machine)
    (result : Except Fault (Option Int)) (before after : World') (world : World) :
    (s.inWorld before).answered name (after, m, result) =
      ((s.answered name (world, m, result)).1.inWorld after,
        (s.answered name (world, m, result)).2) := by
  cases result with
  | ok returned => rfl
  | error fault => rfl

/-- A step makes one call or none. -/
theorem calls_step (s : Session World) (i : Instruction) :
    (s.step setup i).1.calls = s.calls ∨ ∃ call, (s.step setup i).1.calls = s.calls.push call := by
  cases meets_step setup (fun (_ : Unit) m _ => ((), m, .ok none)) s i with
  | nothing kept => exact .inl kept
  | @routine name routine _ ran _ =>
    rw [ran]
    rcases callRoutine_cases s.moved i name with ⟨fault, refused⟩ | run
    · have here : s.moved.callRoutine i name routine = _ := refused World s.moved.world routine
      rw [here]
      exact .inl rfl
    · have here : s.moved.callRoutine i name routine = _ := run World s.moved.world routine
      rw [here]
      exact .inr ⟨_, calls_answered ..⟩

end Session

end Reckon.Machine
