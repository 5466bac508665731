import Reckon.Machine.Session

/-!
# What routines may do to the machine

A routine is given the machine as a whole, and may do anything to it. What is known of a run depends
on how much of that the routines leave undone:

* `Routine.Inert`: the registers, the memory and the instruction pointer are left alone.
* `Routine.ReadOnly`: the whole machine is left alone. The routine may look at it, and may fail.
* `Routine.Passive`: read-only, and returns whenever it is called.
* `Routine.Oblivious`: read-only, and sees of the machine only the registers and the memory.

`Routine.Recordable` is what read-only and passive routines have in common: what such a routine
comes to can be written down as an entry of some kind.
-/

namespace Reckon.Machine.Routine

variable {World Entry : Type} {routine : Routine World} {read : Entry → Except Fault (Option Int)}

/-- A routine that leaves the registers, the memory and the instruction pointer alone. -/
def Inert (routine : Routine World) : Prop :=
  ∀ world m words, (routine world m words).2.1.registers = m.registers ∧
    (routine world m words).2.1.memory = m.memory ∧
    (routine world m words).2.1.counter = m.counter

/-- A routine that leaves the machine alone. It may look at the machine, and may fail. -/
def ReadOnly (routine : Routine World) : Prop :=
  ∀ world m words, (routine world m words).2.1 = m

/-- A routine that returns, and leaves the machine alone. It may look at the machine. -/
def Passive (routine : Routine World) : Prop :=
  ∀ world m words, ∃ world' returned, routine world m words = (world', m, .ok returned)

/-- A routine that leaves the machine alone, and that sees of it only the registers and the
memory. -/
def Oblivious (routine : Routine World) : Prop :=
  ∃ answer : World → Registers → Memory → List Int → World × Except Fault (Option Int),
    ∀ world m words, routine world m words =
      ((answer world m.registers m.memory words).1, m, (answer world m.registers m.memory words).2)

/-- A routine that leaves the machine alone, and that comes to what can be read from an entry. -/
def Recordable (read : Entry → Except Fault (Option Int)) (routine : Routine World) : Prop :=
  ∀ world m words, ∃ world' entry, routine world m words = (world', m, read entry)

theorem Passive.recordable (passive : routine.Passive) : routine.Recordable Except.ok :=
  passive

theorem ReadOnly.recordable (readOnly : routine.ReadOnly) : routine.Recordable id := by
  intro world m words
  refine ⟨_, _, Prod.ext rfl (Prod.ext (readOnly world m words) rfl)⟩

theorem Recordable.readOnly (recordable : routine.Recordable read) : routine.ReadOnly := by
  intro world m words
  obtain ⟨world', entry, ran⟩ := recordable world m words
  rw [ran]

theorem Oblivious.readOnly (oblivious : routine.Oblivious) : routine.ReadOnly := by
  obtain ⟨answer, answers⟩ := oblivious
  intro world m words
  rw [answers]

theorem ReadOnly.inert (readOnly : routine.ReadOnly) : routine.Inert := by
  intro world m words
  rw [readOnly world m words]
  exact ⟨rfl, rfl, rfl⟩

end Reckon.Machine.Routine
