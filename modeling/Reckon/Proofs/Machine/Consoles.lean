import Mathlib.Data.Option.Defs
import Reckon.Machine.Console
import Reckon.Machine.Execution
import Reckon.Proofs.Machine.Worlds

/-!
# What a console shows

A machine learns nothing of the world but what routines return. So where the routines of one world
do what those of another do, seen through a view of that world, whole runs are the same through that
view (`Execution.ofText_mirrored`).

For the console this separates a run from what is written on the way: a console may as well take
notes of the calls and the machines that made them, and the texts be made out afterwards.
`Moment.text?` says what text belongs to a call.

Main statement: a program that is run on a console writes, in the order of its calls, the text of
each call (`Execution.ofText_console`).
-/

namespace Reckon.Machine

open Assembly (Image Instruction)

variable {World World' : Type}

/-! ## Worlds seen through a view -/

/-- A routine does in one world what another does in a world seen through `view`. -/
def Routine.Mirrors (view : World → World') (routine : Routine World) (mirror : Routine World') :
    Prop :=
  ∀ world m arguments, mirror (view world) m arguments =
    (view (routine world m arguments).1, (routine world m arguments).2)

section Mirrored

variable {view : World → World'} {routine? : String → Option (Routine World)}
  {mirror? : String → Option (Routine World')}
  (mirrored : ∀ name, Option.Rel (Routine.Mirrors view) (routine? name) (mirror? name))

namespace Session

/-- The session with its world seen through a view. -/
def through (view : World → World') (s : Session World) : Session World' :=
  s.inWorld (view s.world)

theorem callRoutine_mirrors {routine : Routine World} {mirror : Routine World'}
    (mirrors : routine.Mirrors view mirror) (s : Session World) (i : Instruction) (name : String) :
    (s.through view).callRoutine i name mirror =
      ((s.callRoutine i name routine).1.through view, (s.callRoutine i name routine).2) := by
  rcases callRoutine_cases s i name with ⟨fault, refused⟩ | run
  · have here : s.callRoutine i name routine = _ := refused World s.world routine
    rw [here, through, refused]
    rfl
  · have here : s.callRoutine i name routine = _ := run World s.world routine
    rw [here, through, run, mirrors]
    generalize routine s.world s.machine s.machine.registers.arguments = outcome
    obtain ⟨world, m, fault | returned⟩ := outcome
    · rfl
    · rfl

include mirrored

theorem call_mirrored (image : Image) (s : Session World) (i : Instruction) :
    (s.through view).call ⟨image, mirror?⟩ i =
      ((s.call ⟨image, routine?⟩ i).1.through view, (s.call ⟨image, routine?⟩ i).2) := by
  obtain ⟨mnemonic, operands, line⟩ := i
  unfold call
  dsimp only
  split
  · next name =>
    cases image.codeLabels.get? name with
    | some target => rfl
    | none =>
      dsimp only
      by_cases exits : name = "exit"
      · simp only [if_pos exits]
        rfl
      · simp only [if_neg exits]
        have related := mirrored name
        generalize routine? name = routine, mirror? name = mirror at related
        cases related with
        | none => rfl
        | some mirrors => exact callRoutine_mirrors mirrors s _ name
  · rfl
  · rfl

theorem step_mirrored (image : Image) (s : Session World) (i : Instruction) :
    (s.through view).step ⟨image, mirror?⟩ i =
      ((s.step ⟨image, routine?⟩ i).1.through view, (s.step ⟨image, routine?⟩ i).2) := by
  unfold step execute
  dsimp only
  split
  case h_10 => exact call_mirrored mirrored image s.moved i
  all_goals rfl

theorem runFor_mirrored (image : Image) (stops : Observer) (limit : Int) (allowed : Nat)
    (s : Session World) :
    runFor ⟨image, mirror?⟩ stops limit allowed (s.through view) =
      ((runFor ⟨image, routine?⟩ stops limit allowed s).1.through view,
        (runFor ⟨image, routine?⟩ stops limit allowed s).2) := by
  induction allowed generalizing s with
  | zero =>
    have machine : (s.through view).machine = s.machine := rfl
    unfold runFor
    rw [machine]
    cases s.machine.exit? with
    | some value => rfl
    | none => rfl
  | succ allowed ih =>
    have machine : (s.through view).machine = s.machine := rfl
    have fetches : (s.through view).fetch ⟨image, mirror?⟩ = s.fetch ⟨image, routine?⟩ := rfl
    unfold runFor
    rw [machine, fetches]
    cases s.machine.exit? with
    | some value => rfl
    | none =>
      dsimp only
      cases s.fetch ⟨image, routine?⟩ with
      | error fault => rfl
      | ok i =>
        dsimp only
        rw [step_mirrored mirrored]
        cases stops s.machine.counter i with
        | true => rfl
        | false =>
          simp only [Bool.false_eq_true, if_false]
          generalize s.step ⟨image, routine?⟩ i = outcome
          obtain ⟨s₁, _ | fault⟩ := outcome
          · exact ih s₁
          · rfl

theorem run_mirrored (image : Image) (stops : Observer) (limit : Int) (s : Session World) :
    (s.through view).run ⟨image, mirror?⟩ stops limit =
      ((s.run ⟨image, routine?⟩ stops limit).1.through view,
        (s.run ⟨image, routine?⟩ stops limit).2) := by
  have allowed : (s.through view).allowance limit = s.allowance limit := rfl
  unfold run
  rw [allowed, runFor_mirrored mirrored]
  rfl

end Session

/-- What running a text comes to, with the world seen through a view. -/
def Execution.through (view : World → World') (e : Execution World) : Execution World' :=
  ⟨e.result, view e.world, e.calls, e.log⟩

theorem Execution.result_through (e : Execution World) : (e.through view).result = e.result := rfl

theorem Execution.world_through (e : Execution World) : (e.through view).world = view e.world := rfl

theorem Execution.calls_through (e : Execution World) : (e.through view).calls = e.calls := rfl

include mirrored

/-- Running a text comes to the same through a view. -/
theorem Execution.ofText_mirrored (text : String) (world : World) (limit : Int) :
    Execution.ofText text mirror? (view world) limit =
      (Execution.ofText text routine? world limit).through view := by
  unfold Execution.ofText load
  cases Assembly.Image.ofText text with
  | error fault => rfl
  | ok image =>
    dsimp only [bind, Except.bind]
    unfold Session.start
    cases Machine.entry image with
    | error fault => rfl
    | ok machine =>
      have ran := Session.run_mirrored mirrored image Session.unobserved limit
        ⟨machine, 0, world, #[]⟩
      have start : (⟨machine, 0, view world, #[]⟩ : Session World') =
          Session.through view ⟨machine, 0, world, #[]⟩ := rfl
      dsimp only [Except.map, pure, Except.pure]
      rw [start, ran]
      rfl

end Mirrored

/-! ## Notes of calls -/

/-- A call of a console routine, and the machine that made it. -/
structure Moment where
  call : Call
  machine : Machine

/-- The text that belongs to a call: the character of the first argument's low byte for `putchar`;
for `puts` the text at the address of the first argument and a line feed, if it can be read. -/
def Moment.text? (moment : Moment) : Option String :=
  let argument := moment.call.arguments.headD 0
  if moment.call.name = "putchar" then some (Char.ofNat (wrap 8 argument)).toString
  else
    match moment.machine.memory.readText argument with
    | .ok bytes => some (String.ofList (Text.decodeLatin bytes) ++ "\n")
    | .error _ => none

/-- Routines that return what those of the console return, and take notes instead of writing. -/
def noting? (name : String) : Option (Routine (List Moment)) :=
  (console? (fun (_ : Unit) _ => ()) name).map fun routine moments machine arguments =>
    (moments ++ [⟨⟨name, arguments⟩, machine⟩], (routine () machine arguments).2)

/-- What is written in the course of some calls. -/
def written (write : World → String → World) (world : World) (moments : List Moment) : World :=
  (moments.filterMap Moment.text?).foldl write world

theorem written_append_some {moment : Moment} {text : String} (prints : moment.text? = some text)
    (write : World → String → World) (world : World) (moments : List Moment) :
    written write world (moments ++ [moment]) = write (written write world moments) text := by
  rw [written, List.filterMap_append, List.foldl_append, List.filterMap_cons_some prints]
  rfl

theorem written_append_none {moment : Moment} (prints : moment.text? = none)
    (write : World → String → World) (world : World) (moments : List Moment) :
    written write world (moments ++ [moment]) = written write world moments := by
  rw [written, List.filterMap_append, List.foldl_append, List.filterMap_cons_none prints]
  rfl

/-- The console writes the texts of the calls that are noted. -/
theorem noting_mirrors (write : World → String → World) (world : World) (name : String) :
    Option.Rel (Routine.Mirrors (written write world)) (noting? name) (console? write name) := by
  unfold noting? console?
  by_cases isPutchar : name = "putchar"
  · rw [if_pos isPutchar, if_pos isPutchar]
    refine .some fun moments m arguments => ?_
    have prints : (⟨⟨name, arguments⟩, m⟩ : Moment).text? =
        some (Char.ofNat (wrap 8 (arguments.headD 0))).toString := if_pos isPutchar
    dsimp only
    rw [written_append_some prints]
    rfl
  by_cases isPuts : name = "puts"
  · rw [if_neg isPutchar, if_neg isPutchar, if_pos isPuts, if_pos isPuts]
    refine .some fun moments m arguments => ?_
    dsimp only [puts]
    cases read : m.memory.readText (arguments.headD 0) with
    | ok bytes =>
      have prints : (⟨⟨name, arguments⟩, m⟩ : Moment).text? =
          some (String.ofList (Text.decodeLatin bytes) ++ "\n") := by
        rw [Moment.text?]
        dsimp only
        rw [if_neg isPutchar, read]
      rw [written_append_some prints]
    | error fault =>
      have prints : (⟨⟨name, arguments⟩, m⟩ : Moment).text? = none := by
        rw [Moment.text?]
        dsimp only
        rw [if_neg isPutchar, read]
      rw [written_append_none prints]
  · rw [if_neg isPutchar, if_neg isPutchar, if_neg isPuts, if_neg isPuts]
    exact .none

/-! ## The calls that are noted -/

namespace Session

/-- A call by name leaves the world and the calls as they are, or is the call of a routine. -/
theorem call_cases_routine (setup : Setup World) (s : Session World) (i : Instruction) :
    (s.call setup i).1.world = s.world ∧ (s.call setup i).1.calls = s.calls ∨
      ∃ name routine, setup.routine? name = some routine ∧
        s.call setup i = s.callRoutine i name routine := by
  obtain ⟨mnemonic, operands, line⟩ := i
  unfold call
  dsimp only
  split
  · next name =>
    cases setup.image.codeLabels.get? name with
    | some target => exact .inl ⟨rfl, rfl⟩
    | none =>
      dsimp only
      by_cases exits : name = "exit"
      · simp only [if_pos exits]
        exact .inl ⟨rfl, rfl⟩
      · simp only [if_neg exits]
        cases named : setup.routine? name with
        | none => exact .inl ⟨rfl, rfl⟩
        | some routine => exact .inr ⟨name, routine, named, rfl⟩
  · exact .inl ⟨rfl, rfl⟩
  · exact .inl ⟨rfl, rfl⟩

/-- So does a step. -/
theorem step_cases_routine (setup : Setup World) (s : Session World) (i : Instruction) :
    (s.step setup i).1.world = s.world ∧ (s.step setup i).1.calls = s.calls ∨
      ∃ name routine, setup.routine? name = some routine ∧
        s.step setup i = s.moved.callRoutine i name routine := by
  unfold step execute
  dsimp only
  split
  case h_10 => exact call_cases_routine setup s.moved i
  all_goals exact .inl ⟨rfl, rfl⟩

theorem world_answered (s : Session World) (name : String)
    (outcome : World × Machine × Except Fault (Option Int)) :
    (s.answered name outcome).1.world = outcome.1 := by
  obtain ⟨world, m, fault | returned⟩ := outcome
  · rfl
  · rfl

/-- The notes are of the calls made. -/
def Noted (s : Session (List Moment)) : Prop :=
  s.calls.toList = s.world.map Moment.call

theorem Noted.step {s : Session (List Moment)} (noted : s.Noted) (image : Image) (i : Instruction) :
    (s.step ⟨image, noting?⟩ i).1.Noted := by
  rcases step_cases_routine ⟨image, noting?⟩ s i with
    ⟨world, calls⟩ | ⟨name, routine, named, called⟩
  · rw [Noted, world, calls]
    exact noted
  · rw [called]
    rcases callRoutine_cases s.moved i name with ⟨fault, refused⟩ | run
    · have here : s.moved.callRoutine i name routine = _ := refused _ s.moved.world routine
      rw [here]
      exact noted
    · have here : s.moved.callRoutine i name routine = _ := run _ s.moved.world routine
      obtain ⟨written, -, rfl⟩ := Option.map_eq_some_iff.mp named
      have calls : s.moved.calls.toList = s.moved.world.map Moment.call := noted
      rw [here, Noted, calls_answered, world_answered, Array.toList_push, List.map_append, ← calls]
      rfl

theorem Noted.runFor {s : Session (List Moment)} (noted : s.Noted) (image : Image)
    (stops : Observer) (limit : Int) (allowed : Nat) :
    (Session.runFor ⟨image, noting?⟩ stops limit allowed s).1.Noted := by
  fun_induction Session.runFor ⟨image, noting?⟩ stops limit allowed s with
  | case1 => exact noted
  | case2 => exact noted
  | case3 => exact noted
  | case4 => exact noted
  | case5 s _ _ i _ _ s' stepped ih =>
    have step := noted.step image i
    rw [stepped] at step
    exact ih step
  | case6 s _ _ i _ _ s' fault stepped =>
    have step := noted.step image i
    rw [stepped] at step
    exact step

end Session

namespace Execution

/-- The notes of a whole run are of the calls made, in order. -/
theorem calls_noting (text : String) (limit : Int) :
    (ofText text noting? [] limit).calls.toList =
      (ofText text noting? [] limit).world.map Moment.call := by
  unfold ofText load
  cases Assembly.Image.ofText text with
  | error fault => rfl
  | ok image =>
    dsimp only [bind, Except.bind]
    unfold Session.start
    cases Machine.entry image with
    | error fault => rfl
    | ok machine =>
      have noted : Session.Noted ⟨machine, 0, [], #[]⟩ := rfl
      exact noted.runFor image Session.unobserved limit _

/-- A program that is run on a console writes the texts of its calls, in order. -/
theorem ofText_console (text : String) (write : World → String → World) (world : World)
    (limit : Int) :
    ofText text (console? write) world limit =
      (ofText text noting? [] limit).through (written write world) :=
  ofText_mirrored (noting_mirrors write world) text [] limit

end Execution

end Reckon.Machine
