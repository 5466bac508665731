import Reckon.Proofs.Machine.Routines
import Reckon.Proofs.Machine.Worlds

/-!
# Recorded runs

A routine may look at the whole machine before it returns, so what it returns need not be an answer
to the six words it is given. But a run makes its calls one after the other: what the routines come
to can be written down beforehand and given back in that order. With the right record the run is the
same step by step (`Session.exists_entries_of_step`), and the routines that give it back look at
nothing. So what is known of runs with answers is known of runs whose routines may look at the
machine: of how they end (`Session.exists_entries`), and of the way up to any call that they make
(`Session.exists_recording_of_call`), since a record can be cut short by an entry that is a fault.

A recorded run also keeps in mind whether the memory passed a test at every call.
-/

namespace Reckon.Machine

open Assembly (Instruction)

variable {World Entry : Type} {setup : Setup World}

/-- The world of a recorded run. -/
structure Recording (Entry : Type) where
  /-- The entries that are left. -/
  entries : List Entry
  /-- The memory has passed the test so far. -/
  passed : Prop

/-- Where no entry is left, nothing is returned. -/
instance : Inhabited (Except Fault (Option Int)) :=
  ⟨.ok none⟩

section Playback

variable [Inhabited Entry] (read : Entry → Except Fault (Option Int)) (test : Memory → Prop)

/-- The routine that tests the memory and comes to what the next entry says. -/
def playback : Routine (Recording Entry) :=
  fun r m _ => (⟨r.entries.tail, r.passed ∧ test m.memory⟩, m, read r.entries.headI)

/-- What the next entry says, as programs see it. -/
def recorded : Answer (Recording Entry) :=
  fun r _ => some (⟨r.entries.tail, r.passed⟩, read r.entries.headI)

/-- The program with a record for its routines. -/
def Setup.recording (setup : Setup World) : Setup (Recording Entry) :=
  setup.inWorld (playback read test)

/-- If the memory holds the data whenever a routine is called, the test makes no difference. -/
theorem serves_recording (setup : Setup World) (data : List UInt8) (name : String) :
    Serves data ((setup.routine? name).map fun _ => recorded read)
      ((setup.recording read (·.HoldsData data)).routine? name) := by
  dsimp only [Setup.recording, Setup.inWorld]
  cases setup.routine? name with
  | none => trivial
  | some =>
    rintro r m words _ ⟨⟩ holds _
    show (Recording.mk r.entries.tail (r.passed ∧ m.memory.HoldsData data), m, _) =
      (Recording.mk r.entries.tail r.passed, m, _)
    rw [and_iff_left holds]

end Playback

namespace Session

section Recordable

variable [Inhabited Entry] {read : Entry → Except Fault (Option Int)}
  (recordable : ∀ name routine, setup.routine? name = some routine → routine.Recordable read)

include recordable

/-- With the right entries, a step of the run is a step of the recorded run. -/
theorem exists_entries_of_step (s : Session World) (i : Instruction) (test : Memory → Prop) :
    ∃ entries : List Entry, ∀ rest passed, ∃ passed',
      (s.inWorld (Recording.mk (entries ++ rest) passed)).step (setup.recording read test) i =
        ((s.step setup i).1.inWorld (Recording.mk rest passed'), (s.step setup i).2) := by
  cases meets_step setup (playback read test) s i with
  | nothing _ same => exact ⟨[], fun rest passed => ⟨passed, same _⟩⟩
  | @routine name routine named ran rerun =>
    rw [ran]
    rcases callRoutine_cases s.moved i name with ⟨fault, refused⟩ | run
    · have here : s.moved.callRoutine i name routine = _ := refused World s.moved.world routine
      rw [here]
      exact ⟨[], fun rest passed => ⟨passed, (rerun _).trans (refused _ _ _)⟩⟩
    · obtain ⟨world, entry, comesTo⟩ := recordable name routine named s.moved.world
        s.moved.machine s.moved.machine.registers.arguments
      have here : s.moved.callRoutine i name routine = _ := run World s.moved.world routine
      rw [here, comesTo]
      exact ⟨[entry], fun rest passed => ⟨passed ∧ test s.moved.machine.memory,
        (rerun _).trans ((run _ _ _).trans (answered_inWorld ..))⟩⟩

/-- Steps of a run are steps of a recorded run. -/
theorem Steps.recorded {n : Nat} {s s' : Session World} (steps : Steps setup n s s')
    (test : Memory → Prop) :
    ∃ entries : List Entry, ∀ rest passed, ∃ passed',
      Steps (setup.recording read test) n (s.inWorld (Recording.mk (entries ++ rest) passed))
        (s'.inWorld (Recording.mk rest passed')) := by
  induction steps with
  | refl => exact ⟨[], fun rest passed => ⟨passed, .refl _⟩⟩
  | @head n s s₁ s' i running fetched stepped _ ih =>
    obtain ⟨first, recorded⟩ := exists_entries_of_step recordable s i test
    obtain ⟨later, follow⟩ := ih
    refine ⟨first ++ later, fun rest passed => ?_⟩
    obtain ⟨between, stepped'⟩ := recorded (later ++ rest) passed
    obtain ⟨passed', steps'⟩ := follow rest between
    rw [stepped] at stepped'
    rw [List.append_assoc]
    exact ⟨passed', .head running fetched stepped' steps'⟩

/-- A run of at most `allowed` steps can be recorded: if the recorded run ends within these steps,
the run itself ends in the same way. -/
theorem exists_entries (test : Memory → Prop) (allowed : Nat) (s : Session World) :
    ∃ entries : List Entry, ∀ {n t result} passed, n ≤ allowed →
      Ends (setup.recording read test) n (s.inWorld (Recording.mk entries passed)) t result →
      ∃ s', Ends setup n s s' result := by
  induction allowed generalizing s with
  | zero =>
    refine ⟨[], fun passed within ends => ?_⟩
    cases ends with
    | ended exited => exact ⟨s, .ended exited⟩
    | faulted | stepped => exact absurd within (Nat.not_succ_le_zero _)
  | succ allowed ih =>
    cases fetched : s.fetch setup with
    | error fault =>
      refine ⟨[], fun passed within ends => ?_⟩
      cases ends with
      | ended exited => exact ⟨s, .ended exited⟩
      | faulted _ fetched' => cases fetched.symm.trans fetched'
      | stepped _ fetched' => cases fetched.symm.trans fetched'
    | ok i =>
      obtain ⟨entries, recorded⟩ := exists_entries_of_step recordable s i test
      obtain ⟨more, later⟩ := ih (s.step setup i).1
      refine ⟨entries ++ more, fun passed within ends => ?_⟩
      obtain ⟨passed', stepped⟩ := recorded more passed
      cases ends with
      | ended exited => exact ⟨s, .ended exited⟩
      | faulted running fetched' stepped' =>
        cases fetched.symm.trans fetched'
        have fault := (congrArg Prod.snd stepped).symm.trans (congrArg Prod.snd stepped')
        exact ⟨_, .faulted running fetched (Prod.ext rfl fault)⟩
      | stepped running fetched' stepped' ends =>
        cases fetched.symm.trans fetched'
        have sound := (congrArg Prod.snd stepped).symm.trans (congrArg Prod.snd stepped')
        cases (congrArg Prod.fst stepped).symm.trans (congrArg Prod.fst stepped')
        obtain ⟨s', ends'⟩ := later passed' (Nat.le_of_succ_le_succ within) ends
        exact ⟨s', .stepped running fetched (Prod.ext rfl sound) ends'⟩

end Recordable

/-! ## Runs up to a call -/

/-- At a call of the run, a recorded run tests the memory and is stopped by an entry that is a
fault. -/
theorem step_recording_of_call {s : Session World} {i : Instruction} {call : Call}
    (called : (s.step setup i).1.calls = s.calls.push call) (test : Memory → Prop)
    (passed : Prop) (fault : Fault) :
    call.arguments = s.machine.registers.arguments ∧ ∃ t,
      (s.inWorld (Recording.mk [Except.error fault] passed)).step (setup.recording id test) i =
        (t, some fault) ∧
      t.calls = s.calls.push call ∧ (t.world.passed → test s.machine.memory) := by
  have grows : s.calls ≠ s.calls.push call := fun same => by
    have sizes := congrArg Array.size same
    rw [Array.size_push] at sizes
    omega
  cases meets_step setup (playback id test) s i with
  | nothing kept => exact absurd (kept.symm.trans called) grows
  | @routine name routine named ran rerun =>
    rcases callRoutine_cases s.moved i name with ⟨fault, refused⟩ | run
    · have here : s.moved.callRoutine i name routine = _ := refused World s.moved.world routine
      rw [ran, here] at called
      exact absurd called grows
    · have here := run World s.moved.world routine
      rw [ran] at called
      have made := (congrArg (·.1.calls) here).trans (calls_answered _ _ _)
      have same := called.symm.trans made
      cases Array.push_inj_right.mp same
      exact ⟨rfl, _, (rerun _).trans (run _ _ (playback id test)), rfl, fun held => held.2⟩

variable {n : Nat} {s₀ s : Session World}
  (readOnly : ∀ name routine, setup.routine? name = some routine → routine.ReadOnly)

include readOnly

/-- A run up to a call that it makes is a recorded run that comes to its end there. The memory
passes the test at the call if the recording says so. -/
theorem exists_recording_of_call {i : Instruction} {call : Call} (steps : Steps setup n s₀ s)
    (running : s.machine.exit? = none) (fetched : s.fetch setup = .ok i)
    (called : (s.step setup i).1.calls = s.calls.push call) (test : Memory → Prop) :
    ∃ entries t fault,
      Ends (setup.recording id test) (n + 1) (s₀.inWorld (Recording.mk entries True)) t
        (.error fault) ∧
      t.calls = s.calls.push call ∧ call.arguments = s.machine.registers.arguments ∧
      (t.world.passed → test s.machine.memory) := by
  let cut : Fault := .raised .stopped none
  obtain ⟨entries, recorded⟩ :=
    steps.recorded (fun name routine found => (readOnly name routine found).recordable) test
  obtain ⟨passed, steps'⟩ := recorded [.error cut] True
  obtain ⟨words, t, stepped, calls, tested⟩ := step_recording_of_call called test passed cut
  exact ⟨_, t, cut, .fault steps' running fetched stepped, calls, words, tested⟩

/-- A run that has ended is a recorded run that has ended. -/
theorem exists_recording_of_exit {value : Int} (steps : Steps setup n s₀ s)
    (ended : s.machine.exit? = some value) (test : Memory → Prop) :
    ∃ entries t, Ends (setup.recording id test) n (s₀.inWorld (Recording.mk entries True)) t
      (.ok value) ∧ t.calls = s.calls := by
  obtain ⟨entries, recorded⟩ :=
    steps.recorded (fun name routine found => (readOnly name routine found).recordable) test
  obtain ⟨passed, steps'⟩ := recorded [] True
  exact ⟨_, _, .exit steps' ended, rfl⟩

end Session

end Reckon.Machine
