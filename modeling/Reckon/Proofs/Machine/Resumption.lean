import Reckon.Machine.Execution
import Reckon.Proofs.Machine.Runs

/-!
# Stopping a run and taking it up again

A run can be watched: before each instruction a watch is shown the session and the instruction, and
may stop the run there. A watch remembers what it likes, so that it may stop a run the third time it
comes to an instruction. `Session.watch` is a watched run; it also tells why it came to a halt,
where the result of a run has only a fault, which a routine may have raised as well. Runs with an
observer are watched runs (`Session.run_eq_watch`).

A run that comes to a halt without a fault of an instruction has gone through steps without fault
(`Session.exists_steps_of_watchFor`), and a run goes on from the session they lead to as if it had
never been stopped (`Session.Steps.run_eq`).
-/

namespace Reckon.Machine

open Assembly (Instruction)

/-- Why a run came to a halt. -/
inductive Halt where
  /-- The program has ended. -/
  | ended (value : Int)
  /-- The budget is used up. -/
  | outOfSteps
  /-- There is no instruction to execute. -/
  | pastEnd
  /-- The watch stopped the run before an instruction. -/
  | stopped (i : Instruction)
  /-- An instruction raised a fault. -/
  | faulted (fault : Fault)

namespace Halt

/-- The result of a run that came to a halt; `limit` is its budget. -/
def result (limit : Int) : Halt → Except Fault Int
  | ended value => .ok value
  | outOfSteps => .error (.outOfSteps limit)
  | pastEnd => .error (.raised .ranPastEnd none)
  | stopped i => .error (.onLine i.line .stopped)
  | faulted fault => .error fault

/-- The run came to a halt between two instructions. -/
def isBetween : Halt → Bool
  | faulted _ => false
  | _ => true

end Halt

namespace Session

variable {World σ : Type} {setup : Setup World} {s s' : Session World}

/-- A watch: from what it remembers, the session and the next instruction, what it remembers from
now on, and whether it stops the run. -/
abbrev Watch (World σ : Type) := σ → Session World → Instruction → σ × Bool

/-- The watch that asks an observer. -/
def Observer.watch (stops : Observer) : Watch World Unit :=
  fun _ s i => ((), stops s.machine.counter i)

/-- A watched run of at most `allowed` steps. -/
def watchFor (setup : Setup World) (watch : Watch World σ) :
    (allowed : Nat) → σ → Session World → Session World × Halt
  | allowed, memory, s =>
    match s.machine.exit? with
    | some value => (s, .ended value)
    | none =>
      match allowed with
      | 0 => (s, .outOfSteps)
      | allowed + 1 =>
        match setup.image.instructions[s.machine.counter]? with
        | none => (s, .pastEnd)
        | some i =>
          match watch memory s i with
          | (_, true) => (s, .stopped i)
          | (memory', false) =>
            match s.step setup i with
            | (s', none) => watchFor setup watch allowed memory' s'
            | (s', some fault) => (s', .faulted fault)

/-- A watched run with a budget. -/
def watch (s : Session World) (setup : Setup World) (watch : Watch World σ) (memory : σ)
    (limit : Int) : Session World × Halt :=
  watchFor setup watch (s.allowance limit) memory s

/-! ## Observed runs are watched runs -/

theorem runFor_eq_watchFor (stops : Observer) (limit : Int) (allowed : Nat) (s : Session World) :
    runFor setup stops limit allowed s =
      ((watchFor setup stops.watch allowed () s).1,
        (watchFor setup stops.watch allowed () s).2.result limit) := by
  induction allowed generalizing s with
  | zero =>
    unfold runFor watchFor
    cases s.machine.exit? <;> rfl
  | succ allowed ih =>
    unfold runFor watchFor
    cases s.machine.exit? with
    | some value => rfl
    | none =>
      dsimp only [fetch]
      cases setup.image.instructions[s.machine.counter]? with
      | none => rfl
      | some i =>
        dsimp only [Observer.watch]
        cases stops s.machine.counter i with
        | true => rfl
        | false =>
          dsimp only
          generalize s.step setup i = outcome
          obtain ⟨s₁, _ | fault⟩ := outcome
          · exact ih s₁
          · rfl

/-- An observed run is a watched run. -/
theorem run_eq_watch (stops : Observer) (limit : Int) (s : Session World) :
    s.run setup stops limit =
      ((s.watch setup stops.watch () limit).1,
        ((s.watch setup stops.watch () limit).2.result limit).map fun value =>
          ⟨signed 32 value, wrap 8 (signed 32 value),
            (s.watch setup stops.watch () limit).1.steps⟩) := by
  rw [run, runFor_eq_watchFor]
  rfl

/-! ## Steps -/

/-- A run that comes to a halt between two instructions has gone through steps without fault, no
more than allowed. It leaves an ended program with the value it gives. -/
theorem exists_steps_of_watchFor {watch : Watch World σ} {memory : σ} {halt : Halt} {allowed : Nat}
    (halted : watchFor setup watch allowed memory s = (s', halt))
    (between : halt.isBetween = true) :
    ∃ k ≤ allowed, Steps setup k s s' ∧ ∀ value, halt = .ended value →
      s'.machine.exit? = some value := by
  fun_induction watchFor setup watch allowed memory s with
  | case1 allowed memory s value ended =>
    cases halted
    exact ⟨0, Nat.zero_le _, .refl _, fun _ same => by cases same; exact ended⟩
  | case2 memory s running =>
    cases halted
    exact ⟨0, Nat.zero_le _, .refl _, fun _ same => by cases same⟩
  | case3 memory s running allowed missing =>
    cases halted
    exact ⟨0, Nat.zero_le _, .refl _, fun _ same => by cases same⟩
  | case4 memory s running allowed i found memory' judged =>
    cases halted
    exact ⟨0, Nat.zero_le _, .refl _, fun _ same => by cases same⟩
  | case5 memory s running allowed i found memory' judged s₁ stepped ih =>
    obtain ⟨k, within, steps, last⟩ := ih halted
    have fetched : s.fetch setup = .ok i := by rw [fetch, found]
    exact ⟨k + 1, Nat.succ_le_succ within, .head running fetched stepped steps, last⟩
  | case6 memory s running allowed i found memory' judged s₁ fault stepped =>
    cases halted
    cases between

/-- A run goes on from where steps without fault have led as if it had not been stopped there. -/
theorem Steps.run_eq {k : Nat} {limit : Int} (steps : Steps setup k s s')
    (within : k ≤ s.allowance limit) :
    s'.run setup unobserved limit = s.run setup unobserved limit := by
  have count := steps.steps_eq
  have left : s.allowance limit = k + s'.allowance limit := by
    unfold allowance at within ⊢
    omega
  rw [run, run, left, steps.runFor]

theorem run_of_ended {value : Int} (ended : s.machine.exit? = some value) (stops : Observer)
    (limit : Int) :
    s.run setup stops limit =
      (s, .ok ⟨signed 32 value, wrap 8 (signed 32 value), s.steps⟩) := by
  unfold run runFor
  rw [ended]
  rfl

theorem allowance_mono {m n : Int} (le : m ≤ n) (s : Session World) :
    s.allowance m ≤ s.allowance n := by
  unfold allowance
  omega

/-- A watched run that comes to a halt between two instructions is taken up again as if it had never
been stopped. -/
theorem run_eq_of_watch {watch : Watch World σ} {memory : σ} {halt : Halt} {m n : Int} (le : m ≤ n)
    (halted : s.watch setup watch memory m = (s', halt)) (between : halt.isBetween = true) :
    s'.run setup unobserved n = s.run setup unobserved n := by
  obtain ⟨k, within, steps, -⟩ := exists_steps_of_watchFor halted between
  exact steps.run_eq (Nat.le_trans within (allowance_mono le s))

/-- Stopping a run and taking it up again leaves no trace. Take a session of any program with any
routines, which see neither the steps taken nor the steps allowed, and budgets `m ≤ n`.

* If the run with budget `m` returns, the run with budget `n` returns the same and leaves the same
  session: registers, memory, steps, world and calls.
* If the run with budget `m` uses it up, running on with budget `n` from the session it leaves ends
  with the same session and the same result or fault as one run with budget `n`.
* The same holds if any watch stops the run before any instruction and is then removed. -/
theorem run_resumed {m n : Int} (le : m ≤ n) (setup : Setup World) (s : Session World) :
    (∀ s' exit, s.run setup unobserved m = (s', .ok exit) →
      s.run setup unobserved n = (s', .ok exit)) ∧
    (∀ s', s.watch setup unobserved.watch () m = (s', .outOfSteps) →
      s.run setup unobserved m = (s', .error (.outOfSteps m)) ∧
      s'.run setup unobserved n = s.run setup unobserved n) ∧
    ∀ (σ : Type) (watch : Watch World σ) (memory : σ) s' i,
      s.watch setup watch memory m = (s', .stopped i) →
      s'.run setup unobserved n = s.run setup unobserved n := by
  refine ⟨fun s' exit returned => ?_, fun s' halted => ⟨?_, ?_⟩,
    fun σ watch memory s' i halted => ?_⟩
  · have watched : s.run setup unobserved m = _ := run_eq_watch unobserved m s
    generalize halted : s.watch setup unobserved.watch () m = outcome at watched
    obtain ⟨s₁, halt⟩ := outcome
    rw [returned] at watched
    cases halt with
    | ended value =>
      obtain ⟨-, -, -, last⟩ := exists_steps_of_watchFor halted rfl
      rw [← run_eq_of_watch le halted rfl, run_of_ended (last value rfl)]
      exact watched.symm
    | outOfSteps | pastEnd | stopped | faulted => cases watched
  · rw [run_eq_watch, halted]
    rfl
  · exact run_eq_of_watch le halted rfl
  · exact run_eq_of_watch le halted rfl

/-- A program that calls itself for ever, stopped by its budget, and by a watch the third time that
it comes to its only instruction. -/
theorem run_resumed_of_loop :
    let third : Watch Unit Nat := fun met _ _ => (met + 1, met == 2)
    ∃ setup s, load "_start:\n call _start\n" (fun _ => none) () = .ok (setup, s) ∧
      (∃ s', s.watch setup unobserved.watch () 2 = (s', .outOfSteps) ∧ s'.steps = 2 ∧
        s'.run setup unobserved 4 = s.run setup unobserved 4) ∧
      ∃ s' i, s.watch setup third 0 4 = (s', .stopped i) ∧ s'.steps = 2 ∧
        s'.run setup unobserved 4 = s.run setup unobserved 4 := by
  intro third
  refine ⟨_, _, rfl, ⟨_, rfl, rfl, ?_⟩, _, _, rfl, rfl, ?_⟩
  · exact ((run_resumed (show (2 : Int) ≤ 4 by decide) _ _).2.1 _ rfl).2
  · exact (run_resumed (Int.le_refl 4) _ _).2.2 Nat third 0 _ _ rfl

end Session

end Reckon.Machine
