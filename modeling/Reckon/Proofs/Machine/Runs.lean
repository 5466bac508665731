import Reckon.Proofs.Machine.Instructions

/-!
# Runs that follow an evaluation

`Session.Steps` counts the steps of a run that raises no fault, `Session.Ends` those of a run up to
its end, and `Session.Stops` says that it ends as an evaluation does that is stopped. A run with a
budget that is too small for its end is out of steps (`Session.Ends.run_short`).

`Machine.Simulates` ties runs to evaluations: lines of code, run from a session where an assertion
holds, do what an evaluation does. If the evaluation gives a value, the run executes each
instruction of the lines once and arrives behind them; if the evaluation is stopped, the run ends in
the same way on the way there, unless an answer was left open. Code that is put together of pieces
follows the evaluation that is put together of theirs (`Simulates.bind`).
-/

namespace Reckon

/-- A fault without the line it was raised on. -/
def Fault.withoutLine : Fault → Fault
  | .raised cause _ => .raised cause none
  | fault => fault

namespace Machine

open Assembly (Image Instruction)
open Code (Line codeOf codeOf_append)

variable {World : Type} {setup : Setup World}

/-! ## Steps -/

namespace Session

/-- Steps without fault lead from one session to another. -/
inductive Steps (setup : Setup World) : Nat → Session World → Session World → Prop
  | refl (s : Session World) : Steps setup 0 s s
  | head {n : Nat} {s s₁ s' : Session World} {i : Instruction} :
    s.machine.exit? = none → s.fetch setup = .ok i → s.step setup i = (s₁, none) →
    Steps setup n s₁ s' → Steps setup (n + 1) s s'

theorem Steps.trans {m n : Nat} {s s₁ s' : Session World} (first : Steps setup m s s₁)
    (later : Steps setup n s₁ s') : Steps setup (m + n) s s' := by
  induction first with
  | refl => rwa [Nat.zero_add]
  | head running fetched stepped _ ih =>
    rw [Nat.add_right_comm]
    exact .head running fetched stepped (ih later)

/-- A run of at least as many steps goes through them. -/
theorem Steps.runFor {n : Nat} {s s' : Session World} (steps : Steps setup n s s') (limit : Int)
    (allowed : Nat) :
    runFor setup unobserved limit (n + allowed) s = runFor setup unobserved limit allowed s' := by
  induction steps with
  | refl => rw [Nat.zero_add]
  | head running fetched stepped _ ih =>
    rw [Nat.add_right_comm, Session.runFor, running]
    simp only [fetched, stepped, unobserved, Bool.false_eq_true, if_false]
    exact ih

theorem steps_callRoutine (s : Session World) (i : Instruction) (name : String)
    (routine : Routine World) : (s.callRoutine i name routine).1.steps = s.steps := by
  unfold callRoutine
  split
  · rfl
  · dsimp only
    split
    · rfl
    · split <;> rfl

theorem steps_call (s : Session World) (i : Instruction) : (s.call setup i).1.steps = s.steps := by
  unfold call
  split
  · split
    · rfl
    · split
      · rfl
      · split
        · exact steps_callRoutine s i _ _
        · rfl
  · rfl
  · rfl

/-- Executing an instruction counts no step. -/
theorem steps_execute (s : Session World) (i : Instruction) :
    (s.execute setup i).1.steps = s.steps := by
  unfold execute
  dsimp only
  split
  case h_10 => exact steps_call s i
  all_goals rfl

theorem Steps.steps_eq {n : Nat} {s s' : Session World} (steps : Steps setup n s s') :
    s'.steps = s.steps + n := by
  induction steps with
  | refl => rfl
  | @head n s s₁ s' i _ _ stepped _ ih =>
    have one : s₁.steps = s.steps + 1 := by
      rw [← congrArg (fun pair => pair.1.steps) stepped]
      exact steps_execute _ i
    omega

/-! ## How runs end -/

/-- A run that is given enough steps ends after as many: with an exit value, or with a fault. -/
inductive Ends (setup : Setup World) :
    Nat → Session World → Session World → Except Fault Int → Prop
  | ended {s : Session World} {value : Int} : s.machine.exit? = some value →
    Ends setup 0 s s (.ok value)
  | faulted {s s' : Session World} {i : Instruction} {fault : Fault} : s.machine.exit? = none →
    s.fetch setup = .ok i → s.step setup i = (s', some fault) → Ends setup 1 s s' (.error fault)
  | stepped {n : Nat} {s s₁ s' : Session World} {i : Instruction} {result : Except Fault Int} :
    s.machine.exit? = none → s.fetch setup = .ok i → s.step setup i = (s₁, none) →
    Ends setup n s₁ s' result → Ends setup (n + 1) s s' result

section Ends

variable {n : Nat} {s s₁ s' : Session World} {result : Except Fault Int} {limit : Int}

theorem Steps.ends {k : Nat} (first : Steps setup k s s₁) (later : Ends setup n s₁ s' result) :
    Ends setup (k + n) s s' result := by
  induction first with
  | refl => rwa [Nat.zero_add]
  | head running fetched stepped _ ih =>
    rw [Nat.add_right_comm]
    exact .stepped running fetched stepped (ih later)

theorem Ends.exit {value : Int} (steps : Steps setup n s s')
    (ended : s'.machine.exit? = some value) : Ends setup n s s' (.ok value) :=
  steps.ends (.ended ended)

theorem Ends.fault {i : Instruction} {fault : Fault} (steps : Steps setup n s s₁)
    (running : s₁.machine.exit? = none) (fetched : s₁.fetch setup = .ok i)
    (stepped : s₁.step setup i = (s', some fault)) : Ends setup (n + 1) s s' (.error fault) :=
  steps.ends (.faulted running fetched stepped)

/-- A run with an exit value has taken its steps. -/
theorem Ends.steps {value : Int} (ends : Ends setup n s s' (.ok value)) :
    Steps setup n s s' ∧ s'.machine.exit? = some value := by
  generalize outcome : Except.ok value = result at ends
  induction ends with
  | ended exited =>
    cases outcome
    exact ⟨.refl _, exited⟩
  | faulted => cases outcome
  | stepped running fetched stepped _ ih =>
    obtain ⟨steps, exited⟩ := ih outcome
    exact ⟨.head running fetched stepped steps, exited⟩

theorem Ends.pos (ends : Ends setup n s s' result) (running : s.machine.exit? = none) : 0 < n := by
  cases ends with
  | ended exited => cases running.symm.trans exited
  | faulted | stepped => exact Nat.succ_pos _

/-- There is one way for a run to end. -/
theorem Ends.unique {m : Nat} {t : Session World} {result' : Except Fault Int}
    (ends : Ends setup n s s' result) (ends' : Ends setup m s t result') :
    n = m ∧ s' = t ∧ result = result' := by
  induction ends generalizing m with
  | ended exited =>
    cases ends' with
    | ended exited' =>
      cases exited.symm.trans exited'
      exact ⟨rfl, rfl, rfl⟩
    | faulted running | stepped running => cases exited.symm.trans running
  | faulted running fetched stepped =>
    cases ends' with
    | ended exited => cases running.symm.trans exited
    | faulted _ fetched' stepped' =>
      cases fetched.symm.trans fetched'
      cases stepped.symm.trans stepped'
      exact ⟨rfl, rfl, rfl⟩
    | stepped _ fetched' stepped' =>
      cases fetched.symm.trans fetched'
      cases stepped.symm.trans stepped'
  | stepped running fetched stepped _ ih =>
    cases ends' with
    | ended exited => cases running.symm.trans exited
    | faulted _ fetched' stepped' =>
      cases fetched.symm.trans fetched'
      cases stepped.symm.trans stepped'
    | stepped _ fetched' stepped' ends' =>
      cases fetched.symm.trans fetched'
      cases stepped.symm.trans stepped'
      obtain ⟨rfl, same⟩ := ih ends'
      exact ⟨rfl, same⟩

/-- The end of a run that is allowed enough steps. -/
theorem Ends.runFor (ends : Ends setup n s s' result) (limit : Int) (allowed : Nat) :
    Session.runFor setup unobserved limit (n + allowed) s = (s', result) := by
  induction ends with
  | ended exited =>
    unfold Session.runFor
    rw [exited]
  | faulted running fetched stepped =>
    rw [Nat.add_comm, Session.runFor, running]
    simp only [fetched, stepped, unobserved, Bool.false_eq_true, if_false]
  | stepped running fetched stepped _ ih =>
    rw [Nat.add_right_comm, Session.runFor, running]
    simp only [fetched, stepped, unobserved, Bool.false_eq_true, if_false]
    exact ih

/-- A run that is allowed fewer steps reaches the limit. -/
theorem Ends.runFor_short {allowed : Nat} (ends : Ends setup n s s' result) (short : allowed < n)
    (limit : Int) :
    (Session.runFor setup unobserved limit allowed s).2 = .error (.outOfSteps limit) := by
  induction ends generalizing allowed with
  | ended => exact absurd short (Nat.not_lt_zero _)
  | faulted running =>
    obtain rfl := Nat.lt_one_iff.mp short
    unfold Session.runFor
    rw [running]
  | stepped running fetched stepped _ ih =>
    cases allowed with
    | zero =>
      unfold Session.runFor
      rw [running]
    | succ allowed =>
      unfold Session.runFor
      rw [running]
      simp only [fetched, stepped, unobserved, Bool.false_eq_true, if_false]
      exact ih (Nat.lt_of_succ_lt_succ short)

theorem exists_allowance (start : s.steps = 0) (enough : n ≤ limit) :
    ∃ more, s.allowance limit = n + more := by
  refine ⟨s.allowance limit - n, ?_⟩
  unfold allowance
  omega

/-- The end of a run with enough steps. -/
theorem Ends.run (ends : Ends setup n s s' result) (start : s.steps = 0) (enough : n ≤ limit) :
    s.run setup unobserved limit =
      (s', result.map fun value => ⟨signed 32 value, wrap 8 (signed 32 value), n⟩) := by
  obtain ⟨more, allowed⟩ := exists_allowance start enough
  rw [Session.run, allowed, ends.runFor limit more]
  cases result with
  | error fault => rfl
  | ok value =>
    have count : s'.steps = n := by rw [ends.steps.1.steps_eq, start, Nat.zero_add]
    dsimp only
    rw [count]

/-- A run with a budget that is too small reaches the limit. -/
theorem Ends.run_short (ends : Ends setup n s s' result) (start : s.steps = 0)
    (running : s.machine.exit? = none) (short : limit < n) :
    (s.run setup unobserved limit).2 = .error (.outOfSteps limit) := by
  have some := ends.pos running
  have few : s.allowance limit < n := by
    unfold allowance
    omega
  show (Session.runFor setup unobserved limit (s.allowance limit) s).2.map _ = _
  rw [ends.runFor_short few]
  rfl

end Ends

/-- What a run comes to is what stops an evaluation, but for the line of a fault. -/
inductive Matches : Stop → Except Fault Int → Prop
  | exit (word : Word) : Matches (.exit word) (.ok (word.toNat : Int))
  | fault {fault raised : Fault} : raised.withoutLine = fault.withoutLine →
    Matches (.fault fault) (.error raised)

theorem Matches.exists_word {stop : Stop} {value : Int} (same : Matches stop (.ok value)) :
    ∃ word, stop = .exit word ∧ value = (word.toNat : Int) := by
  cases same with
  | exit word => exact ⟨word, rfl, rfl⟩

/-- A run ends after some steps as an evaluation does that is stopped. -/
def Stops (setup : Setup World) (n : Nat) (s s' : Session World) (stop : Stop) : Prop :=
  ∃ result, Ends setup n s s' result ∧ Matches stop result

section Stops

variable {n : Nat} {s s₁ s' : Session World} {stop : Stop} {limit : Int}

theorem Steps.stops {m : Nat} (first : Steps setup m s s₁) (later : Stops setup n s₁ s' stop) :
    Stops setup (m + n) s s' stop := by
  obtain ⟨result, ends, same⟩ := later
  exact ⟨result, first.ends ends, same⟩

theorem Stops.exit {word : Word} (steps : Steps setup n s s')
    (ended : s'.machine.exit? = some (word.toNat : Int)) : Stops setup n s s' (.exit word) :=
  ⟨_, .exit steps ended, .exit word⟩

theorem Stops.fault {i : Instruction} {fault raised : Fault} (steps : Steps setup n s s₁)
    (running : s₁.machine.exit? = none) (fetched : s₁.fetch setup = .ok i)
    (stepped : s₁.step setup i = (s', some raised))
    (same : raised.withoutLine = fault.withoutLine) : Stops setup (n + 1) s s' (.fault fault) :=
  ⟨_, .fault steps running fetched stepped, .fault same⟩

/-- A run that ends itself, with enough steps. -/
theorem Stops.run_exit {word : Word} (stops : Stops setup n s s' (.exit word))
    (start : s.steps = 0) (enough : n ≤ limit) :
    s.run setup unobserved limit =
      (s', .ok ⟨(word.setWidth 32).toInt, (word.setWidth 8).toNat, n⟩) := by
  obtain ⟨_, ends, ⟨⟩⟩ := stops
  have value : signed 32 word.toNat = (word.setWidth 32).toInt := by
    rw [signed_eq, BitVec.ofInt_natCast, BitVec.ofNat_toNat]
  have status : wrap 8 (word.setWidth 32).toInt = (word.setWidth 8).toNat := by
    rw [wrap_eq]
    change ((word.setWidth 32).signExtend 8).toNat = _
    rw [BitVec.signExtend_eq_setWidth_of_le _ (by decide),
      BitVec.setWidth_setWidth_of_le _ (by decide)]
  rw [ends.run start enough]
  simp only [Except.map, value, status]

/-- A run that a fault stops, with enough steps. -/
theorem Stops.exists_fault {fault : Fault} (stops : Stops setup n s s' (.fault fault))
    (start : s.steps = 0) :
    ∃ raised, raised.withoutLine = fault.withoutLine ∧ ∀ limit : Int, n ≤ limit →
      s.run setup unobserved limit = (s', .error raised) := by
  obtain ⟨_, ends, same⟩ := stops
  cases same with
  | fault same => exact ⟨_, same, fun limit enough => ends.run start enough⟩

end Stops

end Session

open Session

/-! ## Code in its place -/

/-- The instructions of lines stand in a program from an index on. -/
def CodeAt (image : Image) (place : Nat) (lines : List Line) : Prop :=
  ∃ before after, image.instructions.toList.map Instruction.code = before ++ codeOf lines ++ after ∧
    before.length = place

namespace CodeAt

variable {image : Image} {place : Nat} {lines lines' : List Line} {line : Line}

theorem left (code : CodeAt image place (lines ++ lines')) : CodeAt image place lines := by
  obtain ⟨before, after, whole, rfl⟩ := code
  exact ⟨before, codeOf lines' ++ after, by rw [whole, codeOf_append]; simp, rfl⟩

theorem right (code : CodeAt image place (lines ++ lines')) :
    CodeAt image (place + (codeOf lines).length) lines' := by
  obtain ⟨before, after, whole, rfl⟩ := code
  exact ⟨before ++ codeOf lines, after, by rw [whole, codeOf_append]; simp, by simp⟩

theorem exists_fetch {World : Type} {setup : Setup World} {s : Session World}
    {code : String × List Assembly.Operand} (located : CodeAt setup.image s.machine.counter [line])
    (isCode : line.code? = some code) : ∃ i, s.fetch setup = .ok i ∧ line.code? = some i.code := by
  obtain ⟨before, after, whole, length⟩ := located
  have single : codeOf [line] = [code] := by rw [codeOf, List.filterMap_cons_some isCode]; rfl
  have found : (setup.image.instructions.toList.map Instruction.code)[s.machine.counter]? =
      some code := by
    rw [whole, single, List.append_assoc, List.getElem?_append_right (by omega), length]
    simp
  rw [List.getElem?_map, Option.map_eq_some_iff] at found
  obtain ⟨i, listed, rfl⟩ := found
  refine ⟨i, ?_, isCode⟩
  rw [Array.getElem?_toList] at listed
  rw [fetch, listed]

end CodeAt

/-! ## Simulation -/

/-- What is claimed of the store of an evaluation and of registers and memory. -/
abbrev Assertion (World : Type) := Store World → Registers → Memory → Prop

/-- The session has not ended, and is as far with the world as the evaluation. -/
structure Linked (store : Store World) (s : Session World) : Prop where
  running : s.machine.exit? = none
  world : s.world = store.world
  calls : s.calls = store.calls

/-- A run of `n` instructions in a row from a session comes out as an evaluation did. -/
def Reaches {α : Type} (setup : Setup World) (s : Session World) (n : Nat)
    (post : α → Assertion World) : Except Stop α × Store World → Prop
  | (.ok a, store) => ∃ s', Steps setup n s s' ∧ s'.machine.counter = s.machine.counter + n ∧
      Linked store s' ∧ post a store s'.machine.registers s'.machine.memory
  | (.error stop, store) => stop ≠ .unanswered → ∃ k s', k ≤ n ∧ Stops setup k s s' stop ∧
      s'.world = store.world ∧ s'.calls = store.calls

/-- Lines of code do what an evaluation does, from every session where the first assertion holds. -/
def Simulates {α : Type} (setup : Setup World) (lines : List Line) (pre : Assertion World)
    (evaluation : Evaluation World α) (post : α → Assertion World) : Prop :=
  ∀ (store : Store World) (s : Session World), CodeAt setup.image s.machine.counter lines →
    Linked store s → pre store s.machine.registers s.machine.memory →
    Reaches setup s (codeOf lines).length post (evaluation.run store)

theorem run_bind {α β : Type} (evaluation : Evaluation World α) (next : α → Evaluation World β)
    (store : Store World) :
    (evaluation >>= next).run store =
      match evaluation.run store with
      | (.ok a, store') => (next a).run store'
      | (.error stop, store') => (.error stop, store') := by
  show (match evaluation.run store with
    | (result, store') => ExceptT.bindCont next result store') = _
  rcases evaluation.run store with ⟨_ | _, _⟩ <;> rfl

namespace Simulates

variable {α β : Type} {pre pre' : Assertion World} {post post' : α → Assertion World}
  {evaluation : Evaluation World α} {lines lines' : List Line} {line : Line}

/-- Code after code follows an evaluation after an evaluation. -/
theorem bind {next : α → Evaluation World β} {last : β → Assertion World}
    (first : Simulates setup lines pre evaluation post)
    (later : ∀ a, Simulates setup lines' (post a) (next a) last) :
    Simulates setup (lines ++ lines') pre (evaluation >>= next) last := by
  intro store s code linked holds
  have arrived := first store s code.left linked holds
  rw [run_bind, codeOf_append, List.length_append]
  generalize evaluation.run store = outcome at arrived ⊢
  rcases outcome with ⟨stop | a, store₁⟩
  · intro known
    obtain ⟨k, s', short, stops, world, calls⟩ := arrived known
    exact ⟨k, s', Nat.le_add_right_of_le short, stops, world, calls⟩
  · obtain ⟨s₁, steps, counter, linked₁, holds₁⟩ := arrived
    have located := code.right
    rw [← counter] at located
    have arrived := later a store₁ s₁ located linked₁ holds₁
    dsimp only
    generalize (next a).run store₁ = outcome at arrived ⊢
    rcases outcome with ⟨stop | b, store₂⟩
    · intro known
      obtain ⟨k, s', short, stops, world, calls⟩ := arrived known
      exact ⟨_, s', Nat.add_le_add_left short _, steps.stops stops, world, calls⟩
    · obtain ⟨s', steps', counter', linked', holds'⟩ := arrived
      exact ⟨s', steps.trans steps', by omega, linked', holds'⟩

/-- Code that the evaluation knows nothing of may come before. -/
theorem after {mid : Assertion World} (first : Simulates setup lines pre (pure ()) fun _ => mid)
    (later : Simulates setup lines' mid evaluation post) :
    Simulates setup (lines ++ lines') pre evaluation post := by
  have both := first.bind fun _ => later
  rwa [pure_bind] at both

/-- Code that the evaluation knows nothing of may come behind. -/
theorem before {mid : α → Assertion World} (first : Simulates setup lines pre evaluation mid)
    (later : ∀ a, Simulates setup lines' (mid a) (pure ()) fun _ => post a) :
    Simulates setup (lines ++ lines') pre evaluation post := by
  have valued : ∀ a, Simulates setup lines' (mid a) (pure a) post := later
  have both := first.bind valued
  rwa [bind_pure] at both

theorem mono (simulates : Simulates setup lines pre' evaluation post')
    (strong : ∀ store rs mem, pre store rs mem → pre' store rs mem)
    (weak : ∀ a store rs mem, post' a store rs mem → post a store rs mem) :
    Simulates setup lines pre evaluation post := by
  intro store s code linked holds
  have arrived := simulates store s code linked (strong _ _ _ holds)
  generalize evaluation.run store = outcome at arrived ⊢
  rcases outcome with ⟨stop | a, store₁⟩
  · exact arrived
  · obtain ⟨s', steps, counter, linked', holds'⟩ := arrived
    exact ⟨s', steps, counter, linked', weak _ _ _ _ holds'⟩

/-- Code that the evaluation knows nothing of keeps what is known of the store. -/
theorem keep {mid : Assertion World} (first : Simulates setup lines pre (pure ()) fun _ => mid)
    (fact : Store World → Prop) :
    Simulates setup lines (fun store rs mem => pre store rs mem ∧ fact store) (pure ())
      fun _ store rs mem => mid store rs mem ∧ fact store := by
  rintro store s code linked ⟨holds, known⟩
  obtain ⟨s', steps, counter, linked', holds'⟩ := first store s code linked holds
  exact ⟨s', steps, counter, linked', holds', known⟩

/-- What the first assertion implies of anything else may be assumed. -/
theorem assuming {fact : Prop} (implied : ∀ store rs mem, pre store rs mem → fact)
    (simulates : fact → Simulates setup lines pre evaluation post) :
    Simulates setup lines pre evaluation post :=
  fun store s code linked holds => simulates (implied _ _ _ holds) store s code linked holds

/-- An evaluation that leaves the world alone needs no code. -/
theorem quiet (evaluates : ∀ store rs mem, pre store rs mem → ∃ a store',
      evaluation.run store = (.ok a, store') ∧ store'.world = store.world ∧
      store'.calls = store.calls ∧ post a store' rs mem) :
    Simulates setup [] pre evaluation post := by
  intro store s _ linked holds
  obtain ⟨a, store', result, world, calls, holds'⟩ := evaluates _ _ _ holds
  rw [result]
  exact ⟨s, .refl s, rfl, ⟨linked.running, linked.world.trans world.symm,
    linked.calls.trans calls.symm⟩, holds'⟩

/-- An instruction of which the evaluation knows nothing. -/
theorem silent {code : String × List Assembly.Operand} (isCode : line.code? = some code) {a : α}
    (acts : ∀ store rs mem, pre store rs mem → ∃ rs' mem', Acts setup line rs mem rs' mem' ∧
      post a store rs' mem') :
    Simulates setup [line] pre (pure a) post := by
  intro store s located linked holds
  obtain ⟨i, fetched, same⟩ := located.exists_fetch isCode
  obtain ⟨rs', mem', act, holds'⟩ := acts _ _ _ holds
  have stepped : s.step setup i = (_, none) := act _ i same rfl rfl
  rw [show (codeOf [line]).length = 1 by rw [codeOf, List.filterMap_cons_some isCode]; rfl]
  exact ⟨_, .head linked.running fetched stepped (.refl _), rfl,
    ⟨linked.running, linked.world, linked.calls⟩, holds'⟩

/-- An instruction that raises the fault that the evaluation raises. -/
theorem faults {code : String × List Assembly.Operand} (isCode : line.code? = some code)
    {cause : Fault.Cause}
    (raises : ∀ store rs mem, pre store rs mem → Faults setup line rs mem cause) :
    Simulates setup [line] pre (Evaluation.raise cause) post := by
  intro store s located linked holds
  obtain ⟨i, fetched, same⟩ := located.exists_fetch isCode
  have stepped : s.step setup i = (_, some (.onLine i.line cause)) :=
    raises _ _ _ holds _ i same rfl rfl
  rw [show (codeOf [line]).length = 1 by rw [codeOf, List.filterMap_cons_some isCode]; rfl]
  exact fun _ => ⟨1, _, Nat.le_refl 1, .fault (.refl s) linked.running fetched stepped rfl,
    linked.world, linked.calls⟩

end Simulates

end Machine

end Reckon
