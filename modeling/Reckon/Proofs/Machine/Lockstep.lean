import Reckon.Proofs.Machine.LineNumbers
import Reckon.Proofs.Machine.Safety

/-!
# Programs in lockstep

An instruction that neither sets the instruction pointer nor ends the program does not depend on
where it stands: it does the same to registers, memory and the world wherever the machine has come
to (`Session.elsewhere_execute`). So two programs that have the same code at different places take
the same steps there, and are stopped there in the same way.

`Session.EndsAlike` compares two runs that are given enough steps. `Machine.Agree` says that the
runs from two places come to the same, and follows the code of both programs backwards
(`Agree.pass`), into and out of code with a label (`Agree.enter`, `Agree.back`).
-/

namespace Reckon.Machine

open Assembly (Image Instruction Operand)
open Code (Line one codeOf codeOf_append)

/-! ## Machines elsewhere -/

/-- The machine at another place in its program, and with another end. -/
def elsewhere (m : Machine) (counter : Nat) (exit? : Option Int) : Machine :=
  { m with counter, exit? }

theorem bind_map {α β γ : Type} (x : Except Fault α) (f : α → Except Fault β) (g : β → γ) :
    (x >>= f).map g = x >>= fun a => (f a).map g :=
  map_bind g x f

section Elsewhere

variable (m : Machine) (counter : Nat) (exit? : Option Int) (image : Image) (i : Instruction)

theorem elsewhere_get (r : Register) : (m.elsewhere counter exit?).get r = m.get r :=
  rfl

theorem elsewhere_set (r : Register) (value : Int) :
    (m.elsewhere counter exit?).set r value = (m.set r value).elsewhere counter exit? :=
  rfl

theorem elsewhere_read (line : Nat) (width : Width) (operand : Operand) :
    (m.elsewhere counter exit?).read image line width operand = m.read image line width operand :=
  rfl

theorem elsewhere_write (line : Nat) (width : Width) (value : Int) (operand : Operand) :
    (m.elsewhere counter exit?).write image line width value operand =
      (m.write image line width value operand).map (·.elsewhere counter exit?) := by
  cases operand with
  | immediate | register | symbol => rfl
  | memory base displacement symbol? =>
    rw [write, write, bind_map]
    refine congrArg _ (funext fun address => ?_)
    rw [bind_map]
    rfl

theorem elsewhere_move : (m.elsewhere counter exit?).move image i =
    (m.move image i).map (·.elsewhere counter exit?) := by
  unfold move
  split
  · simp only [elsewhere_read, elsewhere_write, bind_map]
  · rfl

theorem elsewhere_combine (operation : Nat → Nat → Int) :
    (m.elsewhere counter exit?).combine image i operation =
      (m.combine image i operation).map (·.elsewhere counter exit?) := by
  unfold combine
  split
  · simp only [elsewhere_read, elsewhere_write, bind_map]
  · rfl

theorem elsewhere_divide : (m.elsewhere counter exit?).divide i =
    (m.divide i).map (·.elsewhere counter exit?) := by
  unfold divide
  split
  · dsimp only
    rw [elsewhere_get, elsewhere_get, elsewhere_get]
    -- The quotient is named first, or the bounds on it would be evaluated.
    generalize signed 32 _ = divisor
    generalize signed 64 _ = dividend
    generalize quotientOf dividend divisor = quotient
    split
    · rfl
    · split
      · rfl
      · rw [elsewhere_set, elsewhere_set, Except.map]
  · rfl
  · rfl

theorem elsewhere_loadAddress : (m.elsewhere counter exit?).loadAddress image i =
    (m.loadAddress image i).map (·.elsewhere counter exit?) := by
  unfold loadAddress
  split
  · simp only [elsewhere_write, bind_map]
    rfl
  · rfl
  · rfl

theorem elsewhere_orUnchanged (result : Except Fault Machine) :
    (m.elsewhere counter exit?).orUnchanged (result.map (·.elsewhere counter exit?)) =
      Prod.map (·.elsewhere counter exit?) id (m.orUnchanged result) := by
  cases result with
  | ok m' => rfl
  | error fault => rfl

theorem elsewhere_push (value : Int) : (m.elsewhere counter exit?).push value =
    Prod.map (·.elsewhere counter exit?) id (m.push value) := by
  unfold push
  dsimp only
  rw [elsewhere_get, elsewhere_set]
  generalize m.set .rsp (m.get .rsp - 8) = lowered
  have stored : (lowered.elsewhere counter exit?).memory.write
      ((lowered.elsewhere counter exit?).get .rsp) value 8 =
      lowered.memory.write (lowered.get .rsp) value 8 := rfl
  rw [stored]
  cases lowered.memory.write (lowered.get .rsp) value 8 with
  | ok memory => rfl
  | error fault => rfl

theorem elsewhere_pushOperand : (m.elsewhere counter exit?).pushOperand image i =
    Prod.map (·.elsewhere counter exit?) id (m.pushOperand image i) := by
  unfold pushOperand
  split
  · next source _ =>
    rw [elsewhere_read]
    cases m.read image i.line .quad source with
    | ok value => exact elsewhere_push m counter exit? value
    | error fault => rfl
  · rfl

theorem elsewhere_pop : (m.elsewhere counter exit?).pop =
    m.pop.map (Prod.map id (·.elsewhere counter exit?)) := by
  unfold pop
  rw [bind_map]
  rfl

theorem elsewhere_popOperand : (m.elsewhere counter exit?).popOperand image i =
    Prod.map (·.elsewhere counter exit?) id (m.popOperand image i) := by
  unfold popOperand
  split
  · next destination _ =>
    rw [elsewhere_pop]
    cases m.pop with
    | ok popped =>
      obtain ⟨value, raised⟩ := popped
      show (raised.elsewhere counter exit?).orUnchanged
        ((raised.elsewhere counter exit?).write image i.line .quad value destination) = _
      rw [elsewhere_write, elsewhere_orUnchanged]
    | error fault => rfl
  · rfl

end Elsewhere

/-! ## Sessions elsewhere -/

variable {World : Type} {setup setup' : Setup World}

/-- The session with its machine at another place, and with another end. -/
def Session.elsewhere (s : Session World) (counter : Nat) (exit? : Option Int) : Session World :=
  { s with machine := s.machine.elsewhere counter exit? }

/-- The instruction neither sets the instruction pointer nor ends the program, if `main` and
`_start` are the only code labels. -/
structure Stays (mnemonic : String) (operands : List Operand) : Prop where
  returns : Opcode.ofName? mnemonic ≠ some .ret
  asks : Opcode.ofName? mnemonic ≠ some .syscall
  calls : Opcode.ofName? mnemonic = some .call → ∀ name, operands = [.symbol name] →
    name ≠ "main" ∧ name ≠ "_start" ∧ name ≠ "exit"

/-- The code labels of the program are `main` and `_start` at most, and its routines do not see
where they are called from. -/
structure Setup.Relocatable (setup : Setup World) : Prop where
  leaves : ∀ name, name ≠ "main" → name ≠ "_start" → setup.image.codeLabels.get? name = none
  oblivious : ∀ name routine, setup.routine? name = some routine → routine.Oblivious

namespace Session

variable (s : Session World) (counter : Nat) (exit? : Option Int)

theorem elsewhere_attempt {a : Attempt} :
    (s.elsewhere counter exit?).attempt (Prod.map (·.elsewhere counter exit?) id a) =
      Prod.map (·.elsewhere counter exit?) id (s.attempt a) :=
  rfl

theorem elsewhere_callRoutine {routine : Routine World} (oblivious : routine.Oblivious)
    (i : Instruction) (name : String) :
    (s.elsewhere counter exit?).callRoutine i name routine =
      Prod.map (·.elsewhere counter exit?) id (s.callRoutine i name routine) := by
  obtain ⟨answer, answers⟩ := oblivious
  have pointer : (s.elsewhere counter exit?).machine.get .rsp = s.machine.get .rsp := rfl
  have words : (s.elsewhere counter exit?).machine.registers.arguments =
    s.machine.registers.arguments := rfl
  unfold callRoutine
  rw [pointer, words]
  split
  · rfl
  · dsimp only
    split
    · rfl
    · rw [answers, answers]
      have same : answer (s.elsewhere counter exit?).world
          (s.elsewhere counter exit?).machine.registers
          (s.elsewhere counter exit?).machine.memory s.machine.registers.arguments =
        answer s.world s.machine.registers s.machine.memory s.machine.registers.arguments := rfl
      rw [same]
      generalize answer s.world s.machine.registers s.machine.memory _ = answered
      obtain ⟨world, fault | returned⟩ := answered
      · rfl
      · rfl

section Execute

variable (relocatable : setup.Relocatable)

include relocatable

theorem elsewhere_call {i : Instruction} (outside : ∀ name, i.operands = [.symbol name] →
      name ≠ "main" ∧ name ≠ "_start" ∧ name ≠ "exit") :
    (s.elsewhere counter exit?).call setup i =
      Prod.map (·.elsewhere counter exit?) id (s.call setup i) := by
  unfold call
  split
  · next name single =>
    obtain ⟨notMain, notStart, notExit⟩ := outside name single
    rw [relocatable.leaves name notMain notStart]
    dsimp only
    rw [if_neg notExit, if_neg notExit]
    cases routed : setup.routine? name with
    | none => rfl
    | some routine =>
      exact elsewhere_callRoutine s counter exit? (relocatable.oblivious name routine routed) i name
  · rfl
  · rfl

/-- An instruction that stays in its program does the same wherever it stands. -/
theorem elsewhere_execute {i : Instruction} (stays : Stays i.mnemonic i.operands) :
    (s.elsewhere counter exit?).execute setup i =
      Prod.map (·.elsewhere counter exit?) id (s.execute setup i) := by
  have attempted {result result' : Except Fault Machine}
      (same : result' = result.map (·.elsewhere counter exit?)) :
      (s.elsewhere counter exit?).attempt
          ((s.machine.elsewhere counter exit?).orUnchanged result') =
        Prod.map (·.elsewhere counter exit?) id (s.attempt (s.machine.orUnchanged result)) := by
    rw [same, elsewhere_orUnchanged]
    exact elsewhere_attempt s counter exit?
  have tried {a a' : Attempt} (same : a' = Prod.map (·.elsewhere counter exit?) id a) :
      (s.elsewhere counter exit?).attempt a' =
        Prod.map (·.elsewhere counter exit?) id (s.attempt a) := by
    rw [same]
    exact elsewhere_attempt s counter exit?
  unfold execute
  dsimp only
  cases named : Opcode.ofName? i.mnemonic with
  | none => rfl
  | some opcode =>
    cases opcode with
    | mov => exact attempted (elsewhere_move ..)
    | add | sub | imul | xor => exact attempted (elsewhere_combine ..)
    | idiv => exact attempted (elsewhere_divide ..)
    | lea => exact attempted (elsewhere_loadAddress ..)
    | push => exact tried (elsewhere_pushOperand ..)
    | pop => exact tried (elsewhere_popOperand ..)
    | call => exact elsewhere_call s counter exit? relocatable (stays.calls named)
    | ret => exact absurd named stays.returns
    | syscall => exact absurd named stays.asks

/-- It leaves the instruction pointer alone, and does not end the program. -/
theorem execute_stays {i : Instruction} (stays : Stays i.mnemonic i.operands) :
    (s.execute setup i).1.machine.counter = s.machine.counter ∧
      (s.execute setup i).1.machine.exit? = s.machine.exit? := by
  have same := elsewhere_execute s s.machine.counter s.machine.exit? relocatable stays
  have here : s.elsewhere s.machine.counter s.machine.exit? = s := rfl
  rw [here] at same
  have state := congrArg Prod.fst same
  exact ⟨congrArg (·.machine.counter) state, congrArg (·.machine.exit?) state⟩

end Execute

/-! ## Runs that come to the same -/

variable {s} {s₁ s' : Session World} {n : Nat}

/-- Two runs come to the same, given enough steps: to the same fault but for its line after the same
number of steps, or to the same exit value, for which the first takes `more` steps than the second.
They leave the same world and have made the same calls. -/
inductive EndsAlike (setup setup' : Setup World) (more : Nat) (s s' : Session World) : Prop
  | fault {n : Nat} {t t' : Session World} {fault fault' : Fault} :
    Ends setup n s t (.error fault) → Ends setup' n s' t' (.error fault') →
    fault.withoutLine = fault'.withoutLine → t.world = t'.world → t.calls = t'.calls →
    EndsAlike setup setup' more s s'
  | exit {n : Nat} {t t' : Session World} {value : Int} :
    Ends setup (n + more) s t (.ok value) → Ends setup' n s' t' (.ok value) →
    t.world = t'.world → t.calls = t'.calls → EndsAlike setup setup' more s s'

/-- Before the runs come to the same, they may take equally many steps. -/
theorem EndsAlike.after {k more : Nat} {s₁' : Session World} (first : Steps setup k s s₁)
    (first' : Steps setup' k s' s₁') (later : EndsAlike setup setup' more s₁ s₁') :
    EndsAlike setup setup' more s s' := by
  cases later with
  | fault ends ends' same world calls =>
    exact .fault (first.ends ends) (first'.ends ends') same world calls
  | exit ends ends' world calls =>
    refine .exit ?_ (first'.ends ends') world calls
    rw [Nat.add_assoc]
    exact first.ends ends

end Session

open Session

/-! ## Places that agree -/

/-- Two relocatable programs with the same data labels and the same routines. -/
structure Setup.Parallel (setup setup' : Setup World) : Prop where
  labels : setup.image.dataLabels = setup'.image.dataLabels
  routines : setup.routine? = setup'.routine?
  left : setup.Relocatable
  right : setup'.Relocatable

/-- Runs from a place in one program and from a place in another come to the same, if they start
with the same registers, memory, world and calls and `pre` holds there. The first takes `more` steps
than the second, unless a fault stops both. -/
def Agree (setup setup' : Setup World) (more place place' : Nat)
    (pre : Registers → Memory → Prop) : Prop :=
  ∀ s : Session World, s.machine.exit? = none → s.machine.counter = place →
    pre s.machine.registers s.machine.memory →
    EndsAlike setup setup' more s (s.elsewhere place' none)

section Agree

variable {more place place' : Nat} {pre post : Registers → Memory → Prop} {line : Line}

/-- The first steps of two runs, which lead to the same but for the place, or to the same fault. -/
theorem endsAlike_of_steps {s s' : Session World} {i i' : Instruction} {counter : Nat}
    {exit? : Option Int} (running : s.machine.exit? = none) (running' : s'.machine.exit? = none)
    (fetched : s.fetch setup = .ok i) (fetched' : s'.fetch setup' = .ok i')
    (goes : (s'.step setup' i').1 = (s.step setup i).1.elsewhere counter exit?)
    (fault : (s.step setup i).2.map Fault.withoutLine = (s'.step setup' i').2.map Fault.withoutLine)
    (next : (s.step setup i).2 = none →
      EndsAlike setup setup' more (s.step setup i).1
        ((s.step setup i).1.elsewhere counter exit?)) :
    EndsAlike setup setup' more s s' := by
  cases stepped : s.step setup i with
  | mk s₁ fault? =>
    cases stepped' : s'.step setup' i' with
    | mk s₁' fault?' =>
      rw [stepped, stepped'] at goes fault
      rw [stepped] at next
      obtain rfl : s₁' = s₁.elsewhere counter exit? := goes
      cases fault? with
      | some raised =>
        cases fault?' with
        | none => cases fault
        | some raised' =>
          exact .fault (.fault (.refl s) running fetched stepped)
            (.fault (.refl s') running' fetched' stepped') (Option.some.inj fault) rfl rfl
      | none =>
        cases fault?' with
        | some => cases fault
        | none =>
          exact .after (.head running fetched stepped (.refl _))
            (.head running' fetched' stepped' (.refl _)) (next rfl)

/-- Over an instruction that stays in its program. -/
theorem Agree.pass (parallel : setup.Parallel setup') {mnemonic : String} {operands : List Operand}
    (located : CodeAt setup.image place [line]) (located' : CodeAt setup'.image place' [line])
    (isCode : line.code? = some (mnemonic, operands)) (stays : Stays mnemonic operands)
    (leads : Leads setup line pre post)
    (next : Agree setup setup' more (place + 1) (place' + 1) post) :
    Agree setup setup' more place place' pre := by
  rintro s running rfl holds
  obtain ⟨i, fetched, same⟩ := located.exists_fetch isCode
  have located' : CodeAt setup'.image (s.elsewhere place' none).machine.counter [line] := located'
  obtain ⟨i', fetched', same'⟩ := located'.exists_fetch isCode
  have outcome := leads s.moved i same holds
  obtain ⟨mnemonic, operands, number⟩ := i
  obtain ⟨_, _, number'⟩ := i'
  cases Option.some.inj (isCode.symm.trans same)
  cases Option.some.inj (isCode.symm.trans same')
  have targets (called : Opcode.ofName? mnemonic = some .call) (name : String)
      (single : operands = [.symbol name]) :
      setup.image.codeLabels.get? name = setup'.image.codeLabels.get? name := by
    obtain ⟨notMain, notStart, -⟩ := stays.calls called name single
    rw [parallel.left.leaves name notMain notStart, parallel.right.leaves name notMain notStart]
  have alike := alikeAfter_execute s.moved parallel.routines parallel.labels targets number number'
  obtain ⟨counter, ended⟩ := @execute_stays _ _ s.moved parallel.left
    ⟨mnemonic, operands, number⟩ stays
  have there : (s.elsewhere place' none).step setup' ⟨mnemonic, operands, number'⟩ =
      Prod.map (·.elsewhere (place' + 1) none) id
        (s.moved.execute setup' ⟨mnemonic, operands, number'⟩) :=
    elsewhere_execute s.moved (place' + 1) none parallel.right stays
  have goes : ((s.elsewhere place' none).step setup' ⟨mnemonic, operands, number'⟩).1 =
      (s.step setup ⟨mnemonic, operands, number⟩).1.elsewhere (place' + 1) none := by
    rw [there]
    exact congrArg (·.elsewhere (place' + 1) none) alike.state.symm
  refine endsAlike_of_steps running rfl fetched fetched' goes (by rw [there]; exact alike.fault)
    fun succeeds => ?_
  obtain ⟨-, holds'⟩ := outcome.holds succeeds (ended.trans running)
  exact next _ (ended.trans running) counter holds'

/-- A session that has not ended is at its own place. -/
theorem Session.elsewhere_here {s : Session World} (running : s.machine.exit? = none) :
    s.elsewhere s.machine.counter none = s := by
  rw [← running]
  rfl

theorem step_callLabel {name : String} {target : Nat} {i : Instruction}
    (code : (one .call (.symbol name)).code? = some i.code)
    (labelled : setup.image.codeLabels.get? name = some target) (s : Session World) :
    s.step setup i = s.moved.attempt (s.moved.machine.callLabel target) := by
  obtain ⟨_, _, line⟩ := i
  cases code
  show s.moved.call setup ⟨"call", [.symbol name], line⟩ = _
  rw [Session.call]
  dsimp only
  rw [labelled]

theorem exit?_push (m : Machine) (value : Int) : (m.push value).1.exit? = m.exit? := by
  unfold push
  dsimp only
  split
  · rfl
  · rfl

/-- Into the code behind a label, which is called from the same place. -/
theorem Agree.enter {name : String} {target target' : Nat}
    (located : CodeAt setup.image place [one .call (.symbol name)])
    (located' : CodeAt setup'.image place [one .call (.symbol name)])
    (labelled : setup.image.codeLabels.get? name = some target)
    (labelled' : setup'.image.codeLabels.get? name = some target')
    (leads : LeadsTo setup (one .call (.symbol name)) place target pre post)
    (next : Agree setup setup' more target target' post) :
    Agree setup setup' more place place pre := by
  rintro s running rfl holds
  rw [Session.elsewhere_here running]
  obtain ⟨i, fetched, same⟩ := located.exists_fetch rfl
  obtain ⟨i', fetched', same'⟩ := located'.exists_fetch rfl
  have outcome := leads s i same rfl holds
  have ended := exit?_push s.moved.machine s.moved.machine.counter
  have here := step_callLabel same labelled s
  have there := step_callLabel same' labelled' s
  rw [callLabel] at here there
  generalize s.moved.machine.push s.moved.machine.counter = pushed at ended here there
  obtain ⟨m', fault?⟩ := pushed
  have running' : m'.exit? = none := ended.trans running
  cases fault? with
  | some fault =>
    exact .fault (.fault (.refl s) running fetched here) (.fault (.refl s) running fetched' there)
      rfl rfl rfl
  | none =>
    let entered (place : Nat) : Session World :=
      { s.moved with machine := { m' with counter := place } }
    have here : s.step setup i = (entered target, none) := here
    have there : s.step setup' i' = (entered target', none) := there
    have same : entered target' = (entered target).elsewhere target' none := by
      rw [← running']
      rfl
    rw [here] at outcome
    obtain ⟨counter, holds'⟩ := outcome.holds rfl running'
    refine .after (.head running fetched here (.refl _)) (.head running fetched' there (.refl _)) ?_
    rw [same]
    exact next _ running' counter holds'

theorem exit?_of_pop {m raised : Machine} {value : Nat} (popped : m.pop = .ok (value, raised)) :
    raised.exit? = m.exit? := by
  unfold pop at popped
  cases read : m.memory.read (m.get .rsp) 8 with
  | error fault =>
    rw [read] at popped
    cases popped
  | ok word =>
    rw [read] at popped
    cases popped
    rfl

/-- Back to a place that is on the stack. -/
theorem Agree.back {target : Nat} (located : CodeAt setup.image place [.instruction ⟨.ret, []⟩])
    (located' : CodeAt setup'.image place' [.instruction ⟨.ret, []⟩])
    (leads : LeadsTo setup (.instruction ⟨.ret, []⟩) place target pre post)
    (next : Agree setup setup' more target target post) :
    Agree setup setup' more place place' pre := by
  rintro s running rfl holds
  have located' : CodeAt setup'.image (s.elsewhere place' none).machine.counter
    [.instruction ⟨.ret, []⟩] := located'
  obtain ⟨⟨_, _, number⟩, fetched, same⟩ := located.exists_fetch rfl
  obtain ⟨⟨_, _, number'⟩, fetched', same'⟩ := located'.exists_fetch rfl
  have outcome := leads s _ same rfl holds
  cases same
  cases same'
  have here : s.step setup ⟨"ret", [], number⟩ = s.moved.attempt
    (s.moved.machine.orUnchanged (s.moved.machine.returnToCaller ⟨"ret", [], number⟩)) := rfl
  have there : (s.elsewhere place' none).step setup' ⟨"ret", [], number'⟩ =
    (s.moved.elsewhere (place' + 1) none).attempt
      ((s.moved.machine.elsewhere (place' + 1) none).orUnchanged
        ((s.moved.machine.elsewhere (place' + 1) none).returnToCaller ⟨"ret", [], number'⟩)) := rfl
  rw [returnToCaller] at here there
  dsimp only at here there
  rw [elsewhere_pop] at there
  -- Both runs pop the same word, so from here on they are at the same place.
  cases popped : s.moved.machine.pop with
  | error fault =>
    rw [popped] at here there
    exact .fault (.fault (.refl s) running fetched here) (.fault (.refl _) rfl fetched' there)
      rfl rfl rfl
  | ok word =>
    obtain ⟨value, raised⟩ := word
    rw [popped] at here there
    let returned : Session World := { s.moved with machine := { raised with counter := value } }
    have running' : returned.machine.exit? = none := (exit?_of_pop popped).trans running
    have here : s.step setup ⟨"ret", [], number⟩ = (returned, none) := here
    have there : (s.elsewhere place' none).step setup' ⟨"ret", [], number'⟩ =
      (returned.elsewhere value none, none) := there
    rw [here] at outcome
    obtain ⟨counter, holds'⟩ := outcome.holds rfl running'
    obtain rfl : value = target := counter
    exact .after (.head running fetched here (.refl _)) (.head rfl fetched' there (.refl _))
      (next returned running' rfl holds')

/-- Lines of code lead two programs in lockstep from registers and memory where `pre` holds to such
where `post` holds. -/
def Marches (setup setup' : Setup World) (lines : List Line)
    (pre post : Registers → Memory → Prop) : Prop :=
  ∀ more place place', CodeAt setup.image place lines → CodeAt setup'.image place' lines →
    Agree setup setup' more (place + (codeOf lines).length) (place' + (codeOf lines).length) post →
    Agree setup setup' more place place' pre

theorem Leads.marches (leads : Leads setup line pre post) (parallel : setup.Parallel setup')
    {mnemonic : String} {operands : List Operand}
    (isCode : line.code? = some (mnemonic, operands)) (stays : Stays mnemonic operands) :
    Marches setup setup' [line] pre post := by
  intro more place place' located located' next
  rw [codeOf, List.filterMap_cons_some isCode] at next
  exact .pass parallel located located' isCode stays leads next

theorem marches_remark (remark : line.code? = none) : Marches setup setup' [line] pre pre := by
  intro more place place' _ _ next
  rwa [codeOf, List.filterMap_cons_none remark] at next

theorem Marches.append {lines lines' : List Line} {mid : Registers → Memory → Prop}
    (first : Marches setup setup' lines pre mid) (later : Marches setup setup' lines' mid post) :
    Marches setup setup' (lines ++ lines') pre post := by
  intro more place place' located located' next
  rw [codeOf_append, List.length_append, ← Nat.add_assoc, ← Nat.add_assoc] at next
  exact first _ _ _ located.left located'.left
    (later _ _ _ located.right located'.right next)

/-- Where both programs call `exit`, they end. -/
theorem agree_exit (parallel : setup.Parallel setup')
    (located : CodeAt setup.image place [one .call (.symbol "exit")])
    (located' : CodeAt setup'.image place' [one .call (.symbol "exit")]) :
    Agree setup setup' 0 place place' pre := by
  rintro s running rfl -
  have located' : CodeAt setup'.image (s.elsewhere place' none).machine.counter
    [one .call (.symbol "exit")] := located'
  obtain ⟨i, fetched, same⟩ := located.exists_fetch rfl
  obtain ⟨i', fetched', same'⟩ := located'.exists_fetch rfl
  have here := step_call same (parallel.left.leaves "exit" (by decide) (by decide)) s
  have there := step_call same' (parallel.right.leaves "exit" (by decide) (by decide))
    (s.elsewhere place' none)
  rw [if_pos rfl] at here there
  exact .exit (.exit (.head running fetched here (.refl _)) rfl)
    (.exit (.head rfl fetched' there (.refl _)) rfl) rfl rfl

end Agree

end Reckon.Machine
