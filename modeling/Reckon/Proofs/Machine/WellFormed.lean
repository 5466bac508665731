import Reckon.Proofs.Machine.Resumption
import Reckon.Proofs.Machine.Safety

/-!
# Machines stay well formed

A register holds an integer, and each instruction cuts what it writes to size in its own way. A push
and a pop do not cut the stack pointer at all. Still every register holds a word of 64 bits after
every instruction: a push stores its word where the stack pointer has gone, and a pop has read a
word there, so that a pointer that leaves the memory is a fault.

`Machine.WellFormed` says this of a machine, with the size of its memory. There is a lemma for each
instruction; an instruction without fault keeps a machine well formed
(`Session.wellFormed_of_execute`), hence so do runs of any length (`Session.Steps.wellFormed`).

Main statement: what holds after every instruction of every run from the entry of a program, and how
many instructions a run with a budget has executed (`Session.wellFormed_of_load`).
-/

namespace Reckon.Machine

open Assembly (Image Instruction Operand)

/-! ## Memory -/

namespace Memory

/-- What is read lies within reach, and is a word of as many bytes as were asked for. -/
theorem of_read {m : Memory} {address : Int} {size value : Nat}
    (read : m.read address size = .ok value) :
    0 ≤ address ∧ address + size ≤ memorySize ∧ value < 2 ^ (8 * size) := by
  unfold Memory.read at read
  split at read
  · next reached =>
    have bounds : 0 ≤ address ∧ address + size ≤ memorySize := by simpa [reaches] using reached
    cases read
    rw [longWord_eq_word]
    refine ⟨bounds.1, bounds.2, ?_⟩
    calc m.word address.toNat size
        < unit size := word_lt m address.toNat size
      _ = 2 ^ (8 * size) := by rw [Nat.pow_mul]; rfl
  · cases read

end Memory

/-! ## Machines -/

/-- Every register holds a word of 64 bits, and the memory has the given number of bytes. -/
structure WellFormed (size : Nat) (m : Machine) : Prop where
  registers : ∀ r, 0 ≤ m.get r ∧ m.get r < 2 ^ 64
  memory : m.memory.size = size

namespace WellFormed

variable {size : Nat} {m m' : Machine} {image : Image} {i : Instruction}

/-- Nothing else of a machine counts. -/
theorem congr (wellFormed : m.WellFormed size) (registers : m'.registers = m.registers)
    (memory : m'.memory = m.memory) : m'.WellFormed size := by
  refine ⟨fun r => ?_, by rw [memory, wellFormed.memory]⟩
  rw [Machine.get, registers]
  exact wellFormed.registers r

theorem set (wellFormed : m.WellFormed size) (r : Register) {value : Int} (nonneg : 0 ≤ value)
    (small : value < 2 ^ 64) : (m.set r value).WellFormed size := by
  refine ⟨fun q => ?_, wellFormed.memory⟩
  by_cases same : r = q
  · subst same
    rw [show (m.set r value).get r = value from Registers.get_set_self ..]
    exact ⟨nonneg, small⟩
  · rw [show (m.set r value).get q = m.get q from Registers.get_set_of_ne _ _ same]
    exact wellFormed.registers q

/-- What is cut to a word is no greater than a register. -/
theorem set_wrap (wellFormed : m.WellFormed size) (r : Register) {bits : Nat} (fits : bits ≤ 64)
    (value : Int) : (m.set r (wrap bits value)).WellFormed size := by
  have small : wrap bits value < 2 ^ 64 :=
    Nat.lt_of_lt_of_le (wrap_lt bits value) (Nat.pow_le_pow_right (by decide) fits)
  exact wellFormed.set r (Int.natCast_nonneg _) (by exact_mod_cast small)

theorem entry (entered : Machine.entry image = .ok m) : m.WellFormed m.memory.size := by
  unfold Machine.entry at entered
  split at entered
  · cases entered
  · cases entered
    have zero : ∀ r, 0 ≤ (Registers.zero.set .rsp memorySize).get r ∧
        (Registers.zero.set .rsp memorySize).get r < 2 ^ 64 := by
      intro r
      cases r <;> decide
    exact ⟨zero, rfl⟩

/-! ## Instructions -/

theorem yields_write (wellFormed : m.WellFormed size) (line : Nat) (width : Width) (value : Int)
    (operand : Operand) : Yields (WellFormed size) (m.write image line width value operand) := by
  cases operand with
  | register r w =>
    have fits : 8 * w.bytes ≤ 64 := by cases w <;> decide
    exact .ok (wellFormed.set_wrap r fits value)
  | memory base displacement symbol? =>
    refine (yields_address m image line base displacement symbol?).bind fun address _ => ?_
    refine (m.memory.yields_write address value width.bytes).bind fun mem written => ?_
    obtain ⟨place, -, -, rfl⟩ := written
    exact .ok ⟨wellFormed.registers, by rw [Memory.size_setWord, wellFormed.memory]⟩
  | immediate | symbol => exact .error rfl

theorem yields_move (wellFormed : m.WellFormed size) :
    Yields (WellFormed size) (m.move image i) := by
  unfold move
  split
  · refine (yields_operandWidth i).bind fun width _ => ?_
    refine (yields_read m image i.line width _).bind fun value _ => ?_
    exact wellFormed.yields_write i.line width value _
  · exact .error rfl

theorem yields_combine (wellFormed : m.WellFormed size) (operation : Nat → Nat → Int) :
    Yields (WellFormed size) (m.combine image i operation) := by
  unfold combine
  split
  · refine (yields_operandWidth i).bind fun width _ => ?_
    refine (yields_read m image i.line width _).bind fun left _ => ?_
    refine (yields_read m image i.line width _).bind fun right _ => ?_
    exact wellFormed.yields_write i.line width _ _
  · exact .error rfl

theorem yields_divide (wellFormed : m.WellFormed size) :
    Yields (WellFormed size) (m.divide i) := by
  unfold divide
  split
  · next r _ =>
    dsimp only
    -- The quotient is named first, or the bounds on it would be evaluated.
    generalize signed 32 (m.get r) = divisor
    generalize signed 64 _ = dividend
    generalize quotientOf dividend divisor = quotient
    split
    · exact .error rfl
    · split
      · exact .error rfl
      · exact .ok ((wellFormed.set_wrap .rax (by decide) _).set_wrap .rdx (by decide) _)
  · exact .error rfl
  · exact .error rfl

theorem yields_loadAddress (wellFormed : m.WellFormed size) :
    Yields (WellFormed size) (m.loadAddress image i) := by
  unfold loadAddress
  split
  · refine (yields_address m image i.line _ _ _).bind fun address _ => ?_
    exact wellFormed.yields_write i.line .quad address _
  · exact .error rfl
  · exact .error rfl

/-- A word can be popped only where the stack pointer may be raised. -/
theorem yields_pop (wellFormed : m.WellFormed size) :
    Yields (fun popped => popped.2.WellFormed size) m.pop := by
  unfold pop
  have safe := m.memory.yields_read (m.get .rsp) 8
  cases read : m.memory.read (m.get .rsp) 8 with
  | error fault =>
    rw [read] at safe
    cases safe with
    | error other => exact .error other
  | ok value =>
    obtain ⟨lower, upper, -⟩ := Memory.of_read read
    refine .ok (wellFormed.set .rsp (by omega) ?_)
    unfold memorySize at upper
    omega

theorem yields_returnToCaller (wellFormed : m.WellFormed size) :
    Yields (WellFormed size) (m.returnToCaller i) := by
  unfold returnToCaller
  split
  · refine wellFormed.yields_pop.bind fun popped raised => ?_
    exact .ok (raised.congr rfl rfl)
  · exact .error rfl

theorem yields_systemCall (wellFormed : m.WellFormed size) :
    Yields (WellFormed size) (m.systemCall i) := by
  unfold systemCall
  split
  · exact .ok (wellFormed.congr rfl rfl)
  · split
    · exact .error rfl
    · exact .error rfl

theorem of_orUnchanged {result : Except Fault Machine} (yields : Yields (WellFormed size) result)
    (done : m.orUnchanged result = (m', none)) : m'.WellFormed size := by
  cases yields with
  | ok wellFormed =>
    cases done
    exact wellFormed
  | error => cases done

/-- A word can be pushed only where the stack pointer may be lowered. -/
theorem push (wellFormed : m.WellFormed size) {value : Int} (pushed : m.push value = (m', none)) :
    m'.WellFormed size := by
  have pointer : (m.set .rsp (m.get .rsp - 8)).get .rsp = m.get .rsp - 8 := rfl
  have written := m.memory.yields_write (m.get .rsp - 8) value 8
  unfold Machine.push at pushed
  dsimp only at pushed
  rw [pointer, show (m.set .rsp (m.get .rsp - 8)).memory = m.memory from rfl] at pushed
  generalize m.memory.write (m.get .rsp - 8) value 8 = result at written pushed
  cases written with
  | error => cases pushed
  | ok stored =>
    obtain ⟨place, top, inside, rfl⟩ := stored
    cases pushed
    have small := (wellFormed.registers .rsp).2
    have lowered : (m.set .rsp (m.get .rsp - 8)).WellFormed size :=
      wellFormed.set .rsp (by omega) (by omega)
    exact ⟨lowered.registers, by rw [Memory.size_setWord, wellFormed.memory]⟩

theorem pushOperand (wellFormed : m.WellFormed size) (done : m.pushOperand image i = (m', none)) :
    m'.WellFormed size := by
  unfold Machine.pushOperand at done
  split at done
  · split at done
    · exact wellFormed.push done
    · cases done
  · cases done

theorem popOperand (wellFormed : m.WellFormed size) (done : m.popOperand image i = (m', none)) :
    m'.WellFormed size := by
  unfold Machine.popOperand at done
  split at done
  · have popped := wellFormed.yields_pop
    generalize m.pop = result at popped done
    cases popped with
    | error => cases done
    | ok raised => exact of_orUnchanged (raised.yields_write i.line .quad _ _) done
  · cases done

theorem callLabel (wellFormed : m.WellFormed size) {target : Nat}
    (done : m.callLabel target = (m', none)) : m'.WellFormed size := by
  unfold Machine.callLabel at done
  generalize pushed : m.push m.counter = attempt at done
  obtain ⟨lowered, _ | fault⟩ := attempt
  · cases done
    exact (wellFormed.push pushed).congr rfl rfl
  · cases done

end WellFormed

/-! ## Sessions -/

namespace Session

variable {World : Type} {setup : Setup World} {s s' : Session World} {i : Instruction} {size : Nat}

theorem exists_of_attempt_done {a : Attempt} (done : s.attempt a = (s', none)) :
    ∃ m', a = (m', none) ∧ s' = { s with machine := m' } := by
  obtain ⟨m', fault?⟩ := a
  cases done
  exact ⟨m', rfl, rfl⟩

/-- An instruction that works in one go. -/
theorem wellFormed_of_orUnchanged {result : Except Fault Machine}
    (yields : Yields (WellFormed size) result)
    (done : s.attempt (s.machine.orUnchanged result) = (s', none)) :
    s'.machine.WellFormed size := by
  obtain ⟨m', attempted, rfl⟩ := exists_of_attempt_done done
  exact .of_orUnchanged yields attempted

theorem wellFormed_of_callRoutine {name : String} {routine : Routine World}
    (wellFormed : s.machine.WellFormed size) (inert : routine.Inert)
    (done : s.callRoutine i name routine = (s', none)) : s'.machine.WellFormed size := by
  obtain ⟨registers, memory, -⟩ := inert s.world s.machine s.machine.registers.arguments
  unfold callRoutine at done
  split at done
  · cases done
  · dsimp only at done
    split at done
    · cases done
    · split at done
      · cases done
        exact (wellFormed.congr registers memory).set_wrap .rax (by decide) _
      · cases done

section Inert

variable (inert : ∀ name routine, setup.routine? name = some routine → routine.Inert)

include inert

theorem wellFormed_of_call (wellFormed : s.machine.WellFormed size)
    (done : s.call setup i = (s', none)) : s'.machine.WellFormed size := by
  unfold call at done
  split at done
  · split at done
    · obtain ⟨m', called, rfl⟩ := exists_of_attempt_done done
      exact wellFormed.callLabel called
    · split at done
      · cases done
        exact wellFormed.congr rfl rfl
      · split at done
        · next routine known => exact wellFormed_of_callRoutine wellFormed (inert _ _ known) done
        · cases done
  · cases done
  · cases done

/-- An instruction without fault keeps the machine well formed. -/
theorem wellFormed_of_execute (wellFormed : s.machine.WellFormed size)
    (done : s.execute setup i = (s', none)) : s'.machine.WellFormed size := by
  unfold execute at done
  dsimp only at done
  cases opcode : Opcode.ofName? i.mnemonic with
  | none =>
    rw [opcode] at done
    cases done
  | some o =>
    rw [opcode] at done
    cases o with
    | mov => exact wellFormed_of_orUnchanged wellFormed.yields_move done
    | add | sub | imul | xor =>
      exact wellFormed_of_orUnchanged (wellFormed.yields_combine _) done
    | idiv => exact wellFormed_of_orUnchanged wellFormed.yields_divide done
    | lea => exact wellFormed_of_orUnchanged wellFormed.yields_loadAddress done
    | push =>
      obtain ⟨m', pushed, rfl⟩ := exists_of_attempt_done done
      exact wellFormed.pushOperand pushed
    | pop =>
      obtain ⟨m', popped, rfl⟩ := exists_of_attempt_done done
      exact wellFormed.popOperand popped
    | call => exact wellFormed_of_call inert wellFormed done
    | ret => exact wellFormed_of_orUnchanged wellFormed.yields_returnToCaller done
    | syscall => exact wellFormed_of_orUnchanged wellFormed.yields_systemCall done

/-- Runs without fault keep the machine well formed. -/
theorem Steps.wellFormed {k : Nat} (steps : Steps setup k s s')
    (wellFormed : s.machine.WellFormed size) : s'.machine.WellFormed size := by
  induction steps with
  | refl => exact wellFormed
  | @head n s s₁ s' i _ _ stepped _ ih =>
    have moved : WellFormed size { s.machine with counter := s.machine.counter + 1 } :=
      wellFormed.congr rfl rfl
    exact ih (wellFormed_of_execute inert moved stepped)

end Inert

/-! ## Budgets -/

/-- A watched run takes no more steps than it is allowed, however it comes to a halt. -/
theorem steps_watchFor_le {σ : Type} (watch : Watch World σ) (allowed : Nat) (memory : σ)
    (s : Session World) : (watchFor setup watch allowed memory s).1.steps ≤ s.steps + allowed := by
  have counted {s s' : Session World} {i : Instruction} {fault? : Option Fault}
      (stepped : s.step setup i = (s', fault?)) : s'.steps = s.steps + 1 := by
    rw [← congrArg (fun pair => pair.1.steps) stepped]
    exact steps_execute _ i
  fun_induction watchFor setup watch allowed memory s with
  | case1 | case2 | case3 | case4 => exact Nat.le_add_right ..
  | case5 memory s running allowed i found memory' judged s₁ stepped ih =>
    have one := counted stepped
    omega
  | case6 memory s running allowed i found memory' judged s₁ fault stepped =>
    have one := counted stepped
    dsimp only
    omega

theorem steps_watch_le {σ : Type} (watch : Watch World σ) (memory : σ) {limit : Int}
    (left : s.steps ≤ limit) : ((s.watch setup watch memory limit).1.steps : Int) ≤ limit := by
  have within : (s.watch setup watch memory limit).1.steps ≤ s.steps + s.allowance limit :=
    steps_watchFor_le watch _ memory s
  rw [allowance] at within
  omega

/-- The state of the machine stays well formed. Load any assembly text, with routines that return
what they like, or nothing, and leave the registers and the memory alone. After every instruction of
every run without fault, of any length, each register holds a number of 64 bits, the memory has the
size it had at the entry, and every word of `size` bytes that can be read is below 2 ^ (8 * `size`).

A run with a budget that comes to a halt between two instructions, because of its budget or of a
watch or for any other reason, is such a run. No run with a budget that is not negative, watched or
not, takes more steps than the budget. -/
theorem wellFormed_of_load {text : String} {routine? : String → Option (Routine World)}
    {world : World} {s₀ : Session World} (loaded : load text routine? world = .ok (setup, s₀))
    (inert : ∀ name routine, routine? name = some routine → routine.Inert) :
    (∀ k s, Steps setup k s₀ s → s.steps = k ∧
      (∀ r, 0 ≤ s.machine.get r ∧ s.machine.get r < 2 ^ 64) ∧
      s.machine.memory.size = s₀.machine.memory.size ∧
      ∀ (address : Int) (size value : Nat), s.machine.memory.read address size = .ok value →
        value < 2 ^ (8 * size)) ∧
    (∀ (σ : Type) (watch : Watch World σ) (memory : σ) (limit : Int) s halt,
      s₀.watch setup watch memory limit = (s, halt) →
      (halt.isBetween = true → ∃ k, Steps setup k s₀ s) ∧ (0 ≤ limit → s.steps ≤ limit)) ∧
    ∀ stops limit, 0 ≤ limit → ((s₀.run setup stops limit).1.steps : Int) ≤ limit := by
  obtain ⟨routines, entered, begins⟩ : setup.routine? = routine? ∧
      Machine.entry setup.image = .ok s₀.machine ∧ s₀.steps = 0 := by
    unfold load at loaded
    generalize Assembly.Image.ofText text = result at loaded
    cases result with
    | error => cases loaded
    | ok image =>
      cases entered : Machine.entry image with
      | error fault =>
        simp only [ok_bind, start, entered] at loaded
        cases loaded
      | ok m =>
        simp only [ok_bind, start, entered] at loaded
        cases loaded
        exact ⟨rfl, entered, rfl⟩
  rw [← routines] at inert
  have left : ∀ limit : Int, 0 ≤ limit → s₀.steps ≤ limit := by
    intro limit nonneg
    rw [begins]
    exact nonneg
  refine ⟨fun k s steps => ?_, fun σ watch memory limit s halt watched => ⟨fun between => ?_,
    fun nonneg => ?_⟩, fun stops limit nonneg => ?_⟩
  · have wellFormed := steps.wellFormed inert (.entry entered)
    refine ⟨?_, wellFormed.registers, wellFormed.memory,
      fun _ _ _ read => (Memory.of_read read).2.2⟩
    rw [steps.steps_eq, begins, Nat.zero_add]
  · obtain ⟨k, -, steps, -⟩ := exists_steps_of_watchFor watched between
    exact ⟨k, steps⟩
  · have within := @steps_watch_le _ setup s₀ σ watch memory limit (left limit nonneg)
    rw [watched] at within
    exact within
  · rw [run_eq_watch]
    exact steps_watch_le stops.watch () (left limit nonneg)

/-- A routine returns a number below zero, which is pushed and popped into the stack pointer. -/
theorem wellFormed_of_load_of_pointer :
    let routine : Routine Unit := fun world m _ => (world, m, .ok (some (-1)))
    ∃ setup s₀ s, load "_start:\n call f\n push %rax\n pop %rsp\n" (fun _ => some routine) () =
        .ok (setup, s₀) ∧ Steps setup 3 s₀ s ∧ s.steps = 3 ∧
      (∀ r, 0 ≤ s.machine.get r ∧ s.machine.get r < 2 ^ 64) ∧
      s.machine.memory.size = s₀.machine.memory.size ∧
      ((s₀.run setup unobserved 2).1.steps : Int) ≤ 2 := by
  intro routine
  obtain ⟨setup, s₀, loaded⟩ : ∃ setup s₀,
      load "_start:\n call f\n push %rax\n pop %rsp\n" (fun _ => some routine) () =
        .ok (setup, s₀) := ⟨_, _, rfl⟩
  have inert : ∀ (name : String) (r : Routine Unit), some routine = some r → r.Inert := by
    intro name r same world m words
    cases same
    exact ⟨rfl, rfl, rfl⟩
  have steps : ∃ s, Steps setup 3 s₀ s := by
    let i : Instruction := ⟨"call", [.symbol "f"], 2⟩
    let moved : Session Unit := { s₀ with machine := { s₀.machine with counter := 1 }, steps := 1 }
    obtain ⟨outside, known, here, zeros⟩ : setup.image.codeLabels.get? "f" = none ∧
        setup.routine? "f" = some routine ∧ (s₀.machine.counter = 0 ∧ s₀.steps = 0) ∧
        moved.machine.registers.arguments = [0, 0, 0, 0, 0, 0] := by
      cases loaded
      exact ⟨rfl, rfl, ⟨rfl, rfl⟩, rfl⟩
    have routed : s₀.step setup i = moved.callRoutine i "f" routine := by
      have opcode : Opcode.ofName? i.mnemonic = some .call := rfl
      have notExit : ¬ "f" = "exit" := by decide
      simp only [step, execute, opcode, call, i, outside, known, notExit, if_false, here, moved]
    -- That the arguments can be reported is settled first, or it would be evaluated.
    have writable : moved.machine.registers.arguments.all Text.isWritable = true := by
      rw [zeros]
      simp [Text.isWritable_of_lt]
    have aligned : ¬ moved.machine.get .rsp % 16 ≠ 0 := by
      cases loaded
      decide
    have called : s₀.step setup i =
        ({ moved with
          machine := moved.machine.set .rax (2 ^ 64 - 1)
          calls := moved.calls.push ⟨"f", moved.machine.registers.arguments⟩ }, none) := by
      rw [routed, callRoutine, if_neg aligned]
      dsimp only
      rw [writable]
      rfl
    cases loaded
    exact ⟨_, .head rfl rfl called (.head rfl rfl rfl (.head rfl rfl rfl (.refl _)))⟩
  obtain ⟨s, steps⟩ := steps
  obtain ⟨runs, -, budget⟩ := wellFormed_of_load loaded inert
  obtain ⟨count, registers, memory, -⟩ := runs 3 s steps
  exact ⟨setup, s₀, s, loaded, steps, count, registers, memory, budget unobserved 2 (by decide)⟩

end Session

end Reckon.Machine
