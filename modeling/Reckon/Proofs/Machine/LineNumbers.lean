import Reckon.Machine.Execution
import Reckon.Proofs.Assembly.LineNumbers

/-!
# Line numbers do not matter to the machine

The machine looks at the operation and the operands of an instruction; its line only goes into
faults. Two programs that are the same but for the lines of their instructions therefore take the
same steps, from the same session to the same session, and raise the same faults but for their lines
(`Machine.Session.alikeAfter_step`).

Main statement: texts that are read alike are run alike
(`Machine.Execution.alike_ofText`).
-/

namespace Reckon.Machine

open Assembly (Image Instruction Operand Base)

/-! ## Instructions -/

section Instructions

variable {a b : Image} (labels : a.dataLabels = b.dataLabels) (m : Machine)

include labels

theorem alike_address (line line' : Nat) (base : Base) (displacement : Int)
    (symbol? : Option String) :
    Fault.Alike Eq (m.address a line base displacement symbol?)
      (m.address b line' base displacement symbol?) := by
  cases base with
  | rip =>
    rw [address, address, labels]
    cases symbol?.bind b.dataLabels.get? with
    | some place => exact .ok rfl
    | none => exact .error rfl
  | register r =>
    cases symbol? with
    | some symbol => exact .error rfl
    | none => exact .ok rfl

theorem alike_read (line line' : Nat) (width : Width) (operand : Operand) :
    Fault.Alike Eq (m.read a line width operand) (m.read b line' width operand) := by
  cases operand with
  | immediate => exact .ok rfl
  | register => exact .ok rfl
  | memory base displacement symbol? =>
    exact (alike_address labels m line line' base displacement symbol?).bind_same fun place =>
      .refl _
  | symbol => exact .error rfl

theorem alike_write (line line' : Nat) (width : Width) (value : Int) (operand : Operand) :
    Fault.Alike Eq (m.write a line width value operand) (m.write b line' width value operand) := by
  cases operand with
  | immediate => exact .error rfl
  | register => exact .ok rfl
  | memory base displacement symbol? =>
    exact (alike_address labels m line line' base displacement symbol?).bind_same fun place =>
      .refl _
  | symbol => exact .error rfl

omit labels in
theorem alike_operandWidth (mnemonic : String) (operands : List Operand) (line line' : Nat) :
    Fault.Alike Eq (operandWidth ⟨mnemonic, operands, line⟩)
      (operandWidth ⟨mnemonic, operands, line'⟩) := by
  unfold operandWidth
  dsimp only
  split
  · exact .ok rfl
  · exact .error rfl

variable (mnemonic : String) (operands : List Operand) (line line' : Nat)

theorem alike_move :
    Fault.Alike Eq (m.move a ⟨mnemonic, operands, line⟩)
      (m.move b ⟨mnemonic, operands, line'⟩) := by
  unfold move
  dsimp only
  split
  · next source destination =>
    refine (alike_operandWidth mnemonic _ line line').bind_same fun width => ?_
    refine (alike_read labels m line line' width source).bind_same fun value => ?_
    exact alike_write labels m line line' width value destination
  · exact .error rfl

theorem alike_combine (operation : Nat → Nat → Int) :
    Fault.Alike Eq (m.combine a ⟨mnemonic, operands, line⟩ operation)
      (m.combine b ⟨mnemonic, operands, line'⟩ operation) := by
  unfold combine
  dsimp only
  split
  · next source destination =>
    refine (alike_operandWidth mnemonic _ line line').bind_same fun width => ?_
    refine (alike_read labels m line line' width destination).bind_same fun left => ?_
    refine (alike_read labels m line line' width source).bind_same fun right => ?_
    exact alike_write labels m line line' width _ destination
  · exact .error rfl

omit labels in
theorem alike_divide :
    Fault.Alike Eq (m.divide ⟨mnemonic, operands, line⟩)
      (m.divide ⟨mnemonic, operands, line'⟩) := by
  unfold divide
  dsimp only
  split
  · split
    · exact .error rfl
    · split
      · exact .error rfl
      · exact .ok rfl
  · exact .error rfl
  · exact .error rfl

theorem alike_loadAddress :
    Fault.Alike Eq (m.loadAddress a ⟨mnemonic, operands, line⟩)
      (m.loadAddress b ⟨mnemonic, operands, line'⟩) := by
  unfold loadAddress
  dsimp only
  split
  · next base displacement symbol? r w =>
    exact (alike_address labels m line line' base displacement symbol?).bind_same fun place =>
      .ok rfl
  · exact .error rfl
  · exact .error rfl

omit labels in
theorem alike_returnToCaller :
    Fault.Alike Eq (m.returnToCaller ⟨mnemonic, operands, line⟩)
      (m.returnToCaller ⟨mnemonic, operands, line'⟩) := by
  unfold returnToCaller
  dsimp only
  split
  · exact .refl _
  · exact .error rfl

omit labels in
theorem alike_systemCall :
    Fault.Alike Eq (m.systemCall ⟨mnemonic, operands, line⟩)
      (m.systemCall ⟨mnemonic, operands, line'⟩) := by
  unfold systemCall
  split
  · exact .ok rfl
  · split
    · exact .error rfl
    · exact .error rfl

end Instructions

/-! ## Attempts -/

/-- Attempts that leave the same state, with the same fault but for its line if there is one. -/
structure AlikeAfter {σ : Type} (x y : σ × Option Fault) : Prop where
  state : x.1 = y.1
  fault : x.2.map Fault.withoutLine = y.2.map Fault.withoutLine

theorem AlikeAfter.refl {σ : Type} (x : σ × Option Fault) : AlikeAfter x x :=
  ⟨rfl, rfl⟩

theorem alikeAfter_onLine {σ : Type} (s : σ) (line line' : Int) (cause : Fault.Cause) :
    AlikeAfter (s, some (.onLine line cause)) (s, some (.onLine line' cause)) :=
  ⟨rfl, rfl⟩

theorem alikeAfter_orUnchanged (m : Machine) {x y : Except Fault Machine}
    (alike : Fault.Alike Eq x y) : AlikeAfter (m.orUnchanged x) (m.orUnchanged y) := by
  cases alike with
  | ok same =>
    rw [same]
    exact .refl _
  | error same => exact ⟨rfl, congrArg some same⟩

section Attempts

variable {a b : Image} (labels : a.dataLabels = b.dataLabels) (m : Machine)
  (mnemonic : String) (operands : List Operand) (line line' : Nat)

include labels

theorem alikeAfter_pushOperand :
    AlikeAfter (m.pushOperand a ⟨mnemonic, operands, line⟩)
      (m.pushOperand b ⟨mnemonic, operands, line'⟩) := by
  unfold pushOperand
  dsimp only
  split
  · next source =>
    have source := alike_read labels m line line' .quad source
    generalize m.read a line .quad _ = x at source
    generalize m.read b line' .quad _ = y at source
    cases source with
    | ok same =>
      rw [same]
      exact .refl _
    | error same => exact ⟨rfl, congrArg some same⟩
  · exact alikeAfter_onLine m line line' _

theorem alikeAfter_popOperand :
    AlikeAfter (m.popOperand a ⟨mnemonic, operands, line⟩)
      (m.popOperand b ⟨mnemonic, operands, line'⟩) := by
  unfold popOperand
  dsimp only
  split
  · next destination =>
    cases m.pop with
    | error fault => exact .refl _
    | ok popped =>
      exact alikeAfter_orUnchanged popped.2
        (alike_write labels popped.2 line line' .quad popped.1 destination)
  · exact alikeAfter_onLine m line line' _

end Attempts

/-! ## Steps -/

variable {World : Type}

/-- Programs that are the same but for the lines of their instructions, with the same routines. -/
structure Setup.Alike (setup setup' : Setup World) : Prop where
  image : setup.image.Alike setup'.image
  routine? : setup.routine? = setup'.routine?

namespace Session

variable {setup setup' : Setup World}

section Execute

variable (s : Session World) {mnemonic : String} {operands : List Operand}

theorem alikeAfter_attempt {x y : Attempt} (alike : AlikeAfter x y) :
    AlikeAfter (s.attempt x) (s.attempt y) :=
  ⟨by rw [attempt, attempt, alike.state], alike.fault⟩

theorem alikeAfter_callRoutine (line line' : Nat) (name : String) (routine : Routine World) :
    AlikeAfter (s.callRoutine ⟨mnemonic, operands, line⟩ name routine)
      (s.callRoutine ⟨mnemonic, operands, line'⟩ name routine) := by
  unfold callRoutine
  split
  · exact alikeAfter_onLine s line line' _
  · exact .refl _

variable (routines : setup.routine? = setup'.routine?)

include routines

theorem alikeAfter_call (targets : ∀ name, operands = [.symbol name] →
      setup.image.codeLabels.get? name = setup'.image.codeLabels.get? name) (line line' : Nat) :
    AlikeAfter (s.call setup ⟨mnemonic, operands, line⟩)
      (s.call setup' ⟨mnemonic, operands, line'⟩) := by
  unfold call
  rw [routines]
  dsimp only
  split
  · next name =>
    rw [targets name rfl]
    split
    · exact .refl _
    · split
      · exact .refl _
      · split
        · exact alikeAfter_callRoutine s line line' name _
        · exact alikeAfter_onLine s line line' _
  · exact alikeAfter_onLine s line line' _
  · exact alikeAfter_onLine s line line' _

/-- An instruction is executed the same whatever its line, if it calls the same code. -/
theorem alikeAfter_execute (labels : setup.image.dataLabels = setup'.image.dataLabels)
    (targets : Opcode.ofName? mnemonic = some .call → ∀ name, operands = [.symbol name] →
      setup.image.codeLabels.get? name = setup'.image.codeLabels.get? name) (line line' : Nat) :
    AlikeAfter (s.execute setup ⟨mnemonic, operands, line⟩)
      (s.execute setup' ⟨mnemonic, operands, line'⟩) := by
  have attempted {x y : Except Fault Machine} (same : Fault.Alike Eq x y) :
      AlikeAfter (s.attempt (s.machine.orUnchanged x)) (s.attempt (s.machine.orUnchanged y)) :=
    alikeAfter_attempt s (alikeAfter_orUnchanged s.machine same)
  unfold execute
  dsimp only
  cases named : Opcode.ofName? mnemonic with
  | none => exact alikeAfter_onLine s line line' _
  | some opcode =>
    cases opcode with
    | mov => exact attempted (alike_move labels _ _ _ _ _)
    | add => exact attempted (alike_combine labels _ _ _ _ _ _)
    | sub => exact attempted (alike_combine labels _ _ _ _ _ _)
    | imul => exact attempted (alike_combine labels _ _ _ _ _ _)
    | xor => exact attempted (alike_combine labels _ _ _ _ _ _)
    | idiv => exact attempted (alike_divide _ _ _ _ _)
    | lea => exact attempted (alike_loadAddress labels _ _ _ _ _)
    | push => exact alikeAfter_attempt s (alikeAfter_pushOperand labels _ _ _ _ _)
    | pop => exact alikeAfter_attempt s (alikeAfter_popOperand labels _ _ _ _ _)
    | call => exact alikeAfter_call s routines (targets named) line line'
    | ret => exact attempted (alike_returnToCaller _ _ _ _ _)
    | syscall => exact attempted (alike_systemCall _ _ _ _ _)

end Execute

variable (alike : setup.Alike setup') (s : Session World)

include alike

theorem alikeAfter_step {i i' : Instruction} (same : i.code = i'.code) :
    AlikeAfter (s.step setup i) (s.step setup' i') := by
  obtain ⟨mnemonic, operands, line⟩ := i
  obtain ⟨mnemonic', operands', line'⟩ := i'
  cases same
  exact alikeAfter_execute _ alike.routine? alike.image.dataLabels
    (fun _ name _ => by rw [alike.image.codeLabels]) line line'

theorem alike_fetch :
    Fault.Alike (fun i i' : Instruction => i.code = i'.code) (s.fetch setup)
      (s.fetch setup') := by
  have same : setup.image.instructions[s.machine.counter]?.map Instruction.code =
      setup'.image.instructions[s.machine.counter]?.map Instruction.code := by
    rw [← Array.getElem?_toList, ← Array.getElem?_toList, ← List.getElem?_map,
      ← List.getElem?_map, alike.image.code]
  unfold fetch
  generalize setup.image.instructions[s.machine.counter]? = found at same
  generalize setup'.image.instructions[s.machine.counter]? = found' at same
  cases found with
  | none =>
    cases found' with
    | none => exact .error rfl
    | some i' => cases same
  | some i =>
    cases found' with
    | none => cases same
    | some i' => exact .ok (Option.some.inj same)

/-! ## Runs -/

/-- Runs of programs alike go through the same sessions. -/
theorem alike_runFor (limit : Int) (allowed : Nat) :
    (runFor setup unobserved limit allowed s).1 = (runFor setup' unobserved limit allowed s).1 ∧
      Fault.Alike Eq (runFor setup unobserved limit allowed s).2
        (runFor setup' unobserved limit allowed s).2 := by
  induction allowed generalizing s with
  | zero =>
    unfold runFor
    cases s.machine.exit? with
    | some value => exact ⟨rfl, .refl _⟩
    | none => exact ⟨rfl, .refl _⟩
  | succ allowed ih =>
    rw [runFor, runFor]
    cases s.machine.exit? with
    | some value => exact ⟨rfl, .refl _⟩
    | none =>
      have fetched := alike_fetch alike s
      dsimp only
      generalize s.fetch setup = x at fetched
      generalize s.fetch setup' = y at fetched
      cases fetched with
      | error same => exact ⟨rfl, .error same⟩
      | @ok i i' same =>
        obtain ⟨state, fault⟩ := alikeAfter_step alike s same
        simp only [unobserved, Bool.false_eq_true, if_false]
        generalize s.step setup i = x at state fault
        generalize s.step setup' i' = y at state fault
        obtain ⟨s', fault?⟩ := x
        obtain ⟨s'', fault?'⟩ := y
        cases state
        cases fault? with
        | none =>
          cases fault?' with
          | none => exact ih s'
          | some => cases fault
        | some raised =>
          cases fault?' with
          | none => cases fault
          | some raised' => exact ⟨rfl, .error (Option.some.inj fault)⟩

theorem alike_run (limit : Int) :
    (s.run setup unobserved limit).1 = (s.run setup' unobserved limit).1 ∧
      Fault.Alike Eq (s.run setup unobserved limit).2 (s.run setup' unobserved limit).2 := by
  obtain ⟨session, result⟩ := alike_runFor alike s limit (s.allowance limit)
  refine ⟨session, result.map fun value value' same => ?_⟩
  rw [same, session]

end Session

/-- Runs that come to the same: the same exit, or the same fault but for its line, the same world,
and the same calls of routines with the same arguments. -/
structure Execution.Alike (x y : Execution World) : Prop where
  result : Fault.Alike Eq x.result y.result
  world : x.world = y.world
  calls : x.calls = y.calls
  log : x.log = y.log

/-- What is reported about a run does not depend on the fault that stopped it. -/
theorem runLog_eq {before after : Session World} {result result' : Except Fault Exit}
    (alike : Fault.Alike Eq result result') :
    runLog before after result = runLog before after result' := by
  cases alike with
  | ok same => rw [same]
  | error => rfl

theorem alike_load {text text' : String}
    (alike : Fault.Alike Image.Alike (Image.ofText text) (Image.ofText text'))
    (routine? : String → Option (Routine World)) (world : World) :
    Fault.Alike (fun x y : Setup World × Session World => x.1.Alike y.1 ∧ x.2 = y.2)
      (load text routine? world) (load text' routine? world) := by
  refine alike.bind fun a b same => ?_
  have entry : Machine.entry a = Machine.entry b := by
    rw [Machine.entry, Machine.entry, same.codeLabels, same.data]
  rw [Session.start, Session.start, entry]
  cases Machine.entry b with
  | error fault => exact .error rfl
  | ok machine => exact .ok ⟨⟨same, rfl⟩, rfl⟩

/-- Texts that are read alike are run alike. -/
theorem Execution.alike_ofText {text text' : String}
    (alike : Fault.Alike Image.Alike (Image.ofText text) (Image.ofText text'))
    (routine? : String → Option (Routine World)) (world : World) (limit : Int) :
    (Execution.ofText text routine? world limit).Alike
      (Execution.ofText text' routine? world limit) := by
  have loaded := alike_load alike routine? world
  unfold Execution.ofText
  generalize load text routine? world = x at loaded
  generalize load text' routine? world = y at loaded
  cases loaded with
  | error same => exact ⟨.error same, rfl, rfl, rfl⟩
  | @ok x y same =>
    obtain ⟨setup, session⟩ := x
    obtain ⟨setup', session'⟩ := y
    obtain ⟨alike, rfl⟩ := same
    obtain ⟨after, result⟩ := Session.alike_run alike session limit
    refine ⟨result, congrArg Session.world after, congrArg Session.calls after, ?_⟩
    exact (runLog_eq result).trans (by rw [after])

end Reckon.Machine
