import Reckon.Machine.Session

/-!
# What a fault leaves behind

An instruction that raises a fault leaves the session as it was, but for the stack pointer, which
moves before the word is stored or the operand is written:

* a push and a call of a label lower it before they store their word (`Session.StoreRefused`);
* a pop raises it before it writes its operand (`Session.DestinationRefused`).

`Session.Failed` lists the three ways in which an instruction can fail, and
`Session.failed_of_fault` shows that there are no others, unless an outside routine raised the fault
(`Session.RaisedOutside`).
-/

namespace Reckon.Machine

open Assembly (Image Instruction Operand)

/-! ## Attempts -/

section Attempts

variable {m m' : Machine} {fault : Fault}

theorem eq_of_orUnchanged {result : Except Fault Machine}
    (failed : m.orUnchanged result = (m', some fault)) : m' = m := by
  cases result with
  | ok => cases failed
  | error => exact (congrArg Prod.fst failed).symm

/-- A push fails exactly if there is no room for its word. -/
theorem push_eq_fault_iff {value : Int} :
    m.push value = (m', some fault) ↔ Memory.reaches (m.get .rsp - 8) 8 = false ∧
      m' = m.set .rsp (m.get .rsp - 8) ∧
      fault = .raised (.outOfBounds (m.get .rsp - 8)) none := by
  have pointer : (m.set .rsp (m.get .rsp - 8)).get .rsp = m.get .rsp - 8 := rfl
  unfold push Memory.write
  dsimp only
  rw [pointer]
  constructor
  · intro failed
    split at failed
    · cases failed
    · next refused =>
      split at refused
      · cases refused
      · next unreached =>
        cases refused
        cases failed
        exact ⟨Bool.eq_false_iff.mpr unreached, rfl, rfl⟩
  · rintro ⟨unreached, rfl, rfl⟩
    rw [show Memory.reaches (m.get .rsp - 8) (8 : Nat) = false from unreached]
    rfl

theorem callLabel_eq_fault {target : Nat} (failed : m.callLabel target = (m', some fault)) :
    Memory.reaches (m.get .rsp - 8) 8 = false ∧ m' = m.set .rsp (m.get .rsp - 8) := by
  unfold callLabel at failed
  generalize pushed : m.push m.counter = attempt at failed
  obtain ⟨lowered, _ | refused⟩ := attempt
  · cases failed
  · obtain ⟨unreached, same, -⟩ := push_eq_fault_iff.mp pushed
    cases failed
    exact ⟨unreached, same⟩

/-- What is popped leaves the machine with its stack pointer raised. -/
theorem eq_of_pop {value : Nat} {raised : Machine} (popped : m.pop = .ok (value, raised)) :
    raised = m.set .rsp (m.get .rsp + 8) := by
  unfold pop at popped
  generalize m.memory.read (m.get .rsp) 8 = word at popped
  cases word with
  | ok => cases popped; rfl
  | error => cases popped

end Attempts

namespace Session

variable {World : Type} {setup : Setup World} {s s' : Session World} {i : Instruction}
  {fault : Fault}

/-! ## How an instruction fails -/

/-- A push, whose operand could be read, or a call of a label finds no room for its word. -/
inductive StoreRefused (setup : Setup World) (s : Session World) (i : Instruction) : Prop
  | push {source : Operand} {value : Nat} : Opcode.ofName? i.mnemonic = some .push →
    i.operands = [source] → s.machine.read setup.image i.line .quad source = .ok value →
    Memory.reaches (s.machine.get .rsp - 8) 8 = false → StoreRefused setup s i
  | call {name : String} {target : Nat} : Opcode.ofName? i.mnemonic = some .call →
    i.operands = [.symbol name] → setup.image.codeLabels.get? name = some target →
    Memory.reaches (s.machine.get .rsp - 8) 8 = false → StoreRefused setup s i

/-- A pop has read its word and cannot write it. -/
inductive DestinationRefused (setup : Setup World) (s : Session World) (i : Instruction) : Prop
  | pop {destination : Operand} {value : Nat} {raised : Machine} {fault : Fault} :
    Opcode.ofName? i.mnemonic = some .pop → i.operands = [destination] →
    s.machine.pop = .ok (value, raised) →
    raised.write setup.image i.line .quad value destination = .error fault →
    DestinationRefused setup s i

theorem not_storeRefused (notPush : Opcode.ofName? i.mnemonic ≠ some .push)
    (notCall : Opcode.ofName? i.mnemonic ≠ some .call) : ¬ StoreRefused setup s i := by
  rintro (⟨isPush, -, -, -⟩ | ⟨isCall, -, -, -⟩)
  · exact notPush isPush
  · exact notCall isCall

theorem not_destinationRefused (notPop : Opcode.ofName? i.mnemonic ≠ some .pop) :
    ¬ DestinationRefused setup s i := by
  rintro ⟨isPop, -, -, -⟩
  exact notPop isPop

/-- No instruction both stores a word on the stack and takes one from it. -/
theorem StoreRefused.not_destinationRefused (stored : StoreRefused setup s i) :
    ¬ DestinationRefused setup s i := by
  apply Session.not_destinationRefused
  rcases stored with ⟨isPush, -, -, -⟩ | ⟨isCall, -, -, -⟩
  · simp [isPush]
  · simp [isCall]

/-- A call gets as far as an outside routine, which raises the fault. -/
inductive RaisedOutside (setup : Setup World) (s : Session World) (i : Instruction)
    (fault : Fault) : Prop
  | call {name : String} {routine : Routine World} : Opcode.ofName? i.mnemonic = some .call →
    i.operands = [.symbol name] → setup.image.codeLabels.get? name = none → name ≠ "exit" →
    setup.routine? name = some routine → s.machine.get .rsp % 16 = 0 →
    s.machine.registers.arguments.all Text.isWritable = true →
    (routine s.world s.machine s.machine.registers.arguments).2.2 = .error fault →
    RaisedOutside setup s i fault

/-- The session with another value in the stack pointer. -/
def withPointer (s : Session World) (pointer : Int) : Session World :=
  { s with machine := s.machine.set .rsp pointer }

/-- What a session may have become when an instruction failed. -/
inductive Failed (setup : Setup World) (s : Session World) (i : Instruction) :
    Session World → Prop
  | untouched : ¬ StoreRefused setup s i → ¬ DestinationRefused setup s i → Failed setup s i s
  | lowered : StoreRefused setup s i →
    Failed setup s i (s.withPointer (s.machine.get .rsp - 8))
  | raised : DestinationRefused setup s i →
    Failed setup s i (s.withPointer (s.machine.get .rsp + 8))

theorem exists_of_attempt {a : Attempt} (faulted : s.attempt a = (s', some fault)) :
    ∃ m', a = (m', some fault) ∧ s' = { s with machine := m' } := by
  obtain ⟨m', fault?⟩ := a
  cases faulted
  exact ⟨m', rfl, rfl⟩

/-- An instruction that works in one go. -/
theorem Failed.of_orUnchanged {result : Except Fault Machine}
    (faulted : s.attempt (s.machine.orUnchanged result) = (s', some fault))
    (notPush : Opcode.ofName? i.mnemonic ≠ some .push)
    (notPop : Opcode.ofName? i.mnemonic ≠ some .pop)
    (notCall : Opcode.ofName? i.mnemonic ≠ some .call) : Failed setup s i s' := by
  obtain ⟨m', failed, rfl⟩ := exists_of_attempt faulted
  rw [eq_of_orUnchanged failed]
  exact .untouched (not_storeRefused notPush notCall) (not_destinationRefused notPop)

theorem failed_pushOperand (isPush : Opcode.ofName? i.mnemonic = some .push)
    (faulted : s.attempt (s.machine.pushOperand setup.image i) = (s', some fault)) :
    Failed setup s i s' := by
  have notPop : ¬ DestinationRefused setup s i := not_destinationRefused (by simp [isPush])
  have unread (unreadable : ∀ source value, i.operands = [source] →
      s.machine.read setup.image i.line .quad source ≠ .ok value) : Failed setup s i s := by
    refine .untouched ?_ notPop
    rintro (⟨-, single, read, -⟩ | ⟨isCall, -, -, -⟩)
    · exact unreadable _ _ single read
    · cases isPush.symm.trans isCall
  obtain ⟨m', failed, rfl⟩ := exists_of_attempt faulted
  unfold pushOperand at failed
  split at failed
  · next source single =>
    split at failed
    · next value read =>
      obtain ⟨unreached, rfl, -⟩ := push_eq_fault_iff.mp failed
      exact .lowered (.push isPush single read unreached)
    · next refused =>
      cases failed
      refine unread fun source' value single' read => ?_
      cases single.symm.trans single'
      cases refused.symm.trans read
  · next other =>
    cases failed
    exact unread fun source _ single _ => other source single

theorem failed_popOperand (isPop : Opcode.ofName? i.mnemonic = some .pop)
    (faulted : s.attempt (s.machine.popOperand setup.image i) = (s', some fault)) :
    Failed setup s i s' := by
  have notStored : ¬ StoreRefused setup s i := not_storeRefused (by simp [isPop]) (by simp [isPop])
  obtain ⟨m', failed, rfl⟩ := exists_of_attempt faulted
  unfold popOperand at failed
  split at failed
  · next destination single =>
    split at failed
    · next value raised popped =>
      cases written : raised.write setup.image i.line .quad value destination with
      | ok =>
        rw [written] at failed
        cases failed
      | error refused =>
        have left := Failed.raised (DestinationRefused.pop isPop single popped written)
        rw [eq_of_orUnchanged failed]
        rwa [withPointer, ← eq_of_pop popped] at left
    · next refused =>
      cases failed
      refine .untouched notStored ?_
      rintro ⟨-, -, popped, -⟩
      cases refused.symm.trans popped
  · next other =>
    cases failed
    refine .untouched notStored ?_
    rintro ⟨-, single, -, -⟩
    exact other _ single

/-- A call of a routine fails before the routine is entered, or inside it. -/
theorem callRoutine_eq_fault {name : String} {routine : Routine World}
    (faulted : s.callRoutine i name routine = (s', some fault)) :
    s' = s ∨ s.machine.get .rsp % 16 = 0 ∧
      s.machine.registers.arguments.all Text.isWritable = true ∧
      (routine s.world s.machine s.machine.registers.arguments).2.2 = .error fault := by
  unfold callRoutine at faulted
  split at faulted
  · cases faulted
    exact .inl rfl
  · next aligned =>
    dsimp only at faulted
    split at faulted
    · cases faulted
      exact .inl rfl
    · next writable =>
      refine .inr ⟨by omega, by simpa using writable, ?_⟩
      split at faulted
      · cases faulted
      · next raised =>
        cases faulted
        exact raised

theorem failed_call (isCall : Opcode.ofName? i.mnemonic = some .call)
    (faulted : s.call setup i = (s', some fault)) (own : ¬ RaisedOutside setup s i fault) :
    Failed setup s i s' := by
  have notPop : ¬ DestinationRefused setup s i := not_destinationRefused (by simp [isCall])
  have unlabelled (outside : ∀ name target, i.operands = [.symbol name] →
      setup.image.codeLabels.get? name ≠ some target) : Failed setup s i s := by
    refine .untouched ?_ notPop
    rintro (⟨isPush, -, -, -⟩ | ⟨-, single, labelled, -⟩)
    · cases isCall.symm.trans isPush
    · exact outside _ _ single labelled
  unfold call at faulted
  split at faulted
  · next name single =>
    split at faulted
    · next target labelled =>
      obtain ⟨m', failed, rfl⟩ := exists_of_attempt faulted
      obtain ⟨unreached, rfl⟩ := callLabel_eq_fault failed
      exact .lowered (.call isCall single labelled unreached)
    · next missing =>
      have left : Failed setup s i s := unlabelled fun name' target single' labelled => by
        cases single.symm.trans single'
        cases missing.symm.trans labelled
      split at faulted
      · cases faulted
      · next notExit =>
        split at faulted
        · next routine known =>
          rcases callRoutine_eq_fault faulted with rfl | ⟨aligned, writable, raised⟩
          · exact left
          · exact absurd (.call isCall single missing notExit known aligned writable raised) own
        · cases faulted
          exact left
  · next operand other single =>
    cases faulted
    refine unlabelled fun name _ single' _ => ?_
    cases single.symm.trans single'
    exact other name rfl
  · next other _ =>
    cases faulted
    exact unlabelled fun name _ single _ => other name single

/-- There are no other ways to fail. -/
theorem failed_of_fault (faulted : s.execute setup i = (s', some fault))
    (own : ¬ RaisedOutside setup s i fault) : Failed setup s i s' := by
  unfold execute at faulted
  dsimp only at faulted
  cases opcode : Opcode.ofName? i.mnemonic with
  | none =>
    rw [opcode] at faulted
    cases faulted
    exact .untouched (not_storeRefused (by simp [opcode]) (by simp [opcode]))
      (not_destinationRefused (by simp [opcode]))
  | some o =>
    rw [opcode] at faulted
    cases o with
    | push => exact failed_pushOperand opcode faulted
    | pop => exact failed_popOperand opcode faulted
    | call => exact failed_call opcode faulted own
    | _ => exact .of_orUnchanged faulted (by simp [opcode]) (by simp [opcode]) (by simp [opcode])

/-- A faulting instruction leaves the machine intact but for its stack pointer. Let any instruction,
with any operands, raise a fault that does not come from inside an outside routine. Then memory, the
exit value, the counter and every register but the stack pointer are what they were. The stack
pointer is 8 lower if a push or a call of a label could not store its word, 8 higher if a pop has
read its word and could not write it, and what it was otherwise. -/
theorem intact_of_fault (faulted : s.execute setup i = (s', some fault))
    (own : ¬ RaisedOutside setup s i fault) :
    s'.machine.memory = s.machine.memory ∧ s'.machine.exit? = s.machine.exit? ∧
      s'.machine.counter = s.machine.counter ∧
      (∀ r, r ≠ .rsp → s'.machine.get r = s.machine.get r) ∧
      (StoreRefused setup s i → s'.machine.get .rsp = s.machine.get .rsp - 8) ∧
      (DestinationRefused setup s i → s'.machine.get .rsp = s.machine.get .rsp + 8) ∧
      (¬ StoreRefused setup s i → ¬ DestinationRefused setup s i →
        s'.machine.get .rsp = s.machine.get .rsp) := by
  have others (pointer : Int) (r : Register) (other : r ≠ .rsp) :
      (s.withPointer pointer).machine.get r = s.machine.get r :=
    Registers.get_set_of_ne _ _ other.symm
  cases failed_of_fault faulted own with
  | untouched notStored notWritten =>
    exact ⟨rfl, rfl, rfl, fun _ _ => rfl, fun stored => absurd stored notStored,
      fun written => absurd written notWritten, fun _ _ => rfl⟩
  | lowered stored =>
    refine ⟨rfl, rfl, rfl, others _, fun _ => rfl, fun written => ?_,
      fun notStored => absurd stored notStored⟩
    exact absurd written stored.not_destinationRefused
  | raised written =>
    refine ⟨rfl, rfl, rfl, others _, fun stored => ?_, fun _ => rfl,
      fun _ notWritten => absurd written notWritten⟩
    exact absurd written stored.not_destinationRefused

/-- A pop into a label, which cannot be written, and a push below the first words of memory. -/
theorem intact_of_fault_of_pop_and_push :
    let setup : Setup Unit := ⟨.empty, fun _ => none⟩
    let session (pointer : Int) : Session Unit :=
      ⟨⟨Registers.zero.set .rsp pointer, .ofData [], 1, none⟩, 1, (), #[]⟩
    let pop : Instruction := ⟨"pop", [.symbol "x"], 7⟩
    let push : Instruction := ⟨"push", [.register .rsp .quad], 8⟩
    (∃ s' fault, (session 16).execute setup pop = (s', some fault) ∧
      s'.machine.get .rsp = 24 ∧ ∀ r, r ≠ .rsp → s'.machine.get r = (session 16).machine.get r) ∧
    ∃ s' fault, (session 4).execute setup push = (s', some fault) ∧
      s'.machine.get .rsp = -4 ∧ s'.machine.memory = (session 4).machine.memory := by
  intro setup session pop push
  have own (pointer : Int) (i : Instruction) (other : Opcode.ofName? i.mnemonic ≠ some .call)
      (fault : Fault) : ¬ RaisedOutside setup (session pointer) i fault := by
    rintro ⟨isCall, -, -, -, -, -, -⟩
    exact other isCall
  have popped : (session 16).execute setup pop =
      ((session 16).withPointer 24, some (.onLine 7 (.cannotWrite (.symbol "x")))) := rfl
  have pushed : (session 4).execute setup push =
      ((session 4).withPointer (-4), some (.raised (.outOfBounds (-4)) none)) := rfl
  obtain ⟨-, -, -, others, -, higher, -⟩ := intact_of_fault popped (own _ _ (by decide) _)
  obtain ⟨memory, -, -, -, lower, -, -⟩ := intact_of_fault pushed (own _ _ (by decide) _)
  exact ⟨⟨_, _, popped, higher (.pop rfl rfl rfl rfl), others⟩,
    _, _, pushed, lower (.push rfl rfl rfl rfl), memory⟩

end Session

end Reckon.Machine
