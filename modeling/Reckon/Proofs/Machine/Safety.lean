import Reckon.Proofs.Machine.Calls
import Reckon.Proofs.Machine.Routines
import Reckon.Proofs.StackDiscipline

/-!
# Runs without misaligned calls

A run is safe if the stack pointer is a multiple of sixteen wherever a call is about to be executed,
and if no call is refused for its stack pointer (`Session.Safe`). Other faults may stop a safe run.

`Machine.Leads` says what an instruction leads to, unless a fault or the end of the program stops
the run there. There is a lemma for each form of emitted instruction; none of them asks for room on
the stack or for registers that hold words. `Machine.LeadsTo` says the same of places: to the next
instruction, or into and out of code with a label. `Machine.SafeAt` says that runs from a place in a
program are safe, and follows the code backwards (`SafeAt.goto`).
-/

namespace Reckon

/-- The fault of a call that finds the stack pointer off a multiple of sixteen. -/
def Fault.isMisaligned : Fault → Bool
  | .raised (.misalignedCall _) _ => true
  | _ => false

theorem Fault.isMisaligned_outOfSteps (limit : Int) : (outOfSteps limit).isMisaligned = false := by
  unfold outOfSteps
  split
  · rfl
  · rfl

theorem Opcode.eq_call_of_name {opcode : Opcode} (named : opcode.name = "call") :
    opcode = .call := by
  cases opcode with
  | call => rfl
  | _ => exact absurd named (by decide)

namespace Machine

open Assembly (Image Instruction Operand)
open Code (Line one two whole eax ebx slotOffset)

variable {World : Type} {setup : Setup World}

/-! ## Results -/

/-- The result is as said, or a fault other than that of a misaligned call. -/
inductive Yields {α : Type} (post : α → Prop) : Except Fault α → Prop
  | ok {a : α} : post a → Yields post (.ok a)
  | error {fault : Fault} : fault.isMisaligned = false → Yields post (.error fault)

theorem Yields.bind {α β : Type} {p : α → Prop} {q : β → Prop} {result : Except Fault α}
    {next : α → Except Fault β} (first : Yields p result) (later : ∀ a, p a → Yields q (next a)) :
    Yields q (result >>= next) := by
  cases first with
  | ok holds => exact later _ holds
  | error other => exact .error other

theorem yields_operandWidth (i : Instruction) : Yields (fun _ => True) (operandWidth i) := by
  unfold operandWidth
  dsimp only
  split
  · exact .ok trivial
  · exact .error rfl

theorem Memory.yields_read (mem : Memory) (address : Int) (size : Nat) :
    Yields (fun _ => True) (mem.read address size) := by
  unfold Memory.read
  split
  · exact .ok trivial
  · exact .error rfl

theorem Memory.yields_write (mem : Memory) (address value : Int) (size : Nat) :
    Yields (fun mem' => ∃ place : Nat, address = place ∧ place + size ≤ memorySize ∧
      mem' = mem.setWord place (wrap (8 * size) value) size) (mem.write address value size) := by
  unfold Memory.write
  split
  · next reached =>
    obtain ⟨lower, upper⟩ : 0 ≤ address ∧ address + size ≤ memorySize := by
      simpa [reaches] using reached
    refine .ok ⟨address.toNat, (Int.toNat_of_nonneg lower).symm, by omega, ?_⟩
    rw [setLongWord_eq_setWord]
  · exact .error rfl

theorem yields_address (m : Machine) (image : Image) (line : Nat) (base : Assembly.Base)
    (displacement : Int) (symbol? : Option String) :
    Yields (fun _ => True) (m.address image line base displacement symbol?) := by
  unfold address
  split
  · split
    · exact .ok trivial
    · exact .error rfl
  · split
    · exact .error rfl
    · exact .ok trivial

theorem yields_read (m : Machine) (image : Image) (line : Nat) (width : Width)
    (operand : Operand) : Yields (fun _ => True) (m.read image line width operand) := by
  cases operand with
  | immediate | register => exact .ok trivial
  | memory base displacement symbol? =>
    exact (yields_address m image line base displacement symbol?).bind fun address _ =>
      m.memory.yields_read address width.bytes
  | symbol => exact .error rfl

/-! ## Computations -/

section Computations

variable (m : Machine) (image : Image) (name : String) (line : Nat) (source : Operand)
  (r : Register) (w : Width)

theorem yields_move : Yields (fun m' => ∃ value : Int, m' = m.set r value)
    (m.move image ⟨name, [source, .register r w], line⟩) :=
  (yields_operandWidth _).bind fun width _ =>
    (yields_read m image line width source).bind fun _ _ => .ok ⟨_, rfl⟩

theorem yields_combine (operation : Nat → Nat → Int) :
    Yields (fun m' => ∃ value : Int, m' = m.set r value)
      (m.combine image ⟨name, [source, .register r w], line⟩ operation) :=
  (yields_operandWidth _).bind fun width _ =>
    (yields_read m image line width (.register r w)).bind fun _ _ =>
      (yields_read m image line width source).bind fun _ _ => .ok ⟨_, rfl⟩

theorem yields_loadAddress : Yields (fun m' => ∃ value : Int, m' = m.set r value)
    (m.loadAddress image ⟨name, [source, .register r w], line⟩) := by
  cases source with
  | memory base displacement symbol? =>
    exact (yields_address m image line base displacement symbol?).bind fun _ _ => .ok ⟨_, rfl⟩
  | immediate | register | symbol => exact .error rfl

theorem yields_move_to_memory (q : Register) (displacement : Int) :
    Yields (fun m' => ∃ place value : Nat, place = wrap 64 (m.get r + displacement) ∧
        place + 4 ≤ memorySize ∧ m' = { m with memory := m.memory.setWord place value 4 })
      (m.move image ⟨name, [.register q .double, .memory (.register r) displacement none],
        line⟩) := by
  have located : m.address image line (.register r) displacement none =
      .ok (wrap 64 (m.get r + displacement)) := rfl
  refine Yields.bind (p := fun width => width = .double) (.ok rfl) ?_
  rintro _ rfl
  refine (yields_read m image line .double (.register q .double)).bind fun value _ => ?_
  rw [Machine.write, located, ok_bind]
  apply (m.memory.yields_write _ _ 4).bind
  rintro _ ⟨place, same, inside, rfl⟩
  exact .ok ⟨place, _, (Int.ofNat_inj.mp same).symm, inside, rfl⟩

theorem yields_divide : Yields (fun m' => ∃ low high : Int, m' = (m.set .rax low).set .rdx high)
    (m.divide ⟨name, [.register r .double], line⟩) := by
  unfold divide
  dsimp only
  -- The quotient is named first, or the bounds on it would be evaluated.
  generalize signed 32 (m.get r) = divisor
  generalize quotientOf _ divisor = quotient
  split
  · exact .error rfl
  · split
    · exact .error rfl
    · exact .ok ⟨_, _, rfl⟩

end Computations

/-! ## Instructions -/

/-- A run may be stopped by the fault: it is not that of a misaligned call, or else a routine has
raised it. -/
def Excused (setup : Setup World) (fault : Fault) : Prop :=
  fault.isMisaligned = true → ∃ name routine world m words,
    setup.routine? name = some routine ∧ (routine world m words).2.2 = .error fault

theorem excused_of_isMisaligned {fault : Fault} (other : fault.isMisaligned = false) :
    Excused setup fault :=
  fun misaligned => absurd (other.symm.trans misaligned) Bool.false_ne_true

/-- An instruction has led to a session as said, or the run is stopped there. -/
inductive Outcome (setup : Setup World) (post : Session World → Prop) :
    Session World × Option Fault → Prop
  | next {s : Session World} : (s.machine.exit? = none → post s) → Outcome setup post (s, none)
  | stop {s : Session World} {fault : Fault} : Excused setup fault →
    Outcome setup post (s, some fault)

theorem Outcome.mono {good better : Session World → Prop} {pair : Session World × Option Fault}
    (outcome : Outcome setup better pair) (weaker : ∀ s, better s → good s) :
    Outcome setup good pair := by
  cases outcome with
  | next holds => exact .next fun running => weaker _ (holds running)
  | stop excused => exact .stop excused

theorem Outcome.holds {post : Session World → Prop} {pair : Session World × Option Fault}
    (outcome : Outcome setup post pair) (succeeds : pair.2 = none)
    (running : pair.1.machine.exit? = none) : post pair.1 := by
  cases outcome with
  | next holds => exact holds running
  | stop => cases succeeds

theorem Yields.outcome {post : Session World → Prop} {p : Machine → Prop} {s : Session World}
    {result : Except Fault Machine} (yields : Yields p result)
    (holds : ∀ m', p m' → post { s with machine := m' }) :
    Outcome setup post (s.attempt (s.machine.orUnchanged result)) := by
  cases yields with
  | ok good => exact .next fun _ => holds _ good
  | error other => exact .stop (excused_of_isMisaligned other)

/-- The instruction of a line leads from registers and memory where `pre` holds to such where `post`
holds, and leaves the instruction pointer to the next instruction. -/
def Leads (setup : Setup World) (line : Line) (pre post : Registers → Memory → Prop) : Prop :=
  ∀ (s : Session World) (i : Instruction), line.code? = some i.code →
    pre s.machine.registers s.machine.memory →
    Outcome setup (fun s' => s'.machine.counter = s.machine.counter ∧
      post s'.machine.registers s'.machine.memory) (s.execute setup i)

section Leads

variable {pre post : Registers → Memory → Prop}

theorem leads_of_acts {line : Line} (acts : ∀ rs mem, pre rs mem → ∃ rs' mem',
    Acts setup line rs mem rs' mem' ∧ post rs' mem') : Leads setup line pre post := by
  intro s i code holds
  obtain ⟨rs', mem', act, holds'⟩ := acts _ _ holds
  rw [act s i code rfl rfl]
  exact .next fun _ => ⟨rfl, holds'⟩

theorem leads_compute {opcode : Opcode} (computes : opcode.isComputation = true)
    (source : Code.Operand) {r : Register} (w : Width)
    (holds : ∀ rs mem value, pre rs mem → post (rs.set r value) mem) :
    Leads setup (two opcode source (.register r w)) pre post := by
  rintro s ⟨_, _, line⟩ code here
  cases code
  have written : ∀ m', (∃ value, m' = s.machine.set r value) →
      m'.counter = s.machine.counter ∧ post m'.registers m'.memory := by
    rintro m' ⟨value, rfl⟩
    exact ⟨rfl, holds _ _ _ here⟩
  cases opcode with
  | mov => exact (yields_move ..).outcome written
  | add | sub | imul | xor => exact (yields_combine ..).outcome written
  | lea => exact (yields_loadAddress ..).outcome written
  | idiv | push | pop | call | ret | syscall => cases computes

theorem leads_divide (holds : ∀ rs mem low high, pre rs mem →
    post ((rs.set .rax low).set .rdx high) mem) : Leads setup (one .idiv ebx) pre post := by
  rintro s ⟨_, _, line⟩ code here
  cases code
  refine (yields_divide s.machine "idiv" line .rbx).outcome ?_
  rintro m' ⟨low, high, rfl⟩
  exact ⟨rfl, holds _ _ _ _ here⟩

theorem leads_assign {index : Nat} (holds : ∀ (rs : Registers) (mem : Memory) (place value : Nat),
    place = wrap 64 (rs.get .rbp + -slotOffset index) → place + 4 ≤ memorySize → pre rs mem →
      post rs (mem.setWord place value 4)) :
    Leads setup (two .mov eax (.slot index)) pre post := by
  rintro s ⟨_, _, line⟩ code here
  cases code
  refine (yields_move_to_memory s.machine setup.image "mov" line .rbp .rax _).outcome ?_
  rintro m' ⟨place, value, found, inside, rfl⟩
  exact ⟨rfl, holds _ _ _ _ found inside here⟩

theorem outcome_push {s : Session World} {value : Int} {good : Session World → Prop}
    (holds : ∀ top : Nat, s.machine.get .rsp = (top + 8 : Nat) → top + 8 ≤ memorySize →
      good { s with machine := { s.machine.set .rsp top with
        memory := s.machine.memory.setWord top (wrap 64 value) 8 } }) :
    Outcome setup good (s.attempt (s.machine.push value)) := by
  have written := s.machine.memory.yields_write (s.machine.get .rsp - 8) value 8
  have lowered : (s.machine.set .rsp (s.machine.get .rsp - 8)).get .rsp = s.machine.get .rsp - 8 :=
    rfl
  have kept : (s.machine.set .rsp (s.machine.get .rsp - 8)).memory = s.machine.memory := rfl
  rw [push, lowered, kept]
  generalize s.machine.memory.write (s.machine.get .rsp - 8) value 8 = result at written ⊢
  cases written with
  | error other => exact .stop (excused_of_isMisaligned other)
  | ok inside =>
    obtain ⟨top, place, inside, rfl⟩ := inside
    rw [place]
    exact .next fun _ => holds top (by omega) inside

theorem leads_push (r : Register) (holds : ∀ (rs : Registers) (mem : Memory) (top value : Nat),
    rs.get .rsp = (top + 8 : Nat) → top + 8 ≤ memorySize → pre rs mem →
      post (rs.set .rsp top) (mem.setWord top value 8)) :
    Leads setup (one .push (whole r)) pre post := by
  rintro s ⟨_, _, line⟩ code here
  cases code
  show Outcome setup _ (s.attempt (s.machine.push (wrap 64 (s.machine.get r))))
  exact outcome_push fun top pointer inside => ⟨rfl, holds _ _ top _ pointer inside here⟩

theorem leads_pop {r : Register} (holds : ∀ (rs : Registers) (mem : Memory) (value : Nat),
    pre rs mem → post ((rs.set .rsp (rs.get .rsp + 8)).set r value) mem) :
    Leads setup (one .pop (whole r)) pre post := by
  rintro s ⟨_, _, line⟩ code here
  cases code
  have read := s.machine.memory.yields_read (s.machine.get .rsp) 8
  show Outcome setup _ (s.attempt (s.machine.popOperand setup.image
    ⟨"pop", [.register r .quad], line⟩))
  rw [popOperand, pop]
  dsimp only
  generalize s.machine.memory.read (s.machine.get .rsp) 8 = result at read ⊢
  cases read with
  | ok => exact .next fun _ => ⟨rfl, holds _ _ _ here⟩
  | error other => exact .stop (excused_of_isMisaligned other)

/-- A system call ends the program, if it does not raise a fault. -/
theorem leads_syscall : Leads setup (.instruction ⟨.syscall, []⟩) pre post := by
  rintro s ⟨_, _, line⟩ code here
  cases code
  show Outcome setup _ (s.attempt (s.machine.orUnchanged
    (s.machine.systemCall ⟨"syscall", [], line⟩)))
  unfold systemCall
  split
  · exact .next fun running => (by cases running)
  · split
    · exact .stop (excused_of_isMisaligned rfl)
    · exact .stop (excused_of_isMisaligned rfl)

theorem leads_call {name : String} (leaves : setup.image.codeLabels.get? name = none)
    (inert : ∀ routine, setup.routine? name = some routine → routine.Inert)
    (aligned : ∀ rs mem, pre rs mem → rs.get .rsp % 16 = 0)
    (holds : name ≠ "exit" → ∀ (rs : Registers) (mem : Memory) (value : Nat), pre rs mem →
      post (rs.set .rax value) mem) :
    Leads setup (one .call (.symbol name)) pre post := by
  rintro s ⟨_, _, line⟩ code here
  cases code
  show Outcome setup _ (s.call setup ⟨"call", [.symbol name], line⟩)
  rw [Session.call]
  dsimp only
  rw [leaves]
  dsimp only
  by_cases exits : name = "exit"
  · rw [if_pos exits]
    exact .next fun running => (by cases running)
  rw [if_neg exits]
  cases routed : setup.routine? name with
  | none => exact .stop (excused_of_isMisaligned rfl)
  | some routine =>
    have even : ¬ s.machine.get .rsp % 16 ≠ 0 := fun odd => odd (aligned _ _ here)
    obtain ⟨registers, memory, counter⟩ :=
      inert routine routed s.world s.machine s.machine.registers.arguments
    dsimp only
    rw [Session.callRoutine, if_neg even]
    dsimp only
    split
    · exact .stop (excused_of_isMisaligned rfl)
    · cases result : (routine s.world s.machine s.machine.registers.arguments).2.2 with
      | error fault => exact .stop fun _ => ⟨name, routine, _, _, _, routed, result⟩
      | ok returned =>
        refine .next fun _ => ⟨counter, ?_⟩
        rw [← registers, ← memory] at here
        exact holds exits _ _ _ here

end Leads

/-! ## Where instructions lead -/

/-- The instruction of a line at a place leads to another place, from registers and memory where
`pre` holds to such where `post` holds. -/
def LeadsTo (setup : Setup World) (line : Line) (place target : Nat)
    (pre post : Registers → Memory → Prop) : Prop :=
  ∀ (s : Session World) (i : Instruction), line.code? = some i.code → s.machine.counter = place →
    pre s.machine.registers s.machine.memory →
    Outcome setup (fun s' => s'.machine.counter = target ∧
      post s'.machine.registers s'.machine.memory) (s.step setup i)

theorem Leads.leadsTo {line : Line} {place : Nat} {pre post : Registers → Memory → Prop}
    (leads : Leads setup line pre post) : LeadsTo setup line place (place + 1) pre post := by
  rintro s i same rfl holds
  exact leads s.moved i same holds

/-- Into the code behind a label. -/
theorem leadsTo_call {name : String} {place target : Nat} {pre post : Registers → Memory → Prop}
    (labelled : setup.image.codeLabels.get? name = some target)
    (enters : ∀ (rs : Registers) (mem : Memory) (top : Nat), rs.get .rsp = (top + 8 : Nat) →
      top + 8 ≤ memorySize → pre rs mem →
      post (rs.set .rsp top) (mem.setWord top (wrap 64 (place + 1 : Nat)) 8)) :
    LeadsTo setup (one .call (.symbol name)) place target pre post := by
  rintro s ⟨_, _, line⟩ code rfl holds
  cases code
  have pushed : Outcome setup (fun s' => post s'.machine.registers s'.machine.memory)
      (s.moved.attempt (s.moved.machine.push s.moved.machine.counter)) :=
    outcome_push fun top pointer inside => enters _ _ top pointer inside holds
  show Outcome setup _ (s.moved.call setup ⟨"call", [.symbol name], line⟩)
  rw [Session.call]
  dsimp only
  rw [labelled]
  show Outcome setup _ (s.moved.attempt (s.moved.machine.callLabel target))
  rw [callLabel]
  generalize s.moved.machine.push s.moved.machine.counter = attempt at pushed ⊢
  obtain ⟨m', _ | fault⟩ := attempt
  · cases pushed with
    | next entered => exact .next fun running => ⟨rfl, entered running⟩
  · cases pushed with
    | stop excused => exact .stop excused

/-- Back to a place that is known to be on top of the stack. -/
theorem leadsTo_ret {place target : Nat} {pre post : Registers → Memory → Prop}
    (returns : ∀ rs mem, pre rs mem → ∃ top : Nat, rs.get .rsp = top ∧ top + 8 ≤ memorySize ∧
      mem.word top 8 = target ∧ post (rs.set .rsp (top + 8 : Nat)) mem) :
    LeadsTo setup (.instruction ⟨.ret, []⟩) place target pre post := by
  rintro s ⟨_, _, line⟩ code - holds
  cases code
  obtain ⟨top, pointer, inside, rfl, holds'⟩ := returns _ _ holds
  have popped : s.moved.machine.pop = .ok (s.machine.memory.word top 8, _) :=
    pop_of_le pointer inside
  show Outcome setup _ (s.moved.attempt (s.moved.machine.orUnchanged
    (s.moved.machine.returnToCaller ⟨"ret", [], line⟩)))
  rw [returnToCaller]
  dsimp only
  rw [popped, ok_bind]
  exact .next fun _ => ⟨rfl, holds'⟩

/-! ## Runs -/

/-- A run of at most `allowed` steps makes no misaligned call. -/
structure Session.Safe (setup : Setup World) (stops : Session.Observer) (limit : Int)
    (allowed : Nat) (s : Session World) : Prop where
  aligned : ∀ visit ∈ Session.visitsFor setup stops allowed s,
    visit.instruction.mnemonic = "call" → visit.registers.get .rsp % 16 = 0
  excused : ∀ fault, (Session.runFor setup stops limit allowed s).2 = .error fault →
    Excused setup fault

section Runs

variable {stops : Session.Observer} {limit : Int} {bound place : Nat}
  {pre post : Registers → Memory → Prop} {line : Line}

namespace Session

theorem safe_of_exit {allowed : Nat} {s : Session World} (ended : s.machine.exit? ≠ none) :
    s.Safe setup stops limit allowed := by
  obtain ⟨value, ended⟩ := Option.ne_none_iff_exists'.mp ended
  constructor
  · intro visit member
    cases allowed with
    | zero => cases member
    | succ allowed =>
      rw [visitsFor, ended] at member
      cases member
  · intro fault stopped
    unfold runFor at stopped
    rw [ended] at stopped
    cases stopped

theorem safe_zero {s : Session World} : s.Safe setup stops limit 0 := by
  constructor
  · intro visit member
    cases member
  · intro fault stopped
    rw [runFor] at stopped
    split at stopped
    · cases stopped
    · cases stopped
      exact excused_of_isMisaligned (Fault.isMisaligned_outOfSteps limit)

theorem safe_of_next {allowed : Nat} {s : Session World}
    (next : s.machine.exit? = none → s.Safe setup stops limit allowed) :
    s.Safe setup stops limit allowed := by
  by_cases running : s.machine.exit? = none
  · exact next running
  · exact safe_of_exit running

/-- A run is safe if its first instruction is, and then the rest of it. -/
theorem safe_succ {allowed : Nat} {s : Session World} {i : Instruction}
    (running : s.machine.exit? = none) (fetched : s.fetch setup = .ok i)
    (aligned : i.mnemonic = "call" → s.machine.get .rsp % 16 = 0)
    (outcome : Outcome setup (Safe setup stops limit allowed) (s.step setup i)) :
    s.Safe setup stops limit (allowed + 1) := by
  constructor
  · intro visit member isCall
    rw [visitsFor, running, fetched] at member
    dsimp only at member
    split at member
    · obtain rfl := List.mem_singleton.mp member
      exact aligned isCall
    · generalize s.step setup i = stepped at member outcome
      cases outcome with
      | stop =>
        obtain rfl := List.mem_singleton.mp member
        exact aligned isCall
      | next next =>
        rcases List.mem_cons.mp member with rfl | member
        · exact aligned isCall
        · exact (safe_of_next next).aligned visit member isCall
  · intro fault stopped
    rw [runFor, running, fetched] at stopped
    dsimp only at stopped
    split at stopped
    · cases stopped
      exact excused_of_isMisaligned rfl
    · generalize s.step setup i = stepped at stopped outcome
      cases outcome with
      | stop excused =>
        cases stopped
        exact excused
      | next next => exact (safe_of_next next).excused fault stopped

theorem Safe.excused_of_run {s : Session World} {fault : Fault}
    (safe : s.Safe setup stops limit (s.allowance limit))
    (stopped : (s.run setup stops limit).2 = .error fault) : Excused setup fault := by
  apply safe.excused fault
  rw [run] at stopped
  generalize runFor setup stops limit (s.allowance limit) s = ran at stopped ⊢
  obtain ⟨s', _ | value⟩ := ran
  · cases stopped
    rfl
  · cases stopped

end Session

/-- Runs of at most `bound` steps from a place in the program are safe, if `pre` holds there. -/
def SafeAt (setup : Setup World) (stops : Session.Observer) (limit : Int) (bound place : Nat)
    (pre : Registers → Memory → Prop) : Prop :=
  ∀ allowed ≤ bound, ∀ s : Session World, s.machine.counter = place →
    pre s.machine.registers s.machine.memory → s.Safe setup stops limit allowed

namespace SafeAt

theorem zero : SafeAt setup stops limit 0 place pre := by
  intro allowed none s _ _
  obtain rfl := Nat.le_zero.mp none
  exact Session.safe_zero

theorem unreached : SafeAt setup stops limit bound place fun _ _ => False :=
  fun _ _ _ _ impossible => impossible.elim

theorem of_succ (safe : SafeAt setup stops limit (bound + 1) place pre) :
    SafeAt setup stops limit bound place pre :=
  fun allowed within => safe allowed (Nat.le_succ_of_le within)

/-- Runs from an instruction are safe if what it leads to is, with a step less. -/
theorem goto {code : String × List Operand} {target : Nat}
    (located : CodeAt setup.image place [line]) (isCode : line.code? = some code)
    (aligned : code.1 = "call" → ∀ rs mem, pre rs mem → rs.get .rsp % 16 = 0)
    (leads : LeadsTo setup line place target pre post)
    (next : SafeAt setup stops limit bound target post) :
    SafeAt setup stops limit (bound + 1) place pre := by
  intro allowed within s here holds
  cases allowed with
  | zero => exact Session.safe_zero
  | succ allowed =>
    have located : CodeAt setup.image s.machine.counter [line] := here ▸ located
    obtain ⟨i, fetched, same⟩ := located.exists_fetch isCode
    obtain rfl : code = i.code := Option.some.inj (isCode.symm.trans same)
    refine Session.safe_of_next fun running => Session.safe_succ running fetched
      (fun isCall => aligned isCall _ _ holds) ?_
    refine (leads s i same here holds).mono fun s' reached => ?_
    exact next allowed (Nat.le_of_succ_le_succ within) s' reached.1 reached.2

/-- Over an instruction that leads to the next one. -/
theorem pass {code : String × List Operand} (located : CodeAt setup.image place [line])
    (isCode : line.code? = some code)
    (aligned : code.1 = "call" → ∀ rs mem, pre rs mem → rs.get .rsp % 16 = 0)
    (leads : Leads setup line pre post) (next : SafeAt setup stops limit bound (place + 1) post) :
    SafeAt setup stops limit bound place pre :=
  (goto located isCode aligned leads.leadsTo next).of_succ

/-- Past an instruction other than a call. -/
theorem past {opcode : Opcode} {operands : List Code.Operand}
    (located : CodeAt setup.image place [.instruction ⟨opcode, operands⟩]) (other : opcode ≠ .call)
    (leads : Leads setup (.instruction ⟨opcode, operands⟩) pre post)
    (next : SafeAt setup stops limit bound (place + 1) post) :
    SafeAt setup stops limit bound place pre :=
  pass located rfl (fun isCall => absurd (Opcode.eq_call_of_name isCall) other) leads next

end SafeAt

end Runs

end Machine

end Reckon
