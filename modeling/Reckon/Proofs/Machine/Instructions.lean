import Reckon.Proofs.Assembly.ReadBack
import Reckon.Proofs.Evaluation
import Reckon.Proofs.Machine.Words

/-!
# What emitted instructions do

Each form of instruction that is emitted, calls and returns apart, changes registers and memory in
one way: `Machine.Acts` says in which, `Machine.Faults` that the instruction raises a fault. Words
in registers are given as bit vectors, so that the arithmetic of instructions is that of bit
vectors.
-/

namespace Reckon.Machine

open Assembly (Image Instruction Operand)
open Code (Line one two whole literalLabel slotOffset)

variable {World : Type} {setup : Setup World} {rs : Registers} {mem : Memory}

/-- The instruction of a line takes registers and memory to others, and changes nothing else. -/
def Acts (setup : Setup World) (line : Line) (rs : Registers) (mem : Memory) (rs' : Registers)
    (mem' : Memory) : Prop :=
  ∀ (s : Session World) (i : Instruction), line.code? = some i.code →
    s.machine.registers = rs → s.machine.memory = mem →
    s.execute setup i =
      ({ s with machine := { s.machine with registers := rs', memory := mem' } }, none)

/-- The instruction of a line raises a fault and changes nothing. -/
def Faults (setup : Setup World) (line : Line) (rs : Registers) (mem : Memory)
    (cause : Fault.Cause) : Prop :=
  ∀ (s : Session World) (i : Instruction), line.code? = some i.code →
    s.machine.registers = rs → s.machine.memory = mem →
    s.execute setup i = (s, some (.onLine i.line cause))

/-- The registers with a word in one of them. -/
def Registers.put {n : Nat} (rs : Registers) (r : Register) (word : BitVec n) : Registers :=
  rs.set r (word.toNat : Int)

theorem ok_bind {ε α β : Type} (a : α) (f : α → Except ε β) : (Except.ok a >>= f) = f a :=
  rfl

/-- An instruction that only tries to change the machine acts as the attempt says. -/
theorem acts_of_attempt {line : Line} {rs' : Registers} {mem' : Memory}
    (act : Machine → Instruction → Except Fault Machine)
    (executes : ∀ (s : Session World) i, line.code? = some i.code →
      s.execute setup i = s.attempt (s.machine.orUnchanged (act s.machine i)))
    (succeeds : ∀ m i, line.code? = some i.code → m.registers = rs → m.memory = mem →
      act m i = .ok { m with registers := rs', memory := mem' }) :
    Acts setup line rs mem rs' mem' := by
  intro s i code registers memory
  rw [executes s i code, succeeds s.machine i code registers memory]
  rfl

/-! ## Moves -/

theorem acts_of_mov {source destination : Code.Operand} {rs' : Registers} {mem' : Memory}
    (moves : ∀ (m : Machine) (line : Nat), m.registers = rs → m.memory = mem →
      m.move setup.image ⟨"mov", [source.denote, destination.denote], line⟩ =
        .ok { m with registers := rs', memory := mem' }) :
    Acts setup (two .mov source destination) rs mem rs' mem' := by
  refine acts_of_attempt (fun m i => m.move setup.image i) (fun s i code => ?_) ?_
  · cases i
    cases code
    rfl
  · rintro m ⟨_, _, line⟩ code registers memory
    cases code
    exact moves m line registers memory

/-- What a move to a register comes to, once its source is read. -/
theorem move_to_register {m : Machine} {image : Image} {name : String} {line : Nat}
    {source : Operand} {r : Register} {w width : Width} {value : Nat} {moved : Int}
    (wide : operandWidth ⟨name, [source, .register r w], line⟩ = .ok width)
    (read : m.read image line width source = .ok value) (cut : wrap (8 * w.bytes) value = moved) :
    m.move image ⟨name, [source, .register r w], line⟩ = .ok (m.set r moved) := by
  subst cut
  rw [move]
  dsimp only
  rw [wide, ok_bind, read, ok_bind]
  rfl

theorem acts_mov_immediate (value : Int) (r : Register) :
    Acts setup (two .mov (.immediate value) (.register r .double)) rs mem
      (rs.put r (BitVec.ofInt 32 value)) mem := by
  apply acts_of_mov
  rintro m line rfl rfl
  exact move_to_register rfl rfl (by rw [wrap_eq _ value, wrap_toNat_self]; rfl)

theorem acts_mov_low {r q : Register} {word : Word} (source : rs.get r = word.toNat) :
    Acts setup (two .mov (.register r .double) (.register q .double)) rs mem
      (rs.put q (word.setWidth 32)) mem := by
  apply acts_of_mov
  rintro m line rfl rfl
  refine move_to_register rfl rfl ?_
  rw [Machine.get, source, wrap_toNat _ word, wrap_toNat_self]
  rfl

theorem acts_copy (r q : Register) : Acts setup (two .mov (whole r) (whole q)) rs mem
    (rs.set q (wrap 64 (wrap 64 (rs.get r)))) mem := by
  apply acts_of_mov
  rintro m line rfl rfl
  exact move_to_register rfl rfl rfl

theorem acts_mov_whole {r q : Register} {word : Word} (source : rs.get r = word.toNat) :
    Acts setup (two .mov (whole r) (whole q)) rs mem (rs.put q word) mem := by
  have acts : Acts setup (two .mov (whole r) (whole q)) rs mem _ mem := acts_copy r q
  rwa [source, wrap_toNat_self, wrap_toNat_self] at acts

/-! ## Slots and literals -/

/-- Where the slot of a variable lies below a frame. -/
theorem address_slot {m : Machine} {image : Image} {line frame index : Nat}
    (base : m.get .rbp = frame) (below : 4 * (index + 1) ≤ frame) (inside : frame ≤ memorySize) :
    m.address image line (.register .rbp) (-slotOffset index) none =
      .ok (frame - 4 * (index + 1)) := by
  have place : (frame : Int) + -slotOffset index = (frame - 4 * (index + 1) : Nat) := by
    simp only [slotOffset, Code.wordSize]
    omega
  have small : memorySize < modulus 64 := by decide
  rw [address, base, place, wrap_of_lt (by omega)]

theorem acts_load {frame index : Nat} (base : rs.get .rbp = frame) (below : 4 * (index + 1) ≤ frame)
    (inside : frame ≤ memorySize) {word : BitVec 32}
    (stored : mem.word (frame - 4 * (index + 1)) 4 = word.toNat) :
    Acts setup (two .mov (.slot index) Code.eax) rs mem (rs.put .rax word) mem := by
  apply acts_of_mov
  rintro m line rfl rfl
  have inner : m.memory.read (frame - 4 * (index + 1) : Nat) 4 = .ok word.toNat := by
    rw [Memory.read_of_le (by omega), stored]
  have read : m.read setup.image line .double
      (.memory (.register .rbp) (-slotOffset index) none) = .ok word.toNat := by
    rw [Machine.read, address_slot base below inside, ok_bind]
    exact inner
  exact move_to_register rfl read (congrArg Nat.cast (wrap_toNat_self word))

theorem acts_store {frame index : Nat} (base : rs.get .rbp = frame)
    (below : 4 * (index + 1) ≤ frame)
    (inside : frame ≤ memorySize) {word : Word} (source : rs.get .rax = word.toNat) :
    Acts setup (two .mov Code.eax (.slot index)) rs mem rs
      (mem.setWord (frame - 4 * (index + 1)) (word.setWidth 32).toNat 4) := by
  apply acts_of_mov
  rintro m line rfl rfl
  have written : m.memory.write (frame - 4 * (index + 1) : Nat) (wrap 32 (m.get .rax)) 4 =
      .ok (m.memory.setWord (frame - 4 * (index + 1)) (word.setWidth 32).toNat 4) := by
    rw [Machine.get, source, Memory.write_of_le (by omega), wrap_toNat, wrap_toNat_self]
  have wide : operandWidth ⟨"mov", [.register .rax .double,
      .memory (.register .rbp) (-slotOffset index) none], line⟩ = .ok .double := rfl
  show m.move setup.image ⟨"mov", [.register .rax .double,
    .memory (.register .rbp) (-slotOffset index) none], line⟩ = _
  rw [move]
  dsimp only
  rw [wide, ok_bind, Machine.read, ok_bind, Machine.write, address_slot base below inside, ok_bind]
  dsimp only [Width.bytes]
  rw [written, ok_bind]
  rfl

theorem acts_lea {place address : Nat}
    (labelled : setup.image.dataLabels.get? (literalLabel place) = some address) :
    Acts setup (two .lea (.literal place) Code.rax) rs mem (rs.put .rax (BitVec.ofNat 64 address))
      mem := by
  refine acts_of_attempt (fun m i => m.loadAddress setup.image i) (fun s i code => ?_) ?_
  · cases i
    cases code
    rfl
  · rintro m ⟨_, _, line⟩ code rfl rfl
    cases code
    have named : m.address setup.image line .rip 0 (some (literalLabel place)) = .ok address := by
      rw [Machine.address]
      dsimp only [Option.bind_some]
      rw [labelled]
    have same : wrap 64 address = (BitVec.ofNat 64 address).toNat := by
      rw [wrap_eq, BitVec.ofInt_natCast]
    show m.loadAddress setup.image
      ⟨"lea", [.memory .rip 0 (some (literalLabel place)), .register .rax .quad], line⟩ = _
    rw [loadAddress]
    dsimp only
    rw [named, ok_bind, Machine.write]
    dsimp only [Width.bytes]
    rw [same]
    rfl

/-! ## Arithmetic -/

theorem ofInt_toNat {n : Nat} (word : BitVec n) : BitVec.ofInt n word.toNat = word := by
  rw [BitVec.ofInt_natCast, BitVec.ofNat_toNat, BitVec.setWidth_eq]

/-- What combining a source with a register comes to, once the source is read. -/
theorem combine_register {m : Machine} {image : Image} {name : String} {line : Nat}
    {source : Operand} {r : Register} {w width : Width} {value : Nat} {combined : Int}
    {operation : Nat → Nat → Int}
    (wide : operandWidth ⟨name, [source, .register r w], line⟩ = .ok width)
    (read : m.read image line width source = .ok value)
    (cut : wrap (8 * w.bytes) (operation (wrap (8 * w.bytes) (m.get r)) value) = combined) :
    m.combine image ⟨name, [source, .register r w], line⟩ operation = .ok (m.set r combined) := by
  subst cut
  rw [combine]
  dsimp only
  rw [wide, ok_bind, Machine.read, ok_bind, read, ok_bind]
  rfl

/-- The instruction replaces its destination by the operation of destination and source. -/
def Combines (opcode : Opcode) (operation : Nat → Nat → Int) : Prop :=
  ∀ {World : Type} (setup : Setup World) (s : Session World) (operands : List Operand) (line : Nat),
    s.execute setup ⟨opcode.name, operands, line⟩ =
      s.attempt (s.machine.orUnchanged
        (s.machine.combine setup.image ⟨opcode.name, operands, line⟩ operation))

theorem combines_add : Combines .add fun a b => a + b := fun _ _ _ _ => rfl

theorem combines_sub : Combines .sub fun a b => a - b := fun _ _ _ _ => rfl

theorem combines_imul : Combines .imul fun a b => a * b := fun _ _ _ _ => rfl

theorem combines_xor : Combines .xor fun a b => (a ^^^ b : Nat) := fun _ _ _ _ => rfl

theorem Combines.acts {opcode : Opcode} {operation : Nat → Nat → Int}
    (combines : Combines opcode operation) {source : Code.Operand} {r : Register} {w : Width}
    (width : Width) (value : Nat) {combined : Int}
    (wide : ∀ line, operandWidth ⟨opcode.name, [source.denote, .register r w], line⟩ = .ok width)
    (read : ∀ (m : Machine) (line : Nat), m.registers = rs →
      m.read setup.image line width source.denote = .ok value)
    (cut : wrap (8 * w.bytes) (operation (wrap (8 * w.bytes) (rs.get r)) value) = combined) :
    Acts setup (two opcode source (.register r w)) rs mem (rs.set r combined) mem := by
  refine acts_of_attempt (fun m i => m.combine setup.image i operation) (fun s i code => ?_) ?_
  · cases i
    cases code
    exact combines setup s _ _
  · rintro m ⟨_, _, line⟩ code rfl rfl
    cases code
    exact combine_register (wide line) (read m line rfl) cut

/-- The low halves of two registers are combined as bit vectors. -/
theorem Combines.acts_low {opcode : Opcode} {operation : Nat → Nat → Int}
    (combines : Combines opcode operation) {r q : Register} {a b : Word} {result : BitVec 32}
    (source : rs.get r = a.toNat) (destination : rs.get q = b.toNat)
    (combined : BitVec.ofInt 32 (operation (b.setWidth 32).toNat (a.setWidth 32).toNat) = result) :
    Acts setup (two opcode (.register r .double) (.register q .double)) rs mem (rs.put q result)
      mem := by
  have low : wrap 32 (rs.get q) = (b.setWidth 32).toNat := by rw [destination, wrap_toNat]
  refine combines.acts .double (a.setWidth 32).toNat (fun _ => rfl) ?_ ?_
  · rintro m line rfl
    show Except.ok (wrap 32 (m.registers.get r)) = _
    rw [source, wrap_toNat]
  · show ((wrap 32 (operation (wrap 32 (rs.get q)) (a.setWidth 32).toNat) : Nat) : Int) = _
    rw [low, wrap_eq, combined]

theorem acts_add {r q : Register} {a b : Word} (source : rs.get r = a.toNat)
    (destination : rs.get q = b.toNat) :
    Acts setup (two .add (.register r .double) (.register q .double)) rs mem
      (rs.put q (b.setWidth 32 + a.setWidth 32)) mem := by
  apply combines_add.acts_low source destination
  rw [BitVec.ofInt_add, ofInt_toNat, ofInt_toNat]

theorem acts_sub {r q : Register} {a b : Word} (source : rs.get r = a.toNat)
    (destination : rs.get q = b.toNat) :
    Acts setup (two .sub (.register r .double) (.register q .double)) rs mem
      (rs.put q (b.setWidth 32 - a.setWidth 32)) mem := by
  apply combines_sub.acts_low source destination
  rw [Int.sub_eq_add_neg, BitVec.ofInt_add, BitVec.ofInt_neg, ofInt_toNat, ofInt_toNat,
    BitVec.sub_eq_add_neg]

theorem acts_imul {r q : Register} {a b : Word} (source : rs.get r = a.toNat)
    (destination : rs.get q = b.toNat) :
    Acts setup (two .imul (.register r .double) (.register q .double)) rs mem
      (rs.put q (b.setWidth 32 * a.setWidth 32)) mem := by
  apply combines_imul.acts_low source destination
  rw [BitVec.ofInt_mul, ofInt_toNat, ofInt_toNat]

theorem acts_clear {r : Register} {a : Word} (holds : rs.get r = a.toNat) :
    Acts setup (two .xor (.register r .double) (.register r .double)) rs mem (rs.set r 0) mem := by
  show Acts setup _ rs mem (rs.put r 0#32) mem
  apply combines_xor.acts_low holds holds
  rw [Nat.xor_self]
  rfl

/-- The stack pointer is moved by a constant. -/
theorem acts_adjust {opcode : Opcode} {operation : Nat → Nat → Int}
    (combines : Combines opcode operation) (count : Int) :
    Acts setup (two opcode (.immediate count) Code.rsp) rs mem
      (rs.set .rsp (wrap 64 (operation (wrap 64 (rs.get .rsp)) (wrap 64 count)))) mem :=
  combines.acts .quad (wrap 64 count) (fun _ => rfl) (fun _ _ _ => rfl) rfl

/-- The stack pointer is lowered. -/
theorem acts_lower {top count : Nat} (pointer : rs.get .rsp = (top + count : Nat))
    (inside : top + count ≤ memorySize) :
    Acts setup (two .sub (.immediate count) Code.rsp) rs mem (rs.set .rsp top) mem := by
  have small : memorySize < modulus 64 := by decide
  have acts : Acts setup (two .sub (.immediate count) Code.rsp) rs mem _ mem :=
    acts_adjust combines_sub count
  rwa [pointer, wrap_of_lt (by omega), wrap_of_lt (by omega),
    show ((top + count : Nat) : Int) - count = top by omega, wrap_of_lt (by omega)] at acts

/-- The stack pointer is raised. -/
theorem acts_raise {top count : Nat} (pointer : rs.get .rsp = top)
    (inside : top + count ≤ memorySize) :
    Acts setup (two .add (.immediate count) Code.rsp) rs mem
      (rs.set .rsp (top + count : Nat)) mem := by
  have small : memorySize < modulus 64 := by decide
  have acts : Acts setup (two .add (.immediate count) Code.rsp) rs mem _ mem :=
    acts_adjust combines_add count
  rwa [pointer, wrap_of_lt (by omega), wrap_of_lt (by omega),
    show (top : Int) + count = (top + count : Nat) by omega, wrap_of_lt (by omega)] at acts

/-! ## Division -/

/-- Division by a register, when the high half of the dividend is zero. -/
theorem divide_eq {m : Machine} {line : Nat} {a d : Word} (low : m.get .rax = a.toNat)
    (high : m.get .rdx = 0) (divisor : m.get .rbx = d.toNat) :
    m.divide ⟨"idiv", [.register .rbx .double], line⟩ =
      let dividend : Int := (a.setWidth 32).toNat
      let quotient := dividend.tdiv (d.setWidth 32).toInt
      let remainder := dividend.tmod (d.setWidth 32).toInt
      if d.setWidth 32 = 0 then .error (.onLine line .divisionByZero)
      else if quotient < -0x80000000 ∨ 0x80000000 ≤ quotient then
        .error (.onLine line .quotientOverflow)
      else .ok ((m.set .rax (BitVec.ofInt 32 quotient).toNat).set .rdx
        (BitVec.ofInt 32 remainder).toNat) := by
  have readDivisor : signed 32 (m.get .rbx) = (d.setWidth 32).toInt := by
    rw [divisor, signed_eq, BitVec.ofInt_natCast, BitVec.ofNat_toNat]
  have readDividend :
      signed 64 ((wrap 32 (m.get .rdx) : Int) * 0x100000000 + wrap 32 (m.get .rax)) =
      (a.setWidth 32).toNat := by
    have small := (a.setWidth 32).isLt
    rw [high, low, wrap_toNat, show ((wrap 32 0 : Nat) : Int) * 0x100000000 = 0 from rfl,
      Int.zero_add, signed]
    exact Int.bmod_eq_of_le (by simp [modulus]; omega) (by simp [modulus]; omega)
  have zero : (d.setWidth 32).toInt = 0 ↔ d.setWidth 32 = 0 := by
    rw [← BitVec.toInt_inj]
    rfl
  rw [divide]
  dsimp only
  rw [readDivisor, readDividend, quotientOf_eq_tdiv]
  simp only [zero, wrap_eq, Int.tmod_def, Int.mul_comm]

theorem execute_idiv (s : Session World) (line : Nat) :
    s.execute setup ⟨"idiv", [.register .rbx .double], line⟩ =
      s.attempt (s.machine.orUnchanged
        (s.machine.divide ⟨"idiv", [.register .rbx .double], line⟩)) :=
  rfl

section Division

variable {a d : Word}

theorem faults_idiv_zero (low : rs.get .rax = a.toNat) (high : rs.get .rdx = 0)
    (divisor : rs.get .rbx = d.toNat) (zero : d.setWidth 32 = 0) :
    Faults setup (one .idiv Code.ebx) rs mem .divisionByZero := by
  rintro s ⟨_, _, line⟩ code rfl rfl
  cases code
  show s.execute setup ⟨"idiv", [.register .rbx .double], line⟩ = _
  rw [execute_idiv, divide_eq low high divisor]
  dsimp only
  rw [if_pos zero]
  rfl

theorem faults_idiv_overflow (low : rs.get .rax = a.toNat) (high : rs.get .rdx = 0)
    (divisor : rs.get .rbx = d.toNat) (nonzero : d.setWidth 32 ≠ 0) {quotient : Int}
    (divided : ((a.setWidth 32).toNat : Int).tdiv (d.setWidth 32).toInt = quotient)
    (large : quotient < -0x80000000 ∨ 0x80000000 ≤ quotient) :
    Faults setup (one .idiv Code.ebx) rs mem .quotientOverflow := by
  subst divided
  rintro s ⟨_, _, line⟩ code rfl rfl
  cases code
  show s.execute setup ⟨"idiv", [.register .rbx .double], line⟩ = _
  rw [execute_idiv, divide_eq low high divisor]
  dsimp only
  rw [if_neg nonzero, if_pos large]
  rfl

theorem acts_idiv (low : rs.get .rax = a.toNat) (high : rs.get .rdx = 0)
    (divisor : rs.get .rbx = d.toNat) (nonzero : d.setWidth 32 ≠ 0) {quotient : Int}
    (divided : ((a.setWidth 32).toNat : Int).tdiv (d.setWidth 32).toInt = quotient)
    (small : ¬(quotient < -0x80000000 ∨ 0x80000000 ≤ quotient)) :
    Acts setup (one .idiv Code.ebx) rs mem
      ((rs.put .rax (BitVec.ofInt 32 quotient)).put .rdx
        (BitVec.ofInt 32 (((a.setWidth 32).toNat : Int).tmod (d.setWidth 32).toInt))) mem := by
  subst divided
  rintro s ⟨_, _, line⟩ code rfl rfl
  cases code
  show s.execute setup ⟨"idiv", [.register .rbx .double], line⟩ = _
  rw [execute_idiv, divide_eq low high divisor]
  dsimp only
  rw [if_neg nonzero, if_neg small]
  rfl

end Division

/-! ## The stack -/

theorem push_of_le {m : Machine} {top : Nat} (pointer : m.get .rsp = (top + 8 : Nat))
    (inside : top + 8 ≤ memorySize) (word : Word) :
    m.push word.toNat =
      ({ m.set .rsp top with memory := m.memory.setWord top word.toNat 8 }, none) := by
  have lowered : m.get .rsp - 8 = top := by omega
  have place : (m.set .rsp (m.get .rsp - 8)).get .rsp = top := by
    rw [lowered]
    rfl
  have cut : wrap (8 * 8) word.toNat = word.toNat := wrap_toNat_self word
  have written : (m.set .rsp (m.get .rsp - 8)).memory.write top word.toNat 8 =
      .ok (m.memory.setWord top word.toNat 8) := by
    rw [Memory.write_of_le inside, cut]
    rfl
  rw [push, place]
  dsimp only
  rw [written, lowered]

theorem pop_of_le {m : Machine} {top : Nat} (pointer : m.get .rsp = top)
    (inside : top + 8 ≤ memorySize) :
    m.pop = .ok (m.memory.word top 8, m.set .rsp (top + 8 : Nat)) := by
  rw [pop, pointer, Memory.read_of_le inside, ok_bind]
  rfl

theorem acts_push {r : Register} {word : Word} {top : Nat} (source : rs.get r = word.toNat)
    (pointer : rs.get .rsp = (top + 8 : Nat)) (inside : top + 8 ≤ memorySize) :
    Acts setup (one .push (whole r)) rs mem (rs.set .rsp top) (mem.setWord top word.toNat 8) := by
  rintro s ⟨_, _, line⟩ code rfl rfl
  cases code
  have read : s.machine.read setup.image line .quad (.register r .quad) = .ok word.toNat := by
    rw [Machine.read, Machine.get, source]
    exact congrArg Except.ok (wrap_toNat_self word)
  have pushed : s.machine.pushOperand setup.image ⟨"push", [.register r .quad], line⟩ =
      s.machine.push word.toNat := by
    rw [pushOperand]
    dsimp only
    rw [read]
  show s.attempt (s.machine.pushOperand setup.image ⟨"push", [.register r .quad], line⟩) = _
  rw [pushed, push_of_le pointer inside]
  rfl

theorem acts_pop {r : Register} {top : Nat} (pointer : rs.get .rsp = top)
    (inside : top + 8 ≤ memorySize) :
    Acts setup (one .pop (whole r)) rs mem
      ((rs.set .rsp (top + 8 : Nat)).set r (mem.word top 8)) mem := by
  rintro s ⟨_, _, line⟩ code rfl rfl
  cases code
  have cut : wrap 64 (s.machine.memory.word top 8) = s.machine.memory.word top 8 :=
    wrap_of_lt (s.machine.memory.word_lt top 8)
  have popped : s.machine.popOperand setup.image ⟨"pop", [.register r .quad], line⟩ =
      ((s.machine.set .rsp (top + 8 : Nat)).set r (wrap 64 (s.machine.memory.word top 8)),
        none) := by
    rw [popOperand]
    dsimp only
    rw [pop_of_le pointer inside]
    rfl
  rw [cut] at popped
  show s.attempt (s.machine.popOperand setup.image ⟨"pop", [.register r .quad], line⟩) = _
  rw [popped]
  rfl

end Reckon.Machine
