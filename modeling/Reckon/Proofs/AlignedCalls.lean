import Reckon.Proofs.Assembly.Loading
import Reckon.Proofs.CompiledRuns
import Reckon.Proofs.Machine.Safety

/-!
# Calls of compiled programs are aligned

Whatever a compiled program runs into, its calls find the stack pointer at a multiple of sixteen
(`Compilation.aligned_of_call`). The height that the emitted code keeps account of and the stack
pointer go together (`Machine.Standing`), whether or not there is room on the stack. Where the
stack begins is said for frames of any size (`Machine.Ground`).

A program that calls `main` never comes behind that call, because its code has no branches. One that
does not returns from `main` once, and for the return the frame has to be known; so `Standing` says
more of it.
-/

namespace Reckon

open Code

/-! ## Calls and remarks in emitted code -/

namespace Code.Line.Shifts

variable {slots floor h h' : Nat} {allowed : String → Prop} {line : Line}

theorem eq_of_code? (shifts : line.Shifts slots floor allowed h h') (remark : line.code? = none) :
    h = h' := by
  cases shifts with
  | plain => rfl
  | push | pop | pad | unpad | call => cases remark

/-- Calls are made at an even height. -/
theorem even_of_call (shifts : line.Shifts slots floor allowed h h')
    {code : String × List Assembly.Operand} (isCode : line.code? = some code)
    (isCall : code.1 = "call") : h % 2 = 0 := by
  have called (opcode : Opcode) (operands : List Operand)
      (same : line = .instruction ⟨opcode, operands⟩) : opcode = .call := by
    subst same
    cases isCode
    exact Opcode.eq_call_of_name isCall
  cases shifts with
  | call even => exact even
  | push | pop | pad | unpad => cases called _ _ rfl
  | plain _ plain =>
    cases plain with
    | remark => cases isCode
    | divide | assign => cases called _ _ rfl
    | compute _ _ computes =>
      rw [called _ _ rfl] at computes
      cases computes

end Code.Line.Shifts

namespace Machine

variable {World : Type} {setup : Setup World} {layout : Layout} {once : Prop}
  {height height' : Nat} {rs : Registers} {mem : Memory}

/-! ## The stack pointer -/

theorem wrap_emod_sixteen (value : Int) : (wrap 64 value : Int) % 16 = value % 16 := by
  have whole : (modulus 64 : Int) = 18446744073709551616 := rfl
  rw [wrap, whole]
  omega

theorem ne_of_isPointer {r : Register} (scratch : r.isPointer = false) : r ≠ .rsp ∧ r ≠ .rbp := by
  constructor
  · rintro rfl
    cases scratch
  · rintro rfl
    cases scratch

/-- The operand stack begins at `floor`, below the frame for some variables. A frame may be larger
than the memory; then the stack, or the slot of a variable, begins outside. -/
structure Ground (slots floor : Nat) : Prop where
  frame : frameSize slots < modulus 64
  lowered : wrap 64 ((frameBase : Int) + -frameSize slots) = floor
  below : floor ≤ frameBase ∨ memorySize < floor
  clear : ∀ index < slots, wrap 64 ((frameBase : Int) + -slotOffset index) + 4 ≤ frameBase ∨
    memorySize < wrap 64 ((frameBase : Int) + -slotOffset index)

namespace Ground

variable {slots floor : Nat}

theorem small (ground : Ground slots floor) : floor < modulus 64 := by
  rw [← ground.lowered]
  exact wrap_lt 64 _

/-- The operand stack begins at a multiple of sixteen. -/
theorem rounded (ground : Ground slots floor) : floor % 16 = 0 := by
  have same := wrap_emod_sixteen ((frameBase : Int) + -frameSize slots)
  have base : frameBase % 16 = 0 := rfl
  have aligned : frameSize slots % 16 = 0 := Nat.mul_mod_left _ _
  rw [ground.lowered] at same
  omega

end Ground

theorem Layout.ground (layout : Layout) : Ground layout.count layout.floor := by
  have whole := layout.floor_add
  have inside : frameBase < modulus 64 := by decide
  refine ⟨by omega, ?_, .inl layout.floor_le, fun index member => .inl ?_⟩
  · have floor : (frameBase : Int) + -frameSize layout.count = layout.floor := by omega
    rw [floor, wrap_of_lt (by omega)]
  · obtain ⟨-, below⟩ := Layout.floor_le_slot member
    have slot : (frameBase : Int) + -slotOffset index = (frameBase - 4 * (index + 1) : Nat) := by
      rw [slotOffset, wordSize]
      omega
    rw [slot, wrap_of_lt (by omega)]
    omega

/-- The first call of `main` is running, with `height` words below `floor` on the stack. -/
structure Based (floor height : Nat) (rs : Registers) (mem : Memory) : Prop where
  room : 8 * height ≤ floor
  base : rs.get .rbp = frameBase
  pointer : rs.get .rsp = (floor - 8 * height : Nat)
  link : mem.word (frameBase + 8) 8 = returnPlace.toNat
  /-- Nothing is pushed outside of memory. -/
  shallow : memorySize < floor → height = 0

/-- `main` is running, with `height` words on its operand stack. If it is called only `once`, where
the operand stack begins is known. -/
structure Standing (floor : Nat) (once : Prop) (height : Nat) (rs : Registers) (mem : Memory) :
    Prop where
  even : (rs.get .rsp + 8 * height) % 16 = 0
  based : once → Based floor height rs mem

namespace Standing

variable {slots floor floor' : Nat}

theorem aligned (standing : Standing floor once height rs mem) (even : height % 2 = 0) :
    rs.get .rsp % 16 = 0 := by
  have whole := standing.even
  omega

theorem scratch {r : Register} (standing : Standing floor once height rs mem)
    (isScratch : r.isPointer = false) (value : Int) :
    Standing floor once height (rs.set r value) mem := by
  obtain ⟨notTop, notBase⟩ := ne_of_isPointer isScratch
  have top := rs.get_set_of_ne value notTop
  have base := rs.get_set_of_ne value notBase
  refine ⟨by rw [top]; exact standing.even, fun first => ?_⟩
  obtain ⟨room, known, pointer, link, shallow⟩ := standing.based first
  exact ⟨room, base.trans known, top.trans pointer, link, shallow⟩

theorem assign {index place : Nat} (standing : Standing floor once height rs mem)
    (ground : Ground slots floor) (inside : index < slots)
    (found : place = wrap 64 (rs.get .rbp + -slotOffset index)) (fits : place + 4 ≤ memorySize)
    (value : Nat) : Standing floor once height rs (mem.setWord place value 4) := by
  refine ⟨standing.even, fun first => ?_⟩
  obtain ⟨room, base, pointer, link, shallow⟩ := standing.based first
  have clear := ground.clear index inside
  rw [← base, ← found] at clear
  refine ⟨room, base, pointer, ?_, shallow⟩
  rw [Memory.word_setWord_of_disjoint value (.inl (by omega)), link]

/-- The stack pointer moved to another height, maybe with another beginning of the stack. -/
theorem setPointer {pointer : Int} (standing : Standing floor once height rs mem)
    (even : (pointer + 8 * height') % 16 = 0)
    (known : Based floor height rs mem → pointer = (floor' - 8 * height' : Nat) ∧
      8 * height' ≤ floor' ∧ (memorySize < floor' → height' = 0)) :
    Standing floor' once height' (rs.set .rsp pointer) mem := by
  refine ⟨even, fun first => ?_⟩
  have based := standing.based first
  obtain ⟨pointer, room, shallow⟩ := known based
  exact ⟨room, based.base, pointer, based.link, shallow⟩

theorem push {top : Nat} (standing : Standing floor once height rs mem)
    (ground : Ground slots floor) (pointer : rs.get .rsp = (top + 8 : Nat))
    (inside : top + 8 ≤ memorySize) (value : Nat) :
    Standing floor once (height + 1) (rs.set .rsp top) (mem.setWord top value 8) := by
  have even := standing.even
  have lowered : Standing floor once (height + 1) (rs.set .rsp top) mem := by
    refine standing.setPointer (by omega) fun based => ?_
    have same := based.pointer
    have shallow := based.shallow
    omega
  refine ⟨lowered.even, fun first => ?_⟩
  obtain ⟨room, base, same, link, shallow⟩ := lowered.based first
  have place : (top : Int) = (floor - 8 * (height + 1) : Nat) := same
  have below := ground.below
  refine ⟨room, base, same, ?_, shallow⟩
  rw [Memory.word_setWord_of_disjoint value (.inl (by omega)), link]

theorem pop (standing : Standing floor once (height + 1) rs mem) :
    Standing floor once height (rs.set .rsp (rs.get .rsp + 8)) mem := by
  have even := standing.even
  refine standing.setPointer (by omega) fun based => ?_
  have same := based.pointer
  have room := based.room
  have shallow := based.shallow
  omega

/-- The stack pointer moved by an instruction, which cuts it to a word. -/
theorem adjust (standing : Standing floor once height rs mem) (small : floor < modulus 64)
    (amount : Int) (even : (rs.get .rsp + amount + 8 * height') % 16 = 0)
    (known : 8 * height ≤ floor → (memorySize < floor → height = 0) →
      wrap 64 (((floor - 8 * height : Nat) : Int) + amount) = floor' - 8 * height' ∧
        8 * height' ≤ floor' ∧ (memorySize < floor' → height' = 0)) :
    Standing floor' once height' (rs.set .rsp (wrap 64 (wrap 64 (rs.get .rsp) + amount))) mem := by
  have inner := wrap_emod_sixteen (rs.get .rsp)
  have outer := wrap_emod_sixteen (wrap 64 (rs.get .rsp) + amount)
  refine standing.setPointer (by omega) fun based => ?_
  obtain ⟨pointer, rest⟩ := known based.room based.shallow
  rw [based.pointer, wrap_of_lt (by omega), pointer]
  exact ⟨rfl, rest⟩

/-- Lowering the stack pointer by a word that is not written. There is room for it, because the
stack begins at a multiple of sixteen. -/
theorem pad (standing : Standing floor once height rs mem) (ground : Ground slots floor)
    (odd : height % 2 = 1) :
    Standing floor once (height + 1) (rs.set .rsp (wrap 64 (wrap 64 (rs.get .rsp) + -8))) mem := by
  have even := standing.even
  have rounded := ground.rounded
  have small := ground.small
  refine standing.adjust small (-8) (by omega) fun room shallow => ?_
  have moved : ((floor - 8 * height : Nat) : Int) + -8 = (floor - 8 * (height + 1) : Nat) := by
    omega
  rw [moved, wrap_of_lt (by omega)]
  omega

/-- Taking back the word that was not written. -/
theorem unpad (standing : Standing floor once (height + 1) rs mem) (ground : Ground slots floor) :
    Standing floor once height (rs.set .rsp (wrap 64 (wrap 64 (rs.get .rsp) + 8))) mem := by
  have even := standing.even
  have small := ground.small
  refine standing.adjust small 8 (by omega) fun room shallow => ?_
  have moved : ((floor - 8 * (height + 1) : Nat) : Int) + 8 = (floor - 8 * height : Nat) := by
    omega
  rw [moved, wrap_of_lt (by omega)]
  omega

/-- Making room for the variables. -/
theorem lower (standing : Standing frameBase once 0 rs mem) (ground : Ground slots floor) :
    Standing floor once 0
      (rs.set .rsp (wrap 64 (wrap 64 (rs.get .rsp) + -frameSize slots))) mem := by
  have even := standing.even
  have rounded : frameSize slots % 16 = 0 := Nat.mul_mod_left _ _
  refine standing.adjust (by decide) _ (by omega) fun room shallow => ?_
  exact ⟨ground.lowered, Nat.zero_le _, fun _ => rfl⟩

end Standing

/-! ## The body of `main` -/

/-- Calls of anything but the labels of a program leave registers, memory and the instruction
pointer alone. -/
structure Undisturbed (setup : Setup World) : Prop where
  leaves : ∀ name, name ≠ "main" → name ≠ "_start" → setup.image.codeLabels.get? name = none
  inert : ∀ name routine, setup.routine? name = some routine → routine.Inert

section Body

variable {slots floor : Nat} (ground : Ground slots floor) {line : Line}

include ground

theorem leads_of_plain (plain : line.Plain slots) (isCode : line.code? ≠ none) :
    Leads setup line (Standing floor once height) (Standing floor once height) := by
  cases plain with
  | remark => exact absurd rfl isCode
  | compute source w computes scratch =>
    apply leads_compute computes
    intro rs mem value standing
    exact standing.scratch scratch value
  | divide =>
    apply leads_divide
    intro rs mem low high standing
    exact (standing.scratch rfl low).scratch rfl high
  | assign inside =>
    apply leads_assign
    intro rs mem place value found fits standing
    exact standing.assign ground inside found fits value

/-- Each line but a call of `main` leads to the height that it is accounted for. -/
theorem leads_of_shifts (undisturbed : Undisturbed setup)
    (shifts : line.Shifts slots 0 (· ≠ "_start") height height')
    (isCode : line.code? ≠ none) (other : line ≠ one .call (.symbol "main")) :
    Leads setup line (Standing floor once height) (Standing floor once height') := by
  cases shifts with
  | plain _ plain => exact leads_of_plain ground plain isCode
  | push r =>
    apply leads_push
    intro rs mem top value pointer inside standing
    exact standing.push ground pointer inside value
  | pop scratch =>
    apply leads_pop
    intro rs mem value standing
    exact standing.pop.scratch scratch value
  | pad odd =>
    apply leads_of_acts
    intro rs mem standing
    exact ⟨_, _, acts_adjust combines_sub 8, standing.pad ground odd⟩
  | unpad =>
    apply leads_of_acts
    intro rs mem standing
    exact ⟨_, _, acts_adjust combines_add 8, standing.unpad ground⟩
  | @call name _ even may =>
    have notMain : name ≠ "main" := fun same => other (by rw [same])
    exact leads_call (undisturbed.leaves name notMain may) (undisturbed.inert name)
      (fun rs mem standing => standing.aligned even)
      fun _ rs mem value standing => standing.scratch rfl value

end Body

section Runs

variable {stops : Session.Observer} {limit : Int} {bound place : Nat}

/-- The code of statements is safe if what follows it is, or if it calls `main` before, which is
safe. -/
theorem safeAt_body (undisturbed : Undisturbed setup) {lines : List Line}
    (balances : Line.Balances layout.count 0 (· ≠ "_start") lines height height')
    (located : CodeAt setup.image place lines)
    (again : one .call (.symbol "main") ∈ lines → ∀ place height, height % 2 = 0 →
      CodeAt setup.image place [one .call (.symbol "main")] →
      SafeAt setup stops limit bound place (Standing layout.floor once height))
    (rest : one .call (.symbol "main") ∉ lines →
      SafeAt setup stops limit bound (place + (codeOf lines).length)
        (Standing layout.floor once height')) :
    SafeAt setup stops limit bound place (Standing layout.floor once height) := by
  induction balances generalizing place with
  | nil => exact rest List.not_mem_nil
  | @cons line lines h h₁ h₂ shifts _ ih =>
    have located : CodeAt setup.image place ([line] ++ lines) := located
    by_cases isMain : line = one .call (.symbol "main")
    · subst isMain
      exact again List.mem_cons_self place h (shifts.even_of_call rfl rfl) located.left
    · have later : SafeAt setup stops limit bound (place + (codeOf [line]).length)
          (Standing layout.floor once h₁) := by
        refine ih located.right (fun member => again (List.mem_cons_of_mem line member)) ?_
        intro absent
        have next := rest (List.not_mem_cons_of_ne_of_not_mem (Ne.symm isMain) absent)
        rwa [← List.singleton_append, codeOf_append, List.length_append, ← Nat.add_assoc] at next
      cases isCode : line.code? with
      | none =>
        obtain rfl := shifts.eq_of_code? isCode
        rwa [codeOf, List.filterMap_cons_none isCode] at later
      | some code =>
        rw [codeOf, List.filterMap_cons_some isCode] at later
        exact .pass located.left isCode
          (fun isCall rs mem standing => standing.aligned (shifts.even_of_call isCode isCall))
          (leads_of_shifts layout.ground undisturbed shifts
            (by rw [isCode]; exact Option.some_ne_none code) isMain) later

/-! ## Entering and leaving `main` -/

/-- `main` has been called, or is about to return. If it is called only `once`, the stack pointer is
`top`; else it is off that by a multiple of sixteen. -/
structure Entered (once : Prop) (top : Nat) (rs : Registers) (mem : Memory) : Prop where
  even : (rs.get .rsp - top) % 16 = 0
  first : once → rs.get .rsp = top ∧ mem.word (frameBase + 8) 8 = returnPlace.toNat

theorem leads_push_base :
    Leads setup (one .push rbp) (Entered once (frameBase + 8)) (Entered once frameBase) := by
  apply leads_push
  intro rs mem top value pointer _ entered
  have even := entered.even
  refine ⟨?_, fun first => ?_⟩
  · show ((top : Int) - frameBase) % 16 = 0
    omega
  · obtain ⟨known, link⟩ := entered.first first
    obtain rfl : top = frameBase := by omega
    refine ⟨rfl, ?_⟩
    rw [Memory.word_setWord_of_disjoint value (.inl (Nat.le_refl _)), link]

theorem leads_mov_base :
    Leads setup (two .mov rsp rbp) (Entered once frameBase) (Standing frameBase once 0) := by
  apply leads_of_acts
  intro rs mem entered
  refine ⟨_, _, acts_copy .rsp .rbp, ?_, fun first => ?_⟩
  · have even := entered.even
    have rounded : frameBase % 16 = 0 := by decide
    show (rs.get .rsp + 8 * (0 : Nat)) % 16 = 0
    omega
  · obtain ⟨known, link⟩ := entered.first first
    refine ⟨Nat.zero_le _, ?_, known, link, fun _ => rfl⟩
    show (wrap 64 (wrap 64 (rs.get .rsp)) : Int) = frameBase
    rw [known]
    rfl

theorem leads_lower_pointer {slots floor : Nat} (ground : Ground slots floor) :
    Leads setup (two .sub (.immediate (frameSize slots)) rsp) (Standing frameBase once 0)
      (Standing floor once 0) := by
  apply leads_of_acts
  intro rs mem standing
  have acts : Acts setup (two .sub (.immediate (frameSize slots)) rsp) rs mem _ mem :=
    acts_adjust combines_sub _
  rw [wrap_of_lt ground.frame] at acts
  exact ⟨_, _, acts, standing.lower ground⟩

theorem Layout.floor_of_empty (empty : frameSize layout.count = 0) : layout.floor = frameBase := by
  have floor := layout.floor_add
  rwa [empty, Nat.add_zero] at floor

theorem safeAt_prologue (located : CodeAt setup.image place (prologueCode layout.count))
    (rest : SafeAt setup stops limit bound
      (place + (codeOf (prologueCode layout.count)).length) (Standing layout.floor once 0)) :
    SafeAt setup stops limit bound place (Entered once (frameBase + 8)) := by
  have whole : CodeAt setup.image place ([one .push rbp] ++ ([two .mov rsp rbp] ++ _)) := located
  apply SafeAt.past whole.left (by decide) leads_push_base
  apply SafeAt.past whole.right.left (by decide) leads_mov_base
  unfold prologueCode at located rest
  split at located
  · next empty =>
    rw [if_pos empty, layout.floor_of_empty empty] at rest
    exact rest
  · next full =>
    rw [if_neg full] at rest
    exact .past located.right (by decide) (leads_lower_pointer layout.ground) rest

theorem leads_mov_pointer {floor : Nat} (first : once) :
    Leads setup (two .mov rbp rsp) (Standing floor once 0) (Entered once frameBase) := by
  apply leads_of_acts
  intro rs mem standing
  obtain ⟨-, base, -, link, -⟩ := standing.based first
  have copied : (wrap 64 (wrap 64 (rs.get .rbp)) : Int) = frameBase := by
    rw [base]
    rfl
  refine ⟨_, _, acts_copy .rbp .rsp, ?_, fun _ => ⟨copied, link⟩⟩
  show ((wrap 64 (wrap 64 (rs.get .rbp)) : Int) - frameBase) % 16 = 0
  rw [copied]
  rfl

theorem leads_pop_base :
    Leads setup (one .pop rbp) (Entered once frameBase) (Entered once (frameBase + 8)) := by
  apply leads_pop
  intro rs mem value entered
  have even := entered.even
  refine ⟨?_, fun first => ?_⟩
  · show (rs.get .rsp + 8 - (frameBase + 8 : Nat)) % 16 = 0
    omega
  · obtain ⟨known, link⟩ := entered.first first
    refine ⟨?_, link⟩
    show rs.get .rsp + 8 = (frameBase + 8 : Nat)
    omega

/-- Outside `main`, the stack pointer is a multiple of sixteen. -/
def Level (rs : Registers) (_ : Memory) : Prop := rs.get .rsp % 16 = 0

/-- `main` returns to the entry point. -/
theorem leadsTo_ret_entry (first : once) {place : Nat} :
    LeadsTo setup (.instruction ⟨.ret, []⟩) place returnPlace.toNat
      (Entered once (frameBase + 8)) Level := by
  apply leadsTo_ret
  intro rs mem entered
  obtain ⟨pointer, link⟩ := entered.first first
  exact ⟨_, pointer, by decide, link, rfl⟩

theorem safeAt_epilogue (first : once) (located : CodeAt setup.image place epilogue)
    (rest : SafeAt setup stops limit bound returnPlace.toNat Level) :
    SafeAt setup stops limit bound place (Standing layout.floor once 0) := by
  have located : CodeAt setup.image place
      ([two .mov rbp rsp] ++ ([one .pop rbp] ++ [.instruction ⟨.ret, []⟩])) := located
  apply SafeAt.past located.left (by decide) (leads_mov_pointer first)
  apply SafeAt.past located.right.left (by decide) leads_pop_base
  exact (SafeAt.goto located.right.right rfl (fun isCall => absurd isCall (by decide))
    (leadsTo_ret_entry first) rest).of_succ

theorem safeAt_leave (undisturbed : Undisturbed setup) {freestanding : Bool}
    (located : CodeAt setup.image place (leaveCode freestanding)) :
    SafeAt setup stops limit bound place Level := by
  have move : Leads setup (two .mov eax (.register .rdi .double)) Level Level :=
    leads_compute rfl eax .double fun rs mem value level => level
  unfold leaveCode at located
  apply SafeAt.past located.left (by decide) move
  cases freestanding with
  | false =>
    have leaves := undisturbed.leaves "exit" (by decide) (by decide)
    exact .pass located.right rfl (fun _ rs mem level => level)
      (leads_call leaves (undisturbed.inert "exit") (fun rs mem level => level)
        fun stays => absurd rfl stays) .unreached
  | true =>
    have located : CodeAt setup.image (place + 1) ([two .mov (.immediate exitSystemCall) eax] ++
      [.instruction ⟨.syscall, []⟩]) := located.right
    have number : Leads setup (two .mov (.immediate exitSystemCall) eax) Level Level :=
      leads_compute rfl _ .double fun rs mem value level => level
    exact .past located.left (by decide) number
      (.past located.right (by decide) leads_syscall .unreached)

/-! ## Whole programs -/

/-- However often `main` is called, its runs are safe. The induction is on the number of steps:
where `main` calls itself, fewer of them are left. -/
theorem safeAt_main (undisturbed : Undisturbed setup) {freestanding : Bool} {body : List Line}
    {main : Nat} (balances : Line.Balances layout.count 0 (· ≠ "_start") body 0 0)
    (located : CodeAt setup.image main (prologueCode layout.count ++ body ++ epilogue))
    (labelled : setup.image.codeLabels.get? "main" = some main)
    (leaving : CodeAt setup.image returnPlace.toNat (leaveCode freestanding)) :
    SafeAt setup stops limit bound main
      (Entered (one .call (.symbol "main") ∉ body) (frameBase + 8)) := by
  induction bound with
  | zero => exact .zero
  | succ bound ih =>
    apply safeAt_prologue located.left.left
    apply safeAt_body undisturbed balances located.left.right
    · intro member place height even here
      refine .goto here rfl (fun _ rs mem standing => standing.aligned even)
        (leadsTo_call labelled ?_) ih
      intro rs mem top pointer _ standing
      have aligned := standing.aligned even
      refine ⟨?_, fun absent => absurd member absent⟩
      have rounded : frameBase % 16 = 0 := by decide
      show ((top : Int) - (frameBase + 8 : Nat)) % 16 = 0
      omega
    · intro absent
      have atEnd := located.right
      rw [codeOf_append, List.length_append, ← Nat.add_assoc] at atEnd
      exact safeAt_epilogue absent atEnd (safeAt_leave undisturbed leaving)

/-- The stack is empty. -/
def Fresh (rs : Registers) (_ : Memory) : Prop := rs.get .rsp = memorySize

/-- The entry point calls `main` with the place to return to on the stack. -/
theorem leadsTo_call_main {main : Nat}
    (labelled : setup.image.codeLabels.get? "main" = some main) :
    LeadsTo setup (one .call (.symbol "main")) 1 main Fresh (Entered once (frameBase + 8)) := by
  apply leadsTo_call labelled
  intro rs mem top pointer _ fresh
  have whole : frameBase + 8 + 8 = memorySize := rfl
  have same : rs.get .rsp = memorySize := fresh
  obtain rfl : top = frameBase + 8 := by omega
  refine ⟨?_, fun _ => ⟨rfl, ?_⟩⟩
  · show (((frameBase + 8 : Nat) : Int) - (frameBase + 8 : Nat)) % 16 = 0
    omega
  · rw [Memory.word_setWord_self]
    rfl

theorem safeAt_entry (located : CodeAt setup.image 1 [one .call (.symbol "main")]) {main : Nat}
    (labelled : setup.image.codeLabels.get? "main" = some main)
    (rest : SafeAt setup stops limit bound main (Entered once (frameBase + 8))) :
    SafeAt setup stops limit (bound + 1) 1 Fresh := by
  refine .goto located rfl (fun _ rs mem fresh => ?_) (leadsTo_call_main labelled) rest
  rw [fresh]
  rfl

/-- Runs of a program from its entry are safe. -/
theorem safe_fresh (undisturbed : Undisturbed setup) {freestanding : Bool} {body : List Line}
    (balances : Line.Balances layout.count 0 (· ≠ "_start") body 0 0)
    (located : CodeAt setup.image 0
      (entryCode freestanding ++ (prologueCode layout.count ++ body ++ epilogue)))
    (labelled : setup.image.codeLabels.get? "main" = some (codeOf (entryCode freestanding)).length)
    (data : List UInt8) (world : World) (allowed : Nat) :
    (Session.fresh data world).Safe setup stops limit allowed := by
  have inMain := located.right
  rw [Nat.zero_add] at inMain
  have entry := located.left
  rw [entryCode_eq] at entry
  have clear :
      Leads setup (two .xor (.register .rbp .double) (.register .rbp .double)) Fresh Fresh :=
    leads_compute rfl _ .double fun rs mem value fresh => fresh
  have started : SafeAt setup stops limit (allowed + 1) 0 Fresh := by
    apply SafeAt.past entry.left.left (by decide) clear
    apply safeAt_entry entry.left.right labelled
    exact safeAt_main undisturbed balances inMain labelled entry.right
  exact started allowed (Nat.le_succ allowed) _ rfl rfl

end Runs

end Machine

/-! ## Compiled programs -/

namespace Compilation

open Machine

variable {World : Type} {options : Options} {source : String} {c : Compilation}
  {routine? : String → Option (Routine World)}

/-- The body of a compiled program keeps account of the stack, and calls what the program calls. -/
theorem balances_body {allowed : String → Prop} (compiled : ofSource options source = .ok c)
    (may : ∀ name ∈ c.externals, allowed name) :
    Line.Balances c.listing.slots 0 allowed c.listing.body 0 0 := by
  obtain ⟨parsed, generated, externals⟩ := stages_of_ofSource compiled
  obtain ⟨complete, -, listing⟩ := generate_eq_ok_iff.mp generated
  rw [externals, externals_generate] at may
  rw [← listing]
  exact balanced_lowerStatements (Program.sourced_of_ofSource parsed) _ _ 1 complete
    fun name called => may name (List.mem_eraseDups.mpr called)

theorem balances_of_compiled (compiled : ofSource options source = .ok c)
    (outside : "_start" ∉ c.externals) :
    Line.Balances c.listing.slots 0 (· ≠ "_start") c.listing.body 0 0 :=
  balances_body compiled fun _ called same => outside (same ▸ called)

/-- Calls of compiled programs are aligned. Take a source text that compiles, with any options, into
a program

* whose string literals consist of characters up to U+00FF other than U+0085,
* that does not call `_start`, though it may call `main`, and
* whose variables fit into memory.

Run its assembly text with routines that leave the registers, the memory and the instruction pointer
alone, with any number of steps and any observer. Wherever the run executes a call, the stack
pointer is a multiple of sixteen; and the run is not stopped by the fault of a misaligned call,
unless one of the routines raises that fault itself. -/
theorem aligned_of_call (compiled : ofSource options source = .ok c)
    (latin : ∀ raw ∈ pool c.program.statements, ∀ ch ∈ raw.toList, ch.toNat ≤ 0xFF ∧ ch ≠ '\x85')
    (outside : "_start" ∉ c.externals)
    (fits : Assembly.dataBase + frameSize c.listing.slots + 16 ≤ memorySize)
    (inert : ∀ name routine, routine? name = some routine → routine.Inert) (world : World)
    (stops : Session.Observer) (limit : Int) :
    ∃ setup start, load c.assembly routine? world = .ok (setup, start) ∧
      (∀ visit ∈ start.visits setup stops limit, visit.instruction.mnemonic = "call" →
        visit.registers.get .rsp % 16 = 0) ∧
      ∀ name line?,
        (start.run setup stops limit).2 = .error (.raised (.misalignedCall name) line?) →
        ∃ called routine world m words, routine? called = some routine ∧
          (routine world m words).2.2 = .error (.raised (.misalignedCall name) line?) := by
  have latin := isLatin_of_mem latin
  obtain ⟨image, blocks, read, assembles⟩ := exists_assembles_of_isLatin compiled latin
  let layout : Layout := ⟨[], c.listing.slots, by unfold frameBase; simp; omega⟩
  have undisturbed : Undisturbed ⟨image, routine?⟩ := by
    refine ⟨fun name notMain notStart => ?_, inert⟩
    rw [assembles.get?_codeLabels, if_neg notMain, if_neg notStart]
  have balances : Line.Balances layout.count 0 (· ≠ "_start") c.listing.body 0 0 :=
    balances_of_compiled compiled outside
  have safe := @safe_fresh _ _ layout stops limit undisturbed _ _ balances
    (codeAt_of_assembles assembles) (assembles.get?_codeLabels "main") image.data.toList world
  exact ⟨_, _, load_eq read assembles world, (safe _).aligned, fun name line? stopped =>
    (safe _).excused_of_run stopped rfl⟩

/-- A program that calls a routine among the arguments of another call, and then `main` with an
operand on the stack; it runs until its stack or its steps are used up. -/
theorem aligned_of_call_main :
    let first : Routine Nat := fun world m words => (world + 1, m, .ok (some (words.getD 0 0)))
    let routine? := fun name => if name = "f" then some first else none
    ∃ c, ofSource ⟨false, none⟩ "f(1, 2 - f(\"é\")) + main();" = .ok c ∧
      ∀ limit, ∃ setup start, load c.assembly routine? 0 = .ok (setup, start) ∧
        (∀ visit ∈ start.visits setup Session.unobserved limit,
          visit.instruction.mnemonic = "call" → visit.registers.get .rsp % 16 = 0) ∧
        ∀ name line?, (start.run setup Session.unobserved limit).2 ≠
          .error (.raised (.misalignedCall name) line?) := by
  intro first routine?
  let program : Program :=
    ⟨[.binary .add ⟨17, 18⟩
      (.call "f" [.number 1 ⟨2, 3⟩, .binary .subtract ⟨7, 8⟩ (.number 2 ⟨5, 6⟩)
        (.call "f" [.string "é" ⟨11, 14⟩] ⟨9, 15⟩) ⟨5, 15⟩] ⟨0, 16⟩)
      (.call "main" [] ⟨19, 25⟩) ⟨0, 25⟩], ⟨[]⟩⟩
  have parsed : (Parsing.ofSource "f(1, 2 - f(\"é\")) + main();").result = .ok program := by cbv
  have literals : pool program.statements = ["é"] := by cbv
  obtain ⟨lines, emitted⟩ : ∃ lines, lowerStatements false (pool program.statements) 1
      program.statements = ⟨lines, ["f", "f", "main"], none⟩ := by
    rw [literals]
    simp (disch := decide) only [program, lowerStatements, lower, lowerArguments,
      Emission.spell_of_lt]
    exact ⟨_, rfl⟩
  have generated : (generate ⟨false, none⟩ program).result = .ok ⟨false, 0, lines, ["é"]⟩ :=
    generate_eq_ok_iff.mpr (by
      rw [emitted, literals]
      exact ⟨rfl, Text.isWritable_of_lt (by decide), by cbv⟩)
  have externals : (generate ⟨false, none⟩ program).externals = ["f", "main"] := by
    rw [externals_generate, emitted]
    cbv
  have only : ∀ name routine, routine? name = some routine → routine = first := by
    intro name routine found
    by_cases called : name = "f"
    · exact (Option.some.inj ((if_pos called).symm.trans found)).symm
    · cases (if_neg called).symm.trans found
  have inert : ∀ name routine, routine? name = some routine → routine.Inert := by
    intro name routine found world m words
    obtain rfl := only name routine found
    exact ⟨rfl, rfl, rfl⟩
  have fits : Assembly.dataBase + frameSize 0 + 16 ≤ memorySize := by decide
  have compiled := ofSource_of_stages parsed generated
  refine ⟨_, compiled, fun limit => ?_⟩
  obtain ⟨setup, start, loaded, aligned, raised⟩ := aligned_of_call compiled (by simp [literals])
    (by simp [externals]) fits inert 0 Session.unobserved limit
  refine ⟨setup, start, loaded, aligned, fun name line? stopped => ?_⟩
  obtain ⟨called, routine, world, m, words, found, failed⟩ := raised name line? stopped
  obtain rfl := only called routine found
  cases failed

end Compilation

end Reckon
