import Reckon.Proofs.Machine.Instructions

/-!
# The frame of a running program

While the statements of a program run, memory holds from below: the data, free room, the operand
stack (which grows downwards), the slots of the variables, the frame pointer that was saved and the
place to return to. `Machine.Framed` says so, and what the registers hold beside it. It is kept by
writing the scratch registers (`Framed.scratch`), by pushing and popping (`Framed.push`,
`Framed.pop`) and by assigning to a variable (`Framed.assign`).
-/

namespace Reckon.Machine

open Assembly (dataBase)
open Code (frameSize one whole)

/-- Where the frame pointer points: to the saved frame pointer, above which the place to return to
lies. -/
def frameBase : Nat := memorySize - 16

/-- The instruction to which `main` returns. -/
def returnPlace : Word := 2

/-- The data of a program and the number of its variables, which fit into memory. -/
structure Layout where
  data : List UInt8
  count : Nat
  fits : dataBase + data.length + frameSize count ≤ frameBase

namespace Layout

/-- Where the operand stack begins. -/
def floor (layout : Layout) : Nat := frameBase - frameSize layout.count

/-- Where the top word of an operand stack of `depth` words lies. -/
def top (layout : Layout) (depth : Nat) : Nat := layout.floor - 8 * depth

/-- An operand stack of `depth` words fits above the data. -/
def Room (layout : Layout) (depth : Nat) : Prop :=
  dataBase + layout.data.length + 8 * depth ≤ layout.floor

variable {layout : Layout} {depth depth' : Nat}

theorem Room.mono (room : layout.Room depth) (less : depth' ≤ depth) : layout.Room depth' := by
  unfold Room at room ⊢
  omega

theorem Room.le_floor (room : layout.Room depth) : 8 * depth ≤ layout.floor := by
  unfold Room at room
  omega

theorem Room.data_le_top (room : layout.Room depth) :
    dataBase + layout.data.length ≤ layout.top depth := by
  unfold Room at room
  unfold top
  omega

theorem Room.top_add (room : layout.Room depth) : layout.top depth + 8 * depth = layout.floor :=
  Nat.sub_add_cancel room.le_floor

theorem Room.top_succ (room : layout.Room (depth + 1)) :
    layout.top depth = layout.top (depth + 1) + 8 := by
  have here := room.top_add
  have before := (room.mono (Nat.le_succ depth)).top_add
  omega

theorem top_le (layout : Layout) (depth : Nat) : layout.top depth ≤ memorySize := by
  unfold top floor frameBase
  omega

theorem floor_add (layout : Layout) : layout.floor + frameSize layout.count = frameBase :=
  Nat.sub_add_cancel (by have := layout.fits; omega)

theorem floor_le (layout : Layout) : layout.floor ≤ frameBase :=
  Nat.sub_le _ _

/-- The slots of the variables lie above the operand stack. -/
theorem floor_le_slot {index : Nat} (inside : index < layout.count) :
    layout.floor ≤ frameBase - 4 * (index + 1) ∧ 4 * (index + 1) ≤ frameBase := by
  have whole := layout.floor_add
  have covered : layout.count * 4 ≤ frameSize layout.count := by
    unfold frameSize Code.wordSize Code.stackAlignment
    omega
  omega

/-- The operand stack begins at a multiple of sixteen. -/
theorem floor_mod (layout : Layout) : layout.floor % 16 = 0 := by
  have whole := layout.floor_add
  have base : frameBase % 16 = 0 := rfl
  have aligned : frameSize layout.count % 16 = 0 := Nat.mul_mod_left _ _
  omega

end Layout

/-- Memory holds words one after another. -/
def Stacked (mem : Memory) (address : Nat) : List Word → Prop
  | [] => True
  | word :: words => mem.word address 8 = word.toNat ∧ Stacked mem (address + 8) words

theorem Stacked.setWord {mem : Memory} {address place size : Nat} {words : List Word}
    (stacked : Stacked mem address words) (value : Nat)
    (disjoint : place + size ≤ address ∨ address + 8 * words.length ≤ place) :
    Stacked (mem.setWord place value size) address words := by
  induction words generalizing address with
  | nil => trivial
  | cons word words ih =>
    rw [List.length_cons] at disjoint
    refine ⟨?_, ih stacked.2 (by omega)⟩
    rw [Memory.word_setWord_of_disjoint value (by omega)]
    exact stacked.1

/-- Registers and memory while the statements of a program run, with the values of the variables,
the words in the places for arguments and those on the operand stack, top word first. -/
structure Framed (layout : Layout) (slots : Nat → BitVec 32) (arguments stack : List Word)
    (rs : Registers) (mem : Memory) : Prop where
  room : layout.Room stack.length
  base : rs.get .rbp = frameBase
  pointer : rs.get .rsp = layout.top stack.length
  arguments : rs.arguments = arguments.map fun word => (word.toNat : Int)
  stacked : Stacked mem (layout.top stack.length) stack
  slot : ∀ index < layout.count, mem.word (frameBase - 4 * (index + 1)) 4 = (slots index).toNat
  link : Stacked mem frameBase [0, returnPlace]
  data : mem.HoldsData layout.data

namespace Framed

variable {layout : Layout} {slots : Nat → BitVec 32} {arguments stack : List Word} {rs : Registers}
  {mem : Memory}

theorem scratch {r : Register} (framed : Framed layout slots arguments stack rs mem)
    (isScratch : r = .rax ∨ r = .rbx) (value : Int) :
    Framed layout slots arguments stack (rs.set r value) mem := by
  rcases isScratch with rfl | rfl <;>
    exact ⟨framed.room, framed.base, framed.pointer, framed.arguments, framed.stacked, framed.slot,
      framed.link, framed.data⟩

theorem setArgument {k : Nat} {r : Register} (framed : Framed layout slots arguments stack rs mem)
    (isArgument : Register.arguments[k]? = some r) (word : Word) :
    Framed layout slots (arguments.set k word) stack (rs.put r word) mem := by
  have listed : (rs.put r word).arguments = rs.arguments.set k (word.toNat : Int) := by
    match k, isArgument with
    | 0, rfl | 1, rfl | 2, rfl | 3, rfl | 4, rfl | 5, rfl => rfl
  have kept : (rs.put r word).get .rbp = rs.get .rbp ∧ (rs.put r word).get .rsp = rs.get .rsp := by
    match k, isArgument with
    | 0, rfl | 1, rfl | 2, rfl | 3, rfl | 4, rfl | 5, rfl => exact ⟨rfl, rfl⟩
  refine ⟨framed.room, kept.1.trans framed.base, kept.2.trans framed.pointer, ?_, framed.stacked,
    framed.slot, framed.link, framed.data⟩
  rw [listed, framed.arguments, List.map_set]

/-- The stack pointer moved to another depth, where memory holds the words of the stack. -/
theorem setPointer {stack' : List Word} (framed : Framed layout slots arguments stack rs mem)
    (room : layout.Room stack'.length) (stacked : Stacked mem (layout.top stack'.length) stack') :
    Framed layout slots arguments stack' (rs.set .rsp (layout.top stack'.length)) mem :=
  ⟨room, framed.base, rfl, framed.arguments, stacked, framed.slot, framed.link, framed.data⟩

/-- A word below the operand stack may be overwritten. -/
theorem below (framed : Framed layout slots arguments stack rs mem)
    (room : layout.Room (stack.length + 1)) (value : Nat) :
    Framed layout slots arguments stack rs
      (mem.setWord (layout.top (stack.length + 1)) value 8) := by
  have next := room.top_succ
  have under := framed.room.top_add
  have above := layout.floor_add
  refine ⟨framed.room, framed.base, framed.pointer, framed.arguments,
    framed.stacked.setWord value (.inl (by omega)), fun index inside => ?_,
    framed.link.setWord value (.inl (by omega)), framed.data.setWord room.data_le_top value 8⟩
  have place := Layout.floor_le_slot inside
  rw [Memory.word_setWord_of_disjoint value (.inl (by omega))]
  exact framed.slot index inside

theorem push (framed : Framed layout slots arguments stack rs mem)
    (room : layout.Room (stack.length + 1)) (word : Word) :
    Framed layout slots arguments (word :: stack)
      (rs.set .rsp (layout.top (stack.length + 1)))
      (mem.setWord (layout.top (stack.length + 1)) word.toNat 8) := by
  have written := framed.below room word.toNat
  have top : (mem.setWord (layout.top (stack.length + 1)) word.toNat 8).word
      (layout.top (stack.length + 1)) 8 = word.toNat := by
    rw [Memory.word_setWord_self]
    exact Nat.mod_eq_of_lt word.isLt
  refine written.setPointer room ⟨top, ?_⟩
  rw [List.length_cons, ← room.top_succ]
  exact written.stacked

/-- The stack pointer may be lowered without writing: the stack then has one more word, whichever.
-/
theorem pad (framed : Framed layout slots arguments stack rs mem)
    (room : layout.Room (stack.length + 1)) :
    ∃ word, Framed layout slots arguments (word :: stack)
      (rs.set .rsp (layout.top (stack.length + 1))) mem := by
  let word : Word := BitVec.ofNat 64 (mem.word (layout.top (stack.length + 1)) 8)
  have top : mem.word (layout.top (stack.length + 1)) 8 = word.toNat :=
    (Nat.mod_eq_of_lt (mem.word_lt _ 8)).symm
  refine ⟨word, framed.setPointer room ⟨top, ?_⟩⟩
  rw [List.length_cons, ← room.top_succ]
  exact framed.stacked

theorem pop {word : Word} (framed : Framed layout slots arguments (word :: stack) rs mem) :
    Framed layout slots arguments stack (rs.set .rsp (layout.top stack.length)) mem := by
  have room : layout.Room (stack.length + 1) := framed.room
  have stacked := framed.stacked.2
  rw [List.length_cons, ← room.top_succ] at stacked
  exact framed.setPointer (room.mono (Nat.le_succ _)) stacked

theorem assign {index : Nat} (framed : Framed layout slots arguments stack rs mem)
    (inside : index < layout.count) (word : BitVec 32) :
    Framed layout (Function.update slots index word) arguments stack rs
      (mem.setWord (frameBase - 4 * (index + 1)) word.toNat 4) := by
  have place := Layout.floor_le_slot inside
  have under := framed.room.top_add
  have low := framed.room.data_le_top
  refine ⟨framed.room, framed.base, framed.pointer, framed.arguments,
    framed.stacked.setWord _ (.inr (by omega)), fun other within => ?_,
    framed.link.setWord _ (.inl (by omega)), framed.data.setWord (by omega) _ 4⟩
  by_cases same : other = index
  · subst same
    rw [Memory.word_setWord_self, Function.update_self]
    exact Nat.mod_eq_of_lt word.isLt
  · have apart := Layout.floor_le_slot within
    rw [Memory.word_setWord_of_disjoint _ (by omega), Function.update_of_ne same]
    exact framed.slot other within

/-! ## Instructions on the stack -/

variable {World : Type} {setup : Setup World} {r : Register} {word : Word}

theorem acts_push (framed : Framed layout slots arguments stack rs mem)
    (room : layout.Room (stack.length + 1)) (source : rs.get r = word.toNat) :
    Acts setup (one .push (whole r)) rs mem (rs.set .rsp (layout.top (stack.length + 1)))
      (mem.setWord (layout.top (stack.length + 1)) word.toNat 8) := by
  have pointer := framed.pointer
  have next := room.top_succ
  rw [next] at pointer
  exact Machine.acts_push source pointer (by have := layout.top_le stack.length; omega)

theorem acts_pop (framed : Framed layout slots arguments (word :: stack) rs mem) :
    Acts setup (one .pop (whole r)) rs mem ((rs.set .rsp (layout.top stack.length)).put r word)
      mem := by
  have room : layout.Room (stack.length + 1) := framed.room
  have pointer : rs.get .rsp = layout.top (stack.length + 1) := framed.pointer
  have next := room.top_succ
  have inside := layout.top_le stack.length
  have value : mem.word (layout.top (stack.length + 1)) 8 = word.toNat := framed.stacked.1
  rw [Registers.put, ← value, next]
  exact Machine.acts_pop pointer (by omega)

end Framed

end Reckon.Machine
