import Reckon.Proofs.Machine.Frames
import Reckon.Proofs.Machine.Runs

/-!
# Code for values and operations

The code of a number, of a variable, of an assignment and of each operator does what the evaluation
does: the value ends in the accumulator, and the operand stack is as it was before the operands.
-/

namespace Reckon.Machine

open Code

variable {World : Type} {setup : Setup World} {layout : Layout} {stack : List Word}

/-! ## Values and the stack -/

/-- The program runs in its frame, with `arguments` in the places for them. -/
def Within (layout : Layout) (arguments stack : List Word) : Assertion World := fun store =>
  Framed layout store.slots arguments stack

/-- The program runs in its frame as the store says. -/
def At (layout : Layout) (stack : List Word) : Assertion World := fun store =>
  Framed layout store.slots store.registers stack

/-- The program runs in its frame as the store says, with a value in the accumulator. -/
def Holding (layout : Layout) (stack : List Word) (word : Word) : Assertion World :=
  fun store rs mem => At layout stack store rs mem ∧ rs.get .rax = word.toNat

theorem toNat_setWidth (word : BitVec 32) : (word.setWidth 64).toNat = word.toNat :=
  BitVec.toNat_setWidth_of_le (by decide)

theorem simulates_number {value : Nat} (small : value ≤ maxLiteral) :
    Simulates setup [two .mov (.immediate value) eax] (At layout stack)
      (pure (BitVec.ofInt 64 value)) (Holding layout stack) := by
  refine .silent rfl fun store rs mem framed => ⟨_, _, acts_mov_immediate _ _, ?_, ?_⟩
  · exact framed.scratch (.inl rfl) _
  · have bound : value < 0x80000000 := Nat.lt_succ_of_le small
    show ((BitVec.ofInt 32 value).toNat : Int) = (BitVec.ofInt 64 value).toNat
    rw [BitVec.ofInt_natCast, BitVec.ofInt_natCast, BitVec.toNat_ofNat, BitVec.toNat_ofNat,
      Nat.mod_eq_of_lt (by omega), Nat.mod_eq_of_lt (by omega)]

theorem simulates_variable {index : Nat} (inside : index < layout.count)
    (env : Environment World) (name : String) (span : Span) :
    Simulates setup [two .mov (.slot index) eax] (At layout stack)
      (Evaluation.ofExpr env (.var index name span)) (Holding layout stack) := by
  have read : Simulates setup [] (At layout stack) (MonadState.get : Evaluation World _)
      fun seen store rs mem => seen = store ∧ At layout stack store rs mem :=
    .quiet fun store rs mem framed => ⟨store, store, rfl, rfl, rfl, rfl, framed⟩
  rw [Evaluation.ofExpr]
  refine read.bind fun seen => .silent rfl fun store rs mem => ?_
  rintro ⟨rfl, framed⟩
  have place := Layout.floor_le_slot inside
  refine ⟨_, _, acts_load framed.base place.2 (by decide) (framed.slot index inside), ?_, ?_⟩
  · exact framed.scratch (.inl rfl) _
  · exact congrArg Nat.cast (toNat_setWidth _).symm

theorem simulates_store {index : Nat} (inside : index < layout.count) (name : String) (span : Span)
    (word : Word) :
    Simulates setup [two .mov eax (.slot index)] (Holding layout stack word)
      (Evaluation.assign (.var index name span) word) (Holding layout stack) := by
  have place := Layout.floor_le_slot inside
  have written : Simulates setup [two .mov eax (.slot index)] (Holding layout stack word)
      (pure ()) fun _ store rs mem => Framed layout
        (Function.update store.slots index (word.setWidth 32)) store.registers stack rs mem ∧
        rs.get .rax = word.toNat := by
    refine .silent rfl ?_
    rintro store rs mem ⟨framed, value⟩
    exact ⟨_, _, acts_store framed.base place.2 (by decide) value, framed.assign inside _, value⟩
  refine written.after (.quiet ?_)
  rintro store rs mem ⟨framed, value⟩
  exact ⟨word, _, rfl, rfl, rfl, framed, value⟩

theorem simulates_push {word : Word} (room : layout.Room (stack.length + 1)) :
    Simulates setup [one .push rax] (Holding layout stack word) (pure ())
      fun _ => At layout (word :: stack) := by
  refine .silent rfl ?_
  rintro store rs mem ⟨framed, value⟩
  exact ⟨_, _, framed.acts_push room value, framed.push room word⟩

/-! ## Operations -/

/-- Both operands are in registers: the right one in the accumulator, the left one in the scratch
register. -/
def Operands (layout : Layout) (stack : List Word) (left right : Word) : Assertion World :=
  fun store rs mem => At layout stack store rs mem ∧ rs.get .rax = right.toNat ∧
    rs.get .rbx = left.toNat

section Operations

variable {left right : Word}

theorem simulates_pop :
    Simulates setup [one .pop rbx] (Holding layout (left :: stack) right)
      (pure ()) fun _ => Operands layout stack left right := by
  refine .silent rfl ?_
  rintro store rs mem ⟨framed, value⟩
  exact ⟨_, _, framed.acts_pop, framed.pop.scratch (.inr rfl) _, value, rfl⟩

theorem simulates_add :
    Simulates setup [one .pop rbx, two .add ebx eax] (Holding layout (left :: stack) right)
      (Evaluation.operate .add left right) (Holding layout stack) := by
  have added : Simulates setup [two .add ebx eax] (Operands layout stack left right)
      (Evaluation.operate .add left right) (Holding layout stack) := by
    refine .silent rfl ?_
    rintro store rs mem ⟨framed, rightValue, leftValue⟩
    refine ⟨_, _, acts_add leftValue rightValue, framed.scratch (.inl rfl) _, ?_⟩
    rw [BitVec.add_comm, toNat_setWidth]
    rfl
  exact simulates_pop.after added

theorem simulates_subtract :
    Simulates setup [one .pop rbx, two .sub eax ebx, two .mov ebx eax]
      (Holding layout (left :: stack) right) (Evaluation.operate .subtract left right)
      (Holding layout stack) := by
  have subtracted : Simulates setup [two .sub eax ebx] (Operands layout stack left right)
      (pure ()) fun _ => Operands layout stack
        ((left.setWidth 32 - right.setWidth 32).setWidth 64) right := by
    refine .silent rfl ?_
    rintro store rs mem ⟨framed, rightValue, leftValue⟩
    refine ⟨_, _, acts_sub rightValue leftValue, framed.scratch (.inr rfl) _, rightValue, ?_⟩
    rw [toNat_setWidth]
    rfl
  have moved : Simulates setup [two .mov ebx eax] (Operands layout stack
      ((left.setWidth 32 - right.setWidth 32).setWidth 64) right)
      (Evaluation.operate .subtract left right) (Holding layout stack) := by
    refine .silent rfl ?_
    rintro store rs mem ⟨framed, -, difference⟩
    refine ⟨_, _, acts_mov_low difference, framed.scratch (.inl rfl) _, ?_⟩
    rw [BitVec.setWidth_setWidth_of_le _ (by decide), BitVec.setWidth_eq, toNat_setWidth]
    rfl
  exact simulates_pop.after (subtracted.after moved)

theorem simulates_multiply :
    Simulates setup [one .pop rbx, two .imul ebx eax] (Holding layout (left :: stack) right)
      (Evaluation.operate .multiply left right) (Holding layout stack) := by
  have multiplied : Simulates setup [two .imul ebx eax] (Operands layout stack left right)
      (Evaluation.operate .multiply left right) (Holding layout stack) := by
    refine .silent rfl ?_
    rintro store rs mem ⟨framed, rightValue, leftValue⟩
    refine ⟨_, _, acts_imul leftValue rightValue, framed.scratch (.inl rfl) _, ?_⟩
    rw [BitVec.mul_comm, toNat_setWidth]
    rfl
  exact simulates_pop.after multiplied

/-- The operands of a division are in their registers, and the high half of the dividend is zero. -/
def Dividing (layout : Layout) (stack : List Word) (left right : Word) : Assertion World :=
  fun store rs mem => Within layout (store.registers.set 2 0) stack store rs mem ∧
    rs.get .rax = left.toNat ∧ rs.get .rdx = 0 ∧
      rs.get .rbx = ((right.setWidth 32).setWidth 64).toNat

theorem put_setWidth (rs : Registers) (r : Register) (word : BitVec 32) :
    rs.put r (word.setWidth 64) = rs.put r word :=
  congrArg (fun value : Nat => rs.set r value) (toNat_setWidth word)

theorem simulates_prepareDivision :
    Simulates setup [two .mov eax ebx, one .pop rax,
        two .mov (.immediate 0) (.register .rdx .double)]
      (Holding layout (left :: stack) right) (pure ())
      fun _ => Dividing layout stack left right := by
  let divisor : Word := (right.setWidth 32).setWidth 64
  have moved : Simulates setup [two .mov eax ebx] (Holding layout (left :: stack) right) (pure ())
      fun _ store rs mem => At layout (left :: stack) store rs mem ∧
        rs.get .rbx = divisor.toNat := by
    refine .silent rfl ?_
    rintro store rs mem ⟨framed, value⟩
    refine ⟨_, _, acts_mov_low value, framed.scratch (.inr rfl) _, ?_⟩
    exact congrArg Nat.cast (toNat_setWidth _).symm
  have popped : Simulates setup [one .pop rax] (fun store rs mem =>
      At layout (left :: stack) store rs mem ∧ rs.get .rbx = divisor.toNat) (pure ())
      fun _ store rs mem => At layout stack store rs mem ∧ rs.get .rax = left.toNat ∧
        rs.get .rbx = divisor.toNat := by
    refine .silent rfl ?_
    rintro store rs mem ⟨framed, value⟩
    exact ⟨_, _, framed.acts_pop, framed.pop.scratch (.inl rfl) _, rfl, value⟩
  have cleared : Simulates setup [two .mov (.immediate 0) (.register .rdx .double)]
      (fun store rs mem => At layout stack store rs mem ∧ rs.get .rax = left.toNat ∧
        rs.get .rbx = divisor.toNat) (pure ()) fun _ => Dividing layout stack left right := by
    refine .silent rfl ?_
    rintro store rs mem ⟨framed, dividend, value⟩
    exact ⟨_, _, acts_mov_immediate _ _, framed.setArgument rfl 0, dividend, rfl, value⟩
  exact moved.after (popped.after cleared)

theorem simulates_idiv :
    Simulates setup [one .idiv ebx] (Dividing layout stack left right)
      (Evaluation.operate .divide left right) (Holding layout stack) := by
  have low : ((right.setWidth 32).setWidth 64).setWidth 32 = right.setWidth 32 := by
    rw [BitVec.setWidth_setWidth_of_le _ (by decide), BitVec.setWidth_eq]
  rw [Evaluation.operate, Evaluation.divide]
  by_cases zero : right.setWidth 32 = 0
  · rw [if_pos zero]
    refine .faults rfl ?_
    rintro store rs mem ⟨-, dividend, high, divisor⟩
    exact faults_idiv_zero dividend high divisor (low.trans zero)
  rw [if_neg zero]
  by_cases large : ((left.setWidth 32).toNat : Int).tdiv (right.setWidth 32).toInt < -0x80000000 ∨
      0x80000000 ≤ ((left.setWidth 32).toNat : Int).tdiv (right.setWidth 32).toInt
  · rw [if_pos large]
    refine .faults rfl ?_
    rintro store rs mem ⟨-, dividend, high, divisor⟩
    exact faults_idiv_overflow dividend high divisor (by rwa [low]) rfl (by rwa [low])
  rw [if_neg large]
  let remainder : Word := (BitVec.ofInt 32
    (((left.setWidth 32).toNat : Int).tmod (right.setWidth 32).toInt)).setWidth 64
  let quotient : Word := (BitVec.ofInt 32
    (((left.setWidth 32).toNat : Int).tdiv (right.setWidth 32).toInt)).setWidth 64
  have divided : Simulates setup [one .idiv ebx] (Dividing layout stack left right) (pure ())
      fun _ store rs mem => Within layout (store.registers.set 2 remainder) stack store rs mem ∧
        rs.get .rax = quotient.toNat := by
    refine .silent rfl ?_
    rintro store rs mem ⟨framed, dividend, high, divisor⟩
    have third : Register.arguments[2]? = some .rdx := rfl
    have acts : Acts setup (one .idiv ebx) rs mem _ mem :=
      acts_idiv dividend high divisor (by rwa [low]) rfl (by rwa [low])
    rw [low, ← put_setWidth _ .rdx, ← put_setWidth _ .rax] at acts
    have kept := (framed.scratch (.inl rfl) quotient.toNat).setArgument third remainder
    rw [List.set_set] at kept
    exact ⟨_, _, acts, kept, rfl⟩
  refine divided.after (.quiet ?_)
  rintro store rs mem ⟨framed, value⟩
  exact ⟨quotient, _, rfl, rfl, rfl, framed, value⟩

theorem simulates_divide :
    Simulates setup [two .mov eax ebx, one .pop rax,
        two .mov (.immediate 0) (.register .rdx .double), one .idiv ebx]
      (Holding layout (left :: stack) right) (Evaluation.operate .divide left right)
      (Holding layout stack) :=
  simulates_prepareDivision.after simulates_idiv

/-- The code of an operator combines its operands as the evaluation does. -/
theorem simulates_combine {operator : Operator} {combination : List Line}
    (combined : combine? operator = some combination) :
    Simulates setup combination (Holding layout (left :: stack) right)
      (Evaluation.operate operator left right) (Holding layout stack) := by
  cases operator <;> cases combined
  · exact simulates_add
  · exact simulates_subtract
  · exact simulates_multiply
  · exact simulates_divide

end Operations

end Reckon.Machine
