import Reckon.Proofs.Drafting

/-!
# The operand stack of an expression

`Line.descent?` tells how far a line lowers the stack pointer, and `Code.totalDescent?` how far
lines in a row do so together. `Code.Disciplined` says of code that its descents cancel, that no
part of it from the front on takes more from the stack than it has put there, and that the stack is
aligned at its calls.

Main statement: the generator leaves its count as it was after every expression, and writes
disciplined code from every count (`Code.balanced_expression`).
-/

namespace Reckon.Code

/-! ## How far code lowers the stack pointer -/

/-- The operand is the stack pointer. -/
def Operand.isStackPointer : Operand → Bool
  | .register .rsp _ => true
  | _ => false

/-- Bytes by which a line lowers the stack pointer, none if it gives the pointer a value of its own.
The last operand is the one that is written; a routine that is called returns with the stack as it
was. -/
def Line.descent? : Line → Option Int
  | .instruction ⟨.push, _⟩ => some 8
  | .instruction ⟨.sub, [.immediate bytes, .register .rsp .quad]⟩ => some bytes
  | .instruction ⟨.add, [.immediate bytes, .register .rsp .quad]⟩ => some (-bytes)
  | .instruction ⟨.ret, _⟩ => none
  | .instruction ⟨opcode, operands⟩ =>
    if operands.getLast?.any Operand.isStackPointer then none
    else some (if opcode = .pop then -8 else 0)
  | .directive _ _ | .label _ | .comment _ => some 0

/-- Bytes by which lines in a row lower the stack pointer. -/
def totalDescent? : List Line → Option Int
  | [] => some 0
  | line :: rest => do
    let here ← line.descent?
    let later ← totalDescent? rest
    return here + later

/-- The lines take what they put on the stack off it again, never more than that, and call routines
only where the stack, with `depth` words on it at the start, holds a multiple of sixteen bytes. -/
structure Disciplined (depth : Int) (lines : List Line) : Prop where
  cancels : totalDescent? lines = some 0
  above : ∀ front, front <+: lines → ∃ bytes, totalDescent? front = some bytes ∧ 0 ≤ bytes
  aligned : ∀ front name rest, lines = front ++ one .call (.symbol name) :: rest →
    ∃ bytes, totalDescent? front = some bytes ∧ 16 ∣ 8 * depth + bytes

/-- The lines lead from one height of the stack to another. Heights are in bytes above where the
stack stood at the start, and `base` is what it held there. -/
inductive Line.Climbs (base : Int) : List Line → Int → Int → Prop
  | nil (h : Int) : Climbs base [] h h
  | cons {line : Line} {lines : List Line} {h h' bytes : Int} : line.descent? = some bytes →
    0 ≤ h + bytes → (∀ name, line = one .call (.symbol name) → 16 ∣ base + h) →
    Climbs base lines (h + bytes) h' → Climbs base (line :: lines) h h'

namespace Line.Climbs

variable {base : Int} {lines lines' : List Line} {h h₁ h₂ : Int}

theorem append (first : Climbs base lines h h₁) (later : Climbs base lines' h₁ h₂) :
    Climbs base (lines ++ lines') h h₂ := by
  induction first with
  | nil => exact later
  | cons lowers above aligned _ ih => exact .cons lowers above aligned (ih later)

theorem exists_of_append (climbs : Climbs base (lines ++ lines') h h₂) :
    ∃ h₁, Climbs base lines h h₁ ∧ Climbs base lines' h₁ h₂ := by
  induction lines generalizing h with
  | nil => exact ⟨h, .nil h, climbs⟩
  | cons line lines ih =>
    cases climbs with
    | cons lowers above aligned rest =>
      obtain ⟨h₁, first, later⟩ := ih rest
      exact ⟨h₁, .cons lowers above aligned first, later⟩

theorem totalDescent?_eq (climbs : Climbs base lines h h₁) :
    totalDescent? lines = some (h₁ - h) := by
  induction climbs with
  | nil h => rw [Int.sub_self, totalDescent?]
  | @cons line lines h h' bytes lowers _ _ _ ih =>
    have total : bytes + (h' - (h + bytes)) = h' - h := by omega
    rw [totalDescent?, lowers, ih, ← total]
    rfl

theorem nonneg (climbs : Climbs base lines h h₁) (above : 0 ≤ h) : 0 ≤ h₁ := by
  induction climbs with
  | nil => exact above
  | cons _ next _ _ ih => exact ih next

/-- Lines that lead back to where they start from are disciplined. -/
theorem disciplined {depth : Int} (climbs : Climbs (8 * depth) lines 0 0) :
    Disciplined depth lines where
  cancels := climbs.totalDescent?_eq
  above front := by
    rintro ⟨rest, whole⟩
    rw [← whole] at climbs
    obtain ⟨h, first, -⟩ := climbs.exists_of_append
    exact ⟨h - 0, first.totalDescent?_eq, by simpa using first.nonneg (Int.le_refl 0)⟩
  aligned front name rest whole := by
    rw [whole] at climbs
    obtain ⟨h, first, later⟩ := climbs.exists_of_append
    cases later with
    | cons _ _ aligned _ => exact ⟨h - 0, first.totalDescent?_eq, by simpa using aligned name rfl⟩

/-- A line that neither calls nor moves the stack pointer. -/
theorem steady {line : Line} (lowers : line.descent? = some 0)
    (other : ∀ name, line ≠ one .call (.symbol name)) (above : 0 ≤ h) : Climbs base [line] h h := by
  have climbs : Climbs base [line] h (h + 0) :=
    .cons lowers (by omega) (fun name same => absurd same (other name)) (.nil _)
  rwa [Int.add_zero] at climbs

theorem moves {line : Line} {bytes : Int} (lowers : line.descent? = some bytes)
    (other : ∀ name, line ≠ one .call (.symbol name)) (above : 0 ≤ h + bytes) :
    Climbs base [line] h (h + bytes) :=
  .cons lowers above (fun name same => absurd same (other name)) (.nil _)

theorem pushes (registers : List Register) (above : 0 ≤ h) :
    Climbs base (registers.map fun r => one .push (whole r)) h (h + 8 * registers.length) := by
  induction registers generalizing h with
  | nil =>
    rw [List.length_nil, Int.natCast_zero, Int.mul_zero, Int.add_zero]
    exact .nil h
  | cons r registers ih =>
    have higher : 0 ≤ h + 8 := by omega
    have total : h + 8 + 8 * registers.length = h + 8 * ((r :: registers).length : Nat) := by
      rw [List.length_cons]
      omega
    rw [← total]
    exact (moves rfl (fun name same => by cases same) higher).append (ih higher)

theorem pops {registers : List Register} (others : ∀ r ∈ registers, r ≠ .rsp) (above : 0 ≤ h) :
    Climbs base (registers.map fun r => one .pop (whole r)) (h + 8 * registers.length) h := by
  induction registers with
  | nil =>
    rw [List.length_nil, Int.natCast_zero, Int.mul_zero, Int.add_zero]
    exact .nil h
  | cons r registers ih =>
    obtain ⟨other, others⟩ := List.forall_mem_cons.mp others
    have lowers : (one .pop (whole r)).descent? = some (-8) := by
      cases r with
      | rsp => exact absurd rfl other
      | rax | rbx | rcx | rdx | rsi | rdi | rbp | r8 | r9 => rfl
    have total : h + 8 * ((r :: registers).length : Nat) + -8 = h + 8 * registers.length := by
      rw [List.length_cons]
      omega
    have popped := @moves base (h + 8 * ((r :: registers).length : Nat)) _ _ lowers
      (fun name same => by cases same) (by omega)
    rw [total] at popped
    exact popped.append (ih others)

end Line.Climbs

/-- The emission, if it is complete, leads from one height of the stack to another. -/
def Emission.Climbs (base : Int) (a : Emission) (h h' : Int) : Prop :=
  a.failure? = none → Line.Climbs base a.lines h h'

namespace Emission.Climbs

variable {base : Int} {a b : Emission} {h h₁ h₂ : Int}

theorem append (first : a.Climbs base h h₁) (later : b.Climbs base h₁ h₂) :
    (a ++ b).Climbs base h h₂ := by
  intro complete
  obtain ⟨completeFirst, completeLater⟩ := failure?_append_eq_none.mp complete
  rw [append_of_failure?_eq_none completeFirst]
  exact (first completeFirst).append (later completeLater)

theorem fail (cause : Cause) (span : Span) : (Emission.fail cause span).Climbs base h h₁ :=
  fun complete => by cases complete

theorem spell {number : Int} {line : Line} (steady : Line.Climbs base [line] h h) :
    (Emission.spell number line).Climbs base h h := by
  unfold Emission.spell
  split
  · exact fun _ => steady
  · exact fun complete => by cases complete

end Emission.Climbs

section Expressions

variable {base : Int} {h : Int}

theorem climbs_store (target : Expr) (above : 0 ≤ h) : (store target).Climbs base h h := by
  cases target with
  | var index =>
    rw [store, Emission.reach]
    exact .spell (.steady rfl (fun name same => by cases same) above)
  | block => exact fun complete => by cases complete
  | number | string | binary | call | hole => exact .fail _ _

theorem climbs_combine? {operator : Operator} {combination : List Line}
    (combined : combine? operator = some combination) (above : 0 ≤ h) :
    Line.Climbs base combination (h + 8) h := by
  have popped {r : Register} (other : r ≠ .rsp) :
      Line.Climbs base [one .pop (whole r)] (h + 8) h :=
    Line.Climbs.pops (List.forall_mem_singleton.mpr other) above
  have steady {line : Line} (lowers : line.descent? = some 0)
      (other : ∀ name, line ≠ one .call (.symbol name)) {h : Int} (above : 0 ≤ h) :
      Line.Climbs base [line] h h := .steady lowers other above
  cases operator with
  | add | multiply =>
    cases combined
    exact (popped (r := .rbx) (by decide)).append
      (steady rfl (fun name same => by cases same) above)
  | subtract =>
    cases combined
    exact (popped (r := .rbx) (by decide)).append
      ((steady rfl (fun name same => by cases same) above).append
        (steady rfl (fun name same => by cases same) above))
  | divide =>
    cases combined
    exact (steady rfl (fun name same => by cases same) (by omega)).append
      ((popped (r := .rax) (by decide)).append
        ((steady rfl (fun name same => by cases same) above).append
          (steady rfl (fun name same => by cases same) above)))
  | assign | other => cases combined

/-- The padding makes the height of the stack at a call a multiple of sixteen. -/
theorem climbs_padded (name : String) {outstanding : Nat} (above : 0 ≤ h)
    (parity : 16 ∣ base + h - 8 * outstanding) :
    Line.Climbs base ((if outstanding % 2 == 1 then [two .sub (.immediate 8) rsp] else []) ++
      [two .mov (.immediate 0) eax, one .call (.symbol name)] ++
      if outstanding % 2 == 1 then [two .add (.immediate 8) rsp] else []) h h := by
  have called {h : Int} (above : 0 ≤ h) (aligned : 16 ∣ base + h) : Line.Climbs base
      [two .mov (.immediate 0) eax, one .call (.symbol name)] h h := by
    have lowers : (one .call (.symbol name)).descent? = some 0 := rfl
    have call : Line.Climbs base [one .call (.symbol name)] h (h + 0) :=
      .cons lowers (by omega) (fun _ _ => aligned) (.nil _)
    rw [Int.add_zero] at call
    exact (Line.Climbs.steady rfl (fun name same => by cases same) above).append call
  by_cases odd : outstanding % 2 = 1
  · rw [beq_iff_eq.mpr odd, if_pos rfl, if_pos rfl]
    have padded : Line.Climbs base [two .sub (.immediate 8) rsp] h (h + 8) :=
      .moves rfl (fun name same => by cases same) (by omega)
    have unpadded : Line.Climbs base [two .add (.immediate 8) rsp] (h + 8) (h + 8 + -8) :=
      .moves rfl (fun name same => by cases same) (by omega)
    rw [Int.add_neg_cancel_right] at unpadded
    exact (padded.append (called (by omega) (by omega))).append unpadded
  · rw [beq_eq_false_iff_ne.mpr odd, if_neg Bool.false_ne_true, if_neg Bool.false_ne_true,
      List.append_nil, List.nil_append]
    exact called above (by omega)

theorem climbs_invoke (name : String) (count : Nat) {outstanding : Nat} (above : 0 ≤ h)
    (parity : 16 ∣ base + (h + 8 * (savedRegisters count).length) - 8 * outstanding) :
    Line.Climbs base (invoke name count outstanding)
      (h + 8 * (savedRegisters count).length + 8 * (Register.arguments.take count).length) h := by
  have popAll {registers : List Register} (among : ∀ r ∈ registers, r ∈ Register.arguments)
      {h : Int} (above : 0 ≤ h) :
      Line.Climbs base (registers.reverse.map fun r => one .pop (whole r))
        (h + 8 * registers.length) h := by
    have others : ∀ r ∈ registers.reverse, r ≠ .rsp := by
      intro r member pointer
      have listed := among r (List.mem_reverse.mp member)
      rw [pointer] at listed
      revert listed
      decide
    have popped := @Line.Climbs.pops base h registers.reverse others above
    rwa [List.length_reverse] at popped
  have higher : 0 ≤ h + 8 * (savedRegisters count).length := by omega
  have arguments := @popAll (Register.arguments.take count)
    (fun r member => List.mem_of_mem_take member) _ higher
  have saved := @popAll (savedRegisters count)
    (fun r member => List.mem_of_mem_take (List.mem_of_mem_drop member)) h above
  have climbs := (arguments.append (climbs_padded name higher parity)).append saved
  simpa only [invoke, List.append_assoc] using climbs

mutual

/-- The code of an expression leads back to the height it starts from, and never below it. -/
theorem climbs_lower (pool : List String) : ∀ (e : Expr) {depth : Nat} {h : Int}, 0 ≤ h →
    16 ∣ base + h - 8 * depth → (lower pool depth e).Climbs base h h
  | .number value span, depth, h, above, parity => by
    rw [lower]
    exact .spell (.steady rfl (fun name same => by cases same) above)
  | .string raw span, depth, h, above, parity => by
    rw [lower]
    exact .fail _ _
  | .var index name span, depth, h, above, parity => by
    rw [lower, Emission.reach]
    exact .spell (.steady rfl (fun name same => by cases same) above)
  | .binary operator operatorSpan left right span, depth, h, above, parity => by
    by_cases assigns : operator = .assign
    · subst assigns
      rw [lower]
      exact (climbs_lower pool right above parity).append (climbs_store left above)
    · cases combined : combine? operator with
      | none =>
        rw [lower, combined]
        · exact .fail _ _
        · exact assigns
      | some combination =>
        -- The left operand stays on the stack while the right one is lowered, one word deeper.
        have pushed : (Emission.emit [one .push rax]).Climbs base h (h + 8) :=
          fun _ => .moves rfl (fun name same => by cases same) (by omega)
        have second := @climbs_lower pool right (depth + 1) (h + 8) (by omega) (by omega)
        rw [lower_binary assigns combined]
        exact (((climbs_lower pool left above parity).append pushed).append second).append
          fun _ => climbs_combine? combined above
  | .call name arguments span, depth, h, above, parity => by
    rw [lower]
    dsimp only
    split
    · exact .fail _ _
    · next few =>
      have within : (Register.arguments.take arguments.length).length = arguments.length := by
        rw [List.length_take, Nat.min_eq_left (by omega)]
      generalize outside : depth + (savedRegisters arguments.length).length = outstanding
      have higher : 0 ≤ h + 8 * (savedRegisters arguments.length).length := by omega
      have aligned : 16 ∣ base + (h + 8 * (savedRegisters arguments.length).length) -
          8 * outstanding := by omega
      have invoked := climbs_invoke name arguments.length above aligned
      rw [within] at invoked
      exact (Emission.Climbs.append (fun _ => Line.Climbs.pushes _ above)
        (climbs_lowerArguments pool arguments higher aligned)).append fun _ => invoked
  | .hole span, depth, h, above, parity => by
    rw [lower]
    exact .fail _ _
  | .block statements, depth, h, above, parity => by
    rw [lower]
    exact .fail _ _

theorem climbs_lowerArguments (pool : List String) : ∀ (arguments : List Expr) {depth : Nat}
    {h : Int}, 0 ≤ h → 16 ∣ base + h - 8 * depth →
    (lowerArguments pool depth arguments).Climbs base h (h + 8 * arguments.length)
  | [], depth, h, above, parity => by
    rw [lowerArguments, List.length_nil, Int.natCast_zero, Int.mul_zero, Int.add_zero]
    exact fun _ => .nil h
  | argument :: rest, depth, h, above, parity => by
    have total : h + 8 + 8 * rest.length = h + 8 * ((argument :: rest).length : Nat) := by
      rw [List.length_cons]
      omega
    have later := @climbs_lowerArguments pool rest (depth + 1) (h + 8) (by omega) (by omega)
    rw [total] at later
    have pushed : Line.Climbs base [one .push rax] h (h + 8) :=
      .moves rfl (fun name same => by cases same) (by omega)
    by_cases literal : ∃ raw span, argument = .string raw span
    · obtain ⟨raw, span, rfl⟩ := literal
      rw [lowerArguments]
      exact Emission.Climbs.append (fun _ =>
        (Line.Climbs.steady rfl (fun name same => by cases same) above).append pushed) later
    · rw [lowerArguments_cons fun raw span same => literal ⟨raw, span, same⟩]
      exact ((climbs_lower pool argument above parity).append fun _ => pushed).append later

end

end Expressions

/-! ## Main statement -/

/-- For every expression and every draft, the generator writes the code that lowering gives, and
fails where lowering fails. It leaves its count as it was, whatever that was, and what it writes
takes everything off the stack again that it puts there, takes nothing off below where it started,
and makes its calls with the stack aligned. So the count is zero after each statement: generating
code comes to what lowering says, and nothing is refused for the count. -/
theorem balanced_expression :
    (∀ (e : Expr) (d : Draft),
      (∀ (pool : List String) (depth : Nat), d.depth = depth →
        enlistAll d.literals (literals e) <+: pool →
        Draft.Writes (lower pool depth e) (literals e) 0 d ((Drafting.expression e).run d)) ∧
      ∀ d', (Drafting.expression e).run d = .ok () d' → d'.depth = d.depth ∧
        ∃ lines, d'.lines.toList = d.lines.toList ++ lines ∧ Disciplined d.depth lines) ∧
    ∀ (options : Options) (program : Program),
      generate options program = lowered options program ∧
        ∀ depth span, (generate options program).result ≠
          .error (.compile ⟨Drafting.unbalanced depth, span⟩) := by
  refine ⟨fun e d => ⟨fun pool depth same begins => ?_, fun d' ran => ?_⟩,
    fun options program => ?_⟩
  · exact .expression e (by rw [same]) begins
  · -- Of the count only its parity matters, so lowering may start from zero or one.
    have parity : d.depth % 2 = ((d.depth % 2).toNat : Int) % 2 := by omega
    have wrote := Draft.Writes.expression e parity (List.prefix_refl _)
    rw [ran] at wrote
    cases wrote with
    | done complete lines _ _ depth =>
      have climbs := @climbs_lower (8 * d.depth) _ e _ 0 (Int.le_refl 0) (by omega) complete
      exact ⟨depth.trans (Int.add_zero _), _, lines, climbs.disciplined⟩
  · exact ⟨generate_eq_lowered options program,
      fun depth span refused => isNoRefusal_of_generate refused depth span rfl⟩

/-- `h() - f(g(), "a")` with one word on the stack at the start: `f` is called with the left operand
and a saved register below its arguments, and `g` with one argument register more. -/
theorem balanced_expression_of_calls :
    let e : Expr := .binary .subtract ⟨4, 5⟩ (.call "h" [] ⟨0, 3⟩)
      (.call "f" [.call "g" [] ⟨8, 11⟩, .string "a" ⟨13, 16⟩] ⟨6, 17⟩) ⟨0, 17⟩
    ∃ d', (Drafting.expression e).run ⟨#[], [], [], 1⟩ = .ok () d' ∧ d'.depth = 1 ∧
      d'.literals = ["a"] ∧ d'.externals = ["h", "g", "f"] ∧ Disciplined 1 d'.lines.toList := by
  intro e
  refine ⟨_, rfl, rfl, rfl, rfl, ?_⟩
  obtain ⟨-, lines, written, disciplined⟩ :=
    (balanced_expression.1 e ⟨#[], [], [], 1⟩).2 _ rfl
  rw [written]
  exact disciplined

end Reckon.Code
