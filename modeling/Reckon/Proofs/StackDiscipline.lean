import Reckon.Proofs.Emission

/-!
# The stack discipline of emitted code

Every line of emitted code moves the stack by a known number of words: `Line.Shifts` says from which
height to which a line leads, and `Line.Balances` says it of lines in a row. A call may only be made
at an even height, and nothing is taken from the stack below a floor.

Main statements: the code of an expression leads from every height, taken as its floor, back to that
height (`Code.balanced_lower`), and the code of statements starts and ends with an empty stack
(`Code.balanced_lowerStatements`).
-/

namespace Reckon

/-- The operation writes its second operand and nothing else. -/
def Opcode.isComputation : Opcode → Bool
  | .mov | .add | .sub | .imul | .xor | .lea => true
  | .idiv | .push | .pop | .call | .ret | .syscall => false

/-- The register points to the stack. -/
def Register.isPointer : Register → Bool
  | .rsp | .rbp => true
  | _ => false

namespace Code

/-- The line leaves the stack and its pointers alone; of memory, it writes at most the slots of
variables. -/
inductive Line.Plain (slots : Nat) : Line → Prop
  | remark (text : String) : Plain slots (.comment text)
  | compute {opcode : Opcode} {r : Register} (source : Operand) (w : Width) :
    opcode.isComputation = true → r.isPointer = false →
    Plain slots (two opcode source (.register r w))
  | divide : Plain slots (one .idiv ebx)
  | assign {index : Nat} : index < slots → Plain slots (two .mov eax (.slot index))

section

variable (slots floor : Nat) (allowed : String → Prop)

/-- The line leads from one height of the stack, in words, to another. -/
inductive Line.Shifts : Line → Nat → Nat → Prop
  | plain {line : Line} (height : Nat) : line.Plain slots → Shifts line height height
  | push (r : Register) (height : Nat) : Shifts (one .push (whole r)) height (height + 1)
  | pop {r : Register} {height : Nat} : r.isPointer = false → floor ≤ height →
    Shifts (one .pop (whole r)) (height + 1) height
  | pad {height : Nat} : height % 2 = 1 →
    Shifts (two .sub (.immediate 8) rsp) height (height + 1)
  | unpad {height : Nat} : height % 2 = 1 → floor ≤ height →
    Shifts (two .add (.immediate 8) rsp) (height + 1) height
  | call {name : String} {height : Nat} : height % 2 = 0 → allowed name →
    Shifts (one .call (.symbol name)) height height

/-- The lines lead, one after the other, from one height of the stack to another. -/
inductive Line.Balances : List Line → Nat → Nat → Prop
  | nil (height : Nat) : Balances [] height height
  | cons {line : Line} {lines : List Line} {h h₁ h₂ : Nat} :
    line.Shifts slots floor allowed h h₁ → Balances lines h₁ h₂ → Balances (line :: lines) h h₂

end

variable {slots floor : Nat} {allowed : String → Prop}

namespace Line

theorem Shifts.balances {line : Line} {h h' : Nat} (shifts : line.Shifts slots floor allowed h h') :
    Balances slots floor allowed [line] h h' :=
  .cons shifts (.nil h')

theorem Balances.append {lines lines' : List Line} {h h₁ h₂ : Nat}
    (first : Balances slots floor allowed lines h h₁)
    (later : Balances slots floor allowed lines' h₁ h₂) :
    Balances slots floor allowed (lines ++ lines') h h₂ := by
  induction first with
  | nil => exact later
  | cons shifts _ ih => exact .cons shifts (ih later)

theorem balances_pushes (registers : List Register) (height : Nat) :
    Balances slots floor allowed (registers.map fun r => one .push (whole r)) height
      (height + registers.length) := by
  induction registers generalizing height with
  | nil => exact .nil height
  | cons r registers ih =>
    have later := ih (height + 1)
    rw [Nat.add_assoc, Nat.add_comm 1] at later
    exact .cons (.push r height) later

theorem balances_pops {registers : List Register} (scratch : ∀ r ∈ registers, r.isPointer = false)
    {height : Nat} (above : floor ≤ height) :
    Balances slots floor allowed (registers.map fun r => one .pop (whole r))
      (height + registers.length) height := by
  induction registers with
  | nil => exact .nil height
  | cons r registers ih =>
    obtain ⟨here, later⟩ := List.forall_mem_cons.mp scratch
    exact .cons (.pop here (Nat.le_add_right_of_le above)) (ih later)

end Line

/-! ## Emissions -/

/-- The emission, if it is complete and calls what it may, leads from one height to another. -/
def Emission.Balanced (slots floor : Nat) (allowed : String → Prop) (a : Emission) (h h' : Nat) :
    Prop :=
  a.failure? = none → (∀ name ∈ a.calls, allowed name) →
    Line.Balances slots floor allowed a.lines h h'

namespace Emission.Balanced

theorem append {a b : Emission} {h h₁ h₂ : Nat} (first : a.Balanced slots floor allowed h h₁)
    (second : b.Balanced slots floor allowed h₁ h₂) :
    (a ++ b).Balanced slots floor allowed h h₂ := by
  intro complete called
  obtain ⟨completeFirst, completeSecond⟩ := failure?_append_eq_none.mp complete
  rw [append_of_failure?_eq_none completeFirst] at called ⊢
  obtain ⟨calledFirst, calledSecond⟩ := List.forall_mem_append.mp called
  exact (first completeFirst calledFirst).append (second completeSecond calledSecond)

theorem emit {lines : List Line} {h h' : Nat}
    (balances : Line.Balances slots floor allowed lines h h') :
    (Emission.emit lines).Balanced slots floor allowed h h' :=
  fun _ _ => balances

theorem fail (cause : Cause) (span : Span) (h h' : Nat) :
    (Emission.fail cause span).Balanced slots floor allowed h h' :=
  fun complete => by cases complete

theorem spell {number : Int} {line : Line} (height : Nat) (plain : line.Plain slots) :
    (Emission.spell number line).Balanced slots floor allowed height height := by
  unfold Emission.spell
  split
  · exact .emit (Line.Shifts.plain height plain).balances
  · exact fun complete => by cases complete

theorem reach {index : Int} {line : Operand → Line} (height : Nat)
    (plain : (line (.slot index)).Plain slots) :
    (Emission.reach index line).Balanced slots floor allowed height height :=
  spell height plain

end Emission.Balanced

/-! ## Expressions -/

theorem isPointer_of_mem_arguments : ∀ r ∈ Register.arguments, r.isPointer = false := by
  decide

theorem balanced_store {target : Expr} (sourced : target.Sourced slots) (height : Nat) :
    (store target).Balanced slots floor allowed height height := by
  cases sourced with
  | var name span inside => exact .reach height (.assign inside)
  | number | string | binary | call => exact .fail _ _ _ _

theorem balances_combine? {operator : Operator} {combination : List Line}
    (combined : combine? operator = some combination) {height : Nat} (above : floor ≤ height) :
    Line.Balances slots floor allowed combination (height + 1) height := by
  have popped {r : Register} (scratch : r.isPointer = false) :
      (one .pop (whole r)).Shifts slots floor allowed (height + 1) height := .pop scratch above
  have compute {opcode : Opcode} {r : Register} (source : Operand)
      (computation : opcode.isComputation = true) (scratch : r.isPointer = false) (h : Nat) :
      (two opcode source (.register r .double)).Shifts slots floor allowed h h :=
    .plain h (.compute source .double computation scratch)
  cases operator with
  | add | multiply =>
    cases combined
    exact .cons (popped rfl) (compute ebx rfl rfl height).balances
  | subtract =>
    cases combined
    exact .cons (popped rfl) (.cons (compute eax rfl rfl height)
      (compute ebx rfl rfl height).balances)
  | divide =>
    cases combined
    exact .cons (compute eax rfl rfl (height + 1)) (.cons (popped rfl)
      (.cons (compute (.immediate 0) rfl rfl height) (Line.Shifts.plain height .divide).balances))
  | assign | other => cases combined

/-- A call by name between the padding that makes the height even and its removal. -/
theorem balances_padded {name : String} (may : allowed name) {height : Nat}
    (above : floor ≤ height) :
    Line.Balances slots floor allowed
      ((if height % 2 == 1 then [two .sub (.immediate 8) rsp] else []) ++
        [two .mov (.immediate 0) eax, one .call (.symbol name)] ++
        if height % 2 == 1 then [two .add (.immediate 8) rsp] else []) height height := by
  have clear (h : Nat) : (two .mov (.immediate 0) eax).Shifts slots floor allowed h h :=
    .plain h (.compute (.immediate 0) .double rfl rfl)
  by_cases odd : height % 2 = 1
  · rw [beq_iff_eq.mpr odd, if_pos rfl, if_pos rfl]
    exact .cons (.pad odd) (.cons (clear _) (.cons (.call (by omega) may)
      (Line.Shifts.unpad odd above).balances))
  · rw [beq_eq_false_iff_ne.mpr odd, if_neg Bool.false_ne_true, if_neg Bool.false_ne_true,
      List.append_nil]
    exact .cons (clear _) (Line.Shifts.call (by omega) may).balances

/-- A call takes its arguments and the registers that were saved from the stack, and is made at an
even height. -/
theorem balances_invoke {name : String} (may : allowed name) {count depth : Nat}
    (above : floor ≤ depth) :
    Line.Balances slots floor allowed (invoke name count (depth + (savedRegisters count).length))
      (depth + (savedRegisters count).length + (Register.arguments.take count).length) depth := by
  have outstanding : floor ≤ depth + (savedRegisters count).length := Nat.le_add_right_of_le above
  have scratch : ∀ r ∈ Register.arguments.take count, r.isPointer = false := fun r member =>
    isPointer_of_mem_arguments r (List.mem_of_mem_take member)
  have arguments : Line.Balances slots floor allowed
      ((Register.arguments.take count).reverse.map fun r => one .pop (whole r))
      (depth + (savedRegisters count).length + (Register.arguments.take count).length)
      (depth + (savedRegisters count).length) := by
    have pops := @Line.balances_pops slots floor allowed (Register.arguments.take count).reverse
      (fun r member => scratch r (List.mem_reverse.mp member)) _ outstanding
    rwa [List.length_reverse] at pops
  have saved : Line.Balances slots floor allowed
      ((savedRegisters count).reverse.map fun r => one .pop (whole r))
      (depth + (savedRegisters count).length) depth := by
    have pops := @Line.balances_pops slots floor allowed (savedRegisters count).reverse
      (fun r member => scratch r (List.mem_of_mem_drop (List.mem_reverse.mp member))) _ above
    rwa [List.length_reverse] at pops
  have called := arguments.append ((balances_padded may outstanding).append saved)
  simpa only [invoke, List.append_assoc] using called

theorem balanced_lowerArguments {pool : List String} {arguments : List Expr}
    (balanced : ∀ argument ∈ arguments, ∀ depth, floor ≤ depth →
      (lower pool depth argument).Balanced slots floor allowed depth depth)
    {depth : Nat} (above : floor ≤ depth) :
    (lowerArguments pool depth arguments).Balanced slots floor allowed depth
      (depth + arguments.length) := by
  induction arguments generalizing depth with
  | nil => exact .emit (.nil depth)
  | cons argument arguments ih =>
    obtain ⟨here, later⟩ := List.forall_mem_cons.mp balanced
    have rest := @ih later (depth + 1) (Nat.le_add_right_of_le above)
    rw [Nat.add_assoc, Nat.add_comm 1] at rest
    have pushed : (Emission.emit [one .push rax]).Balanced slots floor allowed depth (depth + 1) :=
      .emit (Line.Shifts.push .rax depth).balances
    by_cases literal : ∃ raw span, argument = .string raw span
    · obtain ⟨raw, span, rfl⟩ := literal
      have loaded : (two .lea (.literal (pool.idxOf raw)) rax).Shifts slots floor allowed depth
          depth := .plain depth (.compute _ .quad rfl rfl)
      rw [lowerArguments]
      exact .append (.emit (.cons loaded (Line.Shifts.push .rax depth).balances)) rest
    · rw [lowerArguments_cons fun raw span same => literal ⟨raw, span, same⟩]
      exact .append (.append (here depth above) pushed) rest

/-- The code of an expression leads back to the height it starts from, and takes nothing from the
stack below it. -/
theorem balanced_lower {e : Expr} (sourced : e.Sourced slots) (pool : List String) {depth : Nat}
    (above : floor ≤ depth) : (lower pool depth e).Balanced slots floor allowed depth depth := by
  induction sourced generalizing depth with
  | number => exact .spell depth (.compute _ .double rfl rfl)
  | string => exact .fail _ _ _ _
  | var name span inside => exact .reach depth (.compute _ .double rfl rfl)
  | @binary operator left right operatorSpan span known target _ ihLeft ihRight =>
    by_cases assigns : operator = .assign
    · subst assigns
      rw [lower]
      exact .append (ihRight above) (balanced_store target depth)
    · cases combined : combine? operator with
      | none =>
        rw [lower, combined]
        · exact .fail _ _ _ _
        · exact assigns
      | some combination =>
        have pushed : (Emission.emit [one .push rax]).Balanced slots floor allowed depth
            (depth + 1) := .emit (Line.Shifts.push .rax depth).balances
        rw [lower_binary assigns combined]
        exact .append (.append (.append (ihLeft above) pushed) (ihRight (Nat.le_succ_of_le above)))
          (.emit (balances_combine? combined above))
  | @call name arguments span isName _ ih =>
    rw [lower]
    dsimp only
    split
    · exact .fail _ _ _ _
    · next few =>
      have within : (Register.arguments.take arguments.length).length = arguments.length := by
        rw [List.length_take, Nat.min_eq_left (by omega)]
      have outstanding : floor ≤ depth + (savedRegisters arguments.length).length :=
        Nat.le_add_right_of_le above
      refine .append (.append (.emit (Line.balances_pushes _ depth))
        (balanced_lowerArguments (fun e member depth above => ih e member above) outstanding)) ?_
      intro _ called
      have may : allowed name := called name List.mem_cons_self
      have invoked := @balances_invoke slots floor allowed name may arguments.length depth above
      rwa [within] at invoked

/-! ## Statements -/

theorem balanced_announce (number : Nat) (statement : Expr) (height : Nat) :
    (announce number statement).Balanced slots floor allowed height height := by
  unfold announce
  split
  · exact .emit (Line.Shifts.plain height (.remark _)).balances
  · exact fun complete => by cases complete

/-- The code of statements starts and ends with an empty stack, and takes nothing from below it. -/
theorem balanced_lowerStatements {statements : List Expr}
    (sourced : ∀ e ∈ statements, e.Sourced slots) (comments : Bool) (pool : List String)
    (number : Nat) :
    (lowerStatements comments pool number statements).Balanced slots 0 allowed 0 0 := by
  induction statements generalizing number with
  | nil => exact .emit (.nil 0)
  | cons statement statements ih =>
    obtain ⟨here, later⟩ := List.forall_mem_cons.mp sourced
    have announced : (if comments then announce number statement else .empty).Balanced slots 0
        allowed 0 0 := by
      cases comments with
      | false => exact .emit (.nil 0)
      | true => exact balanced_announce number statement 0
    exact .append (.append announced (balanced_lower here pool (Nat.le_refl 0))) (ih later _)

end Code

end Reckon
