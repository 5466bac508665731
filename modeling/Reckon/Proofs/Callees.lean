import Reckon.Proofs.Emission

/-!
# The routines that a program calls

Code that is emitted without failure calls what the tree calls, in the order of evaluation
(`Code.calls_lower`), so the external names of a compiled program are those that its statements call
(`Compilation.externals_eq`). The names that an emission keeps are those in its call instructions
(`Code.named_lowerStatements`).
-/

namespace Reckon

namespace Code

mutual

/-- The routines called in an expression, in the order of evaluation. -/
def callees : Expr → List String
  | .binary .assign _ _ right _ => callees right
  | .binary _ _ left right _ => callees left ++ callees right
  | .call name arguments _ => argumentCallees arguments ++ [name]
  | .number .. | .string .. | .var .. | .hole .. | .block .. => []

/-- The routines called in arguments. -/
def argumentCallees : List Expr → List String
  | [] => []
  | argument :: rest => callees argument ++ argumentCallees rest

end

theorem callees_binary {operator : Operator} {left right : Expr} {operatorSpan span : Span}
    (arithmetic : operator ≠ .assign) :
    callees (.binary operator operatorSpan left right span) = callees left ++ callees right := by
  rw [callees]
  exact arithmetic

/-- The emission calls the given routines in order, unless it fails. -/
def Emission.Calls (a : Emission) (names : List String) : Prop :=
  a.failure? = none → a.calls = names

namespace Emission.Calls

theorem append {a b : Emission} {names names' : List String} (first : a.Calls names)
    (second : b.Calls names') : (a ++ b).Calls (names ++ names') := by
  intro complete
  obtain ⟨completeFirst, completeSecond⟩ := failure?_append_eq_none.mp complete
  rw [append_of_failure?_eq_none completeFirst, ← first completeFirst, ← second completeSecond]

theorem emit (lines : List Line) : (Emission.emit lines).Calls [] :=
  fun _ => rfl

theorem emit_append {a : Emission} {names : List String} (lines : List Line)
    (calls : a.Calls names) : (.emit lines ++ a).Calls names :=
  (emit lines).append calls

theorem append_emit {a : Emission} {names : List String} (calls : a.Calls names)
    (lines : List Line) : (a ++ .emit lines).Calls names := by
  have all := calls.append (emit lines)
  rwa [List.append_nil] at all

theorem fail (cause : Cause) (span : Span) (names : List String) :
    (Emission.fail cause span).Calls names :=
  fun complete => by cases complete

theorem spell (number : Int) (line : Line) : (Emission.spell number line).Calls [] := by
  unfold Emission.spell
  split
  · exact fun _ => rfl
  · exact fun complete => by cases complete

theorem reach (index : Int) (line : Operand → Line) : (Emission.reach index line).Calls [] :=
  spell (slotOffset index) (line (.slot index))

end Emission.Calls

theorem calls_store (target : Expr) : (store target).Calls [] := by
  cases target with
  | var index => exact .reach index _
  | number | string | binary | call | hole => exact .fail _ _ _
  | block => exact fun complete => by cases complete

mutual

/-- The code of an expression calls what the expression calls. -/
theorem calls_lower (pool : List String) :
    ∀ (depth : Nat) (e : Expr), (lower pool depth e).Calls (callees e)
  | _, .number value _ => .spell value _
  | _, .string .. => .fail _ _ _
  | _, .var index .. => .reach index _
  | depth, .binary operator _ left right _ => by
    by_cases assigns : operator = .assign
    · subst assigns
      rw [lower, callees, ← List.append_nil (callees right)]
      exact (calls_lower pool depth right).append (calls_store left)
    · rw [callees_binary assigns]
      cases combined : combine? operator with
      | none =>
        rw [lower]
        · rw [combined]
          exact .fail _ _ _
        · exact assigns
      | some combination =>
        rw [lower_binary assigns combined]
        exact (((calls_lower pool depth left).append_emit _).append
          (calls_lower pool (depth + 1) right)).append_emit _
  | depth, .call name arguments _ => by
    rw [lower, callees]
    dsimp only
    split
    · exact .fail _ _ _
    · exact ((calls_lowerArguments pool _ arguments).emit_append _).append fun _ => rfl
  | _, .hole _ => .fail _ _ _
  | _, .block _ => .fail _ _ _

theorem calls_lowerArguments (pool : List String) :
    ∀ (depth : Nat) (arguments : List Expr),
      (lowerArguments pool depth arguments).Calls (argumentCallees arguments)
  | _, [] => fun _ => rfl
  | depth, argument :: rest => by
    rw [argumentCallees]
    by_cases literal : ∃ raw span, argument = .string raw span
    · obtain ⟨raw, span, rfl⟩ := literal
      rw [lowerArguments, callees]
      exact (calls_lowerArguments pool (depth + 1) rest).emit_append _
    · have other : ∀ raw span, argument ≠ .string raw span :=
        fun raw span same => literal ⟨raw, span, same⟩
      rw [lowerArguments_cons other]
      exact ((calls_lower pool depth argument).append_emit _).append
        (calls_lowerArguments pool (depth + 1) rest)

end

theorem calls_announce (number : Nat) (statement : Expr) :
    (announce number statement).Calls [] := by
  unfold announce
  split
  · exact fun _ => rfl
  · exact fun complete => by cases complete

theorem calls_lowerStatements (comments : Bool) (pool : List String) (number : Nat)
    (statements : List Expr) :
    (lowerStatements comments pool number statements).Calls (statements.flatMap callees) := by
  induction statements generalizing number with
  | nil => exact fun _ => rfl
  | cons statement rest ih =>
    have announced : (if comments then announce number statement else .empty).Calls [] := by
      split
      · exact calls_announce number statement
      · exact fun _ => rfl
    rw [lowerStatements, List.flatMap_cons]
    exact (announced.append (calls_lower pool 0 statement)).append (ih _)

/-! ## Call instructions -/

/-- The routine that a line calls. -/
def Line.callee? : Line → Option String
  | .instruction ⟨.call, [.symbol name]⟩ => some name
  | _ => none

theorem Line.eq_call_of_callee? {line : Line} {name : String} (calls : line.callee? = some name) :
    line = one .call (.symbol name) := by
  unfold callee? at calls
  split at calls
  · cases calls
    rfl
  · cases calls

/-- The names that the emission keeps are those in its call instructions, in order. -/
def Emission.Named (a : Emission) : Prop :=
  a.lines.filterMap Line.callee? = a.calls

namespace Emission.Named

theorem append {a b : Emission} (first : a.Named) (second : b.Named) : (a ++ b).Named := by
  cases complete : a.failure? with
  | some error =>
    rw [append_of_failure?_eq_some complete]
    exact first
  | none =>
    rw [append_of_failure?_eq_none complete]
    show (a.lines ++ b.lines).filterMap Line.callee? = a.calls ++ b.calls
    rw [List.filterMap_append, first, second]

theorem emit {lines : List Line} (silent : ∀ line ∈ lines, line.callee? = none) :
    (Emission.emit lines).Named :=
  List.filterMap_eq_nil_iff.mpr silent

theorem fail (cause : Cause) (span : Span) : (Emission.fail cause span).Named :=
  rfl

theorem spell {number : Int} {line : Line} (silent : line.callee? = none) :
    (Emission.spell number line).Named := by
  unfold Emission.spell
  split
  · exact .emit (by simpa using silent)
  · rfl

theorem reach {index : Int} {line : Operand → Line} (silent : (line (.slot index)).callee? = none) :
    (Emission.reach index line).Named :=
  spell silent

end Emission.Named

theorem named_store (target : Expr) : (store target).Named := by
  cases target with
  | var index => exact .reach rfl
  | number | string | binary | call | hole => exact .fail _ _
  | block => rfl

theorem callee?_of_mem_combine? {operator : Operator} {combination : List Line}
    (combined : combine? operator = some combination) :
    ∀ line ∈ combination, line.callee? = none := by
  cases operator <;> cases combined <;> simp [one, two, Line.callee?]

theorem named_invoke (name : String) (count outstanding : Nat) :
    (⟨invoke name count outstanding, [name], none⟩ : Emission).Named := by
  have popped (rs : List Register) :
      (rs.map fun r => one .pop (whole r)).filterMap Line.callee? = [] := by
    simp [List.filterMap_map, one, Line.callee?]
  show (invoke name count outstanding).filterMap Line.callee? = [name]
  unfold invoke
  dsimp only
  simp only [List.filterMap_append, popped]
  by_cases odd : (outstanding % 2 == 1) = true
  · simp only [if_pos odd]
    rfl
  · simp only [if_neg odd]
    rfl

mutual

/-- The names that the code of an expression keeps are those in its call instructions. -/
theorem named_lower (pool : List String) :
    ∀ (depth : Nat) (e : Expr), (lower pool depth e).Named
  | _, .number value _ => .spell rfl
  | _, .string _ span => .fail .expectedInteger span
  | _, .var index _ _ => .reach rfl
  | depth, .binary operator operatorSpan left right _ => by
    by_cases assigns : operator = .assign
    · subst assigns
      rw [lower]
      exact (named_lower pool depth right).append (named_store left)
    · cases combined : combine? operator with
      | none =>
        rw [lower]
        · rw [combined]
          exact .fail _ _
        · exact assigns
      | some combination =>
        have pushed : (Emission.emit [one .push rax]).Named := .emit (by simp [one, Line.callee?])
        rw [lower_binary assigns combined]
        exact (((named_lower pool depth left).append pushed).append
          (named_lower pool (depth + 1) right)).append (.emit (callee?_of_mem_combine? combined))
  | depth, .call name arguments _ => by
    rw [lower]
    dsimp only
    split
    · exact .fail _ _
    · refine (Emission.Named.append (.emit ?_) (named_lowerArguments pool _ arguments)).append
        (named_invoke name _ _)
      simp [one, Line.callee?]
  | _, .hole span => .fail _ span
  | _, .block _ => .fail _ .eof

theorem named_lowerArguments (pool : List String) :
    ∀ (depth : Nat) (arguments : List Expr), (lowerArguments pool depth arguments).Named
  | _, [] => rfl
  | depth, argument :: rest => by
    have later := named_lowerArguments pool (depth + 1) rest
    by_cases literal : ∃ raw span, argument = .string raw span
    · obtain ⟨raw, span, rfl⟩ := literal
      rw [lowerArguments]
      exact .append (.emit (by simp [one, two, Line.callee?])) later
    · have other : ∀ raw span, argument ≠ .string raw span :=
        fun raw span same => literal ⟨raw, span, same⟩
      have pushed : (Emission.emit [one .push rax]).Named := .emit (by simp [one, Line.callee?])
      rw [lowerArguments_cons other]
      exact ((named_lower pool depth argument).append pushed).append later

end

theorem named_announce (number : Nat) (statement : Expr) : (announce number statement).Named := by
  unfold announce
  split
  · exact .emit (by simp [Line.callee?])
  · rfl

theorem named_lowerStatements (comments : Bool) (pool : List String) (number : Nat)
    (statements : List Expr) : (lowerStatements comments pool number statements).Named := by
  induction statements generalizing number with
  | nil => rfl
  | cons statement rest ih =>
    rw [lowerStatements]
    refine .append (.append ?_ (named_lower pool 0 statement)) (ih _)
    split
    · exact named_announce number statement
    · rfl

/-! ## Programs without calls -/

/-- Literals stand in calls only. -/
theorem literals_eq_nil : ∀ e : Expr, callees e = [] → literals e = []
  | .number .., _ | .string .., _ | .var .., _ | .hole .., _ | .block .., _ => by rw [literals]
  | .binary operator _ left right _, silent => by
    by_cases assigns : operator = .assign
    · subst assigns
      rw [callees] at silent
      rw [literals]
      exact literals_eq_nil right silent
    · rw [callees_binary assigns, List.append_eq_nil_iff] at silent
      rw [literals_binary assigns, literals_eq_nil left silent.1, literals_eq_nil right silent.2]
      rfl
  | .call name arguments _, silent => by
    rw [callees, List.append_eq_nil_iff] at silent
    cases silent.2

theorem pool_eq_nil {statements : List Expr} (silent : statements.flatMap callees = []) :
    pool statements = [] := by
  rw [List.flatMap_eq_nil_iff] at silent
  have none : statements.flatMap literals = [] :=
    List.flatMap_eq_nil_iff.mpr fun e member => literals_eq_nil e (silent e member)
  rw [pool, none]
  rfl

end Code

namespace Compilation

open Code

/-- The external names of a compiled program are the routines that its statements call, each once,
in the order of evaluation. -/
theorem externals_eq {options : Options} {source : String} {c : Compilation}
    (compiled : ofSource options source = .ok c) :
    c.externals = (c.program.statements.flatMap callees).eraseDups := by
  obtain ⟨-, generated, externals⟩ := stages_of_ofSource compiled
  obtain ⟨complete, -⟩ := generate_eq_ok_iff.mp generated
  rw [externals, externals_generate, calls_lowerStatements _ _ _ _ complete]

end Compilation

end Reckon
