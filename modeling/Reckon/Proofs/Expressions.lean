import Reckon.Proofs.Machine.Calls

/-!
# Expressions run as they are evaluated

The code of an expression, run with any words outstanding on the operand stack, leaves the value of
the expression in the accumulator and the stack as it was, or is stopped as the evaluation is
(`Machine.simulates_lower`). The arguments of a call end on the stack, last one on top
(`Machine.simulates_lowerArguments`). `Code.deepest` is how deep the stack gets.
-/

namespace Reckon

namespace Code

/-! ## The depth of the stack -/

mutual

/-- The greatest number of words on the operand stack while the code of an expression runs, if it
starts with `depth` words. -/
def deepest (depth : Nat) : Expr → Nat
  | .binary .assign _ _ right _ => deepest depth right
  | .binary _ _ left right _ => max (deepest depth left) (deepest (depth + 1) right)
  | .call _ arguments _ =>
    let outstanding := depth + (savedRegisters arguments.length).length
    max (deepestArguments outstanding arguments) (outstanding + outstanding % 2)
  | .number .. | .string .. | .var .. | .hole .. | .block .. => depth

/-- The greatest number of words on the operand stack while arguments are pushed. -/
def deepestArguments (depth : Nat) : List Expr → Nat
  | [] => depth
  | argument :: rest => max (deepest depth argument) (deepestArguments (depth + 1) rest)

end

mutual

theorem le_deepest (depth : Nat) : ∀ e : Expr, depth ≤ deepest depth e
  | .binary operator _ left right _ => by
    by_cases assigns : operator = .assign
    · subst assigns
      rw [deepest]
      exact le_deepest depth right
    · rw [deepest]
      · exact Nat.le_trans (le_deepest depth left) (Nat.le_max_left _ _)
      · exact assigns
  | .call _ arguments _ => by
    rw [deepest]
    have later := le_deepestArguments (depth + (savedRegisters arguments.length).length) arguments
    exact Nat.le_trans (by omega) (Nat.le_max_left _ _)
  | .number .. | .string .. | .var .. | .hole .. | .block .. => Nat.le_of_eq (by rw [deepest])

theorem le_deepestArguments (depth : Nat) :
    ∀ arguments : List Expr, depth + arguments.length ≤ deepestArguments depth arguments
  | [] => Nat.le_of_eq (by rw [deepestArguments]; rfl)
  | argument :: rest => by
    have later := le_deepestArguments (depth + 1) rest
    rw [deepestArguments, List.length_cons]
    exact Nat.le_trans (by omega) (Nat.le_max_right _ _)

end

theorem deepest_binary {operator : Operator} {left right : Expr} {operatorSpan span : Span}
    (arithmetic : operator ≠ .assign) (depth : Nat) :
    deepest depth (.binary operator operatorSpan left right span) =
      max (deepest depth left) (deepest (depth + 1) right) := by
  rw [deepest]
  exact arithmetic

/-! ## Usable code -/

/-- The emission is complete and calls no label of the program. -/
structure Emission.Usable (a : Emission) : Prop where
  complete : a.failure? = none
  leaves : ∀ name ∈ a.calls, name ≠ "main" ∧ name ≠ "_start"

theorem Emission.Usable.of_append {a b : Emission} (usable : (a ++ b).Usable) :
    a.Usable ∧ b.Usable ∧ (a ++ b).lines = a.lines ++ b.lines := by
  obtain ⟨first, second⟩ := Emission.failure?_append_eq_none.mp usable.complete
  have leaves := usable.leaves
  rw [Emission.append_of_failure?_eq_none first] at leaves ⊢
  exact ⟨⟨first, fun name member => leaves name (List.mem_append_left _ member)⟩,
    ⟨second, fun name member => leaves name (List.mem_append_right _ member)⟩, rfl⟩

end Code

namespace Machine

open Code Evaluation

variable {World : Type} {setup : Setup World} {layout : Layout} {stack : List Word}
  {env : Environment World} {pool : List String}

theorem ofExpr_binary {operator : Operator} {left right : Expr} {operatorSpan span : Span}
    (arithmetic : operator ≠ .assign) :
    ofExpr env (.binary operator operatorSpan left right span) = (do
      let leftWord ← ofExpr env left
      let rightWord ← ofExpr env right
      operate operator leftWord rightWord) := by
  rw [ofExpr]
  exact arithmetic

theorem ofArguments_cons {argument : Expr} (other : ∀ raw span, argument ≠ .string raw span)
    (rest : List Expr) :
    ofArguments env (argument :: rest) = (do
      let word ← ofExpr env argument
      let words ← ofArguments env rest
      pure (word :: words)) := by
  rw [ofArguments]
  exact other

/-- The code of an expression does what its evaluation does, whatever waits on the operand stack. -/
def Follows (setup : Setup World) (env : Environment World) (layout : Layout) (pool : List String)
    (e : Expr) : Prop :=
  ∀ stack : List Word, (lower pool stack.length e).Usable → (∀ raw ∈ literals e, raw ∈ pool) →
    layout.Room (deepest stack.length e) →
    Simulates setup (lower pool stack.length e).lines (At layout stack) (ofExpr env e)
      (Holding layout stack)

theorem simulates_literal (hosts : Hosts setup env layout pool) {raw : String}
    (pooled : raw ∈ pool) :
    Simulates setup [two .lea (.literal (pool.idxOf raw)) rax] (At layout stack) (pure ())
      fun _ => Holding layout stack (env.address raw) := by
  obtain ⟨address, same, labelled⟩ := hosts.labelled raw pooled
  refine .silent rfl fun store rs mem framed => ⟨_, _, acts_lea labelled, ?_, ?_⟩
  · exact framed.scratch (.inl rfl) _
  · rw [same]
    rfl

/-- Words have been pushed, in order, for arguments. -/
def Pushed (layout : Layout) (stack : List Word) (count : Nat) (words : List Word) :
    Assertion World := fun store rs mem =>
  words.length = count ∧ At layout (words.reverse ++ stack) store rs mem

/-- The word of an argument waits on the stack for those of the others. -/
theorem Simulates.collect {lines : List Line} {evaluation : Evaluation World (List Word)}
    {word : Word} {count : Nat}
    (rest : Simulates setup lines (At layout (word :: stack)) evaluation
      (Pushed layout (word :: stack) count)) :
    Simulates setup lines (At layout (word :: stack))
      (do let words ← evaluation; pure (word :: words)) (Pushed layout stack (count + 1)) := by
  have collected : ∀ words : List Word,
      Simulates setup [] (Pushed layout (word :: stack) count words)
        (pure (word :: words)) (Pushed layout stack (count + 1)) := by
    intro words
    refine .quiet ?_
    rintro store rs mem ⟨length, framed⟩
    refine ⟨_, store, rfl, rfl, rfl, congrArg (· + 1) length, ?_⟩
    rw [List.reverse_cons, List.append_assoc]
    exact framed
  have all := rest.bind collected
  rwa [List.append_nil] at all

/-- The code of arguments pushes their values in order. -/
theorem simulates_lowerArguments (hosts : Hosts setup env layout pool) {arguments : List Expr}
    (follow : ∀ argument ∈ arguments, Follows setup env layout pool argument)
    (usable : (lowerArguments pool stack.length arguments).Usable)
    (pooled : ∀ raw ∈ argumentLiterals arguments, raw ∈ pool)
    (room : layout.Room (deepestArguments stack.length arguments)) :
    Simulates setup (lowerArguments pool stack.length arguments).lines (At layout stack)
      (ofArguments env arguments) (Pushed layout stack arguments.length) := by
  induction arguments generalizing stack with
  | nil =>
    rw [ofArguments, lowerArguments]
    exact .quiet fun store rs mem framed => ⟨[], store, rfl, rfl, rfl, rfl, framed⟩
  | cons argument arguments ih =>
    have followRest : ∀ a ∈ arguments, Follows setup env layout pool a :=
      fun a member => follow a (List.mem_cons_of_mem _ member)
    rw [deepestArguments] at room
    have roomRest : layout.Room (deepestArguments (stack.length + 1) arguments) :=
      room.mono (Nat.le_max_right _ _)
    have roomPush : layout.Room (stack.length + 1) :=
      roomRest.mono (Nat.le_trans (Nat.le_add_right _ _) (le_deepestArguments _ arguments))
    by_cases literal : ∃ raw span, argument = .string raw span
    · obtain ⟨raw, span, rfl⟩ := literal
      rw [argumentLiterals, List.forall_mem_cons] at pooled
      rw [lowerArguments] at usable ⊢
      obtain ⟨-, usableRest, lines⟩ := usable.of_append
      have loaded : Simulates setup _ (At layout stack) (pure ()) _ :=
        simulates_literal hosts pooled.1
      have rest : Simulates setup _ (At layout (env.address raw :: stack)) _ _ :=
        ih followRest usableRest pooled.2 roomRest
      rw [lines, ofArguments]
      exact (loaded.after (simulates_push roomPush)).after rest.collect
    · have other : ∀ raw span, argument ≠ .string raw span :=
        fun raw span same => literal ⟨raw, span, same⟩
      rw [argumentLiterals_cons other, List.forall_mem_append] at pooled
      rw [lowerArguments_cons other] at usable ⊢
      obtain ⟨usableFirst, usableRest, lines⟩ := usable.of_append
      obtain ⟨usableArgument, -, linesFirst⟩ := usableFirst.of_append
      have value := follow argument List.mem_cons_self stack usableArgument pooled.1
        (room.mono (Nat.le_max_left _ _))
      have rest : ∀ word : Word, Simulates setup _ (At layout (word :: stack)) _ _ :=
        fun word => ih followRest usableRest pooled.2 roomRest
      rw [lines, linesFirst, ofArguments_cons other]
      exact (value.before fun word => simulates_push roomPush).bind fun word => (rest word).collect

theorem lines_spell {number : Int} {line : Line} (usable : (Emission.spell number line).Usable) :
    (Emission.spell number line).lines = [line] := by
  have complete := usable.complete
  unfold Emission.spell at complete ⊢
  split at complete
  · next writable => rw [if_pos writable]; rfl
  · cases complete

/-- The code of an assignment's target stores what the evaluation assigns. -/
theorem simulates_target {target : Expr} (sourced : target.Sourced layout.count)
    (usable : (store target).Usable) (word : Word) :
    Simulates setup (store target).lines (Holding layout stack word) (assign target word)
      (Holding layout stack) := by
  cases sourced with
  | var name span inside =>
    rw [store] at usable ⊢
    rw [Emission.reach, lines_spell usable]
    exact simulates_store inside name span word
  | number => cases usable.complete
  | string => cases usable.complete
  | binary => cases usable.complete
  | call => cases usable.complete

theorem follows_binary {operator : Operator} {left right : Expr} (operatorSpan span : Span)
    (arithmetic : operator ≠ .assign) (followsLeft : Follows setup env layout pool left)
    (followsRight : Follows setup env layout pool right) :
    Follows setup env layout pool (.binary operator operatorSpan left right span) := by
  intro stack usable pooled room
  rw [literals_binary arithmetic, List.forall_mem_append] at pooled
  rw [deepest_binary arithmetic] at room
  have roomRight : layout.Room (deepest (stack.length + 1) right) :=
    room.mono (Nat.le_max_right _ _)
  cases combined : combine? operator with
  | none =>
    rw [lower] at usable
    · rw [combined] at usable
      cases usable.complete
    · exact arithmetic
  | some combination =>
    rw [lower_binary arithmetic combined] at usable ⊢
    obtain ⟨usableOperands, -, lines⟩ := usable.of_append
    obtain ⟨usableFirst, usableRight, linesOperands⟩ := usableOperands.of_append
    obtain ⟨usableLeft, -, linesFirst⟩ := usableFirst.of_append
    have leftValue := followsLeft stack usableLeft pooled.1 (room.mono (Nat.le_max_left _ _))
    have pushed := leftValue.before fun word =>
      simulates_push (roomRight.mono (le_deepest _ right))
    have operands := fun word : Word => followsRight (word :: stack) usableRight pooled.2 roomRight
    rw [lines, linesOperands, linesFirst, ofExpr_binary arithmetic, List.append_assoc]
    exact pushed.bind fun leftWord => (operands leftWord).bind fun rightWord =>
      simulates_combine combined

theorem follows_call (hosts : Hosts setup env layout pool) {arguments : List Expr} (name : String)
    (span : Span) (follow : ∀ argument ∈ arguments, Follows setup env layout pool argument) :
    Follows setup env layout pool (.call name arguments span) := by
  intro stack usable pooled room
  let count := arguments.length
  let saved := savedRegisters count
  let outstanding := stack.length + saved.length
  rw [literals] at pooled
  rw [deepest] at room
  by_cases many : Register.arguments.length < count
  · rw [lower] at usable
    dsimp only at usable
    rw [if_pos many] at usable
    cases usable.complete
  have lowered : lower pool stack.length (.call name arguments span) =
      .emit (saved.map fun r => one .push (whole r)) ++ lowerArguments pool outstanding arguments ++
        ⟨invoke name count outstanding, [name], none⟩ := by
    rw [lower]
    dsimp only
    rw [if_neg many]
  rw [lowered] at usable ⊢
  obtain ⟨usableArguments, usableCall, lines⟩ := usable.of_append
  obtain ⟨-, usableArguments, linesArguments⟩ := usableArguments.of_append
  have outside := usableCall.leaves name (List.mem_singleton_self name)
  have few : count ≤ 6 := Nat.le_of_not_lt many
  rw [lines, linesArguments, ofExpr]
  have read : Simulates setup [] (At layout stack) (MonadState.get : Evaluation World _)
      fun seen store rs mem => Within layout seen.registers stack store rs mem ∧
        store.registers = seen.registers :=
    .quiet fun store rs mem framed => ⟨store, store, rfl, rfl, rfl, framed, rfl⟩
  refine read.bind fun seen => .assuming (fun store rs mem both => both.1.length_arguments)
    fun six => ?_
  -- The arguments are evaluated on top of the saved words, and these on top of the stack.
  let below := (savedWords count seen.registers).reverse ++ stack
  have deep : below.length = outstanding := by
    rw [List.length_append, List.length_reverse, ← length_savedRegisters count six, Nat.add_comm]
  have roomArguments : layout.Room (deepestArguments below.length arguments) := by
    rw [deep]
    exact room.mono (Nat.le_max_left _ _)
  have roomSaved : layout.Room (stack.length + (savedWords count seen.registers).length) := by
    refine roomArguments.mono (Nat.le_trans ?_ (le_deepestArguments below.length arguments))
    rw [List.length_append, List.length_reverse]
    omega
  rw [← deep] at usableArguments
  have values := simulates_lowerArguments hosts follow usableArguments pooled roomArguments
  rw [deep] at values
  refine ((simulates_save count six roomSaved).after values).bind fun words =>
    .assuming (fun store rs mem both => both.1) fun length => ?_
  have invoked : Simulates setup (invoke name words.length outstanding) (At layout (words.reverse ++
      ((savedWords words.length seen.registers).reverse ++ stack))) _ (Holding layout stack) :=
    simulates_invoke hosts outside six (by rw [length]; exact few) (by rw [length]; exact deep)
      (room.mono (Nat.le_max_right _ _))
  have sameCode : invoke name words.length outstanding = invoke name count outstanding := by
    rw [length]
  rw [sameCode] at invoked
  refine invoked.mono (fun store rs mem both => ?_) fun _ _ _ _ value => value
  rw [length]
  exact both.2

/-- The code of an expression of a source text does what its evaluation does. -/
theorem simulates_lower (hosts : Hosts setup env layout pool) {e : Expr}
    (sourced : e.Sourced layout.count) : Follows setup env layout pool e := by
  induction sourced with
  | number span bounded =>
    intro stack usable _ _
    rw [lower] at usable ⊢
    rw [lines_spell usable, ofExpr]
    exact simulates_number bounded
  | string span raw =>
    intro stack usable
    cases usable.complete
  | var name span inside =>
    intro stack usable _ _
    rw [lower] at usable ⊢
    rw [Emission.reach, lines_spell usable]
    exact simulates_variable inside env name span
  | @binary operator left right operatorSpan span known target _ ihLeft ihRight =>
    by_cases assigns : operator = .assign
    · subst assigns
      intro stack usable pooled room
      rw [literals] at pooled
      rw [deepest] at room
      rw [lower] at usable ⊢
      obtain ⟨usableRight, usableTarget, lines⟩ := usable.of_append
      rw [lines, ofExpr]
      exact (ihRight stack usableRight pooled room).bind fun word =>
        simulates_target target usableTarget word
    · exact follows_binary operatorSpan span assigns ihLeft ihRight
  | call span _ _ ih => exact follows_call hosts _ span ih

end Machine

end Reckon
