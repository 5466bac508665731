import Reckon.Proofs.Lowering

/-!
# Drafts and emissions

A generator works on a draft: it counts the words on the stack, looks at the count before it pads
the stack for a call, and gives a string literal its place in the pool when it first comes to it.
Lowering is told both beforehand, how many words are outstanding and what the whole pool will be.

Main statements: the generator writes what lowering gives, passes the string literals of the
expression in order, and leaves the count as it was (`Draft.Writes.expression`), so it generates
what lowering says, and refuses nothing for its count (`Code.generate_eq_lowered`,
`Code.isNoRefusal_of_generate`).
-/

namespace Reckon.Code

/-! ## Lists that are added to -/

/-- A list with texts added one after another, unless it has them. -/
def enlistAll (texts more : List String) : List String :=
  more.foldl enlist texts

theorem enlistAll_append (texts first second : List String) :
    enlistAll texts (first ++ second) = enlistAll (enlistAll texts first) second :=
  List.foldl_append

theorem prefix_enlist (texts : List String) (text : String) : texts <+: enlist texts text := by
  unfold enlist
  split
  · exact List.prefix_refl _
  · exact List.prefix_append _ _

theorem mem_enlist (texts : List String) (text : String) : text ∈ enlist texts text := by
  unfold enlist
  split
  · assumption
  · exact List.mem_append_right _ List.mem_cons_self

theorem prefix_enlistAll (texts more : List String) : texts <+: enlistAll texts more := by
  induction more generalizing texts with
  | nil => exact List.prefix_refl _
  | cons text more ih => exact (prefix_enlist texts text).trans (ih (enlist texts text))

theorem enlist_eraseDups (texts : List String) (text : String) :
    enlist texts.eraseDups text = (texts ++ [text]).eraseDups := by
  rw [enlist, List.eraseDups_append]
  by_cases member : text ∈ texts
  · rw [if_pos (List.mem_eraseDups.mpr member)]
    simp [List.removeAll, member]
  · rw [if_neg (mt List.mem_eraseDups.mp member)]
    simp [List.removeAll, member, List.eraseDups_cons]

/-- Texts added to an empty list, unless it has them, are the texts without repetition. -/
theorem enlistAll_nil (texts : List String) : enlistAll [] texts = texts.eraseDups := by
  have step (texts more : List String) :
      enlistAll texts.eraseDups more = (texts ++ more).eraseDups := by
    induction more generalizing texts with
    | nil => rw [List.append_nil, enlistAll, List.foldl_nil]
    | cons text more ih =>
      rw [List.append_cons, ← ih, ← enlist_eraseDups]
      rfl
  exact step [] texts

theorem idxOf_of_begins {texts pool : List String} {text : String} (begins : texts <+: pool)
    (member : text ∈ texts) : pool.idxOf text = texts.idxOf text := by
  obtain ⟨rest, rfl⟩ := begins
  rw [List.idxOf_append, if_pos member]

/-! ## Errors -/

/-- The error is no refusal for the count. -/
def IsNoRefusal (error : SourceError) : Prop :=
  ∀ depth span, error ≠ .compile ⟨Drafting.unbalanced depth, span⟩

theorem isNoRefusal_compile {cause : Cause} (other : ∀ text, cause ≠ .lowering text)
    (span : Span) : IsNoRefusal (.compile ⟨cause, span⟩) := by
  intro depth place same
  injection same with same
  injection same with same
  exact other _ same

theorem isNoRefusal_lowering {text : String} (first : text.toList.head? = some 'c')
    (span : Span) : IsNoRefusal (.compile ⟨.lowering text, span⟩) := by
  intro depth place same
  injection same with same
  injection same with same
  injection same with same
  rw [same, String.append_assoc, String.toList_append] at first
  cases first

theorem eq_error_of_bind {α β ε : Type} {x : Except ε α} {next : α → Except ε β} {error : ε}
    (failed : x >>= next = .error error) :
    x = .error error ∨ ∃ a, x = .ok a ∧ next a = .error error := by
  cases x with
  | error reason =>
    cases failed
    exact .inl rfl
  | ok a => exact .inr ⟨a, rfl, failed⟩

theorem unprintable_of_arguments {printed : List Printed} {error : SourceError}
    (failed : Printed.arguments printed = .error error) :
    ∃ position, error = .unprintable position := by
  unfold Printed.arguments at failed
  split at failed
  · cases failed
    exact ⟨_, rfl⟩
  · cases failed

mutual

/-- Printing fails for want of a form only. -/
theorem unprintable_of_print : ∀ (e : Expr) {error : SourceError}, e.print = .error error →
    ∃ position, error = .unprintable position
  | .number _ _, _, failed => by cases failed
  | .string _ _, _, failed => by cases failed
  | .var _ _ _, _, failed => by cases failed
  | .binary _ _ left right _, _, failed => by
    rw [Expr.print] at failed
    rcases eq_error_of_bind failed with first | ⟨form, -, failed⟩
    · exact unprintable_of_print left first
    · rcases eq_error_of_bind failed with second | ⟨form', -, failed⟩
      · exact unprintable_of_print right second
      · cases failed
  | .call _ arguments _, _, failed => by
    rw [Expr.print] at failed
    rcases eq_error_of_bind failed with printed | ⟨forms, -, failed⟩
    · exact unprintable_of_printAll arguments printed
    · rcases eq_error_of_bind failed with passed | ⟨texts, -, failed⟩
      · exact unprintable_of_arguments passed
      · cases failed
  | .hole _, _, failed => by cases failed
  | .block statements, _, failed => by
    rw [Expr.print] at failed
    rcases eq_error_of_bind failed with printed | ⟨forms, -, failed⟩
    · exact unprintable_of_printAll statements printed
    · cases failed

theorem unprintable_of_printAll : ∀ (es : List Expr) {error : SourceError},
    Expr.printAll es = .error error → ∃ position, error = .unprintable position
  | [], _, failed => by cases failed
  | e :: rest, _, failed => by
    rw [Expr.printAll] at failed
    rcases eq_error_of_bind failed with first | ⟨form, -, failed⟩
    · exact unprintable_of_print e first
    · rcases eq_error_of_bind failed with later | ⟨forms, -, failed⟩
      · exact unprintable_of_printAll rest later
      · cases failed

end

namespace Draft

/-- What work on a draft came to: it wrote the emission, passed some string literals and raised the
count, or the emission fails and it failed alike. -/
inductive Writes (a : Emission) (used : List String) (rise : Int) (d : Draft) :
    EStateM.Result SourceError Draft Unit → Prop
  | done {d' : Draft} : a.failure? = none → d'.lines.toList = d.lines.toList ++ a.lines →
    d'.literals = enlistAll d.literals used → d'.externals = enlistAll d.externals a.calls →
    d'.depth = d.depth + rise → Writes a used rise d (.ok () d')
  | failed {error : SourceError} {d' : Draft} : a.failure? = some error → IsNoRefusal error →
    d'.lines.toList = d.lines.toList ++ a.lines → d'.externals = enlistAll d.externals a.calls →
    Writes a used rise d (.error error d')

namespace Writes

variable {a b : Emission} {used used' pool : List String} {m n : Int} {d : Draft}

theorem nothing (d : Draft) : Writes .empty [] 0 d ((return () : Drafting Unit).run d) :=
  .done rfl (List.append_nil _).symm rfl rfl (Int.add_zero _).symm

theorem bind {first next : Drafting Unit} (wrote : Writes a used m d (first.run d))
    (later : ∀ d', d'.depth = d.depth + m → d'.literals = enlistAll d.literals used →
      Writes b used' n d' (next.run d')) :
    Writes (a ++ b) (used ++ used') (m + n) d ((first >>= fun _ => next).run d) := by
  rw [EStateM.run_bind]
  generalize first.run d = result at wrote
  cases wrote with
  | failed failure ordinary lines externals =>
    rw [Emission.append_of_failure?_eq_some failure]
    exact .failed failure ordinary lines externals
  | @done d₁ complete lines literals externals depth =>
    have wrote := later d₁ depth literals
    dsimp only
    rw [Emission.append_of_failure?_eq_none complete]
    generalize next.run d₁ = result at wrote
    cases wrote with
    | done complete' lines' literals' externals' depth' =>
      refine .done complete' ?_ ?_ ?_ ?_
      · rw [lines', lines, List.append_assoc]
      · rw [literals', literals, enlistAll_append]
      · rw [externals', externals, enlistAll_append]
      · rw [depth', depth, Int.add_assoc]
    | failed failure ordinary lines' externals' =>
      refine .failed failure ordinary ?_ ?_
      · rw [lines', lines, List.append_assoc]
      · rw [externals', externals, enlistAll_append]

theorem isNoRefusal {result : EStateM.Result SourceError Draft Unit} {error : SourceError}
    (wrote : Writes a used m d result) (failure : a.failure? = some error) : IsNoRefusal error := by
  cases wrote with
  | done complete =>
    rw [complete] at failure
    cases failure
  | failed failure' ordinary =>
    rw [failure'] at failure
    cases failure
    exact ordinary

/-! ### Single pieces of work -/

theorem write (line : Line) (d : Draft) :
    Writes (.emit [line]) [] 0 d ((Drafting.write line).run d) :=
  .done rfl Array.toList_push rfl rfl (Int.add_zero _).symm

theorem counted {line : Line} {words : Int} (d : Draft) :
    Writes (.emit [line]) [] words d ((do Drafting.write line; Drafting.count words).run d) :=
  .done rfl Array.toList_push rfl rfl rfl

theorem push (r : Register) (d : Draft) :
    Writes (.emit [one .push (whole r)]) [] 1 d ((Drafting.push r).run d) :=
  counted d

theorem pop (r : Register) (d : Draft) :
    Writes (.emit [one .pop (whole r)]) [] (-1) d ((Drafting.pop r).run d) :=
  counted d

/-- Work that fails at once writes nothing. -/
theorem throw {error : SourceError} (ordinary : IsNoRefusal error) (used : List String) (rise : Int)
    (d : Draft) :
    Writes ⟨[], [], some error⟩ used rise d ((MonadExcept.throw error : Drafting Unit).run d) :=
  .failed rfl ordinary (List.append_nil _).symm rfl

theorem spell (number : Int) (line : Line) (d : Draft) :
    Writes (.spell number line) [] 0 d ((Drafting.spell number line).run d) := by
  unfold Emission.spell Drafting.spell
  split
  · exact write line d
  · exact throw (fun depth span same => by cases same) [] 0 d

/-- The same work for each register of a list, one line for each. -/
theorem forM {work : Register → Drafting Unit} {line : Register → Line} {words : Int}
    (each : ∀ r d, Writes (.emit [line r]) [] words d ((work r).run d)) (registers : List Register)
    (d : Draft) :
    Writes (.emit (registers.map line)) [] (registers.length * words) d
      ((ForM.forM registers work).run d) := by
  induction registers generalizing d with
  | nil =>
    have done := nothing d
    rwa [← Int.zero_mul words] at done
  | cons r registers ih =>
    have done := (each r d).bind fun d' _ _ => ih d'
    rw [List.map_cons, List.length_cons, List.forM_cons]
    have total : words + (registers.length : Int) * words =
        ((registers.length + 1 : Nat) : Int) * words := by
      rw [Int.natCast_add, Int.add_mul, Int.natCast_one, Int.one_mul, Int.add_comm]
    rwa [total] at done

theorem store (target : Expr) (d : Draft) :
    Writes (Code.store target) [] 0 d ((Drafting.store target).run d) := by
  cases target with
  | var index =>
    rw [Code.store, Drafting.store, Emission.reach]
    exact spell _ _ d
  | block => exact throw (fun depth span same => by cases same) [] 0 d
  | number | string | binary | call | hole =>
    exact throw (isNoRefusal_compile (fun text same => by cases same) _) [] 0 d

theorem combine {operator : Operator} {combination : List Line}
    (combined : combine? operator = some combination) (d : Draft) :
    Writes (.emit combination) [] (-1) d ((Drafting.combine operator).run d) := by
  cases operator with
  | add | multiply =>
    cases combined
    exact (pop .rbx d).bind fun d' _ _ => write _ d'
  | subtract =>
    cases combined
    exact (pop .rbx d).bind fun d' _ _ => (write _ d').bind fun d'' _ _ => write _ d''
  | divide =>
    cases combined
    exact (write _ d).bind fun d₁ _ _ => (pop .rax d₁).bind fun d₂ _ _ =>
      (write _ d₂).bind fun d₃ _ _ => write _ d₃
  | assign | other => cases combined

/-- A string literal has the place that it has in the whole pool, if the literals so far are the
beginning of that. -/
theorem address {raw : String} (begins : enlist d.literals raw <+: pool) :
    Writes (.emit [two .lea (.literal (pool.idxOf raw)) rax]) [raw] 0 d
      ((Drafting.address raw).run d) := by
  rw [idxOf_of_begins begins (mem_enlist _ _)]
  exact .done rfl Array.toList_push rfl rfl (Int.add_zero _).symm

theorem pad (odd : Bool) (line : Line) (d : Draft) :
    Writes (.emit (if odd then [line] else [])) [] 0 d ((Drafting.pad odd line).run d) := by
  cases odd with
  | true => exact write line d
  | false => exact nothing d

/-- The stack is padded where lowering pads it, if the count has the parity of the depth. -/
theorem callPadded (name : String) {outstanding : Nat} {d : Draft}
    (parity : d.depth % 2 = outstanding % 2) :
    Writes (.emit ((if outstanding % 2 == 1 then [two .sub (.immediate 8) rsp] else []) ++
        [two .mov (.immediate 0) eax, one .call (.symbol name)] ++
        (if outstanding % 2 == 1 then [two .add (.immediate 8) rsp] else []))) [] 0 d
      ((Drafting.callPadded name).run d) := by
  have odd : (d.depth % 2 == 1) = (outstanding % 2 == 1) := by
    rw [Bool.eq_iff_iff, beq_iff_eq, beq_iff_eq]
    omega
  unfold Drafting.callPadded
  rw [EStateM.run_bind, EStateM.run_get]
  dsimp only
  rw [odd]
  have done := (pad (outstanding % 2 == 1) (two .sub (.immediate 8) rsp) d).bind fun d₁ _ _ =>
    (write (two .mov (.immediate 0) eax) d₁).bind fun d₂ _ _ =>
    (write (one .call (.symbol name)) d₂).bind fun d₃ _ _ =>
    pad (outstanding % 2 == 1) (two .add (.immediate 8) rsp) d₃
  generalize (outstanding % 2 == 1) = padded at done ⊢
  cases padded with
  | true => exact done
  | false => exact done

/-- A call takes its arguments and the registers that were saved off the count. -/
theorem invoke (name : String) {count outstanding : Nat} {d : Draft}
    (parity : (d.depth - (Register.arguments.take count).length) % 2 = outstanding % 2) :
    Writes ⟨Code.invoke name count outstanding, [name], none⟩ []
      (-((Register.arguments.take count).length + (savedRegisters count).length)) d
      ((Drafting.invoke name count).run d) := by
  have popAll (registers : List Register) (d : Draft) :
      Writes (.emit (registers.reverse.map fun r => one .pop (whole r))) [] (-registers.length) d
        ((ForM.forM registers.reverse Drafting.pop).run d) := by
    have popped := forM pop registers.reverse d
    rwa [List.length_reverse, Int.mul_neg_one] at popped
  have called (d : Draft) : Writes ⟨[], [name], none⟩ [] 0 d
      ((modify fun d => { d with externals := enlist d.externals name } : Drafting Unit).run d) :=
    .done rfl (List.append_nil _).symm rfl rfl (Int.add_zero _).symm
  have done := (popAll (Register.arguments.take count) d).bind fun d₁ rise _ =>
    (callPadded name (by rwa [rise, ← Int.sub_eq_add_neg])).bind fun d₂ _ _ =>
      (popAll (savedRegisters count) d₂).bind fun d₃ _ _ => called d₃
  have rise : -((Register.arguments.take count).length : Int) +
      (0 + (-((savedRegisters count).length : Int) + 0)) =
      -((Register.arguments.take count).length + (savedRegisters count).length) := by omega
  have joined (front lines back : List Line) :
      Emission.emit front ++ (.emit lines ++ (.emit back ++ (⟨[], [name], none⟩ : Emission))) =
        ⟨front ++ (lines ++ (back ++ [])), [name], none⟩ := rfl
  rw [rise, joined, List.append_nil] at done
  unfold Drafting.invoke
  simpa only [Code.invoke, List.append_assoc, List.append_nil] using done

/-! ### Expressions -/

mutual

/-- The generator writes the code that lowering gives, and leaves the count as it was. Of the depth,
lowering only looks at the parity, and of the pool only at the literals of the expression. -/
theorem expression {pool : List String} : ∀ (e : Expr) {depth : Nat} {d : Draft},
    d.depth % 2 = depth % 2 → enlistAll d.literals (Code.literals e) <+: pool →
    Writes (lower pool depth e) (Code.literals e) 0 d ((Drafting.expression e).run d)
  | .number value span, depth, d, parity, begins => by
    rw [lower, Drafting.expression, Code.literals]
    exact spell _ _ d
  | .string raw span, depth, d, parity, begins => by
    rw [lower, Drafting.expression, Code.literals]
    exact throw (isNoRefusal_compile (fun text same => by cases same) _) [] 0 d
  | .var index name span, depth, d, parity, begins => by
    rw [lower, Drafting.expression, Code.literals, Emission.reach]
    exact spell _ _ d
  | .binary operator operatorSpan left right span, depth, d, parity, begins => by
    by_cases assigns : operator = .assign
    · subst assigns
      rw [Code.literals] at begins ⊢
      rw [lower, Drafting.expression, ← List.append_nil (Code.literals right)]
      exact (expression right parity begins).bind fun d' _ _ => store left d'
    · rw [literals_binary assigns, enlistAll_append] at begins
      rw [literals_binary assigns, Drafting.expression]
      · cases combined : combine? operator with
        | none =>
          rw [lower, combined, (combine?_eq_none assigns).mp combined, if_neg Bool.false_ne_true]
          · exact throw (isNoRefusal_compile (fun text same => by cases same) _) _ 0 d
          · exact assigns
        | some combination =>
          have known : operator.isArithmetic = true := by
            rw [← Bool.not_eq_false, ← combine?_eq_none assigns, combined]
            exact Option.some_ne_none _
          rw [lower_binary assigns combined, if_pos known, Emission.append_assoc,
            Emission.append_assoc, ← List.append_nil (Code.literals right)]
          have early := (prefix_enlistAll _ (Code.literals right)).trans begins
          exact (expression left parity early).bind fun d₁ kept passed =>
            (push .rax d₁).bind fun d₂ rise passed' =>
            (expression right (by omega) (by rwa [passed', passed])).bind fun d₃ _ _ =>
              combine combined d₃
      · exact assigns
  | .call name arguments span, depth, d, parity, begins => by
    rw [Code.literals] at begins ⊢
    rw [lower, Drafting.expression]
    dsimp only
    split
    · exact throw (isNoRefusal_compile (fun text same => by cases same) _) _ 0 d
    · next few =>
      have within : (Register.arguments.take arguments.length).length = arguments.length := by
        rw [List.length_take, Nat.min_eq_left (by omega)]
      have saved := forM push (savedRegisters arguments.length) d
      rw [Int.mul_one] at saved
      generalize outside : depth + (savedRegisters arguments.length).length = outstanding
      rw [Emission.append_assoc, ← List.append_nil (argumentLiterals arguments)]
      have done := saved.bind fun d₁ rise passed =>
        (@pushArguments pool arguments outstanding d₁ (by omega) (by rwa [passed])).bind
          fun d₂ pushed _ => @invoke name arguments.length outstanding d₂ (by omega)
      have balanced : ((savedRegisters arguments.length).length : Int) + (arguments.length +
          -((Register.arguments.take arguments.length).length +
            (savedRegisters arguments.length).length)) = 0 := by omega
      rwa [balanced] at done
  | .hole span, depth, d, parity, begins => by
    rw [lower, Drafting.expression]
    exact throw (isNoRefusal_lowering rfl _) _ 0 d
  | .block statements, depth, d, parity, begins => by
    rw [lower, Drafting.expression]
    exact throw (isNoRefusal_lowering rfl _) _ 0 d

theorem pushArguments {pool : List String} : ∀ (arguments : List Expr) {depth : Nat} {d : Draft},
    d.depth % 2 = depth % 2 → enlistAll d.literals (argumentLiterals arguments) <+: pool →
    Writes (lowerArguments pool depth arguments) (argumentLiterals arguments) arguments.length d
      ((Drafting.pushArguments arguments).run d)
  | [], depth, d, parity, begins => by
    rw [lowerArguments, Drafting.pushArguments, argumentLiterals]
    exact nothing d
  | argument :: rest, depth, d, parity, begins => by
    have size : (0 : Int) + (1 + rest.length) = ((argument :: rest).length : Nat) := by
      rw [List.length_cons]
      omega
    by_cases literal : ∃ raw span, argument = .string raw span
    · obtain ⟨raw, span, rfl⟩ := literal
      have two (first second : Line) :
          Emission.emit [first, second] = .emit [first] ++ .emit [second] := rfl
      rw [argumentLiterals] at begins ⊢
      rw [lowerArguments, Drafting.pushArguments, ← size, two, Emission.append_assoc]
      have early := (prefix_enlistAll (enlist d.literals raw) (argumentLiterals rest)).trans begins
      exact (address early).bind fun d₁ kept passed => (push .rax d₁).bind fun d₂ rise passed' =>
        @pushArguments pool rest (depth + 1) d₂ (by omega) (by rwa [passed', passed])
    · have other : ∀ raw span, argument ≠ .string raw span := fun raw span same =>
        literal ⟨raw, span, same⟩
      rw [argumentLiterals_cons other, enlistAll_append] at begins
      rw [argumentLiterals_cons other, lowerArguments_cons other, Drafting.pushArguments, ← size,
        Emission.append_assoc]
      · have early := (prefix_enlistAll _ (argumentLiterals rest)).trans begins
        exact (expression argument parity early).bind fun d₁ kept passed =>
          (push .rax d₁).bind fun d₂ rise passed' =>
            @pushArguments pool rest (depth + 1) d₂ (by omega) (by rwa [passed', passed])
      · exact other

end

/-! ### Statements -/

theorem announce (comments : Bool) (number : Nat) (statement : Expr) (d : Draft) :
    Writes (if comments then Code.announce number statement else .empty) [] 0 d
      ((Drafting.announce comments number statement).run d) := by
  unfold Code.announce Drafting.announce
  cases comments with
  | false => exact nothing d
  | true =>
    simp only [if_true]
    cases printed : statement.print with
    | ok printed => exact write _ d
    | error error =>
      obtain ⟨position, rfl⟩ := unprintable_of_print statement printed
      exact throw (fun depth span same => by cases same) [] 0 d

theorem checkDepth (statement : Expr) {d : Draft} (zero : d.depth = 0) :
    Writes .empty [] 0 d ((Drafting.checkDepth statement).run d) := by
  unfold Drafting.checkDepth
  rw [EStateM.run_bind, EStateM.run_get]
  dsimp only
  rw [if_pos zero]
  exact nothing d

/-- The count is zero after each statement, so none is refused for it. -/
theorem statements (comments : Bool) {pool : List String} (number : Nat) (statements : List Expr)
    {d : Draft} (zero : d.depth = 0)
    (begins : enlistAll d.literals (statements.flatMap Code.literals) <+: pool) :
    Writes (lowerStatements comments pool number statements) (statements.flatMap Code.literals) 0 d
      ((Drafting.statements comments number statements).run d) := by
  induction statements generalizing number d with
  | nil => exact nothing d
  | cons statement rest ih =>
    rw [List.flatMap_cons, enlistAll_append] at begins
    have early := (prefix_enlistAll _ (rest.flatMap Code.literals)).trans begins
    have done := (announce comments number statement d).bind fun d₁ kept₁ passed₁ =>
      (@expression pool statement 0 d₁ (by omega) (by rwa [passed₁])).bind fun d₂ kept₂ passed₂ =>
        (checkDepth statement (by omega)).bind fun d₃ kept₃ passed₃ =>
          ih (number + 1) (by omega) (by rwa [passed₃, passed₂, passed₁])
    rw [lowerStatements, Drafting.statements, Emission.append_assoc]
    exact done

end Writes

end Draft

/-! ## Programs -/

/-- What becomes of the draft of a program does not depend on what was drafted before. -/
theorem run_listing (options : Options) (program : Program) (d : Draft) :
    (Drafting.listing options program).run d = (Drafting.listing options program).run .empty :=
  rfl

theorem writes_statements (options : Options) (program : Program) :
    Draft.Writes (lowerStatements options.comments (pool program.statements) 1 program.statements)
      (program.statements.flatMap literals) 0 .empty
      ((Drafting.statements options.comments 1 program.statements).run .empty) := by
  refine .statements options.comments 1 program.statements rfl ?_
  show enlistAll [] _ <+: _
  rw [enlistAll_nil]
  exact List.prefix_refl _

/-- Generating code comes to what lowering says. -/
theorem generate_eq_lowered (options : Options) (program : Program) :
    generate options program = lowered options program := by
  have wrote := writes_statements options program
  unfold generate lowered Drafting.listing pool
  rw [EStateM.run_bind, EStateM.run_set]
  dsimp only
  rw [EStateM.run_bind]
  unfold pool at wrote
  generalize lowerStatements _ _ 1 program.statements = emission at wrote ⊢
  generalize (Drafting.statements _ 1 program.statements).run .empty = result at wrote
  cases wrote with
  | failed failure _ _ externals =>
    rw [failure]
    dsimp only [Generation.ofResult]
    rw [externals, Draft.empty, enlistAll_nil]
  | @done d complete lines literals externals =>
    rw [complete]
    dsimp only
    rw [EStateM.run_bind, EStateM.run_get]
    dsimp only [Draft.empty] at lines literals externals ⊢
    rw [enlistAll_nil] at literals externals
    rw [lines, literals, externals]
    split
    · show Generation.mk _ d.externals = _
      rw [externals]
      rfl
    · show Generation.mk _ d.externals = _
      rw [externals]

/-- No program is refused for the count. -/
theorem isNoRefusal_of_generate {options : Options} {program : Program} {error : SourceError}
    (failed : (generate options program).result = .error error) : IsNoRefusal error := by
  rw [generate_eq_lowered] at failed
  unfold lowered at failed
  dsimp only at failed
  split at failed
  · next failure =>
    cases failed
    exact (writes_statements options program).isNoRefusal failure
  · split at failed
    · cases failed
    · cases failed
      exact fun depth span same => by cases same

end Reckon.Code
