import Reckon.Proofs.CompiledRuns
import Reckon.Proofs.Errors
import Reckon.Proofs.Parsing.Quotients

/-!
# Division

The operands of a division are words whose low halves are numbers with sign. The code of a division
extends the dividend with a zero instead of its sign, and the machine then divides it by a number
with sign. So a dividend that is not negative is divided as it should be, towards zero, and a
negative dividend is divided as the number that is greater by `2 ^ 32`: its quotient is never the
right one, and may even be too large for a word (`Compilation.run_quotient`).
-/

namespace Reckon

/-! ## Quotients that have machine code -/

namespace Expr

theorem isLiteral_outline (e : Expr) : e.outline.isLiteral = e.isLiteral := by
  cases e <;> rfl

namespace Lowerable

variable {short short' : Int → Bool} {e e' : Expr} {size : Nat}

theorem mono (lowerable : e.Lowerable short)
    (weaker : ∀ number, short number = true → short' number = true) : e.Lowerable short' := by
  induction lowerable with
  | number span fits => exact .number span (weaker _ fits)
  | var name span fits => exact .var name span (weaker _ fits)
  | arithmetic operatorSpan span arithmetic _ _ left right =>
    exact .arithmetic operatorSpan span arithmetic left right
  | assignment name targetSpan operatorSpan span fits _ right =>
    exact .assignment name targetSpan operatorSpan span (weaker _ fits) right
  | call name span few _ arguments => exact .call name span few arguments

/-- Whether an expression has machine code, if numbers of any length can be written, does not depend
on its places and slots. -/
theorem of_outline_eq (lowerable : e.Lowerable fun _ => true) (same : e'.outline = e.outline) :
    e'.Lowerable fun _ => true := by
  induction lowerable generalizing e' with
  | number =>
    cases e' <;> cases same
    exact .number _ rfl
  | var =>
    cases e' <;> cases same
    exact .var _ _ rfl
  | arithmetic _ _ arithmetic _ _ ihLeft ihRight =>
    cases e' with
    | binary =>
      obtain ⟨rfl, -, left, right, -⟩ := Expr.binary.inj same
      exact .arithmetic _ _ arithmetic (ihLeft left) (ihRight right)
    | _ => cases same
  | assignment _ _ _ _ _ _ ih =>
    cases e' with
    | binary _ _ target =>
      obtain ⟨rfl, -, targets, right, -⟩ := Expr.binary.inj same
      cases target with
      | var => exact .assignment _ _ _ _ rfl (ih right)
      | _ => cases targets
    | _ => cases same
  | @call arguments _ _ few _ ih =>
    cases e' with
    | call name arguments' span =>
      rw [outline_call, outline_call] at same
      obtain ⟨-, outlines, -⟩ := Expr.call.inj same
      have length : arguments'.length = arguments.length := by
        simpa using congrArg List.length outlines
      refine .call name span (length ▸ few) fun argument' member plain => ?_
      have listed : argument'.outline ∈ arguments.map outline := by
        rw [← outlines]
        exact List.mem_map_of_mem member
      obtain ⟨argument, among, outline⟩ := List.mem_map.mp listed
      refine ih argument among ?_ outline.symm
      rw [← isLiteral_outline, outline, isLiteral_outline, plain]
    | _ => cases same

/-- Numbers and slots of a text that is not too long can be written. -/
theorem writable (lowerable : e.Lowerable fun _ => true) (sourced : e.Sourced size)
    (few : size + 8 ≤ 2 ^ 62) : e.Lowerable Text.isWritable := by
  have slot {index : Nat} (inside : index < size) :
      Text.isWritable (Code.slotOffset index) = true := by
    refine Text.isWritable_of_lt ?_
    unfold Code.slotOffset Code.wordSize
    omega
  induction lowerable with
  | number =>
    cases sourced with
    | number _ bounded =>
      refine .number _ (Text.isWritable_of_lt ?_)
      unfold maxLiteral at bounded
      omega
  | var =>
    cases sourced with
    | var _ _ inside => exact .var _ _ (slot inside)
  | arithmetic operatorSpan span arithmetic _ _ ihLeft ihRight =>
    cases sourced with
    | binary _ _ _ left right =>
      exact .arithmetic operatorSpan span arithmetic (ihLeft left) (ihRight right)
  | assignment name targetSpan operatorSpan span _ _ ih =>
    cases sourced with
    | binary _ _ _ target right =>
      cases target with
      | var _ _ inside =>
        exact .assignment name targetSpan operatorSpan span (slot inside) (ih right)
  | call name span short _ ih =>
    cases sourced with
    | call _ _ arguments =>
      exact .call name span short fun argument member plain =>
        ih argument member plain (arguments argument member)

end Lowerable

end Expr

namespace Compilation

open Code

variable {options : Options} {source : String} {c : Compilation} {program : Program}

theorem lowerable_of_ofSource (compiled : ofSource options source = .ok c) :
    ∀ e ∈ c.program.statements, e.Lowerable Text.isWritable := by
  obtain ⟨parsed, generated, -⟩ := stages_of_ofSource compiled
  obtain ⟨complete, -⟩ := generate_eq_ok_iff.mp generated
  have printable := fun e member => (Program.sourced_of_ofSource parsed e member).printable
  rw [failure?_lowerStatements_of_printable printable, List.head?_eq_none_iff,
    List.flatMap_eq_nil_iff] at complete
  exact fun e member => (lowerable_iff e).mpr (complete e member)

/-- A text that is not too long compiles if its statements have machine code. -/
theorem exists_ofSource_of_lowerable (options : Options)
    (parsed : (Parsing.ofSource source).result = .ok program)
    (short : (source.length : Int) < indexLimit)
    (lowerable : ∀ e ∈ program.statements, e.Lowerable fun _ => true) :
    ∃ c, ofSource options source = .ok c ∧ c.program = program := by
  have few := Program.size_table_lt parsed short
  have sourced := Program.sourced_of_ofSource parsed
  refine exists_ofSource parsed ?_ (Text.isWritable_of_lt ?_)
  · rw [failure?_lowerStatements_of_printable fun e member => (sourced e member).printable,
      List.head?_eq_none_iff, List.flatMap_eq_nil_iff]
    exact fun e member =>
      (lowerable_iff e).mp ((lowerable e member).writable (sourced e member) few)
  · unfold frameSize wordSize stackAlignment
    omega

/-- The quotient of two expressions that compile compiles. -/
theorem exists_ofSource_quotient {text text' : String} {c c' : Compilation} {left₀ right₀ : Expr}
    (compiled : ofSource options (text ++ ";") = .ok c) (single : c.program.statements = [left₀])
    (compiled' : ofSource options (text' ++ ";") = .ok c')
    (single' : c'.program.statements = [right₀])
    (short : (("(" ++ text ++ ") / (" ++ text' ++ ");").length : Int) < indexLimit) :
    ∃ d sign left right span, ofSource options ("(" ++ text ++ ") / (" ++ text' ++ ");") = .ok d ∧
      d.program.statements = [.binary .divide sign left right span] ∧
      left.outline = left₀.outline ∧ right.outline = right₀.outline := by
  obtain ⟨parsed, -⟩ := stages_of_ofSource compiled
  obtain ⟨parsed', -⟩ := stages_of_ofSource compiled'
  have program : c.program = ⟨[left₀], c.program.table⟩ := by rw [← single]
  have program' : c'.program = ⟨[right₀], c'.program.table⟩ := by rw [← single']
  rw [program] at parsed
  rw [program'] at parsed'
  obtain ⟨sign, left, right, span, table, read, sameLeft, sameRight⟩ :=
    Parsing.exists_quotient parsed parsed'
  have lowerable : left₀.Lowerable Text.isWritable :=
    lowerable_of_ofSource compiled _ (single ▸ List.mem_singleton_self left₀)
  have lowerable' : right₀.Lowerable Text.isWritable :=
    lowerable_of_ofSource compiled' _ (single' ▸ List.mem_singleton_self right₀)
  have quotient : (Expr.binary .divide sign left right span).Lowerable fun _ => true :=
    .arithmetic sign span rfl ((lowerable.mono fun _ _ => rfl).of_outline_eq sameLeft)
      ((lowerable'.mono fun _ _ => rfl).of_outline_eq sameRight)
  obtain ⟨d, compiledQuotient, same⟩ := exists_ofSource_of_lowerable options read short
    (List.forall_mem_singleton.mpr quotient)
  exact ⟨d, sign, left, right, span, compiledQuotient, by rw [same], sameLeft, sameRight⟩

end Compilation

/-! ## Numbers with and without sign -/

namespace Evaluation

section

variable {dividend divisor : BitVec 32}

/-- Read without sign, a negative number is greater by `2 ^ 32`. -/
theorem toNat_eq_of_neg (negative : dividend.toInt < 0) :
    (dividend.toNat : Int) = dividend.toInt + 2 ^ 32 := by
  rw [BitVec.toInt_eq_toNat_cond] at negative ⊢
  split at negative
  · omega
  · next large =>
    rw [if_neg large]
    omega

theorem toNat_eq_of_nonneg (nonneg : 0 ≤ dividend.toInt) :
    (dividend.toNat : Int) = dividend.toInt := by
  have below := dividend.isLt
  rw [BitVec.toInt_eq_toNat_cond] at nonneg ⊢
  split at nonneg
  · next small => rw [if_pos small]
  · omega

/-- A quotient is no further from zero than the dividend. -/
theorem tdiv_bounds {x : Int} (nonneg : 0 ≤ x) (below : x < 2 ^ 31) (y : Int) :
    -2 ^ 31 ≤ x.tdiv y ∧ x.tdiv y < 2 ^ 31 := by
  have near := Int.natAbs_tdiv_le_natAbs x y
  omega

/-- A negative number and the one that is greater by `2 ^ 32` have different quotients: one of them
is positive and the other is not. -/
theorem tdiv_add_ne {x y : Int} (negative : x < 0) (above : -2 ^ 31 ≤ x) (nonzero : y ≠ 0)
    (least : -2 ^ 31 ≤ y) (greatest : y < 2 ^ 31) : (x + 2 ^ 32).tdiv y ≠ x.tdiv y := by
  rcases Int.lt_or_gt_of_ne nonzero with below | positive
  · have mirrored : 1 ≤ (x + 2 ^ 32).tdiv (-y) := Int.le_tdiv_of_mul_le (by omega) (by omega)
    have nonneg := Int.tdiv_nonneg_of_nonpos_of_nonpos (Int.le_of_lt negative) (Int.le_of_lt below)
    rw [Int.tdiv_neg] at mirrored
    omega
  · have large : 1 ≤ (x + 2 ^ 32).tdiv y := Int.le_tdiv_of_mul_le positive (by omega)
    have mirrored : 0 ≤ (-x).tdiv y := Int.tdiv_nonneg (by omega) (Int.le_of_lt positive)
    rw [Int.neg_tdiv] at mirrored
    omega

end

variable {World : Type} {env : Environment World} {left right : Expr} {a b : Word}
  {store store' : Store World}

/-- Evaluates the operands of an operation in order. -/
def operands (env : Environment World) (left right : Expr) : Evaluation World (Word × Word) := do
  let leftWord ← ofExpr env left
  let rightWord ← ofExpr env right
  return (leftWord, rightWord)

theorem run_quotient_of_operands (last : Word) (sign span : Span)
    (ran : (operands env left right).run store = (.ok (a, b), store')) :
    (ofStatements env last [.binary .divide sign left right span]).run store =
      (divide (a.setWidth 32) (b.setWidth 32)).run store' := by
  have quotient : ofStatements env last [.binary .divide sign left right span] =
      operands env left right >>= fun words =>
        divide (words.1.setWidth 32) (words.2.setWidth 32) := by
    rw [ofStatements, Machine.ofExpr_binary (by decide)]
    simp only [operands, ofStatements, operate, bind_assoc, pure_bind, bind_pure]
  rw [quotient, Machine.run_bind, ran]

section

variable {dividend divisor : BitVec 32}

theorem run_divide_of_zero (zero : divisor.toInt = 0) :
    (divide dividend divisor).run store =
      (.error (.fault (.raised .divisionByZero none)), store) := by
  have none : divisor = 0 := BitVec.toInt_inj.mp (zero.trans BitVec.toInt_zero.symm)
  rw [divide, if_pos none]
  rfl

theorem ne_zero_of_toInt (nonzero : divisor.toInt ≠ 0) : divisor ≠ 0 := by
  rintro rfl
  exact nonzero BitVec.toInt_zero

theorem run_divide_of_overflow (nonzero : divisor.toInt ≠ 0)
    (large : (dividend.toNat : Int).tdiv divisor.toInt < -2 ^ 31 ∨
      2 ^ 31 ≤ (dividend.toNat : Int).tdiv divisor.toInt) :
    (divide dividend divisor).run store =
      (.error (.fault (.raised .quotientOverflow none)), store) := by
  rw [divide, if_neg (ne_zero_of_toInt nonzero), if_pos (by omega)]
  rfl

theorem run_divide_of_fits (nonzero : divisor.toInt ≠ 0)
    (least : -2 ^ 31 ≤ (dividend.toNat : Int).tdiv divisor.toInt)
    (greatest : (dividend.toNat : Int).tdiv divisor.toInt < 2 ^ 31) :
    ∃ word store', (divide dividend divisor).run store = (.ok word, store') ∧
      (word.setWidth 32).toInt = (dividend.toNat : Int).tdiv divisor.toInt ∧
      store'.world = store.world ∧ store'.calls = store.calls := by
  rw [divide, if_neg (ne_zero_of_toInt nonzero), if_neg (by omega)]
  refine ⟨_, _, rfl, ?_, rfl, rfl⟩
  rw [BitVec.setWidth_setWidth_of_le _ (by decide), BitVec.setWidth_eq]
  exact BitVec.toInt_ofInt_eq_self (by decide) least greatest

end

end Evaluation

/-! ## Runs of quotients -/

namespace Compilation

open Code Machine

variable {World : Type} {answer? : String → Option (Answer World)}
  {routine? : String → Option (Routine World)} {limit : Int}

/-- All that a compiled program needs to run as it is evaluated: literals of characters that the
machine reads, names of routines that are no labels of its own, memory, routines that do what
answers say, and a step for each of its instructions. -/
structure Provided (c : Compilation) (answer? : String → Option (Answer World))
    (routine? : String → Option (Routine World)) (limit : Int) : Prop where
  latin : ∀ raw ∈ pool c.program.statements, ∀ ch ∈ raw.toList, ch.toNat ≤ 0xFF ∧ ch ≠ '\x85'
  outside : ∀ name ∈ c.externals, name ≠ "main" ∧ name ≠ "_start"
  fits : c.program.footprint ≤ memorySize
  serves : ∀ name, Serves c.program.data (answer? name) (routine? name)
  enough : (codeOf c.listing.lines).length ≤ limit

namespace Provided

variable {options : Options} {source : String} {c : Compilation} {world : World}
  {store : Store World}

theorem exists_stops (provided : c.Provided answer? routine? limit)
    (compiled : ofSource options source = .ok c) (world : World)
    (answered : (c.program.evaluate answer? world).1 ≠ .error .unanswered) :
    ∃ setup start s', ∃ n : Nat, load c.assembly routine? world = .ok (setup, start) ∧
      start.steps = 0 ∧ n ≤ limit ∧
      Session.Stops setup n start s' (stopOf (c.program.evaluate answer? world).1) ∧
      s'.world = (c.program.evaluate answer? world).2.world ∧
      s'.calls = (c.program.evaluate answer? world).2.calls := by
  have latin := isLatin_of_mem provided.latin
  obtain ⟨setup, start, loaded, zero, n, s', within, -, stops, sameWorld, sameCalls⟩ :=
    Compilation.exists_stops compiled latin provided.outside provided.fits provided.serves world
      answered
  have enough := provided.enough
  exact ⟨setup, start, s', n, loaded, zero, by omega, stops, sameWorld, sameCalls⟩

/-- A program whose evaluation gives a word exits with its low half. -/
theorem run_of_value (provided : c.Provided answer? routine? limit)
    (compiled : ofSource options source = .ok c) {word : Word}
    (value : c.program.evaluate answer? world = (.ok word, store)) :
    let run := Execution.ofText c.assembly routine? world limit
    run.world = store.world ∧ run.calls = store.calls ∧
      ∃ exit, run.result = .ok exit ∧ exit.value = (word.setWidth 32).toInt := by
  have answered : (c.program.evaluate answer? world).1 ≠ .error .unanswered := by
    rw [value]
    exact fun same => by cases same
  obtain ⟨setup, start, s', n, loaded, zero, within, stops, sameWorld, sameCalls⟩ :=
    provided.exists_stops compiled world answered
  rw [value] at stops sameWorld sameCalls
  have low : (((word.setWidth 32).setWidth 64).setWidth 32 : BitVec 32) = word.setWidth 32 := by
    simp
  rw [ofText_eq loaded limit]
  dsimp only
  rw [Session.Stops.run_exit stops zero within, low]
  exact ⟨sameWorld, sameCalls, _, rfl, rfl⟩

/-- A program whose evaluation raises a fault is stopped by this fault. -/
theorem run_of_fault (provided : c.Provided answer? routine? limit)
    (compiled : ofSource options source = .ok c) {cause : Fault.Cause}
    (faulted : c.program.evaluate answer? world = (.error (.fault (.raised cause none)), store)) :
    let run := Execution.ofText c.assembly routine? world limit
    run.world = store.world ∧ run.calls = store.calls ∧
      ∃ line?, run.result = .error (.raised cause line?) := by
  have answered : (c.program.evaluate answer? world).1 ≠ .error .unanswered := by
    rw [faulted]
    exact fun same => by cases same
  obtain ⟨setup, start, s', n, loaded, zero, within, stops, sameWorld, sameCalls⟩ :=
    provided.exists_stops compiled world answered
  rw [faulted] at stops sameWorld sameCalls
  obtain ⟨raised, same, ran⟩ := Session.Stops.exists_fault stops zero
  rw [ofText_eq loaded limit]
  dsimp only
  rw [ran limit within]
  refine ⟨sameWorld, sameCalls, ?_⟩
  cases raised with
  | raised other line? =>
    obtain ⟨rfl, -⟩ := Fault.raised.inj same
    exact ⟨line?, rfl⟩
  | _ => cases same

end Provided

variable {options : Options} {source : String} {c : Compilation} {world : World}
  {store : Store World} {left right : Expr} {sign span : Span} {a b : Word}

/-- A program that is one division divides the low halves of its operands, the first of them read
without sign. -/
theorem run_of_operands (provided : c.Provided answer? routine? limit)
    (compiled : ofSource options source = .ok c)
    (single : c.program.statements = [.binary .divide sign left right span])
    (ran : (Evaluation.operands (c.program.environment answer?) left right).run (.initial world) =
      (.ok (a, b), store)) :
    let y := (b.setWidth 32).toInt
    let quotient := ((a.setWidth 32).toNat : Int).tdiv y
    let run := Execution.ofText c.assembly routine? world limit
    run.world = store.world ∧ run.calls = store.calls ∧
      (y = 0 ↔ ∃ line?, run.result = .error (.raised .divisionByZero line?)) ∧
      (y ≠ 0 → quotient < -2 ^ 31 ∨ 2 ^ 31 ≤ quotient →
        ∃ line?, run.result = .error (.raised .quotientOverflow line?)) ∧
      (y ≠ 0 → -2 ^ 31 ≤ quotient → quotient < 2 ^ 31 →
        ∃ exit, run.result = .ok exit ∧ exit.value = quotient) := by
  intro y quotient run
  have evaluated : c.program.evaluate answer? world =
      (Evaluation.divide (a.setWidth 32) (b.setWidth 32)).run store := by
    rw [Program.evaluate, single]
    exact Evaluation.run_quotient_of_operands 0 sign span ran
  by_cases zero : y = 0
  · rw [Evaluation.run_divide_of_zero zero] at evaluated
    obtain ⟨sameWorld, sameCalls, stopped⟩ := provided.run_of_fault compiled evaluated
    exact ⟨sameWorld, sameCalls, iff_of_true zero stopped, fun nonzero => absurd zero nonzero,
      fun nonzero => absurd zero nonzero⟩
  by_cases large : quotient < -2 ^ 31 ∨ 2 ^ 31 ≤ quotient
  · rw [Evaluation.run_divide_of_overflow zero large] at evaluated
    obtain ⟨sameWorld, sameCalls, line?, stopped⟩ := provided.run_of_fault compiled evaluated
    refine ⟨sameWorld, sameCalls, iff_of_false zero ?_, fun _ _ => ⟨line?, stopped⟩,
      fun _ least greatest => absurd large (by omega)⟩
    rintro ⟨_, other⟩
    cases other.symm.trans stopped
  · have least : -2 ^ 31 ≤ quotient := by omega
    have greatest : quotient < 2 ^ 31 := by omega
    obtain ⟨word, store', divided, value, keptWorld, keptCalls⟩ :=
      @Evaluation.run_divide_of_fits World store _ _ zero least greatest
    rw [divided] at evaluated
    obtain ⟨sameWorld, sameCalls, exit, ended, same⟩ := provided.run_of_value compiled evaluated
    refine ⟨sameWorld.trans keptWorld, sameCalls.trans keptCalls, iff_of_false zero ?_,
      fun _ impossible => absurd impossible large, fun _ _ _ => ⟨exit, ended, same.trans value⟩⟩
    rintro ⟨_, other⟩
    cases other.symm.trans ended

/-- The quotient of two expressions. Take two texts that compile, with a semicolon behind them, to
one expression each. Their quotient compiles, and its operands are the two expressions up to places
and slots. Where the operands come, in this order, to words whose low halves are the numbers `x` and
`y` with sign, the program

* is stopped by a division by zero exactly if `y` is zero,
* exits with `x / y`, rounded towards zero, if `x` is not negative, and
* takes `x + 2 ^ 32` for the dividend if `x` is negative: it exits with the quotient of this number,
  which is not that of `x`, or is stopped because the quotient is too large.

It leaves the world and the calls of its operands. -/
theorem run_quotient {text text' : String} {c c' : Compilation} {left₀ right₀ : Expr}
    (compiled : ofSource options (text ++ ";") = .ok c) (single : c.program.statements = [left₀])
    (compiled' : ofSource options (text' ++ ";") = .ok c')
    (single' : c'.program.statements = [right₀])
    (short : (("(" ++ text ++ ") / (" ++ text' ++ ");").length : Int) < indexLimit) :
    ∃ d sign left right span, ofSource options ("(" ++ text ++ ") / (" ++ text' ++ ");") = .ok d ∧
      d.program.statements = [.binary .divide sign left right span] ∧
      left.outline = left₀.outline ∧ right.outline = right₀.outline ∧
      ∀ {World : Type} {answer? : String → Option (Answer World)}
        {routine? : String → Option (Routine World)} {limit : Int} {world : World} {a b : Word}
        {store : Store World},
        d.Provided answer? routine? limit →
        (Evaluation.operands (d.program.environment answer?) left right).run (.initial world) =
          (.ok (a, b), store) →
        let x := (a.setWidth 32).toInt
        let y := (b.setWidth 32).toInt
        let run := Execution.ofText d.assembly routine? world limit
        run.world = store.world ∧ run.calls = store.calls ∧
        (y = 0 ↔ ∃ line?, run.result = .error (.raised .divisionByZero line?)) ∧
        (y ≠ 0 → 0 ≤ x → ∃ exit, run.result = .ok exit ∧ exit.value = x.tdiv y) ∧
        (y ≠ 0 → x < 0 →
          let quotient := (x + 2 ^ 32).tdiv y
          quotient ≠ x.tdiv y ∧
          (-2 ^ 31 ≤ quotient ∧ quotient < 2 ^ 31 →
            ∃ exit, run.result = .ok exit ∧ exit.value = quotient) ∧
          (quotient < -2 ^ 31 ∨ 2 ^ 31 ≤ quotient →
            ∃ line?, run.result = .error (.raised .quotientOverflow line?))) := by
  obtain ⟨d, sign, left, right, span, compiledQuotient, statements, sameLeft, sameRight⟩ :=
    exists_ofSource_quotient compiled single compiled' single' short
  refine ⟨d, sign, left, right, span, compiledQuotient, statements, sameLeft, sameRight, ?_⟩
  intro World answer? routine? limit world a b store provided ran x y run
  obtain ⟨sameWorld, sameCalls, byZero, overflows, fits⟩ :=
    run_of_operands provided compiledQuotient statements ran
  have below : x < 2 ^ 31 := BitVec.toInt_lt
  have above : -2 ^ 31 ≤ x := BitVec.le_toInt _
  refine ⟨sameWorld, sameCalls, byZero, fun nonzero nonneg => ?_, fun nonzero negative => ?_⟩
  · rw [Evaluation.toNat_eq_of_nonneg nonneg] at fits
    obtain ⟨least, greatest⟩ := Evaluation.tdiv_bounds nonneg below y
    exact fits nonzero least greatest
  · rw [Evaluation.toNat_eq_of_neg negative] at overflows fits
    exact ⟨Evaluation.tdiv_add_ne negative above nonzero (BitVec.le_toInt _) BitVec.toInt_lt,
      fun within => fits nonzero within.1 within.2, overflows nonzero⟩

/-! ## A negative dividend -/

/-- Seven less than nothing. -/
def minusSeven : Expr :=
  .binary .subtract ⟨3, 4⟩ (.number 0 ⟨1, 2⟩) (.number 7 ⟨5, 6⟩) ⟨0, 7⟩

/-- Seven less than nothing, divided by two. -/
def halved : Program :=
  ⟨[.binary .divide ⟨8, 9⟩ minusSeven (.number 2 ⟨10, 13⟩) ⟨0, 13⟩], ⟨[]⟩⟩

theorem run_operands_halved (env : Environment Unit) :
    (Evaluation.operands env minusSeven (.number 2 ⟨10, 13⟩)).run (.initial ()) =
      (.ok (BitVec.ofNat 64 4294967289, 2), .initial ()) := by
  rfl

theorem exists_ofSource_halved :
    ∃ c, ofSource ⟨false, none⟩ "(0 - 7) / (2);" = .ok c ∧ c.program = halved ∧
      c.Provided (fun _ => none : String → Option (Answer Unit)) (fun _ => none) 22 := by
  have parsed : (Parsing.ofSource "(0 - 7) / (2);").result = .ok halved := by cbv
  have literals : pool halved.statements = [] := by cbv
  obtain ⟨lines, emitted, count⟩ : ∃ lines, lowerStatements false (pool halved.statements) 1
      halved.statements = ⟨lines, [], none⟩ ∧ (codeOf lines).length = 12 := by
    rw [literals]
    simp (disch := decide) only [halved, minusSeven, lowerStatements, lower, Emission.spell_of_lt]
    exact ⟨_, rfl, rfl⟩
  have externals : (generate ⟨false, none⟩ halved).externals = [] := by
    rw [externals_generate, emitted]
    rfl
  have generated : (generate ⟨false, none⟩ halved).result = .ok ⟨true, 0, lines, []⟩ :=
    generate_eq_ok_iff.mpr (by
      rw [emitted, literals]
      exact ⟨rfl, Text.isWritable_of_lt (by decide), by cbv⟩)
  have total : (codeOf (Listing.lines ⟨true, 0, lines, []⟩)).length = 22 := by
    rw [Listing.codeOf_lines, Listing.codeOf_codeLines]
    simp only [codeOf_append, List.length_append, count]
    cbv
  have fits : halved.footprint ≤ memorySize := by
    have length : halved.data.length = 0 := by cbv
    have depth : halved.stackDepth = 1 := by cbv
    rw [Program.footprint, length, depth]
    decide
  refine ⟨_, ofSource_of_stages parsed generated, rfl, ?_⟩
  exact ⟨by simp [literals], by simp [externals], fits, fun _ => trivial, by rw [total]; decide⟩

theorem run_quotient_of_negative :
    ∃ c, ofSource ⟨false, none⟩ "(0 - 7) / (2);" = .ok c ∧
      ∃ exit, (Execution.ofText c.assembly (fun _ => none) () 22).result = .ok exit ∧
        exit.value = (-7 + 2 ^ 32 : Int).tdiv 2 := by
  let minus : Expr := .binary .subtract ⟨2, 3⟩ (.number 0 ⟨0, 1⟩) (.number 7 ⟨4, 5⟩) ⟨0, 5⟩
  have parsed : (Parsing.ofSource ("0 - 7" ++ ";")).result = .ok ⟨[minus], ⟨[]⟩⟩ := by cbv
  have parsed' : (Parsing.ofSource ("2" ++ ";")).result = .ok ⟨[.number 2 ⟨0, 1⟩], ⟨[]⟩⟩ := by cbv
  obtain ⟨c, compiled, same⟩ := exists_ofSource_of_lowerable ⟨false, none⟩ parsed (by decide)
    (List.forall_mem_singleton.mpr (.arithmetic _ _ rfl (.number _ rfl) (.number _ rfl)))
  obtain ⟨c', compiled', same'⟩ := exists_ofSource_of_lowerable ⟨false, none⟩ parsed' (by decide)
    (List.forall_mem_singleton.mpr (.number _ rfl))
  obtain ⟨d, sign, left, right, span, compiledQuotient, statements, -, -, runs⟩ :=
    run_quotient compiled (by rw [same]) compiled' (by rw [same']) (by decide)
  obtain ⟨e, compiledHalved, isHalved, provided⟩ := exists_ofSource_halved
  obtain rfl := Except.ok.inj (compiledQuotient.symm.trans compiledHalved)
  rw [isHalved] at statements
  cases statements
  obtain ⟨-, -, -, -, negative⟩ := runs provided (run_operands_halved _)
  have ended := (negative (by decide) (by decide)).2.1 (by decide)
  exact ⟨d, compiledHalved, ended⟩

/-- The operands come to `-7` and `2`, but the program does not exit with the quotient of these
numbers. -/
theorem quotient_not_towards_zero :
    ∃ c sign left right span a b store, ofSource ⟨false, none⟩ "(0 - 7) / (2);" = .ok c ∧
      c.program.statements = [.binary .divide sign left right span] ∧
      (Evaluation.operands (c.program.environment fun _ => none) left right).run (.initial ()) =
        (.ok (a, b), store) ∧
      (a.setWidth 32).toInt = -7 ∧ (b.setWidth 32).toInt = 2 ∧
      ∃ exit, (Execution.ofText c.assembly (fun _ => none) () 22).result = .ok exit ∧
        exit.value = 2147483644 ∧ (-7 : Int).tdiv 2 = -3 := by
  obtain ⟨c, compiled, isHalved, provided⟩ := exists_ofSource_halved
  have single : c.program.statements = halved.statements := by rw [isHalved]
  have ran := run_operands_halved (c.program.environment fun _ => none)
  obtain ⟨-, -, -, -, fits⟩ := run_of_operands provided compiled single ran
  obtain ⟨exit, ended, value⟩ := fits (by decide) (by decide) (by decide)
  exact ⟨c, _, _, _, _, _, _, _, compiled, single, ran, by decide, by decide, exit, ended,
    value.trans (by decide), by decide⟩

end Compilation

end Reckon
