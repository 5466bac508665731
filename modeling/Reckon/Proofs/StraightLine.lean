import Reckon.Proofs.Assembly.Loading
import Reckon.Proofs.CompiledRuns
import Reckon.Proofs.ExecutionOrder
import Reckon.Proofs.Machine.Recording
import Reckon.Proofs.Stopping

/-!
# Compiled programs run straight through

The code of a program has no branches, so a run executes each instruction once, or is stopped by a
fault on the way (`Compilation.run_straight_line`). Routines that return cannot stop it. What is
left are division by zero, quotients that are too large, and names that no routine has
(`Fault.Ordinary`). The run follows the evaluation in which the routines give recorded answers, so
that routines may look at the whole machine.

A run whose budget is too small tells the budget. A budget below zero may have too many digits for
that (`Compilation.result_of_long_limit`).
-/

namespace Reckon

open Code

/-! ## Ordinary faults -/

/-- A fault that a program raises by itself: an arithmetic one, or one for a name that no routine
has. -/
inductive Fault.Ordinary (missing : String → Prop) : Fault → Prop
  | divisionByZero (line? : Option Int) : Ordinary missing (.raised .divisionByZero line?)
  | quotientOverflow (line? : Option Int) : Ordinary missing (.raised .quotientOverflow line?)
  | undefinedSymbol (line? : Option Int) {name : String} : missing name →
    Ordinary missing (.raised (.undefinedSymbol name) line?)

/-- The line of a fault does not matter. -/
theorem Fault.Ordinary.of_withoutLine {missing : String → Prop} {fault raised : Fault}
    (ordinary : fault.Ordinary missing) (same : raised.withoutLine = fault.withoutLine) :
    raised.Ordinary missing := by
  cases ordinary with
  | divisionByZero =>
    cases raised <;> cases same
    exact .divisionByZero _
  | quotientOverflow =>
    cases raised <;> cases same
    exact .quotientOverflow _
  | undefinedSymbol _ absent =>
    cases raised <;> cases same
    exact .undefinedSymbol _ absent

/-- The evaluation was stopped by an ordinary fault, or got stuck. -/
inductive Stop.Ordinary (missing : String → Prop) : Stop → Prop
  | fault {fault : Fault} : fault.Ordinary missing → Ordinary missing (.fault fault)
  | stuck : Ordinary missing .stuck

theorem Stop.Own.ordinary {missing : String → Prop} {stop : Stop} (own : stop.Own) :
    stop.Ordinary missing := by
  cases own with
  | divisionByZero => exact .fault (.divisionByZero none)
  | quotientOverflow => exact .fault (.quotientOverflow none)
  | stuck => exact .stuck

namespace Evaluation

open Machine (run_perform)

variable {World : Type} {missing : String → Prop} {env : Environment World}

/-- The name is not that of the end of the program, and its routine always returns. -/
structure Callable (env : Environment World) (missing : String → Prop) (name : String) : Prop where
  stays : name ≠ "exit"
  absent : env.answer? name = none → missing name
  returns : ∀ answer, env.answer? name = some answer →
    ∀ world words, ∃ world' returned, answer world words = some (world', .ok returned)

theorem tame_perform {name : String} (callable : Callable env missing name) (passed : List Word) :
    Tame (Stop.Ordinary missing) (perform env name passed) := by
  cases answered : env.answer? name with
  | none =>
    rw [perform, if_neg callable.stays, answered]
    exact tame_throw (.fault (.undefinedSymbol none (callable.absent answered)))
  | some answer =>
    intro store stop store' stopped
    obtain ⟨world', returned, answers⟩ := callable.returns answer answered store.world passed
    rw [run_perform callable.stays answered, answers] at stopped
    cases stopped

end Evaluation

/-! ## Runs -/

namespace Compilation

open Machine Evaluation

variable {World : Type} {routine? : String → Option (Routine World)} {options : Options}
  {source : String} {c : Compilation}

/-- How a program with `n` instructions runs, given what its runs come to with each budget of steps,
and at which indices they execute instructions: either every run with enough steps returns after `n`
of them, which execute each instruction once, or a fault comes first, which is ordinary. A run whose
budget is used up before that reaches its limit. -/
inductive Straight (missing : String → Prop) (n : Nat) (result : Int → Except Fault Exit)
    (visited : Int → List Nat) : Prop
  | returns (value : Int) (status : Nat) :
    (∀ limit : Int, n ≤ limit →
      result limit = .ok ⟨value, status, n⟩ ∧ (visited limit).Perm (List.range n)) →
    (∀ limit : Int, limit < n → result limit = .error (.outOfSteps limit)) →
    Straight missing n result visited
  | faults {k : Nat} {fault : Fault} : k ≤ n → fault.Ordinary missing →
    (∀ limit : Int, k ≤ limit → result limit = .error fault) →
    (∀ limit : Int, limit < k → result limit = .error (.outOfSteps limit)) →
    Straight missing n result visited

theorem length_codeOf_lines {image : Assembly.Image} {blocks : List (List UInt8)}
    (assembles : c.listing.Assembles image blocks) :
    (codeOf c.listing.lines).length = image.instructions.size := by
  rw [c.listing.codeOf_lines, ← assembles.instructions, List.length_map, Array.length_toList]

/-- Runs of a compiled program that does not call its own labels execute the instructions in one
order. -/
theorem exists_order {image : Assembly.Image} {blocks : List (List UInt8)}
    (compiled : ofSource options source = .ok c)
    (outside : ∀ name ∈ c.externals, name ≠ "main" ∧ name ≠ "_start")
    (fits : c.program.footprint ≤ memorySize)
    (passive : ∀ name routine, routine? name = some routine → routine.Passive)
    (assembles : c.listing.Assembles image blocks) (world : World) :
    ∃ order, order.Perm (List.range image.instructions.size) ∧
      Session.Follows ⟨image, routine?⟩ order (.fresh image.data.toList world) := by
  obtain ⟨-, generated, -⟩ := stages_of_ofSource compiled
  obtain ⟨-, -, listing⟩ := generate_eq_ok_iff.mp generated
  have slots : c.listing.slots = (c.program.layout fits).count := by rw [← listing]; rfl
  have undisturbed : Undisturbed ⟨image, routine?⟩ := by
    refine ⟨fun name notMain notStart => ?_, fun name routine named => ?_⟩
    · rw [assembles.get?_codeLabels, if_neg notMain, if_neg notStart]
    · exact (passive name routine named).recordable.readOnly.inert
  have balances := balances_body compiled fun name called => (outside name called).2
  have absent : one .call (.symbol "main") ∉ c.listing.body :=
    (balances_body compiled fun name called => (outside name called).1).call_notMem
      fun other => other rfl
  have located := codeAt_of_assembles assembles
  have total := length_codeOf_lines assembles
  rw [c.listing.codeOf_lines, c.listing.codeOf_codeLines] at total
  rw [slots] at balances located total
  refine ⟨_, ?_, follows_fresh undisturbed balances absent located
    (assembles.get?_codeLabels "main") image.data.toList world⟩
  rw [← total, codeOf_append, List.length_append]
  exact perm_executionOrder two_le_length_entryCode (Nat.le_add_right _ _)

/-- A compiled program runs to its end through all instructions, or raises an ordinary fault on the
way. -/
theorem exists_ends_straight {image : Assembly.Image} {blocks : List (List UInt8)}
    (compiled : ofSource options source = .ok c)
    (latin : ∀ raw ∈ pool c.program.statements, ∀ ch ∈ raw.toList, isLatin ch = true)
    (outside : ∀ name ∈ c.externals, name ≠ "main" ∧ name ≠ "_start" ∧ name ≠ "exit")
    (fits : c.program.footprint ≤ memorySize)
    (passive : ∀ name routine, routine? name = some routine → routine.Passive)
    (read : Assembly.Image.ofText c.assembly = .ok image)
    (assembles : c.listing.Assembles image blocks) (world : World) :
    let missing := fun name => name ∈ c.externals ∧ routine? name = none
    ∃ n s' result, n ≤ image.instructions.size ∧
      Session.Ends ⟨image, routine?⟩ n (.fresh image.data.toList world) s' result ∧
      ((∃ value, result = .ok value ∧ n = image.instructions.size) ∨
        ∃ fault, result = .error fault ∧ fault.Ordinary missing) := by
  intro missing
  let setup : Setup World := ⟨image, routine?⟩
  let answer? := fun name => (routine? name).map fun _ => recorded Except.ok
  have recordable : ∀ name routine, setup.routine? name = some routine →
      routine.Recordable Except.ok :=
    fun name routine found => (passive name routine found).recordable
  -- The routines may look at the machine, so they are no answers. What they return in this run is
  -- recorded, and a program whose answers are read off the record runs the same way.
  obtain ⟨entries, plays⟩ := Session.exists_entries recordable (·.HoldsData c.program.data)
    image.instructions.size (.fresh image.data.toList world)
  let record : Recording (Option Int) := ⟨entries, True⟩
  have callable : ∀ name ∈ c.program.statements.flatMap callees,
      Callable (c.program.environment answer?) missing name := by
    intro name called
    have external : name ∈ c.externals := by
      rw [externals_eq compiled]
      exact List.mem_eraseDups.mpr called
    refine ⟨(outside name external).2.2, fun absent => ⟨external, ?_⟩, fun answer answered => ?_⟩
    · exact Option.map_eq_none_iff.mp absent
    · obtain ⟨-, -, rfl⟩ := Option.map_eq_some_iff.mp answered
      exact fun world words => ⟨_, _, rfl⟩
  have tame := tame_ofStatements (fun _ own => own.ordinary)
    (fun name called => tame_perform (callable name called)) 0
  have answered : (c.program.evaluate answer? record).1 ≠ .error .unanswered := by
    intro stopped
    cases tame _ _ _ (Prod.ext stopped rfl)
  have total := length_codeOf_lines assembles
  obtain ⟨setup', start', loaded, -, n, t, short, full, ⟨result, ends, same⟩, -⟩ :=
    exists_stops compiled latin
      (fun name member => ⟨(outside name member).1, (outside name member).2.1⟩) fits
      (serves_recording Except.ok setup c.program.data) record answered
  cases (load_eq read assembles record).symm.trans loaded
  rw [total] at short full
  obtain ⟨s', ends⟩ := plays True short ends
  refine ⟨n, s', result, short, ends, ?_⟩
  cases evaluated : c.program.evaluate answer? record with
  | mk outcome store =>
    have outcomeIs : (c.program.evaluate answer? record).1 = outcome := congrArg Prod.fst evaluated
    rw [outcomeIs] at same
    cases outcome with
    | ok word =>
      cases same with
      | exit => exact .inl ⟨_, rfl, full word outcomeIs⟩
    | error stop =>
      cases tame _ _ _ evaluated with
      | fault ordinary =>
        cases same with
        | fault same => exact .inr ⟨_, rfl, ordinary.of_withoutLine same⟩
      | stuck => cases same

/-- Compiled programs run straight through and end. Take a source text that compiles, with any
options, into a program

* whose string literals consist of characters up to U+00FF other than U+0085,
* that calls none of `main`, `_start` and `exit`, and
* whose data, variables and operands fit into memory,

and routines that return and leave the machine alone, whatever they look at. Let `n` be the number
of instructions that its assembly text is read as. Either every run with a budget of at least `n`
steps returns after exactly `n` steps, in which it executes every instruction once, or all runs meet
the same fault before that, which is arithmetic or due to a name that no routine has. A run whose
budget ends before is out of steps. No run executes an instruction twice. -/
theorem run_straight_line (compiled : ofSource options source = .ok c)
    (latin : ∀ raw ∈ pool c.program.statements, ∀ ch ∈ raw.toList, ch.toNat ≤ 0xFF ∧ ch ≠ '\x85')
    (outside : ∀ name ∈ c.externals, name ≠ "main" ∧ name ≠ "_start" ∧ name ≠ "exit")
    (fits : c.program.footprint ≤ memorySize)
    (passive : ∀ name routine, routine? name = some routine → routine.Passive) (world : World) :
    ∃ image start, Assembly.Image.ofText c.assembly = .ok image ∧
      load c.assembly routine? world = .ok (⟨image, routine?⟩, start) ∧
      let visited := fun limit =>
        (start.visits ⟨image, routine?⟩ Session.unobserved limit).map Session.Visit.index
      (∀ limit, (visited limit).Nodup) ∧
      Straight (fun name => name ∈ c.externals ∧ routine? name = none) image.instructions.size
        (fun limit => (Execution.ofText c.assembly routine? world limit).result) visited := by
  have latin := isLatin_of_mem latin
  obtain ⟨image, blocks, read, assembles⟩ := exists_assembles_of_isLatin compiled latin
  have loaded := @load_eq _ routine? _ _ _ read assembles world
  have ran : ∀ limit, (Execution.ofText c.assembly routine? world limit).result = _ :=
    result_ofText loaded
  obtain ⟨order, once, follows⟩ := exists_order compiled
    (fun name member => ⟨(outside name member).1, (outside name member).2.1⟩) fits passive assembles
    world
  refine ⟨image, _, read, loaded, fun limit => ?_, ?_⟩
  · exact (once.nodup_iff.mpr List.nodup_range).sublist (follows _).sublist
  obtain ⟨n, s', result, short, ends, outcome⟩ :=
    exists_ends_straight compiled latin outside fits passive read assembles world
  have exceeded : ∀ limit : Int, limit < n →
      (Execution.ofText c.assembly routine? world limit).result = .error (.outOfSteps limit) :=
    fun limit few => (ran limit).trans (ends.run_short rfl rfl few)
  rcases outcome with ⟨value, rfl, rfl⟩ | ⟨fault, rfl, ordinary⟩
  · refine .returns (signed 32 value) (wrap 8 (signed 32 value)) (fun limit enough => ?_) exceeded
    have all : order.length = image.instructions.size := once.length_eq.trans List.length_range
    rw [ran, ends.run rfl enough, follows.visits_eq all ends.steps.1 rfl enough]
    exact ⟨rfl, once⟩
  · refine .faults short ordinary (fun limit enough => ?_) exceeded
    rw [ran, ends.run rfl enough]
    rfl

/-- A division by what one routine finds in a register, and a name that no routine has. -/
theorem run_straight_line_of_register :
    let peek : Routine Nat := fun world m _ => (world + 1, m, .ok (some (m.get .rbx)))
    let routine? := fun name => if name = "f" then some peek else none
    ∃ c image start, ofSource ⟨false, none⟩ "7 / f(\"é\") - g(1);" = .ok c ∧
      Assembly.Image.ofText c.assembly = .ok image ∧
      load c.assembly routine? 0 = .ok (⟨image, routine?⟩, start) ∧
      let visited := fun limit =>
        (start.visits ⟨image, routine?⟩ Session.unobserved limit).map Session.Visit.index
      (∀ limit, (visited limit).Nodup) ∧
      Straight (fun name => name ∈ c.externals ∧ routine? name = none) image.instructions.size
        (fun limit => (Execution.ofText c.assembly routine? 0 limit).result) visited := by
  intro peek routine?
  let program : Program :=
    ⟨[.binary .subtract ⟨11, 12⟩ (.binary .divide ⟨2, 3⟩ (.number 7 ⟨0, 1⟩)
        (.call "f" [.string "é" ⟨6, 9⟩] ⟨4, 10⟩) ⟨0, 10⟩)
      (.call "g" [.number 1 ⟨15, 16⟩] ⟨13, 17⟩) ⟨0, 17⟩], ⟨[]⟩⟩
  have parsed : (Parsing.ofSource "7 / f(\"é\") - g(1);").result = .ok program := by cbv
  have literals : pool program.statements = ["é"] := by cbv
  have called : program.statements.flatMap callees = ["f", "g"] := by cbv
  have emitted : (lowerStatements false (pool program.statements) 1 program.statements).failure? =
      none := by
    simp (disch := decide) only [program, lowerStatements, lower, lowerArguments,
      Emission.spell_of_lt]
    rfl
  obtain ⟨c, compiled, same⟩ := @exists_ofSource ⟨false, none⟩ _ _ parsed emitted
    (Text.isWritable_of_lt (by decide))
  have externals : c.externals = ["f", "g"] := by
    rw [externals_eq compiled, same, called]
    cbv
  have fits : program.footprint ≤ memorySize := by
    have length : program.data.length = 2 := by cbv
    have depth : program.stackDepth = 2 := by cbv
    rw [Program.footprint, length, depth]
    decide
  have passive : ∀ name routine, routine? name = some routine → routine.Passive := by
    intro name routine found world m words
    by_cases isF : name = "f"
    · cases (if_pos isF).symm.trans found
      exact ⟨_, _, rfl⟩
    · cases (if_neg isF).symm.trans found
  obtain ⟨image, start, straight⟩ := run_straight_line compiled (by simp [same, literals])
    (by simp [externals]) (same ▸ fits) passive 0
  exact ⟨c, image, start, compiled, straight⟩

theorem outOfSteps_of_long {limit : Int} (long : Text.isWritable limit = false) :
    Fault.outOfSteps limit = .unwritable := by
  unfold Fault.outOfSteps
  rw [long]
  rfl

theorem isWritable_of_long_limit : Text.isWritable (-10 ^ Text.digitLimit) = false := by
  have size (k : Nat) : (-10 ^ k : Int).natAbs = Nat.pow 10 k := by
    rw [Int.natAbs_neg, Int.natAbs_pow]
    rfl
  unfold Text.isWritable
  rw [size, decide_eq_false_iff_not]
  exact Nat.lt_irrefl _

/-- A budget below zero that has one digit more than can be written: the run is out of steps, and
cannot tell of how many. -/
theorem result_of_long_limit :
    ∃ c, ofSource ⟨false, none⟩ "1;" = .ok c ∧
      (Execution.ofText c.assembly (fun _ => none) () (-10 ^ Text.digitLimit)).result =
        .error .unwritable := by
  obtain ⟨c, compiled, same⟩ := exists_ofSource_one none
  have literals : pool c.program.statements = [] := by
    rw [same]
    cbv
  have externals : c.externals = [] := by
    rw [externals_eq compiled, same]
    cbv
  have fits : c.program.footprint ≤ memorySize := by
    rw [same]
    decide
  have latin : ∀ raw ∈ pool c.program.statements, ∀ ch ∈ raw.toList, isLatin ch = true := by
    simp [literals]
  obtain ⟨image, blocks, read, assembles⟩ := exists_assembles_of_isLatin compiled latin
  obtain ⟨n, s', result, -, ends, -⟩ := @exists_ends_straight Unit (fun _ => none) _ _ c image
    blocks compiled latin (by simp [externals]) fits (fun _ _ found => by cases found) read
    assembles ()
  have negative : (-10 ^ Text.digitLimit : Int) < n := by
    have positive : (0 : Int) < 10 ^ Text.digitLimit := Int.pow_pos (by decide)
    omega
  have loaded : load c.assembly (fun _ => none) () =
      .ok (⟨image, _⟩, .fresh image.data.toList ()) :=
    load_eq read assembles ()
  refine ⟨c, compiled, ?_⟩
  rw [result_ofText loaded, ends.run_short rfl rfl negative,
    outOfSteps_of_long isWritable_of_long_limit]

end Compilation

end Reckon
