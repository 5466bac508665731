import Reckon.Compilation
import Reckon.Machine.Execution
import Reckon.Proofs.Machine.ConsoleAnswers
import Reckon.Proofs.Machine.Programs
import Reckon.Proofs.Stopping

/-!
# Compiled programs run as they are evaluated

A program that was compiled from a source text, run by the machine with enough steps, makes the
calls of its evaluation and ends as its evaluation does: with the value of the last statement, with
the word given to `exit`, or with the same fault (`Compilation.run_eq_evaluate`). A run that is not
stopped executes each instruction of the program once.

The text of a program is read as the listing it was generated from, so the machine has the code, the
labels and the data that the evaluation relies on (`Program.hosts_of_assembles`). A program fits
into memory if its data, its variables and the deepest stack of its statements do
(`Program.footprint`).
-/

namespace Reckon

open Code

/-! ## Listings -/

namespace Code

theorem map_literalBytes {literals : List String} {blocks : List (List UInt8)}
    (areBlocks : List.Forall₂ IsBlock literals blocks) : literals.map literalBytes = blocks := by
  induction areBlocks with
  | nil => rfl
  | cons isBlock _ ih =>
    rw [List.map_cons, ih, literalBytes, show Assembly.stringBytes _ = _ from isBlock]

theorem literalData_eq (literals : List String) :
    literalData literals = poolBytes (literals.map literalBytes) := by
  rw [literalData, poolBytes, List.flatMap_map]

theorem codeOf_literalLines (literals : List String) : codeOf (literalLines literals) = [] := by
  rw [codeOf, List.filterMap_eq_nil_iff, literalLines_eq]
  split
  · exact List.forall_mem_nil _
  · refine List.forall_mem_cons.mpr ⟨rfl, fun line member => ?_⟩
    obtain ⟨⟨raw, place⟩, -, inside⟩ := List.mem_flatMap.mp member
    rcases List.mem_cons.mp inside with rfl | last
    · rfl
    · rw [List.mem_singleton.mp last]
      rfl

theorem Listing.codeOf_codeLines (listing : Listing) :
    codeOf listing.codeLines = codeOf (entryCode listing.freestanding ++
      (prologueCode listing.slots ++ listing.body ++ epilogue)) := by
  rw [Listing.codeLines, entry_eq, prologue_eq]
  simp only [codeOf_append, List.append_assoc]
  rfl

theorem Listing.codeOf_lines (listing : Listing) :
    codeOf listing.lines = codeOf listing.codeLines := by
  show codeOf (listing.codeLines ++ literalLines listing.literals ++ [.directive ".section" _]) = _
  rw [codeOf_append, codeOf_append, codeOf_literalLines, List.append_nil]
  exact List.append_nil _

end Code

/-! ## Memory -/

namespace Program

open Machine

/-- The greatest number of words on the operand stack of a program. -/
def stackDepth (program : Program) : Nat :=
  (program.statements.map (deepest 0)).foldr max 0

/-- The number of bytes of memory that a program needs: those below its data, the data, the operand
stack, the variables, and two words around the frame. -/
def footprint (program : Program) : Nat :=
  Assembly.dataBase + program.data.length + 8 * program.stackDepth +
    frameSize program.table.size + 16

theorem deepest_le_stackDepth {program : Program} {e : Expr} (member : e ∈ program.statements) :
    deepest 0 e ≤ program.stackDepth := by
  exact List.le_max_of_le (List.mem_map_of_mem member) (Nat.le_refl _)

variable {program : Program}

/-- The memory of a program that is not too large. -/
def layout (program : Program) (fits : program.footprint ≤ memorySize) : Layout where
  data := program.data
  count := program.table.size
  fits := by
    unfold footprint at fits
    unfold frameBase
    omega

theorem room_layout (fits : program.footprint ≤ memorySize) {e : Expr}
    (member : e ∈ program.statements) : (program.layout fits).Room (deepest 0 e) := by
  have shallow := deepest_le_stackDepth member
  unfold footprint at fits
  unfold Layout.Room Layout.floor frameBase
  show Assembly.dataBase + program.data.length + 8 * deepest 0 e ≤
    memorySize - 16 - frameSize program.table.size
  omega

variable {World : Type} {answer? : String → Option (Answer World)}
  {routine? : String → Option (Routine World)}

theorem data_eq {listing : Listing} {image : Assembly.Image} {blocks : List (List UInt8)}
    (assembles : listing.Assembles image blocks)
    (literals : listing.literals = pool program.statements) :
    image.data.toList = program.data := by
  rw [assembles.data, Program.data, literalData_eq, ← literals,
    map_literalBytes assembles.areBlocks]

/-- What is read from the text of a program hosts the evaluation of the program. -/
theorem hosts_of_assembles {listing : Listing} {image : Assembly.Image} {blocks : List (List UInt8)}
    (assembles : listing.Assembles image blocks)
    (literals : listing.literals = pool program.statements)
    (fits : program.footprint ≤ memorySize)
    (serves : ∀ name, Serves program.data (answer? name) (routine? name)) :
    Hosts ⟨image, routine?⟩ (program.environment answer?) (program.layout fits)
      (pool program.statements) where
  leaves name notMain notStart := by
    rw [assembles.get?_codeLabels, if_neg notMain, if_neg notStart]
  labelled raw member := by
    have same := map_literalBytes assembles.areBlocks
    rw [literals] at same
    refine ⟨program.address raw, rfl, ?_⟩
    rw [assembles.get?_dataLabels, ← same]
    refine ⟨_, ?_, rfl, ?_⟩
    · rw [List.length_map]
      exact List.idxOf_lt_length_of_mem member
    · rw [Program.address, literalData_eq, length_poolBytes, List.map_take]
  serves := serves

end Program

/-! ## Compiled programs -/

namespace Compilation

open Machine

theorem usable_of_generate {options : Options} {program : Program} {listing : Listing}
    (generated : (generate options program).result = .ok listing)
    (outside : ∀ name ∈ (generate options program).externals, name ≠ "main" ∧ name ≠ "_start") :
    (lowerStatements options.comments (pool program.statements) 1 program.statements).Usable := by
  rw [externals_generate] at outside
  exact ⟨(generate_eq_ok_iff.mp generated).1,
    fun name member => outside name (by simpa using member)⟩

variable {World : Type} {routine? : String → Option (Routine World)} {listing : Listing}
  {image : Assembly.Image} {blocks : List (List UInt8)}

/-- The session at the entry point of what is read from a listing. -/
theorem load_eq (read : Assembly.Image.ofText listing.text = .ok image)
    (assembles : listing.Assembles image blocks) (world : World) :
    load listing.text routine? world =
      .ok (⟨image, routine?⟩, .fresh image.data.toList world) := by
  have started : image.codeLabels.get? "_start" = some 0 := by
    rw [assembles.get?_codeLabels, if_neg (by decide), if_pos rfl]
  rw [load, read, ok_bind, Session.start, Machine.entry, started]
  rfl

theorem ofText_eq {text : String} {setup : Setup World} {start : Session World} {world : World}
    (loaded : load text routine? world = .ok (setup, start)) (limit : Int) :
    Execution.ofText text routine? world limit =
      let ran := start.run setup Session.unobserved limit
      ⟨ran.2, ran.1.world, ran.1.calls, runLog start ran.1 ran.2⟩ := by
  rw [Execution.ofText, loaded]

theorem result_ofText {text : String} {setup : Setup World} {start : Session World} {world : World}
    (loaded : load text routine? world = .ok (setup, start)) (limit : Int) :
    (Execution.ofText text routine? world limit).result =
      (start.run setup Session.unobserved limit).2 :=
  congrArg Execution.result (ofText_eq loaded limit)

theorem codeAt_of_assembles (assembles : listing.Assembles image blocks) :
    CodeAt image 0 (entryCode listing.freestanding ++
      (prologueCode listing.slots ++ listing.body ++ epilogue)) := by
  refine ⟨[], [], ?_, rfl⟩
  rw [assembles.instructions, Listing.codeOf_codeLines, List.nil_append, List.append_nil]

variable {options : Options} {source : String} {c : Compilation}
  {answer? : String → Option (Answer World)}

/-- The text of a compiled program is loaded, and its run is stopped as its evaluation says, if that
leaves no answer open. -/
theorem exists_stops (compiled : ofSource options source = .ok c)
    (latin : ∀ raw ∈ pool c.program.statements, ∀ ch ∈ raw.toList, isLatin ch = true)
    (outside : ∀ name ∈ c.externals, name ≠ "main" ∧ name ≠ "_start")
    (fits : c.program.footprint ≤ memorySize)
    (serves : ∀ name, Serves c.program.data (answer? name) (routine? name)) (world : World) :
    let outcome := c.program.evaluate answer? world
    let total := (codeOf c.listing.lines).length
    outcome.1 ≠ .error .unanswered →
    ∃ setup start, load c.assembly routine? world = .ok (setup, start) ∧ start.steps = 0 ∧
      ∃ n s', n ≤ total ∧ (∀ word, outcome.1 = .ok word → n = total) ∧
        Session.Stops setup n start s' (stopOf outcome.1) ∧ s'.world = outcome.2.world ∧
        s'.calls = outcome.2.calls := by
  intro outcome total known
  obtain ⟨parsed, generated, externals⟩ := stages_of_ofSource compiled
  obtain ⟨image, blocks, read, assembles⟩ :=
    (wellFormed_of_generate parsed generated latin).exists_assembles
  obtain ⟨-, -, listing⟩ := generate_eq_ok_iff.mp generated
  have literals : c.listing.literals = pool c.program.statements := by rw [← listing]
  have slots : c.listing.slots = (c.program.layout fits).count := by rw [← listing]; rfl
  have body : c.listing.body = (lowerStatements options.comments (pool c.program.statements) 1
      c.program.statements).lines := by rw [← listing]
  have hosts := Program.hosts_of_assembles assembles literals fits serves
  have usable := usable_of_generate generated (externals ▸ outside)
  have follows := simulates_lowerStatements hosts (Program.sourced_of_ofSource parsed) usable
    (fun raw member => by simpa [pool] using member)
    (fun e member => Program.room_layout fits member) 0
  rw [← body] at follows
  have located := codeAt_of_assembles assembles
  have labelled := assembles.get?_codeLabels "main"
  have count := c.listing.codeOf_lines.trans c.listing.codeOf_codeLines
  rw [slots] at located count
  refine ⟨_, _, load_eq read assembles world, rfl, ?_⟩
  have stopped := stops_program hosts located labelled follows world known
  rw [← count] at stopped
  rw [Program.data_eq assembles literals]
  exact stopped

/-- Compiled programs run as they are evaluated. Take a source text that compiles, with any options,
into a program

* whose string literals consist of characters up to U+00FF other than U+0085,
* that calls neither `main` nor `_start`, which are labels of its own, and
* whose data, variables and operands fit into memory.

Run its assembly text with routines that do what answers say, and with a step for each of its
instructions. If the evaluation of the program meets no answer that is left open, and it meets none
if the answers are for all words, then the run makes the same calls as the evaluation and leaves the
same world; and

* if the evaluation gives a word, the run ends with its low half after as many steps as there are
  instructions;
* if the evaluation calls `exit`, the run ends with the low half of the word that `exit` is given;
* if the evaluation raises a fault, the run is stopped by that fault, on some line of the text.

The evaluation never gets stuck. -/
theorem run_eq_evaluate (compiled : ofSource options source = .ok c)
    (latin : ∀ raw ∈ pool c.program.statements, ∀ ch ∈ raw.toList, ch.toNat ≤ 0xFF ∧ ch ≠ '\x85')
    (outside : ∀ name ∈ c.externals, name ≠ "main" ∧ name ≠ "_start")
    (fits : c.program.footprint ≤ memorySize)
    (serves : ∀ name, Serves c.program.data (answer? name) (routine? name)) {limit : Int}
    (enough : (codeOf c.listing.lines).length ≤ limit) (world : World) :
    let run := Execution.ofText c.assembly routine? world limit
    let outcome := c.program.evaluate answer? world
    ((∀ name answer, answer? name = some answer → answer.Total) →
      outcome.1 ≠ .error .unanswered) ∧
    (outcome.1 ≠ .error .unanswered →
      run.world = outcome.2.world ∧ run.calls = outcome.2.calls ∧
        match outcome.1 with
        | .ok word =>
          run.result = .ok ⟨(word.setWidth 32).toInt, (word.setWidth 8).toNat,
            (codeOf c.listing.lines).length⟩
        | .error (.exit word) =>
          ∃ steps ≤ (codeOf c.listing.lines).length,
            run.result = .ok ⟨(word.setWidth 32).toInt, (word.setWidth 8).toNat, steps⟩
        | .error (.fault fault) =>
          ∃ raised, run.result = .error raised ∧ raised.withoutLine = fault.withoutLine
        | .error .stuck | .error .unanswered => False) := by
  dsimp only
  refine ⟨fun total => c.program.evaluate_ne_unanswered total world, fun answered => ?_⟩
  have latin := isLatin_of_mem latin
  obtain ⟨setup, start, loaded, zero, n, s', short, full, stops, sameWorld, sameCalls⟩ :=
    exists_stops compiled latin outside fits serves world answered
  have within : (n : Int) ≤ limit := by omega
  rw [ofText_eq loaded limit]
  generalize c.program.evaluate answer? world = outcome at answered full stops sameWorld sameCalls ⊢
  obtain ⟨(word | fault | _ | _) | word, store⟩ := outcome
  · dsimp only
    rw [Session.Stops.run_exit stops zero within]
    exact ⟨sameWorld, sameCalls, n, short, rfl⟩
  · obtain ⟨raised, same, ran⟩ := Session.Stops.exists_fault stops zero
    dsimp only
    rw [ran limit within]
    exact ⟨sameWorld, sameCalls, raised, rfl, same⟩
  · obtain ⟨_, _, ⟨⟩⟩ := stops
  · exact absurd rfl answered
  · dsimp only
    have low : (((word.setWidth 32).setWidth 64).setWidth 32 : BitVec 32) = word.setWidth 32 := by
      simp
    have byte : (((word.setWidth 32).setWidth 64).setWidth 8 : BitVec 8) = word.setWidth 8 := by
      simp
    rw [Session.Stops.run_exit stops zero within, low, byte, full word rfl]
    exact ⟨sameWorld, sameCalls, rfl⟩

/-- A division, an assignment and a call of a console routine, which looks at the memory. The
remainder of the division is still in the third place for arguments. -/
theorem run_eq_evaluate_of_console :
    ∃ c, ofSource ⟨false, none⟩ "x = 7 / 2; puts(\"ab\", x) - 10;" = .ok c ∧
      let run := Execution.ofText c.assembly (console? String.append) "" 100
      run.world = "ab\n" ∧ run.calls = #[⟨"puts", [Assembly.dataBase, 3, 1, 0, 0, 0]⟩] ∧
        run.result = .ok ⟨-7, 249, 35⟩ := by
  let program : Program :=
    ⟨[.binary .assign ⟨2, 3⟩ (.var 0 "x" ⟨0, 1⟩)
        (.binary .divide ⟨6, 7⟩ (.number 7 ⟨4, 5⟩) (.number 2 ⟨8, 9⟩) ⟨4, 9⟩) ⟨0, 9⟩,
      .binary .subtract ⟨25, 26⟩
        (.call "puts" [.string "ab" ⟨16, 20⟩, .var 0 "x" ⟨22, 23⟩] ⟨11, 24⟩)
        (.number 10 ⟨27, 29⟩) ⟨11, 29⟩], ⟨["x"]⟩⟩
  have parsed : (Parsing.ofSource "x = 7 / 2; puts(\"ab\", x) - 10;").result = .ok program := by cbv
  have literals : pool program.statements = ["ab"] := by cbv
  have data : program.data = [97, 98, 0] := by cbv
  obtain ⟨lines, emitted, count⟩ : ∃ lines, lowerStatements false (pool program.statements) 1
      program.statements = ⟨lines, ["puts"], none⟩ ∧ (codeOf lines).length = 25 := by
    rw [literals]
    simp (disch := decide) only [program, lowerStatements, lower, lowerArguments, store,
      Emission.reach, Emission.spell_of_lt]
    exact ⟨_, rfl, rfl⟩
  have externals : (generate ⟨false, none⟩ program).externals = ["puts"] := by
    rw [externals_generate, emitted]
    cbv
  have generated : (generate ⟨false, none⟩ program).result = .ok ⟨false, 1, lines, ["ab"]⟩ :=
    generate_eq_ok_iff.mpr (by
      rw [emitted, literals]
      exact ⟨rfl, Text.isWritable_of_lt (by decide), by cbv⟩)
  have compiled := ofSource_of_stages parsed generated
  have total : (codeOf (Listing.lines ⟨false, 1, lines, ["ab"]⟩)).length = 35 := by
    rw [Listing.codeOf_lines, Listing.codeOf_codeLines]
    simp only [codeOf_append, List.length_append, count]
    cbv
  have fits : program.footprint ≤ memorySize := by
    have depth : program.stackDepth = 3 := by cbv
    rw [Program.footprint, data, depth]
    decide
  have enough : ((codeOf (Listing.lines ⟨false, 1, lines, ["ab"]⟩)).length : Int) ≤ 100 := by
    rw [total]
    decide
  let answer? := consoleAnswer? String.append [97, 98, 0]
  have serves : ∀ name, Serves program.data (answer? name) (console? String.append name) := by
    rw [data]
    exact serves_console String.append (by decide)
  have value : (program.evaluate answer? "").1 = .ok (BitVec.ofNat 64 4294967289) := by cbv
  have last : (program.evaluate answer? "").2.world = "ab\n" := by cbv
  have calls : (program.evaluate answer? "").2.calls =
      #[⟨"puts", [Assembly.dataBase, 3, 1, 0, 0, 0]⟩] := by
    cbv
  have answered : (program.evaluate answer? "").1 ≠ .error .unanswered := by
    rw [value]
    exact fun same => by cases same
  obtain ⟨-, runs⟩ := run_eq_evaluate compiled (by simp [literals]) (by simp [externals]) fits
    serves enough ""
  have ran := runs answered
  refine ⟨_, compiled, ?_⟩
  dsimp only at ran ⊢
  rw [total, value, last, calls] at ran
  exact ran

end Compilation

end Reckon
