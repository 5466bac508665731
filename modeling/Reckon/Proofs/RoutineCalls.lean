import Reckon.Proofs.CallSites
import Reckon.Proofs.CompiledRuns
import Reckon.Proofs.Division
import Reckon.Proofs.Leaving
import Reckon.Proofs.Machine.Recording
import Reckon.Proofs.Machine.Resumption
import Reckon.Proofs.Stopping

/-!
# The routines that a program really calls

The external names of a compiled program are read off its tree. A run that comes to its end has
called all of them and nothing else, each at every place where it is written, in the order of
evaluation (`Compilation.externals_are_called`). Routines may look at the whole machine: a run of
theirs is recorded, with what they came to (`Compilation.Loads.exists_progress`).

The last instruction that such a run executes is the system call or the call of `exit` at the end of
the entry point (`Session.leaves_of_step`).
-/

namespace Reckon

theorem nodup_eraseDups {α : Type} [BEq α] [LawfulBEq α] :
    ∀ values : List α, values.eraseDups.Nodup
  | [] => List.nodup_nil
  | first :: rest => by
    rw [List.eraseDups_cons, List.nodup_cons]
    refine ⟨fun again => ?_, nodup_eraseDups _⟩
    have other := (List.mem_filter.mp (List.mem_eraseDups.mp again)).2
    rw [beq_self_eq_true] at other
    cases other
termination_by values => values.length
decreasing_by exact Nat.lt_succ_of_le (List.length_filter_le _ _)

/-! ## The last instruction of a run -/

namespace Machine

open Assembly (Instruction)

variable {World : Type} {setup : Setup World}

namespace Session

variable {s s' s₁ : Session World} {i : Instruction} {n : Nat}

theorem exit?_callRoutine {routine : Routine World} (readOnly : routine.ReadOnly) (name : String) :
    (s.callRoutine i name routine).1.machine.exit? = s.machine.exit? := by
  rcases callRoutine_cases s i name with ⟨fault, refused⟩ | run
  · have stopped : s.callRoutine i name routine = _ := refused World s.world routine
    rw [stopped]
    rfl
  · have alone := readOnly s.world s.machine s.machine.registers.arguments
    have ran : s.callRoutine i name routine = _ := run World s.world routine
    rw [ran]
    generalize routine s.world s.machine s.machine.registers.arguments = outcome at alone
    obtain ⟨world, m, fault | returned⟩ := outcome
    · exact congrArg Machine.exit? alone
    · have untouched : m.exit? = s.machine.exit? := congrArg Machine.exit? alone
      exact untouched

/-- The instruction asks the system for something, or calls `exit`. -/
def Leaves (i : Instruction) : Prop :=
  Opcode.ofName? i.mnemonic = some .syscall ∨
    Opcode.ofName? i.mnemonic = some .call ∧ i.operands = [.symbol "exit"]

theorem exit?_call
    (readOnly : ∀ name routine, setup.routine? name = some routine → routine.ReadOnly)
    (stays : i.operands ≠ [.symbol "exit"]) :
    (s.call setup i).1.machine.exit? = s.machine.exit? := by
  unfold call
  split
  · next name single =>
    cases setup.image.codeLabels.get? name with
    | some target =>
      have pushed := exit?_push s.machine s.machine.counter
      show (s.machine.callLabel target).1.exit? = _
      unfold callLabel
      split
      · next entered => rw [entered] at pushed; exact pushed
      · next entered => rw [entered] at pushed; exact pushed
    | none =>
      dsimp only
      rw [if_neg fun exits => stays (by rw [single, exits])]
      cases named : setup.routine? name with
      | none => rfl
      | some routine => exact exit?_callRoutine (readOnly name routine named) name
  · rfl
  · rfl

theorem exit?_returnToCaller :
    (s.machine.orUnchanged (s.machine.returnToCaller i)).1.exit? = s.machine.exit? := by
  unfold returnToCaller
  split
  · cases popped : s.machine.pop with
    | error fault => rfl
    | ok word =>
      obtain ⟨target, raised⟩ := word
      have untouched := exit?_of_pop popped
      exact untouched
  · rfl

/-- Only an instruction that leaves ends the program. -/
theorem leaves_of_step
    (readOnly : ∀ name routine, setup.routine? name = some routine → routine.ReadOnly)
    (labels : ∀ name, name ≠ "main" → name ≠ "_start" → setup.image.codeLabels.get? name = none)
    (ended : (s.step setup i).1.machine.exit? ≠ s.machine.exit?) : Leaves i := by
  by_contra other
  obtain ⟨notSystemCall, notExit⟩ := not_or.mp other
  apply ended
  show (s.moved.execute setup i).1.machine.exit? = s.moved.machine.exit?
  by_cases calls : Opcode.ofName? i.mnemonic = some .call
  · unfold execute
    simp only [calls]
    exact exit?_call readOnly fun exits => notExit ⟨calls, exits⟩
  by_cases returns : Opcode.ofName? i.mnemonic = some .ret
  · unfold execute
    simp only [returns]
    exact exit?_returnToCaller
  · -- Other instructions do the same in a program without routines.
    let bare : Setup World := ⟨setup.image, fun _ => none⟩
    have relocatable : bare.Relocatable := ⟨labels, fun name routine found => by cases found⟩
    have same : s.moved.execute setup i = s.moved.execute bare i := by
      unfold execute
      cases named : Opcode.ofName? i.mnemonic with
      | none => rfl
      | some opcode => cases opcode <;> first | rfl | exact absurd named calls
    rw [same]
    have stays : Stays i.mnemonic i.operands :=
      ⟨returns, notSystemCall, fun isCall => absurd isCall calls⟩
    exact (execute_stays s.moved relocatable stays).2

theorem Steps.exists_last (steps : Steps setup (n + 1) s s') :
    ∃ s₁ i, Steps setup n s s₁ ∧ s₁.machine.exit? = none ∧ s₁.fetch setup = .ok i ∧
      s₁.step setup i = (s', none) := by
  induction n generalizing s with
  | zero =>
    cases steps with
    | head running fetched stepped later =>
      cases later
      exact ⟨s, _, .refl s, running, fetched, stepped⟩
  | succ n ih =>
    cases steps with
    | head running fetched stepped later =>
      obtain ⟨s₁, i, first, last⟩ := ih later
      exact ⟨s₁, i, .head running fetched stepped first, last⟩

/-- The visits of a run are those of its first steps and then those of the rest. -/
theorem Steps.exists_visits (steps : Steps setup n s s') (allowed : Nat) :
    ∃ visits, visitsFor setup unobserved (n + allowed) s =
      visits ++ visitsFor setup unobserved allowed s' := by
  induction steps with
  | refl => exact ⟨[], by rw [Nat.zero_add, List.nil_append]⟩
  | head running fetched stepped _ ih =>
    obtain ⟨visits, same⟩ := ih
    rw [Nat.add_right_comm, visitsFor, running, fetched]
    simp only [stepped, unobserved, Bool.false_eq_true, if_false]
    exact ⟨_ :: visits, congrArg (List.cons _) same⟩

/-- The last visit of a run that comes to its end is at the last of its steps. -/
theorem getLast?_visits {value : Int} {allowed : Nat} (steps : Steps setup n s s₁)
    (running : s₁.machine.exit? = none) (fetched : s₁.fetch setup = .ok i)
    (stepped : s₁.step setup i = (s', none)) (ended : s'.machine.exit? = some value)
    (enough : n + 1 ≤ allowed) :
    (visitsFor setup unobserved allowed s).getLast? =
      some ⟨s₁.machine.counter, i, s₁.machine.registers⟩ := by
  obtain ⟨more, rfl⟩ := Nat.exists_eq_add_of_le enough
  obtain ⟨visits, same⟩ := steps.exists_visits (more + 1)
  have finished : visitsFor setup unobserved more s' = [] := by
    cases more with
    | zero => rfl
    | succ more => rw [visitsFor, ended]
  rw [Nat.add_assoc, Nat.add_comm 1, same, visitsFor, running, fetched]
  simp only [stepped, unobserved, Bool.false_eq_true, if_false]
  rw [finished, List.getLast?_append]
  rfl

/-- A run that comes to its end has taken steps to where it ended. -/
theorem exists_steps_of_run {limit : Int} {e : Exit}
    (ran : (s.run setup unobserved limit).2 = .ok e) :
    ∃ k ≤ s.allowance limit, ∃ value, Steps setup k s (s.run setup unobserved limit).1 ∧
      (s.run setup unobserved limit).1.machine.exit? = some value ∧ e.value = signed 32 value := by
  rw [run_eq_watch] at ran ⊢
  unfold watch at ran ⊢
  cases halted : watchFor setup unobserved.watch (s.allowance limit) () s with
  | mk s' halt =>
    rw [halted] at ran
    cases halt with
    | ended value =>
      obtain ⟨k, within, steps, last⟩ := exists_steps_of_watchFor halted rfl
      cases ran
      exact ⟨k, within, value, steps, last value rfl, rfl⟩
    | outOfSteps | pastEnd | stopped | faulted => cases ran

end Session

end Machine

/-! ## Code that leaves -/

namespace Code

theorem Line.Balances.exists_shifts {slots floor h h' : Nat} {allowed : String → Prop}
    {lines : List Line} {line : Line} (balances : Line.Balances slots floor allowed lines h h')
    (member : line ∈ lines) : ∃ h₁ h₂, line.Shifts slots floor allowed h₁ h₂ := by
  induction balances with
  | nil => cases member
  | cons shifts _ ih =>
    rcases List.mem_cons.mp member with rfl | later
    · exact ⟨_, _, shifts⟩
    · exact ih later

open Machine.Session (Leaves)

variable {i : Assembly.Instruction}

theorem not_leaves_of_opcode {j : Instruction} (isCode : (Line.instruction j).code? = some i.code)
    (notSystemCall : j.opcode ≠ .syscall) (notCall : j.opcode ≠ .call) : ¬ Leaves i := by
  have same : j.opcode.name = i.mnemonic := congrArg Prod.fst (Option.some.inj isCode)
  rw [Leaves, ← same, Opcode.ofName?_name]
  rintro (asks | ⟨calls, -⟩)
  · exact notSystemCall (Option.some.inj asks)
  · exact notCall (Option.some.inj calls)

/-- Code that keeps account of the stack leaves by calls of `exit` only. -/
theorem Line.Shifts.mnemonic_of_leaves {slots floor h h' : Nat} {allowed : String → Prop}
    {line : Line} (shifts : line.Shifts slots floor allowed h h')
    (isCode : line.code? = some i.code) (leaves : Leaves i) :
    i.mnemonic = "call" ∧ allowed "exit" := by
  cases shifts with
  | push | pop | pad | unpad =>
    exact absurd leaves (not_leaves_of_opcode isCode Opcode.noConfusion Opcode.noConfusion)
  | plain _ plain =>
    cases plain with
    | remark => cases isCode
    | divide | assign =>
      exact absurd leaves (not_leaves_of_opcode isCode Opcode.noConfusion Opcode.noConfusion)
    | @compute opcode _ _ _ computes =>
      have other (stray : Opcode) (strays : stray.isComputation = false) : opcode ≠ stray := by
        rintro rfl
        cases strays.symm.trans computes
      exact absurd leaves (not_leaves_of_opcode isCode (other .syscall rfl) (other .call rfl))
  | @call name _ _ may =>
    obtain ⟨_, _, _⟩ := i
    cases isCode
    rcases leaves with asks | ⟨-, exits⟩
    · cases asks
    · have same := Assembly.Operand.symbol.inj (List.head_eq_of_cons_eq exits)
      exact ⟨rfl, same ▸ may⟩

/-- Of the entry point, only the last line leaves: by a system call if the program is
freestanding. -/
theorem mnemonic_of_leaves_entry {freestanding : Bool} {line : Line}
    (member : line ∈ entryCode freestanding) (isCode : line.code? = some i.code)
    (leaves : Leaves i) : i.mnemonic = "syscall" ↔ freestanding = true := by
  simp only [entryCode, List.mem_append, List.mem_cons, List.not_mem_nil, or_false] at member
  rcases member with (rfl | rfl | rfl) | last
  · exact absurd leaves (not_leaves_of_opcode isCode Opcode.noConfusion Opcode.noConfusion)
  · obtain ⟨_, _, _⟩ := i
    cases isCode
    rcases leaves with asks | ⟨-, exits⟩
    · cases asks
    · have same := Assembly.Operand.symbol.inj (List.head_eq_of_cons_eq exits)
      exact absurd same (by decide)
  · exact absurd leaves (not_leaves_of_opcode isCode Opcode.noConfusion Opcode.noConfusion)
  · obtain ⟨_, _, _⟩ := i
    cases freestanding with
    | false =>
      rw [if_neg Bool.false_ne_true] at last
      cases List.mem_singleton.mp last
      cases isCode
      exact iff_of_false (show "call" ≠ "syscall" by decide) Bool.false_ne_true
    | true =>
      rw [if_pos rfl] at last
      rcases List.mem_cons.mp last with rfl | last
      · exact absurd leaves (not_leaves_of_opcode isCode Opcode.noConfusion Opcode.noConfusion)
      · cases List.mem_singleton.mp last
        cases isCode
        exact iff_of_true rfl rfl

/-- `main` leaves in its body only. -/
theorem mem_body_of_leaves {slots : Nat} {body : List Line} {line : Line}
    (member : line ∈ prologueCode slots ++ body ++ epilogue) (isCode : line.code? = some i.code)
    (leaves : Leaves i) : line ∈ body := by
  rcases List.mem_append.mp member with first | last
  · rcases List.mem_append.mp first with first | here
    · unfold prologueCode at first
      simp only [List.mem_append, List.mem_cons, List.not_mem_nil, or_false] at first
      rcases first with (rfl | rfl) | lowers
      · exact absurd leaves (not_leaves_of_opcode isCode Opcode.noConfusion Opcode.noConfusion)
      · exact absurd leaves (not_leaves_of_opcode isCode Opcode.noConfusion Opcode.noConfusion)
      · split at lowers
        · cases lowers
        · cases List.mem_singleton.mp lowers
          exact absurd leaves (not_leaves_of_opcode isCode Opcode.noConfusion Opcode.noConfusion)
    · exact here
  · simp only [epilogue, List.mem_cons, List.not_mem_nil, or_false] at last
    rcases last with rfl | rfl | rfl
    all_goals
      exact absurd leaves (not_leaves_of_opcode isCode Opcode.noConfusion Opcode.noConfusion)

end Code

/-! ## Recorded runs of compiled programs -/

namespace Compilation

open Code Machine

variable {World : Type} {routine? : String → Option (Routine World)} {options : Options}
  {source : String} {c : Compilation}

/-- The addresses of the literals of a program, as words. -/
def addressOf (c : Compilation) (raw : String) : Word :=
  BitVec.ofNat 64 (c.program.address raw)

/-- A source text is compiled to a program that can be run: one with literals of characters that the
machine reads, that does not call labels of its own, and that fits into memory. An image is what its
assembly text is read as. -/
structure Loads (options : Options) (source : String) (c : Compilation) (image : Assembly.Image) :
    Prop where
  compiled : ofSource options source = .ok c
  latin : ∀ raw ∈ pool c.program.statements, ∀ ch ∈ raw.toList, isLatin ch = true
  outside : ∀ name ∈ c.externals, name ≠ "main" ∧ name ≠ "_start"
  fits : c.program.footprint ≤ memorySize
  read : Assembly.Image.ofText c.assembly = .ok image
  assembles : ∃ blocks, c.listing.Assembles image blocks

theorem exists_loads (compiled : ofSource options source = .ok c)
    (latin : ∀ raw ∈ pool c.program.statements, ∀ ch ∈ raw.toList, ch.toNat ≤ 0xFF ∧ ch ≠ '\x85')
    (outside : ∀ name ∈ c.externals, name ≠ "main" ∧ name ≠ "_start")
    (fits : c.program.footprint ≤ memorySize) : ∃ image, Loads options source c image := by
  have latin := isLatin_of_mem latin
  obtain ⟨image, blocks, read, assembles⟩ := exists_assembles_of_isLatin compiled latin
  exact ⟨image, compiled, latin, outside, fits, read, blocks, assembles⟩

namespace Loads

variable {image : Assembly.Image}

theorem load_eq (loads : Loads options source c image)
    (routine? : String → Option (Routine World)) (world : World) :
    load c.assembly routine? world =
      .ok (⟨image, routine?⟩, .fresh image.data.toList world) := by
  obtain ⟨blocks, assembles⟩ := loads.assembles
  exact Compilation.load_eq loads.read assembles world

/-- A recorded run of a compiled program makes calls where they are written, as far as it comes. If
it comes to its end, so does the evaluation: with a value, or by a call of `exit`. At every call the
memory holds the data of the program. -/
theorem exists_progress (loads : Loads options source c image)
    {entries : List (Except Fault (Option Int))} {n : Nat}
    {t : Session (Recording (Except Fault (Option Int)))} {result : Except Fault Int}
    (ends : Session.Ends (Setup.recording id (·.HoldsData c.program.data) ⟨image, routine?⟩) n
      (.fresh image.data.toList ⟨entries, True⟩) t result) :
    t.world.passed ∧ ∃ outcome : Except Stop Word,
      Evaluation.Progress c.addressOf (fun _ => True) (c.program.statements.flatMap callSites)
        t.calls.toList outcome ∧
      ∀ value, result = .ok value →
        ∃ word, stopOf outcome = .exit word ∧ value = (word.toNat : Int) := by
  let setup : Setup World := ⟨image, routine?⟩
  let answer? := fun name => (routine? name).map fun _ => recorded id
  let r : Recording (Except Fault (Option Int)) := ⟨entries, True⟩
  have total : ∀ name answer, answer? name = some answer → answer.Total := by
    intro name answer answered world words
    obtain ⟨-, -, rfl⟩ := Option.map_eq_some_iff.mp answered
    exact Option.some_ne_none _
  -- The recorded routines do what answers say, so this run is stopped as its evaluation is.
  obtain ⟨setup', start, loaded, zero, m, s', -, -, ⟨result', ends', same⟩, world, calls⟩ :=
    exists_stops loads.compiled loads.latin loads.outside loads.fits
      (serves_recording id setup c.program.data) r
      (c.program.evaluate_ne_unanswered total r)
  cases (loads.load_eq _ r).symm.trans loaded
  obtain ⟨-, rfl, rfl⟩ := ends.unique ends'
  have exits : ∀ value, result = .ok value →
      ∃ word, stopOf (c.program.evaluate answer? r).1 = .exit word ∧
        value = (word.toNat : Int) := by
    rintro value rfl
    exact same.exists_word
  have keeping : Evaluation.Keeping (c.program.environment answer?) Recording.passed := by
    intro name answer answered world words outcome known passed
    obtain ⟨-, -, rfl⟩ := Option.map_eq_some_iff.mp answered
    cases known
    exact passed
  obtain ⟨passed, made, same, progress⟩ :=
    Evaluation.makes_ofStatements keeping c.program.statements 0 (.initial r) _ _ rfl trivial
  have made : t.calls.toList = made := by
    rw [calls]
    exact same
  rw [made]
  exact ⟨world ▸ passed, _, progress, exits⟩

end Loads

/-! ## What a compiled program calls -/

/-- The calls in the body of a compiled program are those that its statements make. -/
theorem filterMap_callee?_body (compiled : ofSource options source = .ok c) :
    c.listing.body.filterMap Line.callee? = c.program.statements.flatMap callees := by
  obtain ⟨-, generated, -⟩ := stages_of_ofSource compiled
  obtain ⟨complete, -, listing⟩ := generate_eq_ok_iff.mp generated
  rw [← listing]
  exact (named_lowerStatements _ _ _ _).trans (calls_lowerStatements _ _ _ _ complete)

theorem freestanding_iff (compiled : ofSource options source = .ok c)
    (left : options.freestanding? = none) :
    c.listing.freestanding = true ↔ c.externals = [] := by
  obtain ⟨-, generated, externals⟩ := stages_of_ofSource compiled
  obtain ⟨-, -, listing⟩ := generate_eq_ok_iff.mp generated
  rw [← listing, externals, externals_generate, left]
  exact List.isEmpty_iff

/-- An instruction of a compiled program leaves by a system call exactly if the program is
freestanding, unless it is a call of `exit` that is written in the source. -/
theorem mnemonic_of_leaves {i : Assembly.Instruction} (compiled : ofSource options source = .ok c)
    (listed : i.code ∈ codeOf c.listing.lines) (leaves : Session.Leaves i) :
    (i.mnemonic = "syscall" ↔ c.listing.freestanding = true) ∨
      i.mnemonic = "call" ∧ "exit" ∈ c.externals := by
  rw [Listing.codeOf_lines, Listing.codeOf_codeLines] at listed
  obtain ⟨line, member, isCode⟩ := List.mem_filterMap.mp listed
  rcases List.mem_append.mp member with entry | main
  · exact .inl (mnemonic_of_leaves_entry entry isCode leaves)
  · have balances := balances_body compiled fun name called => called
    obtain ⟨_, _, shifts⟩ := balances.exists_shifts (mem_body_of_leaves main isCode leaves)
    exact .inr (shifts.mnemonic_of_leaves isCode leaves)

theorem syscall_mem_lines_iff (compiled : ofSource options source = .ok c) :
    .instruction ⟨.syscall, []⟩ ∈ c.listing.lines ↔ c.listing.freestanding = true := by
  constructor
  · intro member
    let i : Assembly.Instruction := ⟨"syscall", [], 0⟩
    have listed : i.code ∈ codeOf c.listing.lines := List.mem_filterMap.mpr ⟨_, member, rfl⟩
    have leaves : Session.Leaves i := .inl rfl
    rcases mnemonic_of_leaves compiled listed leaves with same | called
    · exact same.mp rfl
    · exact absurd called.1 (by decide)
  · intro freestanding
    simp [Listing.lines, Code.entry, freestanding]

theorem map_name_of_made {address : String → Word} {sites : List CallSite} {calls : List Call}
    (made : List.Forall₂ (CallSite.Made address) sites calls) :
    calls.map Call.name = sites.map CallSite.name := by
  induction made with
  | nil => rfl
  | cons first _ ih => rw [List.map_cons, List.map_cons, ih, first.name]

theorem map_name_flatMap_callSites (statements : List Expr) :
    (statements.flatMap callSites).map CallSite.name = statements.flatMap callees := by
  rw [List.map_flatMap]
  exact congrArg (List.flatMap · statements) (funext map_name_callSites)

/-! ## Runs that come to their end -/

namespace Loads

variable {image : Assembly.Image} {world : World} {n : Nat} {s : Session World} {value : Int}

/-- A program that does not call `exit` comes to its end after the calls that are written in it. -/
theorem map_name_of_exit (loads : Loads options source c image) (stays : "exit" ∉ c.externals)
    (readOnly : ∀ name routine, routine? name = some routine → routine.ReadOnly)
    (steps : Session.Steps ⟨image, routine?⟩ n (.fresh image.data.toList world) s)
    (ended : s.machine.exit? = some value) :
    s.calls.toList.map Call.name = c.program.statements.flatMap callees := by
  obtain ⟨answers, t, ends, calls⟩ :=
    Session.exists_recording_of_exit readOnly steps ended (·.HoldsData c.program.data)
  obtain ⟨-, outcome, progress, exits⟩ := loads.exists_progress ends
  obtain ⟨word, left, -⟩ := exits value rfl
  rw [← map_name_flatMap_callSites, ← calls]
  cases progress with
  | complete _ made => exact map_name_of_made made
  | stopped split _ leaves =>
    -- A program that ends itself calls `exit`, which this one does not.
    obtain ⟨site, rest, begins, exit⟩ := leaves word left
    have called : "exit" ∈ c.externals := by
      rw [externals_eq loads.compiled, List.mem_eraseDups, ← map_name_flatMap_callSites, split,
        begins, ← exit.name]
      simp
    exact absurd called stays

theorem code_mem_of_fetch (loads : Loads options source c image) {i : Assembly.Instruction}
    (fetched : s.fetch ⟨image, routine?⟩ = .ok i) : i.code ∈ codeOf c.listing.lines := by
  obtain ⟨blocks, assembles⟩ := loads.assembles
  unfold Session.fetch at fetched
  split at fetched
  · next found =>
    cases fetched
    rw [Listing.codeOf_lines, ← assembles.instructions]
    exact List.mem_map_of_mem (Array.mem_toList_iff.mpr (Array.mem_of_getElem? found))
  · cases fetched

/-- It leaves by a system call exactly if it is freestanding. -/
theorem exists_last_visit (loads : Loads options source c image) (stays : "exit" ∉ c.externals)
    (readOnly : ∀ name routine, routine? name = some routine → routine.ReadOnly) {allowed : Nat}
    (steps : Session.Steps ⟨image, routine?⟩ n (.fresh image.data.toList world) s)
    (ended : s.machine.exit? = some value) (enough : n ≤ allowed) :
    ∃ visit, (Session.visitsFor ⟨image, routine?⟩ Session.unobserved allowed
        (.fresh image.data.toList world)).getLast? = some visit ∧
      (visit.instruction.mnemonic = "syscall" ↔ c.listing.freestanding = true) := by
  cases n with
  | zero =>
    cases steps
    cases ended
  | succ n =>
    obtain ⟨s₁, i, first, running, fetched, stepped⟩ := steps.exists_last
    refine ⟨_, Session.getLast?_visits first running fetched stepped ended enough, ?_⟩
    obtain ⟨blocks, assembles⟩ := loads.assembles
    have labels : ∀ name, name ≠ "main" → name ≠ "_start" → image.codeLabels.get? name = none := by
      intro name notMain notStart
      rw [assembles.get?_codeLabels, if_neg notMain, if_neg notStart]
    have leaves : Session.Leaves i := by
      refine @Session.leaves_of_step _ ⟨image, routine?⟩ s₁ i readOnly labels ?_
      rw [stepped, running, ended]
      exact Option.some_ne_none value
    rcases mnemonic_of_leaves loads.compiled (loads.code_mem_of_fetch fetched) leaves with
      same | called
    · exact same
    · exact absurd called.2 stays

end Loads

/-- The external names of a program are the routines that it really calls. Take a source text that
compiles, with any options. Its external names are without repetition. They are the names in the
call instructions of the body of `main`, and the routines that its statements call when operands and
arguments are evaluated from left to right, and before the call they belong to; each by its first
appearance. If the way to leave is left open, the code has a system call exactly if there are no
external names.

If moreover

* its string literals consist of characters up to U+00FF other than U+0085,
* it calls none of `main`, `_start` and `exit`,
* its data, variables and operands fit into memory, and
* the routines leave the machine alone, whatever they look at and whether or not they fail,

then a run of its assembly text that comes to its end has called the routines in the call
instructions of the body one after the other, by first call the external names. If the way to leave
is left open, the last instruction that is executed is a system call exactly if there are no
external names. -/
theorem externals_are_called (compiled : ofSource options source = .ok c)
    (routine? : String → Option (Routine World)) (world : World) :
    c.externals.Nodup ∧
    c.externals = (c.listing.body.filterMap Line.callee?).eraseDups ∧
    c.externals = (c.program.statements.flatMap callees).eraseDups ∧
    (options.freestanding? = none →
      (.instruction ⟨.syscall, []⟩ ∈ c.listing.lines ↔ c.externals = [])) ∧
    ((∀ raw ∈ pool c.program.statements, ∀ ch ∈ raw.toList, ch.toNat ≤ 0xFF ∧ ch ≠ '\x85') →
      (∀ name ∈ c.externals, name ≠ "main" ∧ name ≠ "_start" ∧ name ≠ "exit") →
      c.program.footprint ≤ memorySize →
      (∀ name routine, routine? name = some routine → routine.ReadOnly) →
      ∃ setup start, load c.assembly routine? world = .ok (setup, start) ∧
        ∀ limit exit, (Execution.ofText c.assembly routine? world limit).result = .ok exit →
          let called :=
            (Execution.ofText c.assembly routine? world limit).calls.toList.map Call.name
          called = c.listing.body.filterMap Line.callee? ∧ called.eraseDups = c.externals ∧
          (options.freestanding? = none →
            ((start.visits setup Session.unobserved limit).getLast?.map
              (·.instruction.mnemonic) = some "syscall" ↔ c.externals = []))) := by
  have externals := externals_eq compiled
  have body := filterMap_callee?_body compiled
  refine ⟨externals ▸ nodup_eraseDups _, by rw [body, externals], externals, fun left => ?_, ?_⟩
  · rw [syscall_mem_lines_iff compiled, freestanding_iff compiled left]
  intro latin outside fits readOnly
  obtain ⟨image, loads⟩ := exists_loads compiled latin
    (fun name member => ⟨(outside name member).1, (outside name member).2.1⟩) fits
  have stays : "exit" ∉ c.externals := fun called => (outside "exit" called).2.2 rfl
  have loaded := loads.load_eq routine? world
  refine ⟨_, _, loaded, fun limit exit returned => ?_⟩
  rw [ofText_eq loaded limit] at returned ⊢
  obtain ⟨n, within, value, steps, ended, -⟩ := Session.exists_steps_of_run returned
  have names := loads.map_name_of_exit stays readOnly steps ended
  refine ⟨names.trans body.symm, (congrArg List.eraseDups names).trans externals.symm, ?_⟩
  intro left
  obtain ⟨visit, last, leaves⟩ := loads.exists_last_visit stays readOnly steps ended within
  rw [Session.visits, last, Option.map_some, Option.some.injEq, leaves,
    freestanding_iff compiled left]

/-! ## Nested calls -/

/-- A call among the arguments of another, a routine that is called twice, and a literal that is
written twice. -/
def nested : Program :=
  ⟨[.binary .add ⟨17, 18⟩
    (.call "f" [.call "g" [.string "é" ⟨4, 7⟩] ⟨2, 8⟩, .string "a\\n" ⟨10, 15⟩] ⟨0, 16⟩)
    (.call "g" [.string "é" ⟨21, 24⟩] ⟨19, 25⟩) ⟨0, 25⟩], ⟨[]⟩⟩

/-- Routines that count their calls. -/
def tally (name : String) : Option (Routine Nat) :=
  if name = "f" ∨ name = "g" then some fun world m _ => (world + 1, m, .ok (some world)) else none

/-- What these routines answer. -/
def tallied (name : String) : Option (Answer Nat) :=
  if name = "f" ∨ name = "g" then some fun world _ => some (world + 1, .ok (some world)) else none

theorem serves_tallied (data : List UInt8) (name : String) :
    Serves data (tallied name) (tally name) := by
  unfold tallied tally
  by_cases known : name = "f" ∨ name = "g"
  · rw [if_pos known, if_pos known]
    rintro world m words _ ⟨⟩ _ _
    rfl
  · rw [if_neg known, if_neg known]
    trivial

theorem readOnly_tally (name : String) (routine : Routine Nat) (found : tally name = some routine) :
    routine.ReadOnly := by
  unfold tally at found
  split at found
  · cases found
    exact fun _ _ _ => rfl
  · cases found

theorem literals_nested : pool nested.statements = ["é", "a\\n"] := by cbv

theorem exists_ofSource_nested :
    ∃ c, ofSource ⟨false, none⟩ "f(g(\"é\"), \"a\\n\") + g(\"é\");" = .ok c ∧ c.program = nested ∧
      c.externals = ["g", "f"] ∧ c.Provided tallied tally 100 := by
  have parsed : (Parsing.ofSource "f(g(\"é\"), \"a\\n\") + g(\"é\");").result = .ok nested := by cbv
  obtain ⟨lines, emitted, size⟩ : ∃ lines, lowerStatements false (pool nested.statements) 1
      nested.statements = ⟨lines, ["g", "f", "g"], none⟩ ∧ (codeOf lines).length ≤ 60 := by
    rw [literals_nested]
    simp (disch := decide) only [nested, lowerStatements, lower, lowerArguments]
    exact ⟨_, rfl, by decide⟩
  have generated : (generate ⟨false, none⟩ nested).result = .ok ⟨false, 0, lines, ["é", "a\\n"]⟩ :=
    generate_eq_ok_iff.mpr (by
      rw [emitted, literals_nested]
      exact ⟨rfl, Text.isWritable_of_lt (by decide), by cbv⟩)
  have externals : (generate ⟨false, none⟩ nested).externals = ["g", "f"] := by
    rw [externals_generate, emitted]
    cbv
  have fits : nested.footprint ≤ memorySize := by
    have length : nested.data.length = 5 := by cbv
    have depth : nested.stackDepth = 3 := by cbv
    rw [Program.footprint, length, depth]
    decide
  have total : (codeOf (Listing.lines ⟨false, 0, lines, ["é", "a\\n"]⟩)).length ≤ 100 := by
    have entry : (codeOf (entryCode false)).length = 4 := by cbv
    have prologue : (codeOf (prologueCode 0)).length = 2 := by cbv
    have epilogue : (codeOf epilogue).length = 3 := by cbv
    rw [Listing.codeOf_lines, Listing.codeOf_codeLines]
    simp only [codeOf_append, List.length_append, entry, prologue, epilogue]
    omega
  refine ⟨_, ofSource_of_stages parsed generated, rfl, ?_, ?_⟩
  · rw [externals]
  · exact ⟨by simp [literals_nested], by simp [externals], fits, serves_tallied _,
      Int.ofNat_le.mpr total⟩

theorem externals_are_called_of_nested :
    ∃ c exit, ofSource ⟨false, none⟩ "f(g(\"é\"), \"a\\n\") + g(\"é\");" = .ok c ∧
      c.externals = ["g", "f"] ∧
      let run := Execution.ofText c.assembly tally 0 100
      run.result = .ok exit ∧ run.calls.toList.map Call.name = ["g", "f", "g"] ∧
      (run.calls.toList.map Call.name).eraseDups = c.externals ∧
      ∃ setup start, load c.assembly tally 0 = .ok (setup, start) ∧
        (start.visits setup Session.unobserved 100).getLast?.map (·.instruction.mnemonic) ≠
          some "syscall" := by
  obtain ⟨c, compiled, isNested, externals, provided⟩ := exists_ofSource_nested
  obtain ⟨word, store, value⟩ : ∃ word store, c.program.evaluate tallied 0 = (.ok word, store) := by
    rw [isNested]
    exact ⟨_, _, rfl⟩
  obtain ⟨-, -, exit, returned, -⟩ := provided.run_of_value compiled value
  obtain ⟨-, -, -, -, runs⟩ := externals_are_called compiled tally 0
  obtain ⟨setup, start, loaded, ended⟩ :=
    runs provided.latin (by simp [externals]) provided.fits readOnly_tally
  obtain ⟨names, distinct, last⟩ := ended 100 exit returned
  refine ⟨c, exit, compiled, externals, returned, ?_, distinct, setup, start, loaded, ?_⟩
  · rw [names, filterMap_callee?_body compiled, isNested]
    cbv
  · intro asked
    have none := (last rfl).mp asked
    cases externals.symm.trans none

end Compilation

end Reckon
