import Reckon.Proofs.AlignedCalls
import Reckon.Proofs.Callees
import Reckon.Proofs.ExecutionOrder
import Reckon.Proofs.Machine.Lockstep
import Reckon.Proofs.Parsing.VariableCount

/-!
# Two ways to leave a program

A freestanding program leaves with a system call, one that is linked against a library by calling
`exit`. The entry point of the first is longer by an instruction, so `main` and all of its
instructions stand one place further. But nothing that `main` computes depends on that: the place to
return to, which is the only place that is ever in memory, is the same in both programs.

Main statement: the two programs make the same calls and end alike
(`Compilation.ofText_freestanding_eq_library`). A routine that looks at the instruction pointer can
tell them apart (`Compilation.ofText_leaving_of_counter`).
-/

namespace Reckon

open Code

theorem Opcode.ofName?_name (opcode : Opcode) : Opcode.ofName? opcode.name = some opcode := by
  cases opcode <;> rfl

namespace Machine

variable {World : Type} {setup setup' : Setup World} {more place place' : Nat}

/-! ## Frames of any size -/

/-- A place below the frame base, cut to a word: it lies there, or else outside of memory. -/
theorem wrap_below {depth : Nat} (few : depth + 32 ≤ modulus 64) :
    wrap 64 ((frameBase : Int) + -depth) + depth = frameBase ∨
      memorySize < wrap 64 ((frameBase : Int) + -depth) := by
  have whole : modulus 64 = 18446744073709551616 := rfl
  have base : frameBase = 1048560 := rfl
  have size : memorySize = 1048576 := rfl
  rw [whole] at few
  rw [wrap, whole, base, size]
  omega

/-- Fewer variables than would fill an address space have a frame, if not always in memory. -/
theorem ground_of_le {slots : Nat} (few : slots + 8 ≤ 2 ^ 62) :
    Ground slots (wrap 64 ((frameBase : Int) + -frameSize slots)) := by
  have whole : modulus 64 = 18446744073709551616 := rfl
  have frame : frameSize slots + 32 ≤ modulus 64 := by
    rw [whole, frameSize, wordSize, stackAlignment]
    omega
  refine ⟨by omega, rfl, ?_, fun index inside => ?_⟩
  · have place := wrap_below frame
    omega
  · have offset : slotOffset index = (4 * (index + 1) : Nat) := by
      rw [slotOffset, wordSize]
      omega
    have place := @wrap_below (4 * (index + 1)) (by omega)
    rw [offset]
    omega

/-! ## Instructions that stay -/

section Stays

variable {mnemonic : String} {operands : List Assembly.Operand}

theorem stays_of_instruction {i : Code.Instruction}
    (isCode : (Line.instruction i).code? = some (mnemonic, operands))
    (notReturn : i.opcode ≠ .ret) (notSystemCall : i.opcode ≠ .syscall)
    (outside : i.opcode = .call → ∀ name, operands = [.symbol name] →
      name ≠ "main" ∧ name ≠ "_start" ∧ name ≠ "exit") :
    Stays mnemonic operands := by
  cases isCode
  constructor
  · rw [Opcode.ofName?_name]
    exact fun same => notReturn (Option.some.inj same)
  · rw [Opcode.ofName?_name]
    exact fun same => notSystemCall (Option.some.inj same)
  · rw [Opcode.ofName?_name]
    exact fun same => outside (Option.some.inj same)

/-- Each line of the body stays in the program, unless it calls `main` or `exit`. -/
theorem stays_of_shifts {line : Line} {slots height height' : Nat}
    (shifts : line.Shifts slots 0 (· ≠ "_start") height height')
    (isCode : line.code? = some (mnemonic, operands)) (notMain : line ≠ one .call (.symbol "main"))
    (notExit : line ≠ one .call (.symbol "exit")) : Stays mnemonic operands := by
  cases shifts with
  | push | pop | pad | unpad =>
    exact stays_of_instruction isCode Opcode.noConfusion Opcode.noConfusion Opcode.noConfusion
  | plain _ plain =>
    cases plain with
    | remark => cases isCode
    | divide | assign =>
      exact stays_of_instruction isCode Opcode.noConfusion Opcode.noConfusion Opcode.noConfusion
    | @compute opcode _ _ _ computes =>
      have other (stray : Opcode) (strays : stray.isComputation = false) : opcode ≠ stray := by
        rintro rfl
        cases strays.symm.trans computes
      exact stays_of_instruction isCode (other .ret rfl) (other .syscall rfl)
        fun same => absurd same (other .call rfl)
  | @call name _ _ notStart =>
    refine stays_of_instruction isCode Opcode.noConfusion Opcode.noConfusion ?_
    cases isCode
    intro _ name' single
    cases single
    exact ⟨fun same => notMain (by rw [same]), notStart, fun same => notExit (by rw [same])⟩

theorem Leads.marches_of_notMem {i : Code.Instruction} {pre post : Registers → Memory → Prop}
    (leads : Leads setup (.instruction i) pre post) (parallel : setup.Parallel setup')
    (other : i.opcode ∉ [Opcode.ret, .syscall, .call]) :
    Marches setup setup' [.instruction i] pre post := by
  simp only [List.mem_cons, List.not_mem_nil, or_false, not_or] at other
  obtain ⟨notReturn, notSystemCall, notCall⟩ := other
  exact leads.marches parallel rfl (stays_of_instruction rfl notReturn notSystemCall
    fun same => absurd same notCall)

end Stays

/-! ## Leaving a program -/

theorem Setup.Relocatable.undisturbed (relocatable : setup.Relocatable) : Undisturbed setup :=
  ⟨relocatable.leaves, fun name routine found =>
    (relocatable.oblivious name routine found).readOnly.inert⟩

variable (parallel : setup.Parallel setup')

include parallel

/-- One program asks the system to end it, the other calls `exit`; both end with what the first
place for arguments holds. -/
theorem agree_end {pre : Registers → Memory → Prop}
    (located : CodeAt setup.image place
      ([two .mov (.immediate exitSystemCall) eax] ++ [.instruction ⟨.syscall, []⟩]))
    (located' : CodeAt setup'.image place' [one .call (.symbol "exit")]) :
    Agree setup setup' 1 place place' pre := by
  rintro s running rfl -
  let numbered : Session World := { s.moved with machine := { s.moved.machine with
    registers := s.machine.registers.put .rax (BitVec.ofInt 32 exitSystemCall) } }
  have asking : CodeAt setup.image numbered.machine.counter [.instruction ⟨.syscall, []⟩] :=
    located.right
  have located' : CodeAt setup'.image (s.elsewhere place' none).machine.counter
    [one .call (.symbol "exit")] := located'
  obtain ⟨i, fetched, same⟩ := located.left.exists_fetch rfl
  obtain ⟨j, fetchedNext, sameNext⟩ := asking.exists_fetch rfl
  obtain ⟨i', fetched', same'⟩ := located'.exists_fetch rfl
  have first : s.step setup i = (numbered, none) :=
    acts_mov_immediate exitSystemCall .rax s.moved i same rfl rfl
  have second : numbered.step setup j = _ := step_syscall sameNext rfl
  have there := step_call same' (parallel.right.leaves "exit" (by decide) (by decide))
    (s.elsewhere place' none)
  rw [if_pos rfl] at there
  exact .exit (.exit (.head running fetched first (.head running fetchedNext second (.refl _))) rfl)
    (.exit (.head rfl fetched' there (.refl _)) rfl) rfl rfl

theorem agree_leave (located : CodeAt setup.image place (leaveCode true))
    (located' : CodeAt setup'.image place (leaveCode false)) :
    Agree setup setup' 1 place place Level := by
  have moved : Leads setup (two .mov eax (.register .rdi .double)) Level Level :=
    leads_compute rfl eax .double fun rs mem value level => level
  exact moved.marches_of_notMem parallel (by decide) _ _ _ located.left located'.left
    (agree_end parallel located.right located'.right)

/-! ## The code of `main` -/

variable {slots floor : Nat}

theorem marches_restore : Marches setup setup' [two .mov rbp rsp, one .pop rbp]
    (Standing floor True 0) (Entered True (frameBase + 8)) :=
  ((leads_mov_pointer trivial).marches_of_notMem parallel (by decide)).append
    (leads_pop_base.marches_of_notMem parallel (by decide))

variable (ground : Ground slots floor)

include ground

theorem marches_prologue : Marches setup setup' (prologueCode slots)
    (Entered True (frameBase + 8)) (Standing floor True 0) := by
  have based : Marches setup setup' ([one .push rbp] ++ [two .mov rsp rbp])
      (Entered True (frameBase + 8)) (Standing frameBase True 0) :=
    (leads_push_base.marches_of_notMem parallel (by decide)).append
      (leads_mov_base.marches_of_notMem parallel (by decide))
  unfold prologueCode
  split
  · next empty =>
    have same : floor = frameBase := by
      rw [← ground.lowered, empty]
      rfl
    rwa [List.append_nil, same]
  · exact based.append ((leads_lower_pointer ground).marches_of_notMem parallel
      (by simp only; decide))

/-- The programs agree in the body of `main` if they agree behind it; or they call `exit` there. -/
theorem agree_body {lines : List Line} {height height' : Nat}
    (balances : Line.Balances slots 0 (· ≠ "_start") lines height height')
    (absent : one .call (.symbol "main") ∉ lines)
    (located : CodeAt setup.image place lines) (located' : CodeAt setup'.image place' lines)
    (exits : one .call (.symbol "exit") ∈ lines → more = 0)
    (rest : one .call (.symbol "exit") ∉ lines →
      Agree setup setup' more (place + (codeOf lines).length) (place' + (codeOf lines).length)
        (Standing floor True height')) :
    Agree setup setup' more place place' (Standing floor True height) := by
  -- The induction is on the lines. Only a call of `exit` does not go on to the next of them.
  induction balances generalizing place place' with
  | nil => exact rest List.not_mem_nil
  | @cons line lines h h₁ h₂ shifts _ ih =>
    obtain ⟨notMain, absent⟩ := not_or.mp (mt List.mem_cons.mpr absent)
    have located : CodeAt setup.image place ([line] ++ lines) := located
    have located' : CodeAt setup'.image place' ([line] ++ lines) := located'
    by_cases isExit : line = one .call (.symbol "exit")
    · obtain rfl : more = 0 := exits (isExit ▸ List.mem_cons_self)
      subst isExit
      exact agree_exit parallel located.left located'.left
    · have marches : Marches setup setup' [line] (Standing floor True h)
          (Standing floor True h₁) := by
        cases isCode : line.code? with
        | none =>
          obtain rfl := shifts.eq_of_code? isCode
          exact marches_remark isCode
        | some code =>
          have leads : Leads setup line (Standing floor True h) (Standing floor True h₁) :=
            leads_of_shifts ground parallel.left.undisturbed shifts
              (by rw [isCode]; exact Option.some_ne_none code) (Ne.symm notMain)
          exact leads.marches parallel isCode
            (stays_of_shifts shifts isCode (Ne.symm notMain) isExit)
      refine marches _ _ _ located.left located'.left (ih absent located.right located'.right
        (fun member => exits (List.mem_cons_of_mem line member)) fun never => ?_)
      have next := rest (List.not_mem_cons_of_ne_of_not_mem (Ne.symm isExit) never)
      rwa [← List.singleton_append, codeOf_append, List.length_append, ← Nat.add_assoc,
        ← Nat.add_assoc] at next

/-- The programs agree in all of `main`, if they agree where it returns to. -/
theorem agree_main {body : List Line} {main main' : Nat}
    (balances : Line.Balances slots 0 (· ≠ "_start") body 0 0)
    (absent : one .call (.symbol "main") ∉ body)
    (located : CodeAt setup.image main (prologueCode slots ++ body ++ epilogue))
    (located' : CodeAt setup'.image main' (prologueCode slots ++ body ++ epilogue))
    (exits : one .call (.symbol "exit") ∈ body → more = 0)
    (rest : one .call (.symbol "exit") ∉ body →
      Agree setup setup' more returnPlace.toNat returnPlace.toNat Level) :
    Agree setup setup' more main main' (Entered True (frameBase + 8)) := by
  rw [append_epilogue] at located located'
  have inside := located.left
  have inside' := located'.left
  apply marches_prologue parallel ground _ _ _ inside.left.left inside'.left.left
  apply agree_body parallel ground balances absent inside.left.right inside'.left.right exits
  intro never
  have ending := inside.right
  have ending' := inside'.right
  have back := located.right
  have back' := located'.right
  simp only [codeOf_append, List.length_append, ← Nat.add_assoc] at ending ending' back back'
  apply marches_restore parallel _ _ _ ending ending'
  exact .back back back' (leadsTo_ret_entry trivial) (rest never)

/-! ## Whole programs -/

/-- The programs with the two entry points come to the same. -/
theorem endsAlike_fresh {body : List Line}
    (balances : Line.Balances slots 0 (· ≠ "_start") body 0 0)
    (absent : one .call (.symbol "main") ∉ body)
    (located : CodeAt setup.image 0
      (entryCode true ++ (prologueCode slots ++ body ++ epilogue)))
    (located' : CodeAt setup'.image 0
      (entryCode false ++ (prologueCode slots ++ body ++ epilogue)))
    (labelled : setup.image.codeLabels.get? "main" = some (codeOf (entryCode true)).length)
    (labelled' : setup'.image.codeLabels.get? "main" = some (codeOf (entryCode false)).length)
    (exits : one .call (.symbol "exit") ∈ body → more = 0)
    (leaves : one .call (.symbol "exit") ∉ body → more = 1) (data : List UInt8) (world : World) :
    Session.EndsAlike setup setup' more (.fresh data world) (.fresh data world) := by
  have inMain := located.right
  have inMain' := located'.right
  rw [Nat.zero_add] at inMain inMain'
  have entry := located.left
  have entry' := located'.left
  rw [entryCode_eq] at entry entry'
  have clear :
      Leads setup (two .xor (.register .rbp .double) (.register .rbp .double)) Fresh Fresh :=
    leads_compute rfl _ .double fun rs mem value fresh => fresh
  have enters : LeadsTo setup (one .call (.symbol "main")) 1 (codeOf (entryCode true)).length Fresh
      (Entered True (frameBase + 8)) := leadsTo_call_main labelled
  have started : Agree setup setup' more 0 0 Fresh := by
    apply clear.marches_of_notMem parallel (by decide) _ _ _ entry.left.left entry'.left.left
    apply Agree.enter entry.left.right entry'.left.right labelled labelled' enters
    apply agree_main parallel ground balances absent inMain inMain' exits
    intro never
    obtain rfl := leaves never
    exact agree_leave parallel entry.right entry'.right
  exact started _ rfl rfl rfl

end Machine

/-! ## Compiled programs -/

namespace Compilation

open Machine

variable {World : Type} {options : Options} {source : String} {c : Compilation}
  {routine? : String → Option (Routine World)}

/-- The body of a compiled program has call instructions for what the program calls. -/
theorem call_mem_body_iff (compiled : ofSource options source = .ok c) {name : String} :
    one .call (.symbol name) ∈ c.listing.body ↔ name ∈ c.externals := by
  obtain ⟨-, generated, externals⟩ := stages_of_ofSource compiled
  obtain ⟨-, -, listing⟩ := generate_eq_ok_iff.mp generated
  let emission :=
    lowerStatements options.comments (pool c.program.statements) 1 c.program.statements
  have named : emission.lines.filterMap Line.callee? = emission.calls :=
    named_lowerStatements _ _ _ _
  rw [externals, externals_generate, List.mem_eraseDups, ← named, List.mem_filterMap, ← listing]
  constructor
  · intro member
    exact ⟨_, member, rfl⟩
  · rintro ⟨line, member, calls⟩
    rwa [← Line.eq_call_of_callee? calls]

/-- A source text that compiles does so whichever way the program is to be left, into the same
program but for its entry point. -/
theorem exists_ofSource_leaving (compiled : ofSource options source = .ok c)
    (freestanding : Bool) :
    ∃ d, ofSource { options with freestanding? := some freestanding } source = .ok d ∧
      d.program = c.program ∧ d.listing = { c.listing with freestanding } := by
  obtain ⟨parsed, generated, -⟩ := stages_of_ofSource compiled
  obtain ⟨complete, writable, listing⟩ := generate_eq_ok_iff.mp generated
  have other : (generate { options with freestanding? := some freestanding } c.program).result =
      .ok { c.listing with freestanding } := by
    refine generate_eq_ok_iff.mpr ⟨complete, writable, ?_⟩
    rw [← listing]
    rfl
  exact ⟨_, ofSource_of_stages parsed other, rfl, rfl⟩

/-- What running a text comes to, by the end of its run. -/
theorem ofText_of_ends {text : String} {setup : Setup World} {start t : Session World}
    {world : World} {n : Nat} {result : Except Fault Int}
    (loaded : load text routine? world = .ok (setup, start)) (ends : start.Ends setup n t result)
    (zero : start.steps = 0) (running : start.machine.exit? = none) :
    (∀ limit : Int, limit < n →
      (Execution.ofText text routine? world limit).result = .error (.outOfSteps limit)) ∧
    ∀ limit : Int, n ≤ limit →
      let run := Execution.ofText text routine? world limit
      run.calls = t.calls ∧ run.world = t.world ∧
        run.result = result.map fun value => ⟨signed 32 value, wrap 8 (signed 32 value), n⟩ := by
  refine ⟨fun limit short => ?_, fun limit enough => ?_⟩
  · rw [result_ofText loaded, ends.run_short zero running short]
  · rw [ofText_eq loaded, ends.run zero enough]
    exact ⟨rfl, rfl, rfl⟩

/-- The images of a program with the two entry points have the same data and the same data
labels. -/
theorem parallel_of_assembles {listing : Listing} {image image' : Assembly.Image}
    {blocks blocks' : List (List UInt8)}
    (assembles : { listing with freestanding := true }.Assembles image blocks)
    (assembles' : { listing with freestanding := false }.Assembles image' blocks')
    (oblivious : ∀ name routine, routine? name = some routine → routine.Oblivious) :
    Setup.Parallel ⟨image, routine?⟩ ⟨image', routine?⟩ ∧
      image'.data.toList = image.data.toList := by
  have same : blocks = blocks' :=
    (map_literalBytes assembles.areBlocks).symm.trans (map_literalBytes assembles'.areBlocks)
  refine ⟨⟨?_, rfl, ⟨fun name notMain notStart => ?_, oblivious⟩,
    ⟨fun name notMain notStart => ?_, oblivious⟩⟩, ?_⟩
  · show image.dataLabels = image'.dataLabels
    rw [assembles.dataLabels, assembles'.dataLabels, same]
  · rw [assembles.get?_codeLabels, if_neg notMain, if_neg notStart]
  · rw [assembles'.get?_codeLabels, if_neg notMain, if_neg notStart]
  · rw [assembles.data, assembles'.data, same]

/-- The two programs are loaded alike, and their runs come to the same. -/
theorem exists_endsAlike (compiled : ofSource options source = .ok c)
    (short : (source.length : Int) < indexLimit)
    (latin : ∀ raw ∈ pool c.program.statements, ∀ ch ∈ raw.toList, isLatin ch = true)
    (outside : ∀ name ∈ c.externals, name ≠ "main" ∧ name ≠ "_start")
    (oblivious : ∀ name routine, routine? name = some routine → routine.Oblivious)
    (world : World) :
    ∃ free library, ofSource { options with freestanding? := some true } source = .ok free ∧
      ofSource { options with freestanding? := some false } source = .ok library ∧
      ∃ setup setup' start, load free.assembly routine? world = .ok (setup, start) ∧
        load library.assembly routine? world = .ok (setup', start) ∧ start.steps = 0 ∧
        start.machine.exit? = none ∧
        start.EndsAlike setup setup' (if "exit" ∈ c.externals then 0 else 1) start := by
  obtain ⟨free, compiledFree, programFree, listingFree⟩ := exists_ofSource_leaving compiled true
  obtain ⟨library, compiledLibrary, programLibrary, listingLibrary⟩ :=
    exists_ofSource_leaving compiled false
  obtain ⟨image, blocks, read, assembles⟩ :=
    exists_assembles_of_isLatin compiledFree (by rw [programFree]; exact latin)
  obtain ⟨image', blocks', read', assembles'⟩ :=
    exists_assembles_of_isLatin compiledLibrary (by rw [programLibrary]; exact latin)
  have loaded := @load_eq _ routine? _ _ _ read assembles world
  have loaded' := @load_eq _ routine? _ _ _ read' assembles' world
  rw [listingFree] at assembles
  rw [listingLibrary] at assembles'
  obtain ⟨parallel, data⟩ := parallel_of_assembles assembles assembles' oblivious
  rw [data] at loaded'
  refine ⟨free, library, compiledFree, compiledLibrary, _, _, _, loaded, loaded', rfl, rfl, ?_⟩
  obtain ⟨parsed, generated, -⟩ := stages_of_ofSource compiled
  obtain ⟨-, -, listing⟩ := generate_eq_ok_iff.mp generated
  have slots : c.listing.slots = c.program.table.size := by rw [← listing]
  -- The frame may be larger than the memory, but it does not wrap around the address space.
  have ground := ground_of_le (slots ▸ Program.size_table_lt parsed short)
  have absent : one .call (.symbol "main") ∉ c.listing.body := fun called =>
    (outside _ ((call_mem_body_iff compiled).mp called)).1 rfl
  apply endsAlike_fresh parallel ground
    (balances_of_compiled compiled fun called => (outside _ called).2 rfl) absent
    (codeAt_of_assembles assembles) (codeAt_of_assembles assembles')
    (assembles.get?_codeLabels "main") (assembles'.get?_codeLabels "main")
  · intro called
    exact if_pos ((call_mem_body_iff compiled).mp called)
  · intro never
    exact if_neg (mt (call_mem_body_iff compiled).mpr never)

/-- The two ways to leave a program agree. Take a source text, not too long to be indexed, that
compiles, with any options, into a program

* whose string literals consist of characters up to U+00FF other than U+0085, and
* that calls neither `main` nor `_start`, which are labels of its own.

It also compiles with either way to leave the program. Run the two assembly texts with routines that
leave the machine alone, and that see of it only the registers and the memory. Each of the runs ends
after a number of steps, and is out of steps if its budget is smaller. With enough steps the runs
make the same calls with the same arguments and leave the same world; and

* both end with the same value and status, the freestanding program after one step more, unless it
  calls `exit` itself, and then after the same number of steps; or
* both are stopped by the same fault, but for its line, after the same number of steps. -/
theorem ofText_freestanding_eq_library (compiled : ofSource options source = .ok c)
    (short : (source.length : Int) < indexLimit)
    (latin : ∀ raw ∈ pool c.program.statements, ∀ ch ∈ raw.toList, ch.toNat ≤ 0xFF ∧ ch ≠ '\x85')
    (outside : ∀ name ∈ c.externals, name ≠ "main" ∧ name ≠ "_start")
    (oblivious : ∀ name routine, routine? name = some routine → routine.Oblivious)
    (world : World) :
    ∃ free library, ofSource { options with freestanding? := some true } source = .ok free ∧
      ofSource { options with freestanding? := some false } source = .ok library ∧
      ∃ n n' : Nat,
        (∀ limit : Int, limit < n →
          (Execution.ofText free.assembly routine? world limit).result =
            .error (.outOfSteps limit)) ∧
        (∀ limit : Int, limit < n' →
          (Execution.ofText library.assembly routine? world limit).result =
            .error (.outOfSteps limit)) ∧
        ∀ limit limit' : Int, n ≤ limit → n' ≤ limit' →
          let run := Execution.ofText free.assembly routine? world limit
          let run' := Execution.ofText library.assembly routine? world limit'
          run.calls = run'.calls ∧ run.world = run'.world ∧
            ((∃ value status, run.result = .ok ⟨value, status, n⟩ ∧
                run'.result = .ok ⟨value, status, n'⟩ ∧
                n = n' + if "exit" ∈ c.externals then 0 else 1) ∨
              ∃ fault fault', run.result = .error fault ∧ run'.result = .error fault' ∧
                fault.withoutLine = fault'.withoutLine ∧ n = n') := by
  have latin := isLatin_of_mem latin
  obtain ⟨free, library, compiledFree, compiledLibrary, setup, setup', start, loaded, loaded', zero,
    running, alike⟩ := exists_endsAlike compiled short latin outside oblivious world
  refine ⟨free, library, compiledFree, compiledLibrary, ?_⟩
  cases alike with
  | @fault n t t' fault fault' ends ends' alike sameWorld sameCalls =>
    obtain ⟨few, enough⟩ := ofText_of_ends loaded ends zero running
    obtain ⟨few', enough'⟩ := ofText_of_ends loaded' ends' zero running
    refine ⟨n, n, few, few', fun limit limit' within within' => ?_⟩
    obtain ⟨calls, left, result⟩ := enough limit within
    obtain ⟨calls', left', result'⟩ := enough' limit' within'
    exact ⟨calls.trans (sameCalls.trans calls'.symm), left.trans (sameWorld.trans left'.symm),
      .inr ⟨fault, fault', result, result', alike, rfl⟩⟩
  | @exit n t t' value ends ends' sameWorld sameCalls =>
    obtain ⟨few, enough⟩ := ofText_of_ends loaded ends zero running
    obtain ⟨few', enough'⟩ := ofText_of_ends loaded' ends' zero running
    refine ⟨_, n, few, few', fun limit limit' within within' => ?_⟩
    obtain ⟨calls, left, result⟩ := enough limit within
    obtain ⟨calls', left', result'⟩ := enough' limit' within'
    exact ⟨calls.trans (sameCalls.trans calls'.symm), left.trans (sameWorld.trans left'.symm),
      .inl ⟨_, _, result, result', rfl⟩⟩

/-- A program that assigns a variable and passes it on, behind a literal, to a routine that counts
its calls. -/
theorem ofText_freestanding_eq_library_of_call :
    let second : Routine Nat := fun world m words => (world + 1, m, .ok (some (words.getD 1 0)))
    let routine? := fun name => if name = "f" then some second else none
    ∃ free library, ofSource ⟨false, some true⟩ "x = 2; f(\"é\", x);" = .ok free ∧
      ofSource ⟨false, some false⟩ "x = 2; f(\"é\", x);" = .ok library ∧
      ∃ n n' : Nat, ∀ limit limit' : Int, n ≤ limit → n' ≤ limit' →
        let run := Execution.ofText free.assembly routine? 0 limit
        let run' := Execution.ofText library.assembly routine? 0 limit'
        run.calls = run'.calls ∧ run.world = run'.world ∧
          ((∃ value status, run.result = .ok ⟨value, status, n⟩ ∧
              run'.result = .ok ⟨value, status, n'⟩ ∧ n = n' + 1) ∨
            ∃ fault fault', run.result = .error fault ∧ run'.result = .error fault' ∧
              fault.withoutLine = fault'.withoutLine ∧ n = n') := by
  intro second routine?
  let program : Program :=
    ⟨[.binary .assign ⟨2, 3⟩ (.var 0 "x" ⟨0, 1⟩) (.number 2 ⟨4, 5⟩) ⟨0, 5⟩,
      .call "f" [.string "é" ⟨9, 12⟩, .var 0 "x" ⟨14, 15⟩] ⟨7, 16⟩], ⟨["x"]⟩⟩
  have parsed : (Parsing.ofSource "x = 2; f(\"é\", x);").result = .ok program := by cbv
  have literals : pool program.statements = ["é"] := by cbv
  obtain ⟨lines, emitted⟩ : ∃ lines, lowerStatements false (pool program.statements) 1
      program.statements = ⟨lines, ["f"], none⟩ := by
    rw [literals]
    simp (disch := decide) only [program, lowerStatements, lower, lowerArguments, store,
      Emission.reach, Emission.spell_of_lt]
    exact ⟨_, rfl⟩
  have externals : (generate ⟨false, none⟩ program).externals = ["f"] := by
    rw [externals_generate, emitted]
    cbv
  have generated : (generate ⟨false, none⟩ program).result = .ok ⟨false, 1, lines, ["é"]⟩ :=
    generate_eq_ok_iff.mpr (by
      rw [emitted, literals]
      exact ⟨rfl, Text.isWritable_of_lt (by decide), by cbv⟩)
  have oblivious : ∀ name routine, routine? name = some routine → routine.Oblivious := by
    intro name routine found
    by_cases called : name = "f"
    · cases (if_pos called).symm.trans found
      exact ⟨fun world _ _ words => (world + 1, .ok (some (words.getD 1 0))), fun _ _ _ => rfl⟩
    · cases (if_neg called).symm.trans found
  have compiled := ofSource_of_stages parsed generated
  obtain ⟨free, library, compiledFree, compiledLibrary, n, n', -, -, agree⟩ :=
    ofText_freestanding_eq_library compiled (by decide) (by simp [literals])
      (by simp [externals]) oblivious 0
  rw [externals] at agree
  exact ⟨free, library, compiledFree, compiledLibrary, n, n', agree⟩

/-! ## A routine that sees where it is called from -/

/-- The program of a listing without literals, all on one line. -/
def sketch (listing : Listing) : Assembly.Image where
  instructions := ((codeOf listing.codeLines).map fun code => ⟨code.1, code.2, 0⟩).toArray
  codeLabels := ⟨[("main", (codeOf (entry listing.freestanding)).length), ("_start", 0)]⟩
  dataLabels := ⟨[]⟩
  data := #[]

theorem alike_sketch {listing : Listing} {image : Assembly.Image} {blocks : List (List UInt8)}
    (assembles : listing.Assembles image blocks) (bare : listing.literals = []) :
    image.Alike (sketch listing) := by
  have none : blocks = [] := by
    have areBlocks := assembles.areBlocks
    rw [bare] at areBlocks
    exact List.forall₂_nil_left_iff.mp areBlocks
  refine ⟨?_, assembles.codeLabels, ?_, ?_⟩
  · rw [assembles.instructions, sketch, List.map_map]
    exact (List.map_id _).symm
  · rw [assembles.dataLabels, none]
    rfl
  · have data := assembles.data
    rw [none] at data
    exact Array.toList_inj.mp data

/-- A run that returns can be followed without regard to lines. -/
theorem result_of_sketch {listing : Listing} {image : Assembly.Image} {blocks : List (List UInt8)}
    (read : Assembly.Image.ofText listing.text = .ok image)
    (assembles : listing.Assembles image blocks) (bare : listing.literals = []) {world : World}
    {limit : Int} {exit : Exit} (ran : (Session.run (.fresh [] world) ⟨sketch listing, routine?⟩
      Session.unobserved limit).2 = .ok exit) :
    (Execution.ofText listing.text routine? world limit).result = .ok exit := by
  have alike := alike_sketch assembles bare
  have same : Setup.Alike ⟨image, routine?⟩ ⟨sketch listing, routine?⟩ := ⟨alike, rfl⟩
  obtain ⟨-, result⟩ := Session.alike_run same (.fresh [] world) limit
  rw [ran] at result
  have data : image.data.toList = [] := congrArg Array.toList alike.data
  have loaded := @load_eq _ routine? _ _ _ read assembles world
  rw [data] at loaded
  rw [result_ofText loaded]
  generalize (Session.run (.fresh [] world) ⟨image, routine?⟩ Session.unobserved limit).2 = outcome
    at result
  cases result with
  | ok same => rw [same]

/-- A routine that leaves the machine alone and returns the place it is called from tells the two
programs apart. -/
theorem ofText_leaving_of_counter :
    let peek : Routine Unit := fun world m _ => (world, m, .ok (some m.counter))
    peek.ReadOnly ∧
    ∃ free library, ofSource ⟨false, some true⟩ "f();" = .ok free ∧
      ofSource ⟨false, some false⟩ "f();" = .ok library ∧
      (Execution.ofText free.assembly (fun _ => some peek) () 100).result = .ok ⟨9, 9, 12⟩ ∧
      (Execution.ofText library.assembly (fun _ => some peek) () 100).result = .ok ⟨8, 8, 11⟩ := by
  intro peek
  let program : Program := ⟨[.call "f" [] ⟨0, 3⟩], ⟨[]⟩⟩
  let body : List Line := [two .mov (.immediate 0) eax, one .call (.symbol "f")]
  have parsed : (Parsing.ofSource "f();").result = .ok program := by cbv
  have literals : pool program.statements = [] := by cbv
  have emitted : lowerStatements false (pool program.statements) 1 program.statements =
      ⟨body, ["f"], none⟩ := by
    rw [literals]
    rfl
  have generated (freestanding : Bool) : (generate ⟨false, some freestanding⟩ program).result =
      .ok ⟨freestanding, 0, body, []⟩ :=
    generate_eq_ok_iff.mpr (by
      rw [emitted, literals]
      exact ⟨rfl, Text.isWritable_of_lt (by decide), rfl⟩)
  have compiled (freestanding : Bool) := ofSource_of_stages parsed (generated freestanding)
  have latin : ∀ raw ∈ pool program.statements, ∀ ch ∈ raw.toList, isLatin ch = true := by
    rw [literals]
    exact List.forall_mem_nil _
  obtain ⟨image, blocks, read, assembles⟩ := exists_assembles_of_isLatin (compiled true) latin
  obtain ⟨image', blocks', read', assembles'⟩ := exists_assembles_of_isLatin (compiled false) latin
  refine ⟨fun _ _ _ => rfl, _, _, compiled true, compiled false, ?_, ?_⟩
  · exact result_of_sketch read assembles rfl (by decide +kernel)
  · exact result_of_sketch read' assembles' rfl (by decide +kernel)

end Compilation

end Reckon
