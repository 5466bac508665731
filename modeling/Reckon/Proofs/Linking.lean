import Reckon.Proofs.Assembly.ReadBack
import Reckon.Proofs.Build.Commands
import Reckon.Proofs.Callees

/-!
# Names that a compiled program leaves to the linker

An assembly text calls a name on the outside if one of its lines calls the name and none of them
sets it as a label (`Assembly.CallsOutside`). Such a program must be linked with the library.

Main statement: the one name that a program leaves to the linker without asking for the library is
`exit`, which it does exactly if it calls no routine but is to leave through the library
(`Compilation.outside_without_library_iff`).
-/

namespace Reckon

open Assembly

namespace Assembly

/-! ## Lines by themselves -/

/-- What a line of assembly text holds when it is read by itself. -/
def lineImage? (line : List Char) : Option Image :=
  (ReaderState.initial.readLine 1 line).toOption.map ReaderState.image

/-- A line of the text calls the name. -/
def Calls (text name : String) : Prop :=
  ∃ line ∈ Text.lines text.toList, ∃ image ∈ lineImage? line,
    ("call", [Operand.symbol name]) ∈ image.instructions.toList.map Instruction.code

/-- A line of the text sets the name as a label. -/
def Defines (text name : String) : Prop :=
  ∃ line ∈ Text.lines text.toList, ∃ image ∈ lineImage? line,
    (image.codeLabels.get? name).isSome = true

/-- The text calls a name that it does not set as a label. -/
def CallsOutside (text name : String) : Prop :=
  Calls text name ∧ ¬ Defines text name

/-- A directive adds neither instructions nor labels of code. -/
theorem code_of_direct {s s' : ReaderState} {line : Nat} {name : String} {rest : List Char}
    (done : s.direct line name rest = .ok s') :
    s'.image.instructions = s.image.instructions ∧ s'.image.codeLabels = s.image.codeLabels := by
  unfold ReaderState.direct at done
  split at done
  · cases done
    exact ⟨rfl, rfl⟩
  · split at done
    · cases done
      exact ⟨rfl, rfl⟩
    · split at done
      · split at done
        · cases done
        · split at done
          · cases done
            exact ⟨rfl, rfl⟩
          · cases done
      · split at done
        · cases done
          exact ⟨rfl, rfl⟩
        · cases done

theorem lineImage?_eq_some {line : Code.Line} (readable : line.Readable) {image : Image} :
    lineImage? line.render.toList = some image ↔
      ∃ s, line.read .initial 1 = .ok s ∧ s.image = image := by
  rw [lineImage?, readLine_render readable, Option.map_eq_some_iff]
  cases line.read .initial 1 with
  | ok s => simp [Except.toOption]
  | error fault => simp [Except.toOption]

/-- What a line of a listing holds by itself: the code of its instruction, and its label. -/
theorem code_of_lineImage? {line : Code.Line} (readable : line.Readable) {image : Image}
    (alone : lineImage? line.render.toList = some image) :
    image.instructions.toList.map Instruction.code = line.code?.toList ∧
      ∀ name, (image.codeLabels.get? name).isSome = true ↔ line = .label name := by
  obtain ⟨s, done, rfl⟩ := (lineImage?_eq_some readable).mp alone
  cases line with
  | directive directive argument? =>
    obtain ⟨instructions, labels⟩ := code_of_direct done
    rw [instructions, labels]
    exact ⟨rfl, fun name => iff_of_false Bool.false_ne_true fun same => by cases same⟩
  | label label =>
    cases done
    refine ⟨rfl, fun name => ?_⟩
    have looked : ((ReaderState.initial.setLabel label).image.codeLabels.get? name).isSome =
        (name == label) := by
      show (List.lookup name [(label, 0)]).isSome = _
      rw [List.lookup_cons]
      cases name == label <;> rfl
    rw [looked, beq_iff_eq, Code.Line.label.injEq]
    exact eq_comm
  | instruction | comment =>
    cases done
    exact ⟨rfl, fun name => iff_of_false Bool.false_ne_true fun same => by cases same⟩

section Listing

variable {listing : Code.Listing} (readable : ∀ line ∈ listing.lines, line.Readable)

include readable

/-- The text of a listing calls what one of its instructions calls. -/
theorem calls_text_iff {name : String} :
    Calls listing.text name ↔ ("call", [Operand.symbol name]) ∈ Code.codeOf listing.lines := by
  rw [Calls, lines_text readable]
  constructor
  · intro called
    rcases called with ⟨text, member, image, alone, called⟩
    rcases List.mem_map.mp member with ⟨line, listed, rfl⟩
    rw [(code_of_lineImage? (readable line listed) alone).1, Option.mem_toList] at called
    exact List.mem_filterMap.mpr ⟨line, listed, called⟩
  · intro called
    obtain ⟨line, listed, code⟩ := List.mem_filterMap.mp called
    cases line with
    | instruction i =>
      have alone := (lineImage?_eq_some (readable _ listed)).mpr ⟨_, rfl, rfl⟩
      refine ⟨_, List.mem_map_of_mem listed, _, alone, ?_⟩
      rw [(code_of_lineImage? (readable _ listed) alone).1, code]
      exact List.mem_singleton_self _
    | directive | label | comment => cases code

/-- The text of a listing sets the labels of the listing. -/
theorem defines_text_iff {name : String} :
    Defines listing.text name ↔ Code.Line.label name ∈ listing.lines := by
  rw [Defines, lines_text readable]
  constructor
  · intro defined
    rcases defined with ⟨text, member, image, alone, labelled⟩
    rcases List.mem_map.mp member with ⟨line, listed, rfl⟩
    rwa [← ((code_of_lineImage? (readable line listed) alone).2 name).mp labelled]
  · intro listed
    have alone := (lineImage?_eq_some (readable _ listed)).mpr ⟨_, rfl, rfl⟩
    exact ⟨_, List.mem_map_of_mem listed, _, alone,
      ((code_of_lineImage? (readable _ listed) alone).2 name).mpr rfl⟩

end Listing

end Assembly

namespace Code

/-! ## Calls and labels of a listing -/

theorem code?_eq_call_iff {line : Line} {name : String} :
    line.code? = some ("call", [Assembly.Operand.symbol name]) ↔ line.callee? = some name := by
  constructor
  · intro code
    cases line with
    | directive | label | comment => cases code
    | instruction i =>
      obtain ⟨opcode, operands⟩ := i
      injection code with code
      injection code with operation operands
      have call : opcode = .call := by cases opcode <;> simp_all [Opcode.name]
      obtain ⟨operand, rfl, symbol⟩ := List.map_eq_singleton_iff.mp operands
      cases operand with
      | symbol =>
        cases symbol
        rw [call]
        rfl
      | immediate | register | slot | literal => cases symbol
  · intro callee
    rw [Line.eq_call_of_callee? callee]
    rfl

theorem mem_codeOf_call_iff {lines : List Line} {name : String} :
    ("call", [Assembly.Operand.symbol name]) ∈ codeOf lines ↔
      name ∈ lines.filterMap Line.callee? := by
  simp only [codeOf, List.mem_filterMap, code?_eq_call_iff]

theorem callees_literalLines (literals : List String) :
    (literalLines literals).filterMap Line.callee? = [] := by
  rw [List.filterMap_eq_nil_iff]
  intro line member
  unfold literalLines at member
  split at member
  · cases member
  · rcases List.mem_cons.mp member with rfl | member
    · rfl
    · obtain ⟨⟨raw, place⟩, -, member⟩ := List.mem_flatMap.mp member
      simp only [List.mem_cons, List.not_mem_nil, or_false] at member
      rcases member with rfl | rfl <;> rfl

/-- A listing calls `main`, then `exit` if it is not freestanding, then what its body calls. -/
theorem callees_lines (listing : Listing) :
    listing.lines.filterMap Line.callee? =
      "main" :: (if listing.freestanding then [] else ["exit"]) ++
        listing.body.filterMap Line.callee? := by
  have start : (entry listing.freestanding).filterMap Line.callee? =
      "main" :: if listing.freestanding then [] else ["exit"] := by
    cases listing.freestanding <;> rfl
  have frame : (prologue listing.slots).filterMap Line.callee? = [] := by
    rw [prologue_eq, prologueCode]
    split <;> rfl
  have leave : epilogue.filterMap Line.callee? = [] := rfl
  simp only [Listing.lines, List.filterMap_append, start, frame, leave, callees_literalLines]
  simp [Line.callee?]

/-- Without literals the labels of a listing are those of its two routines. -/
theorem label_mem_lines_iff {listing : Listing} (body : ∀ line ∈ listing.body, line.InBody)
    (literals : listing.literals = []) {name : String} :
    Line.label name ∈ listing.lines ↔ name = "_start" ∨ name = "main" := by
  have inside : Line.label name ∉ listing.body := fun listed => by cases body _ listed
  have start : Line.label name ∈ entry listing.freestanding ↔ name = "_start" := by
    cases listing.freestanding <;> simp [entry, one, two]
  have frame : Line.label name ∈ prologue listing.slots ↔ name = "main" := by
    rw [prologue_eq, prologueCode]
    split <;> simp [one, two]
  simp [Listing.lines, start, frame, inside, literals, literalLines, epilogue, one, two]

end Code

namespace Compilation

open Code Build

variable {options : Options} {source : String} {c : Compilation}

/-- What a program that calls no routine leaves to the linker: `exit`, if it was asked not to be
freestanding. -/
theorem callsOutside_iff (compiled : ofSource options source = .ok c)
    (silent : c.program.statements.flatMap callees = []) {name : String} :
    CallsOutside c.assembly name ↔ options.freestanding? = some false ∧ name = "exit" := by
  obtain ⟨parsed, generated, -⟩ := stages_of_ofSource compiled
  -- Literals stand in calls only, so there are none that could break a line of the text.
  have literals : pool c.program.statements = [] := pool_eq_nil silent
  have legible := legible_of_generate parsed generated fun raw member => by
    rw [literals] at member
    cases member
  obtain ⟨complete, -, listing⟩ := generate_eq_ok_iff.mp generated
  have calls := calls_lowerStatements _ _ _ _ complete
  rw [silent] at calls
  have none : c.listing.body.filterMap Line.callee? = [] := by
    rw [← listing]
    exact (named_lowerStatements _ _ _ _).trans calls
  have freestanding : c.listing.freestanding = options.freestanding?.getD true := by
    rw [← listing, calls]
    rfl
  have pooled : c.listing.literals = [] := by
    rw [← listing]
    exact literals
  rw [CallsOutside, assembly, calls_text_iff legible.readable, mem_codeOf_call_iff, callees_lines,
    none, defines_text_iff legible.readable, label_mem_lines_iff legible.body pooled, freestanding]
  -- `main` is called and set, so only the way to leave is left.
  rcases options.freestanding? with - | - | - <;> simp <;> grind

/-- A program asks for the library exactly if it calls a routine. -/
theorem needsLibrary_eq_false_iff (compiled : ofSource options source = .ok c) :
    c.needsLibrary = false ↔ c.program.statements.flatMap callees = [] := by
  rw [needsLibrary, Bool.not_eq_false', externals_eq compiled, List.isEmpty_iff]
  constructor
  · intro none
    refine List.eq_nil_iff_forall_not_mem.mpr fun name called => ?_
    have listed := List.mem_eraseDups.mpr called
    rw [none] at listed
    cases listed
  · intro silent
    rw [silent]
    rfl

/-- A compiled program leaves a name to the linker without asking for the library exactly if it was
to leave through the library and calls no routine; the name is `exit`. A build that asks for the
library has the linker take every library of the settings. -/
theorem outside_without_library_iff (compiled : ofSource options source = .ok c) :
    (∀ name, CallsOutside c.assembly name ∧ c.needsLibrary = false ↔
      options.freestanding? = some false ∧ c.program.statements.flatMap callees = [] ∧
        name = "exit") ∧
    ∀ (tc : Toolchain) (output : Path) (w : Workshop),
      let link := tc.linkCommand w.drawn output
        (if c.needsLibrary then tc.settings.libraries else [])
      Work.Ran w 1 [tc.assembleCommand w.drawn, link] output ((tc.build c output).run w) ∧
        (c.needsLibrary = true → ∀ library ∈ tc.settings.libraries,
          "-l" ++ library ∈ link.words) := by
  refine ⟨fun name => ?_, fun tc output w => ⟨tc.ran_build c output w, fun needed library => ?_⟩⟩
  · rw [needsLibrary_eq_false_iff compiled]
    constructor
    · intro ⟨outside, silent⟩
      obtain ⟨asked, exit⟩ := (callsOutside_iff compiled silent).mp outside
      exact ⟨asked, silent, exit⟩
    · intro ⟨asked, silent, exit⟩
      exact ⟨(callsOutside_iff compiled silent).mpr ⟨asked, exit⟩, silent⟩
  · rw [if_pos needed]
    exact tc.mem_linkWords

/-- A program that calls a routine asks for the library, and is linked with it. -/
theorem library_linked_of_call :
    ∃ c, ofSource ⟨false, none⟩ "f();" = .ok c ∧ c.needsLibrary = true ∧
      ∀ (output : Path) (w : Workshop),
        let tc : Toolchain := ⟨.standard, "exprc", .ofInt 1⟩
        let link := tc.linkCommand w.drawn output ["c"]
        Work.Ran w 1 [tc.assembleCommand w.drawn, link] output ((tc.build c output).run w) ∧
          "-lc" ∈ link.words := by
  let program : Program := ⟨[.call "f" [] ⟨0, 3⟩], ⟨[]⟩⟩
  have parsed : (Parsing.ofSource "f();").result = .ok program := by cbv
  have emitted : (lowerStatements false (pool program.statements) 1 program.statements).failure? =
      none := by
    simp only [program, lowerStatements, lower, lowerArguments]
    rfl
  obtain ⟨c, compiled, same⟩ := @exists_ofSource ⟨false, none⟩ _ _ parsed emitted
    (Text.isWritable_of_lt (by decide))
  have needed : c.needsLibrary = true := by
    rw [← Bool.not_eq_false, needsLibrary_eq_false_iff compiled, same]
    decide
  refine ⟨c, compiled, needed, fun output w => ?_⟩
  have built := (outside_without_library_iff compiled).2 ⟨.standard, "exprc", .ofInt 1⟩ output w
  rw [if_pos needed] at built
  exact ⟨built.1, built.2 needed "c" (List.mem_singleton_self _)⟩

/-- A program that calls no routine but is to leave through the library calls `exit` on the outside
and does not ask for the library. -/
theorem exit_outside_without_library :
    ∃ c, ofSource ⟨false, some false⟩ "1;" = .ok c ∧ CallsOutside c.assembly "exit" ∧
      c.needsLibrary = false := by
  obtain ⟨c, compiled, same⟩ := exists_ofSource_one (some false)
  have silent : c.program.statements.flatMap callees = [] := by
    rw [same]
    decide
  exact ⟨c, compiled, (callsOutside_iff compiled silent).mpr ⟨rfl, rfl⟩,
    (needsLibrary_eq_false_iff compiled).mpr silent⟩

end Compilation

end Reckon
