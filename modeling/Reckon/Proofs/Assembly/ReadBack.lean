import Reckon.Proofs.Emission

/-!
# Generated assembly text is read back exactly

A listing stands for a program of the machine: the instructions of its lines in order, a label at
the entry point and at `main`, and one block of bytes with its label for each string literal.
`Code.Listing.Assembles` says that a program of the machine is the one a listing stands for.

Main statement: the text of every generated listing, if its string literals consist of characters up
to U+00FF other than the next-line character, is read as the program that the listing stands for
(`Assembly.ofText_generated`).
-/

namespace Reckon

open Assembly

namespace Code

/-! ## Literals of a text -/

theorem isRaw_of_mem_argumentLiterals {size : Nat} {arguments : List Expr}
    (sourced : ∀ argument ∈ arguments, argument.Sourced size)
    (inside : ∀ argument ∈ arguments, ∀ raw ∈ literals argument, isRaw raw.toList = true) :
    ∀ raw ∈ argumentLiterals arguments, isRaw raw.toList = true := by
  induction arguments with
  | nil => nofun
  | cons argument arguments ih =>
    have later := ih (fun a member => sourced a (List.mem_cons_of_mem _ member))
      fun a member => inside a (List.mem_cons_of_mem _ member)
    by_cases literal : ∃ raw span, argument = .string raw span
    · obtain ⟨raw, span, rfl⟩ := literal
      rw [argumentLiterals]
      refine List.forall_mem_cons.mpr ⟨?_, later⟩
      cases sourced _ List.mem_cons_self with
      | string _ isRaw => exact isRaw
    · rw [argumentLiterals]
      · exact List.forall_mem_append.mpr ⟨inside argument List.mem_cons_self, later⟩
      · exact fun raw span same => literal ⟨raw, span, same⟩

theorem isRaw_of_mem_literals {size : Nat} {e : Expr} (sourced : e.Sourced size) :
    ∀ raw ∈ literals e, isRaw raw.toList = true := by
  induction sourced with
  | number | string | var => nofun
  | @binary operator _ _ _ _ _ _ _ ihLeft ihRight =>
    by_cases assigns : operator = .assign
    · subst assigns
      rw [literals]
      exact ihRight
    · rw [literals]
      · exact List.forall_mem_append.mpr ⟨ihLeft, ihRight⟩
      · exact assigns
  | call span name sourced ih =>
    rw [literals]
    exact isRaw_of_mem_argumentLiterals sourced ih

theorem isRaw_of_mem_pool {size : Nat} {statements : List Expr}
    (sourced : ∀ e ∈ statements, e.Sourced size) :
    ∀ raw ∈ pool statements, isRaw raw.toList = true := by
  intro raw member
  obtain ⟨e, listed, inside⟩ := List.mem_flatMap.mp (List.mem_eraseDups.mp member)
  exact isRaw_of_mem_literals (sourced e listed) raw inside

/-- A character that a string literal may hold to be read back: up to U+00FF, and not the next-line
character, at which lines end. -/
def isLatin (c : Char) : Bool :=
  c.toNat ≤ 0xFF && c != '\x85'

theorem isLatin_of_mem {literals : List String}
    (latin : ∀ raw ∈ literals, ∀ c ∈ raw.toList, c.toNat ≤ 0xFF ∧ c ≠ '\x85') :
    ∀ raw ∈ literals, ∀ c ∈ raw.toList, isLatin c = true := by
  intro raw member c inside
  simpa [isLatin] using latin raw member c inside

/-- A character at which no line ends once the control characters are escaped. -/
def isUnbroken (c : Char) : Bool :=
  isControl c || !Text.isLineBreak c

theorem isLineBreak_of_isUnbroken {c : Char} (unbroken : isUnbroken c = true)
    (solid : isControl c = false) : Text.isLineBreak c = false := by
  rwa [isUnbroken, solid, Bool.false_or, Bool.not_eq_true'] at unbroken

theorem isUnbroken_of_isLatin {c : Char} (latin : isLatin c = true) : isUnbroken c = true := by
  cases breaks : Text.isLineBreak c with
  | false => rw [isUnbroken, breaks, Bool.not_false, Bool.or_true]
  | true =>
    rw [Text.isLineBreak, List.contains_eq_mem, decide_eq_true_eq] at breaks
    simp only [List.mem_cons, List.not_mem_nil, or_false] at breaks
    rcases breaks with rfl | rfl | rfl | rfl | rfl | rfl | rfl | rfl | rfl | rfl
    all_goals first | rfl | exact absurd latin (by decide)

theorem isLineBreak_escapeControls {cs : List Char} (unbroken : ∀ c ∈ cs, isUnbroken c = true) :
    ∀ c ∈ escapeControls cs, Text.isLineBreak c = false := by
  intro c member
  rcases of_mem_escapeControls member with ⟨inside, solid⟩ | rfl | digit
  · exact isLineBreak_of_isUnbroken (unbroken c inside) solid
  · rfl
  · exact Text.isLineBreak_of_isPlain (Text.isPlain_of_isDigit digit)

/-- The argument of a string directive. -/
def quoted (raw : String) : String :=
  "\"" ++ String.ofList (escapeControls raw.toList) ++ "\""

theorem toList_quoted (raw : String) :
    (quoted raw).toList = '\x22' :: (escapeControls raw.toList ++ ['\x22']) := by
  simp only [quoted, String.toList_append, String.toList_ofList]
  rfl

/-- A string literal between its quotes stays whole. -/
theorem whole_quoted {raw : String} (isRaw : isRaw raw.toList = true)
    (unbroken : ∀ c ∈ raw.toList, isUnbroken c = true) : Whole (quoted raw).toList := by
  rw [toList_quoted]
  refine ⟨nofun, ⟨?_, ?_⟩, ?_, ?_, ?_⟩
  · intro c first
    cases first
    decide
  · intro c last
    rw [← List.cons_append, List.getLast?_concat] at last
    cases last
    decide
  · show '\x22' :: withoutCommentFrom true false (escapeControls raw.toList ++ ['\x22']) = _
    rw [withoutCommentFrom_literal isRaw]
    rfl
  · rw [← List.cons_append, List.getLast?_concat]
    decide
  · refine List.forall_mem_cons.mpr ⟨by decide, List.forall_mem_append.mpr ⟨?_, ?_⟩⟩
    · exact isLineBreak_escapeControls unbroken
    · exact Text.forall_mem_of_any (by decide)

/-! ## Lines of a listing -/

theorem readable_directive {name argument : String} (point : name.toList.head? = some '.')
    (plain : name.toList.all Text.isPlain = true) (whole : Whole argument.toList) :
    (Line.directive name (some argument)).Readable :=
  ⟨⟨point, Text.forall_mem_of_all plain⟩, fun _ same => Option.some.inj same ▸ whole⟩

theorem readable_bareDirective {name : String} (point : name.toList.head? = some '.')
    (plain : name.toList.all Text.isPlain = true) : (Line.directive name none).Readable :=
  ⟨⟨point, Text.forall_mem_of_all plain⟩, fun _ absent => by cases absent⟩

theorem whole_of_isPlain {cs : List Char} (nonempty : cs ≠ []) (all : cs.all Text.isPlain = true) :
    Whole cs := by
  have plain := Text.forall_mem_of_all all
  exact .of_code nonempty (fun c same => plain c (List.mem_of_head? same))
    (fun c same => plain c (List.mem_of_getLast? same))
    (fun c member => code_of_isPlain (plain c member))
    (fun c member => Text.isLineBreak_of_isPlain (plain c member))

/-- The instructions of the entry point. -/
def entryCode (freestanding : Bool) : List Line :=
  [two .xor (.register .rbp .double) (.register .rbp .double), one .call (.symbol "main"),
    two .mov eax (.register .rdi .double)] ++
    if freestanding then [two .mov (.immediate exitSystemCall) eax, .instruction ⟨.syscall, []⟩]
    else [one .call (.symbol "exit")]

theorem entry_eq (freestanding : Bool) :
    entry freestanding =
      [.directive ".text" none, .directive ".globl" (some "_start"), .label "_start"] ++
        entryCode freestanding :=
  rfl

/-- The instructions at the beginning of `main`. -/
def prologueCode (slots : Nat) : List Line :=
  [one .push rbp, two .mov rsp rbp] ++
    if frameSize slots = 0 then [] else [two .sub (.immediate (frameSize slots)) rsp]

theorem prologue_eq (slots : Nat) :
    prologue slots =
      [.directive ".globl" (some "main"), .label "main"] ++ prologueCode slots :=
  rfl

theorem inBody_entryCode (freestanding : Bool) : ∀ l ∈ entryCode freestanding, l.InBody := by
  have number : (Operand.immediate exitSystemCall).Readable := readable_immediate (by decide)
  have main : (Operand.symbol "main").Readable := rfl
  have exit : (Operand.symbol "exit").Readable := rfl
  cases freestanding <;> simp [entryCode, eax, number, main, exit]

theorem inBody_prologueCode {slots : Nat} (writable : Text.isWritable (frameSize slots) = true) :
    ∀ l ∈ prologueCode slots, l.InBody := by
  have frame : (Operand.immediate (frameSize slots)).Readable :=
    ⟨Int.natCast_nonneg _, writable⟩
  unfold prologueCode
  split <;> simp [rbp, rsp, frame]

theorem inBody_epilogue : ∀ l ∈ epilogue, l.InBody := by
  simp [epilogue, rbp, rsp]

theorem readable_literalLabel (place : Nat) : (Line.label (literalLabel place)).Readable := by
  have digits : ∀ c ∈ Nat.toDigits 10 place, isSymbolChar c = true := by
    intro c member
    have word := Text.isWord_of_isNameChar (isNameChar_of_isDigit (isDigit_of_mem_toDigits member))
    simp [isSymbolChar, word]
  constructor
  · rw [toList_literalLabel, isSymbol, Bool.and_eq_true, List.all_eq_true]
    simp only [List.forall_mem_cons]
    exact ⟨rfl, by decide, by decide, digits⟩
  · rw [toList_literalLabel]
    simp only [List.forall_mem_cons]
    exact ⟨by decide, by decide, by decide, fun c => isPlain_of_mem_toDigits⟩

/-- The lines of one string literal. -/
def literalBlock (raw : String) (place : Nat) : List Line :=
  [.label (literalLabel place), .directive ".string" (some (quoted raw))]

theorem literalLines_eq (literals : List String) :
    literalLines literals =
      if literals.isEmpty then []
      else .directive ".section" (some ".rodata") ::
        literals.zipIdx.flatMap fun (raw, place) => literalBlock raw place :=
  rfl

/-- A line of the pool has a text that is read as it is, or holds one of the literals. -/
theorem of_mem_literalLines {literals : List String} :
    ∀ line ∈ literalLines literals, line.Readable ∨
      ∃ raw ∈ literals, line = .directive ".string" (some (quoted raw)) := by
  rw [literalLines_eq]
  split
  · nofun
  · refine List.forall_mem_cons.mpr ⟨.inl ?_, fun l member => ?_⟩
    · exact readable_directive rfl (by decide) (whole_of_isPlain (by decide) (by decide))
    · obtain ⟨⟨raw, place⟩, listed, inside⟩ := List.mem_flatMap.mp member
      rcases List.mem_cons.mp inside with rfl | last
      · exact .inl (readable_literalLabel place)
      · exact .inr ⟨raw, List.fst_mem_of_mem_zipIdx listed, List.mem_singleton.mp last⟩

/-- A line of a listing has a text that is read as it is, or holds one of the literals. -/
theorem Listing.of_mem_lines {listing : Listing}
    (frame : Text.isWritable (frameSize listing.slots) = true)
    (body : ∀ line ∈ listing.body, line.InBody) :
    ∀ line ∈ listing.lines, line.Readable ∨
      ∃ raw ∈ listing.literals, line = .directive ".string" (some (quoted raw)) := by
  have symbol : ∀ {name : String}, name.toList ≠ [] → name.toList.all Text.isPlain = true →
      (Line.directive ".globl" (some name)).Readable := fun nonempty plain =>
    readable_directive rfl (by decide) (whole_of_isPlain nonempty plain)
  have note : Whole ".note.GNU-stack,\"\",@progbits".toList :=
    ⟨by decide, ⟨fun c first => by cases first; decide, fun c last => by cases last; decide⟩,
      by decide, by decide, Text.forall_mem_of_any (by decide)⟩
  simp only [Listing.lines, entry_eq, prologue_eq, List.forall_mem_append, List.forall_mem_cons]
  refine ⟨⟨⟨⟨⟨⟨?_, ?_⟩, ?_, ?_⟩, ?_⟩, ?_⟩, of_mem_literalLines⟩, ?_⟩
  · exact ⟨.inl (readable_bareDirective rfl (by decide)), .inl (symbol (by decide) (by decide)),
      .inl ⟨rfl, Text.forall_mem_of_all (by decide)⟩, List.forall_mem_nil _⟩
  · exact fun line member => .inl (inBody_entryCode _ line member).readable
  · exact ⟨.inl (symbol (by decide) (by decide)), .inl ⟨rfl, Text.forall_mem_of_all (by decide)⟩,
      List.forall_mem_nil _⟩
  · exact fun line member => .inl (inBody_prologueCode frame line member).readable
  · exact fun line member => .inl (body line member).readable
  · exact fun line member => .inl (inBody_epilogue line member).readable
  · exact ⟨.inl (readable_directive rfl (by decide) note), List.forall_mem_nil _⟩

/-- A listing all of whose lines have a text that is read as they are. -/
structure Listing.Legible (listing : Listing) : Prop where
  frame : Text.isWritable (frameSize listing.slots) = true
  body : ∀ line ∈ listing.body, line.InBody
  isRaw : ∀ raw ∈ listing.literals, isRaw raw.toList = true
  unbroken : ∀ raw ∈ listing.literals, ∀ c ∈ raw.toList, isUnbroken c = true

/-- A listing all of whose lines have a text that is read as they are, and without fault. -/
structure Listing.WellFormed (listing : Listing) : Prop where
  frame : Text.isWritable (frameSize listing.slots) = true
  body : ∀ line ∈ listing.body, line.InBody
  isRaw : ∀ raw ∈ listing.literals, isRaw raw.toList = true
  latin : ∀ raw ∈ listing.literals, ∀ c ∈ raw.toList, isLatin c = true

theorem Listing.WellFormed.legible {listing : Listing} (wellFormed : listing.WellFormed) :
    listing.Legible where
  frame := wellFormed.frame
  body := wellFormed.body
  isRaw := wellFormed.isRaw
  unbroken raw member c inside := isUnbroken_of_isLatin (wellFormed.latin raw member c inside)

theorem Listing.Legible.readable {listing : Listing} (legible : listing.Legible) :
    ∀ line ∈ listing.lines, line.Readable := by
  intro line member
  rcases Listing.of_mem_lines legible.frame legible.body line member with readable | literal
  · exact readable
  · obtain ⟨raw, listed, rfl⟩ := literal
    exact readable_directive rfl (by decide)
      (whole_quoted (legible.isRaw raw listed) (legible.unbroken raw listed))

section Generated

variable {source : String} {program : Program} {options : Options} {listing : Listing}

/-- A listing that was generated from a source text is legible, if no line ends in its literals. -/
theorem legible_of_generate (parsed : (Parsing.ofSource source).result = .ok program)
    (generated : (generate options program).result = .ok listing)
    (unbroken : ∀ raw ∈ pool program.statements, ∀ c ∈ raw.toList, isUnbroken c = true) :
    listing.Legible := by
  have sourced := Program.sourced_of_ofSource parsed
  obtain ⟨-, writable, rfl⟩ := generate_eq_ok_iff.mp generated
  exact ⟨writable, inBody_lowerStatements sourced options.comments _ 1, isRaw_of_mem_pool sourced,
    unbroken⟩

/-- A listing that was generated from a source text is well-formed, if its literals have a text. -/
theorem wellFormed_of_generate (parsed : (Parsing.ofSource source).result = .ok program)
    (generated : (generate options program).result = .ok listing)
    (latin : ∀ raw ∈ pool program.statements, ∀ c ∈ raw.toList, isLatin c = true) :
    listing.WellFormed := by
  have legible := legible_of_generate parsed generated fun raw member c inside =>
    isUnbroken_of_isLatin (latin raw member c inside)
  obtain ⟨-, -, rfl⟩ := generate_eq_ok_iff.mp generated
  exact ⟨legible.frame, legible.body, legible.isRaw, latin⟩

end Generated

/-! ## What lines add to a program -/

/-- The operation and the operands of a line that is an instruction. -/
def Line.code? : Line → Option (String × List Assembly.Operand)
  | .instruction i => some (i.opcode.name, i.operands.map Operand.denote)
  | .directive _ _ | .label _ | .comment _ => none

/-- The operations and operands of the instructions among lines. -/
def codeOf (lines : List Line) : List (String × List Assembly.Operand) :=
  lines.filterMap Line.code?

theorem codeOf_append (lines lines' : List Line) :
    codeOf (lines ++ lines') = codeOf lines ++ codeOf lines' :=
  List.filterMap_append

theorem codeOf_announce {number : Nat} {statement : Expr} :
    codeOf (announce number statement).lines = [] := by
  unfold announce
  split <;> rfl

end Code

/-- The operation and the operands of an instruction, without its place in the text. -/
def Assembly.Instruction.code (i : Assembly.Instruction) : String × List Assembly.Operand :=
  (i.mnemonic, i.operands)

/-- The program with more instructions. -/
def Assembly.ReaderState.extend (s : ReaderState) (more : List Assembly.Instruction) :
    ReaderState :=
  { s with image := { s.image with instructions := s.image.instructions ++ more.toArray } }

/-- The program with more data and labels of data. -/
def Assembly.ReaderState.store (s : ReaderState) (labels : List (String × Nat))
    (bytes : List UInt8) : ReaderState :=
  { s with
    image :=
      { s.image with
        dataLabels := ⟨labels.reverse ++ s.image.dataLabels.entries⟩
        data := s.image.data ++ bytes.toArray } }

namespace Code

theorem Line.readAll_append {s s' : ReaderState} {number : Nat} {lines : List Line}
    (done : readAll s number lines = .ok s') (rest : List Line) :
    readAll s number (lines ++ rest) = readAll s' (number + lines.length) rest := by
  induction lines generalizing s number with
  | nil =>
    cases done
    rfl
  | cons line lines ih =>
    rw [readAll] at done
    rw [List.cons_append, readAll]
    cases read : line.read s number with
    | error fault =>
      rw [read] at done
      cases done
    | ok s₁ =>
      rw [read] at done
      have later := ih done
      rw [Nat.add_assoc, Nat.add_comm 1] at later
      exact later

/-- Lines of a body add their instructions. -/
theorem Line.readAll_body {lines : List Line} (body : ∀ line ∈ lines, line.InBody) (s : ReaderState)
    (number : Nat) :
    ∃ more, readAll s number lines = .ok (s.extend more) ∧
      more.map Assembly.Instruction.code = codeOf lines := by
  induction lines generalizing s number with
  | nil => exact ⟨[], by simp [readAll, ReaderState.extend], rfl⟩
  | cons line lines ih =>
    have later := fun l member => body l (List.mem_cons_of_mem line member)
    cases line with
    | directive => cases body _ List.mem_cons_self
    | label => cases body _ List.mem_cons_self
    | comment text => exact ih later s (number + 1)
    | instruction i =>
      obtain ⟨more, done, same⟩ := ih later (s.push (i.denote number)) (number + 1)
      refine ⟨i.denote number :: more, ?_, ?_⟩
      · rw [readAll]
        simp only [read, done]
        simp [ReaderState.extend, ReaderState.push]
      · rw [List.map_cons, same]
        rfl

/-! ## The pool -/

/-- The block of bytes of a string literal, which a zero follows. -/
def IsBlock (raw : String) (block : List UInt8) : Prop :=
  stringBytes (escapeControls raw.toList) = .ok block

/-- The bytes of blocks, each followed by a zero. -/
def poolBytes (blocks : List (List UInt8)) : List UInt8 :=
  blocks.flatMap (· ++ [0])

/-- The labels of blocks that begin at an address, numbered from `place` on. -/
def literalLabels (place address : Nat) : List (List UInt8) → List (String × Nat)
  | [] => []
  | block :: blocks =>
    (literalLabel place, address) :: literalLabels (place + 1) (address + block.length + 1) blocks

theorem exists_blocks {literals : List String}
    (latin : ∀ raw ∈ literals, ∀ c ∈ raw.toList, isLatin c = true) :
    ∃ blocks, List.Forall₂ IsBlock literals blocks := by
  induction literals with
  | nil => exact ⟨[], .nil⟩
  | cons raw literals ih =>
    obtain ⟨blocks, later⟩ := ih fun r member => latin r (List.mem_cons_of_mem _ member)
    have fits : ∀ c ∈ raw.toList, Text.fitsByte c = true := by
      intro c member
      have small := (Bool.and_eq_true_iff.mp (latin raw List.mem_cons_self c member)).1
      exact decide_eq_true (Nat.lt_succ_of_le (of_decide_eq_true small))
    obtain ⟨block, here⟩ := exists_stringBytes fits
    exact ⟨block :: blocks, .cons here later⟩

theorem quotedBody?_quoted (raw : String) :
    quotedBody? (quoted raw).toList = some (escapeControls raw.toList) := by
  rw [toList_quoted, quotedBody?]
  simp

theorem readAll_literalBlock {raw : String} {block : List UInt8} (isBlock : IsBlock raw block)
    {s : ReaderState} (inData : s.sectionName = ".rodata") (place number : Nat) :
    Line.readAll s number (literalBlock raw place) =
      .ok (s.store [(literalLabel place, dataBase + s.image.data.size)] (block ++ [0])) := by
  have label : s.setLabel (literalLabel place) =
      s.store [(literalLabel place, dataBase + s.image.data.size)] [] := by
    simp [ReaderState.setLabel, inData, ReaderState.store, Labels.insert]
  have data : ∀ s' : ReaderState, s'.direct (number + 1) ".string" (quoted raw).toList =
      .ok (s'.store [] (block ++ [0])) := by
    intro s'
    have isBlock : stringBytes (escapeControls raw.toList) = .ok block := isBlock
    simp [ReaderState.direct, quotedBody?_quoted, isBlock, ReaderState.store]
  simp only [literalBlock, Line.readAll, Line.read, Option.getD_some, label, data]
  simp [ReaderState.store]

theorem readAll_literals {literals : List String} {blocks : List (List UInt8)}
    (areBlocks : List.Forall₂ IsBlock literals blocks) {s : ReaderState}
    (inData : s.sectionName = ".rodata") (place number : Nat) :
    Line.readAll s number
      ((literals.zipIdx place).flatMap fun (raw, place) => literalBlock raw place) =
      .ok (s.store (literalLabels place (dataBase + s.image.data.size) blocks)
        (poolBytes blocks)) := by
  induction areBlocks generalizing s place number with
  | nil => simp [Line.readAll, literalLabels, poolBytes, ReaderState.store]
  | @cons raw block literals blocks here _ ih =>
    have first := readAll_literalBlock here inData place number
    rw [List.zipIdx_cons, List.flatMap_cons, Line.readAll_append first,
      ih (s := s.store _ _) inData]
    simp [ReaderState.store, literalLabels, poolBytes, Nat.add_assoc]

theorem readAll_literalLines {literals : List String} {blocks : List (List UInt8)}
    (areBlocks : List.Forall₂ IsBlock literals blocks) (s : ReaderState) (number : Nat) :
    ∃ s', Line.readAll s number (literalLines literals) = .ok s' ∧
      s'.image = (s.store (literalLabels 0 (dataBase + s.image.data.size) blocks)
        (poolBytes blocks)).image := by
  rw [literalLines_eq]
  cases areBlocks with
  | nil => exact ⟨s, rfl, by simp [literalLabels, poolBytes, ReaderState.store]⟩
  | @cons raw block literals blocks here later =>
    let s' : ReaderState := { s with sectionName := ".rodata" }
    have entered : Line.readAll s number [.directive ".section" (some ".rodata")] = .ok s' := rfl
    refine ⟨s'.store _ _, ?_, rfl⟩
    rw [if_neg (by simp), ← List.singleton_append, Line.readAll_append entered,
      readAll_literals (.cons here later) rfl]

/-! ## The program of a listing -/

/-- The lines of a listing that hold its code. -/
def Listing.codeLines (listing : Listing) : List Line :=
  entry listing.freestanding ++ prologue listing.slots ++ listing.body ++ epilogue

/-- The program of the machine is the one that the listing stands for, with the given blocks of
bytes for its literals. -/
structure Listing.Assembles (listing : Listing) (image : Image) (blocks : List (List UInt8)) :
    Prop where
  areBlocks : List.Forall₂ IsBlock listing.literals blocks
  instructions : image.instructions.toList.map Assembly.Instruction.code =
    codeOf listing.codeLines
  codeLabels : image.codeLabels =
    ⟨[("main", (codeOf (entry listing.freestanding)).length), ("_start", 0)]⟩
  dataLabels : image.dataLabels = ⟨(literalLabels 0 dataBase blocks).reverse⟩
  data : image.data.toList = poolBytes blocks

theorem readAll_entry (freestanding : Bool) (number : Nat) :
    ∃ more, Line.readAll .initial number (entry freestanding) =
        .ok ((ReaderState.initial.setLabel "_start").extend more) ∧
      more.map Assembly.Instruction.code = codeOf (entry freestanding) := by
  have start : Line.readAll .initial number
      [.directive ".text" none, .directive ".globl" (some "_start"), .label "_start"] =
      .ok (ReaderState.initial.setLabel "_start") := rfl
  obtain ⟨more, done, same⟩ := Line.readAll_body (inBody_entryCode freestanding)
    (ReaderState.initial.setLabel "_start") (number + 3)
  exact ⟨more, by rw [entry_eq]; exact (Line.readAll_append start _).trans done, same⟩

theorem readAll_prologue {slots : Nat} (writable : Text.isWritable (frameSize slots) = true)
    (s : ReaderState) (number : Nat) :
    ∃ more, Line.readAll s number (prologue slots) = .ok ((s.setLabel "main").extend more) ∧
      more.map Assembly.Instruction.code = codeOf (prologue slots) := by
  have main : Line.readAll s number [.directive ".globl" (some "main"), .label "main"] =
      .ok (s.setLabel "main") := rfl
  obtain ⟨more, done, same⟩ := Line.readAll_body (inBody_prologueCode writable)
    (s.setLabel "main") (number + 2)
  exact ⟨more, by rw [prologue_eq]; exact (Line.readAll_append main _).trans done, same⟩

/-- The code of a listing is read as its instructions, under the two labels of code. -/
theorem Listing.Legible.readAll_codeLines {listing : Listing} (legible : listing.Legible) :
    ∃ (more : List Assembly.Instruction) (s : ReaderState),
      Line.readAll .initial 1 listing.codeLines = .ok s ∧
      more.map Assembly.Instruction.code = codeOf listing.codeLines ∧
      s.image = ⟨more.toArray,
        ⟨[("main", (codeOf (entry listing.freestanding)).length), ("_start", 0)]⟩, .empty,
          #[]⟩ := by
  obtain ⟨atEntry, readEntry, sameEntry⟩ := readAll_entry listing.freestanding 1
  obtain ⟨atMain, readMain, sameMain⟩ := readAll_prologue legible.frame _ _
  have upToMain := (Line.readAll_append readEntry _).trans readMain
  obtain ⟨inBody, readBody, sameBody⟩ := Line.readAll_body legible.body _ _
  have upToBody := (Line.readAll_append upToMain _).trans readBody
  obtain ⟨atEnd, readEnd, sameEnd⟩ := Line.readAll_body inBody_epilogue _ _
  have upToEnd := (Line.readAll_append upToBody _).trans readEnd
  refine ⟨atEntry ++ atMain ++ inBody ++ atEnd, _, upToEnd, ?_, ?_⟩
  · rw [Listing.codeLines]
    simp only [List.map_append, codeOf_append, sameEntry, sameMain, sameBody, sameEnd]
  · have length : atEntry.length = (codeOf (entry listing.freestanding)).length := by
      rw [← sameEntry, List.length_map]
    simp [ReaderState.extend, ReaderState.setLabel, ReaderState.initial, Image.empty, Labels.insert,
      Labels.empty, length]

/-- The text of a legible listing whose literals have bytes is read as the program that the listing
stands for. -/
theorem Listing.Legible.exists_assembles {listing : Listing} (legible : listing.Legible)
    {blocks : List (List UInt8)} (areBlocks : List.Forall₂ IsBlock listing.literals blocks) :
    ∃ image, Image.ofText listing.text = .ok image ∧ listing.Assembles image blocks := by
  obtain ⟨more, s, readCode, sameCode, imageCode⟩ := legible.readAll_codeLines
  obtain ⟨s', readLiterals, imageLiterals⟩ := readAll_literalLines areBlocks s _
  have upToLiterals := (Line.readAll_append readCode _).trans readLiterals
  have all := Line.readAll_append upToLiterals
    [.directive ".section" (some ".note.GNU-stack,\"\",@progbits")]
  refine ⟨s'.image, ?_, ?_⟩
  · rw [ofText_eq legible.readable]
    exact congrArg (Except.map ReaderState.image) all
  · rw [imageLiterals, ReaderState.store, imageCode]
    exact
      { areBlocks
        instructions := by simpa using sameCode
        codeLabels := rfl
        dataLabels := by simp [Labels.empty]
        data := by simp }

/-- The text of a well-formed listing is read as the program that the listing stands for. -/
theorem Listing.WellFormed.exists_assembles {listing : Listing} (wellFormed : listing.WellFormed) :
    ∃ image blocks, Image.ofText listing.text = .ok image ∧ listing.Assembles image blocks := by
  obtain ⟨blocks, areBlocks⟩ := exists_blocks wellFormed.latin
  obtain ⟨image, read, assembles⟩ := wellFormed.legible.exists_assembles areBlocks
  exact ⟨image, blocks, read, assembles⟩

/-! ## Labels -/

theorem literalLabel_injective {k k' : Nat} (same : literalLabel k = literalLabel k') : k = k' := by
  have texts := congrArg String.toList same
  rw [toList_literalLabel, toList_literalLabel] at texts
  simp only [List.cons.injEq, true_and] at texts
  rw [← Nat.ofDigitChars_ten_toDigits (n := k), texts, Nat.ofDigitChars_ten_toDigits]

theorem length_poolBytes (blocks : List (List UInt8)) :
    (poolBytes blocks).length = (blocks.map fun block => block.length + 1).sum := by
  simp [poolBytes, List.length_flatMap]

theorem mem_literalLabels {name : String} {value place address : Nat} {blocks : List (List UInt8)} :
    (name, value) ∈ literalLabels place address blocks ↔
      ∃ k < blocks.length, name = literalLabel (place + k) ∧
        value = address + ((blocks.take k).map fun block => block.length + 1).sum := by
  induction blocks generalizing place address with
  | nil => simp [literalLabels]
  | cons block blocks ih =>
    rw [literalLabels, List.mem_cons, ih]
    constructor
    · rintro (same | ⟨k, inside, rfl, rfl⟩)
      · cases same
        exact ⟨0, by simp, by simp, by simp⟩
      · refine ⟨k + 1, by simpa using inside, by rw [Nat.add_assoc, Nat.add_comm 1], ?_⟩
        simp only [List.take_succ_cons, List.map_cons, List.sum_cons]
        omega
    · rintro ⟨k, inside, rfl, rfl⟩
      cases k with
      | zero => exact .inl (by simp)
      | succ k =>
        refine .inr ⟨k, by simpa using inside, by rw [Nat.add_assoc, Nat.add_comm 1], ?_⟩
        simp only [List.take_succ_cons, List.map_cons, List.sum_cons]
        omega

theorem lookup_eq_some_iff_mem {entries : List (String × Nat)} {name : String} {value : Nat}
    (functional : ∀ v v', (name, v) ∈ entries → (name, v') ∈ entries → v = v') :
    entries.lookup name = some value ↔ (name, value) ∈ entries := by
  constructor
  · intro found
    obtain ⟨before, after, rfl, -⟩ := List.lookup_eq_some_iff.mp found
    exact List.mem_append_right _ List.mem_cons_self
  · intro member
    cases found : entries.lookup name with
    | none => exact absurd (List.lookup_eq_none_iff.mp found _ member) (by simp)
    | some v =>
      obtain ⟨before, after, rfl, -⟩ := List.lookup_eq_some_iff.mp found
      rw [functional v value (List.mem_append_right _ List.mem_cons_self) member]

namespace Listing.Assembles

variable {listing : Listing} {image : Image} {blocks : List (List UInt8)}

theorem get?_codeLabels (assembles : listing.Assembles image blocks) (name : String) :
    image.codeLabels.get? name =
      if name = "main" then some (codeOf (entry listing.freestanding)).length
      else if name = "_start" then some 0 else none := by
  rw [assembles.codeLabels, Labels.get?]
  by_cases main : name = "main"
  · simp [main]
  · by_cases start : name = "_start"
    · subst start
      rfl
    · simp [List.lookup_cons, main, start, beq_eq_false_iff_ne.mpr main,
        beq_eq_false_iff_ne.mpr start]

/-- The label of each literal stands for the address after the blocks before it. -/
theorem get?_dataLabels (assembles : listing.Assembles image blocks) (name : String)
    (address : Nat) :
    image.dataLabels.get? name = some address ↔ ∃ k < blocks.length, name = literalLabel k ∧
      address = dataBase + ((blocks.take k).map fun block => block.length + 1).sum := by
  rw [assembles.dataLabels, Labels.get?, lookup_eq_some_iff_mem, List.mem_reverse,
    mem_literalLabels]
  · simp only [Nat.zero_add]
  · intro v v' first second
    obtain ⟨k, -, rfl, rfl⟩ := mem_literalLabels.mp (List.mem_reverse.mp first)
    obtain ⟨k', -, same, rfl⟩ := mem_literalLabels.mp (List.mem_reverse.mp second)
    rw [Nat.zero_add, Nat.zero_add] at same
    rw [literalLabel_injective same]

end Listing.Assembles

end Code

namespace Assembly

open Code

/-- Generated assembly text is read back exactly. Take a program that was read from a source text
and lowered without error, with any options, and whose literals consist of characters up to U+00FF
other than U+0085. Then its text is read without fault, and what is read has

* as instructions the emitted operations and operands of the entry, the prologue, the body and the
  epilogue, in order;
* as labels of code `_start` at 0 and `main` after the entry, and no others;
* as labels of data those of the pool, each at the address after the blocks before it, and no
  others;
* as data the decoded bytes of the literals in the order of the pool, each followed by a zero. -/
theorem ofText_generated {source : String} {program : Program} {options : Options}
    {listing : Listing} (parsed : (Parsing.ofSource source).result = .ok program)
    (generated : (generate options program).result = .ok listing)
    (latin : ∀ raw ∈ pool program.statements, ∀ c ∈ raw.toList, c.toNat ≤ 0xFF ∧ c ≠ '\x85') :
    ∃ image blocks, Image.ofText listing.text = .ok image ∧
      image.instructions.toList.map (fun i => (i.mnemonic, i.operands)) =
        codeOf (entry listing.freestanding ++ prologue listing.slots ++ listing.body ++ epilogue) ∧
      (∀ name index, image.codeLabels.get? name = some index ↔
        name = "_start" ∧ index = 0 ∨
          name = "main" ∧ index = (codeOf (entry listing.freestanding)).length) ∧
      List.Forall₂ (fun raw block => stringBytes (escapeControls raw.toList) = .ok block)
        (pool program.statements) blocks ∧
      (∀ name address, image.dataLabels.get? name = some address ↔
        ∃ k < blocks.length, name = literalLabel k ∧
          address = dataBase + ((blocks.take k).map fun block => block.length + 1).sum) ∧
      image.data.toList = blocks.flatMap (· ++ [0]) := by
  have latin := isLatin_of_mem latin
  obtain ⟨image, blocks, read, assembles⟩ :=
    (wellFormed_of_generate parsed generated latin).exists_assembles
  obtain ⟨-, -, rfl⟩ := generate_eq_ok_iff.mp generated
  refine ⟨image, blocks, read, assembles.instructions, ?_, assembles.areBlocks,
    assembles.get?_dataLabels, assembles.data⟩
  intro name index
  rw [assembles.get?_codeLabels]
  by_cases main : name = "main"
  · subst main
    simp [eq_comm]
  · by_cases start : name = "_start"
    · subst start
      simp [eq_comm]
    · simp [main, start]

/-- A literal with a number sign, a tab, a colon and a quote. -/
theorem ofText_generated_of_signs :
    ∃ program listing, (Parsing.ofSource "f(\"#\t:\\\"\");").result = .ok program ∧
      (generate ⟨true, none⟩ program).result = .ok listing ∧
      ∃ image blocks, Image.ofText listing.text = .ok image ∧
        List.Forall₂ (fun raw block => stringBytes (escapeControls raw.toList) = .ok block)
          ["#\t:\\\""] blocks ∧
        image.data.toList = blocks.flatMap (· ++ [0]) := by
  let program : Program := ⟨[.call "f" [.string "#\t:\\\"" ⟨2, 9⟩] ⟨0, 10⟩], ⟨[]⟩⟩
  have parsed : (Parsing.ofSource "f(\"#\t:\\\"\");").result = .ok program := by cbv
  have literals : pool program.statements = ["#\t:\\\""] := by cbv
  have complete : (lowerStatements true (pool program.statements) 1 program.statements).failure? =
      none := by cbv
  obtain ⟨listing, generated⟩ : ∃ listing, (generate ⟨true, none⟩ program).result = .ok listing :=
    ⟨_, generate_eq_ok_iff.mpr ⟨complete, Text.isWritable_of_lt (by decide), rfl⟩⟩
  obtain ⟨image, blocks, read, -, -, areBlocks, -, data⟩ :=
    ofText_generated parsed generated (by simp [literals])
  rw [literals] at areBlocks
  exact ⟨program, listing, parsed, generated, image, blocks, read, areBlocks, data⟩

end Assembly

end Reckon
