import Reckon.Proofs.Assembly.Operands

/-!
# Lines are read as they were written

`Code.Line.read` is what a line does to a program that has been read in part, told of the line
itself and not of its text. Reading the text of a line comes to the same
(`Assembly.readLine_render`), and so does reading the text of a whole listing
(`Assembly.ofText_eq`).
-/

namespace Reckon

open Assembly

namespace Code

/-- What an instruction means to the machine: the name of its operation and its operands. -/
def Instruction.denote (i : Instruction) (line : Nat) : Assembly.Instruction :=
  ⟨i.opcode.name, i.operands.map Operand.denote, line⟩

end Code

/-- The program with one more instruction. -/
def Assembly.ReaderState.push (s : ReaderState) (instruction : Assembly.Instruction) :
    ReaderState :=
  { s with image := { s.image with instructions := s.image.instructions.push instruction } }

namespace Code.Line

/-- What a line with the given number does to a program that has been read in part. -/
def read (s : ReaderState) (number : Nat) : Line → Except Fault ReaderState
  | directive name argument? => s.direct number name ((argument?.getD "").toList)
  | label name => .ok (s.setLabel name)
  | instruction i => .ok (s.push (i.denote number))
  | comment _ => .ok s

/-- What lines do, numbered from `number` on. -/
def readAll (s : ReaderState) (number : Nat) : List Line → Except Fault ReaderState
  | [] => .ok s
  | line :: lines =>
    match line.read s number with
    | .ok s' => readAll s' (number + 1) lines
    | .error fault => .error fault

end Code.Line

namespace Assembly

/-- What follows the name on a line and stays whole: no blanks around it, no remark in it, and no
colon that would make a label of the line. -/
structure Whole (cs : List Char) : Prop where
  ne_nil : cs ≠ []
  tight : Text.Tight cs
  uncut : withoutComment cs = cs
  unlabelled : cs.getLast? ≠ some ':'
  unbroken : ∀ c ∈ cs, Text.isLineBreak c = false

end Assembly

namespace Code.Line

/-- The line has a text that is read as the line. -/
def Readable : Line → Prop
  | directive name argument? =>
    (name.toList.head? = some '.' ∧ ∀ c ∈ name.toList, Text.isPlain c = true) ∧
      ∀ argument ∈ argument?, Whole argument.toList
  | label name => isSymbol name.toList = true ∧ ∀ c ∈ name.toList, Text.isPlain c = true
  | instruction i => ∀ operand ∈ i.operands, operand.Readable
  | comment text => ∀ c ∈ text.toList, Text.isLineBreak c = false

end Code.Line

namespace Assembly

/-! ## Whole arguments -/

theorem code_of_isPlain {c : Char} (plain : Text.isPlain c = true) :
    c ≠ '\\' ∧ c ≠ '\x22' ∧ c ≠ '#' :=
  ⟨Text.ne_of_isPlain plain (by decide), Text.ne_of_isPlain plain (by decide),
    Text.ne_of_isPlain plain (by decide)⟩

/-- Text that begins and ends plainly and holds only code between stays whole. -/
theorem Whole.of_code {cs : List Char} (nonempty : cs ≠ [])
    (first : ∀ c, cs.head? = some c → Text.isPlain c = true)
    (last : ∀ c, cs.getLast? = some c → Text.isPlain c = true)
    (code : ∀ c ∈ cs, c ≠ '\\' ∧ c ≠ '\x22' ∧ c ≠ '#')
    (unbroken : ∀ c ∈ cs, Text.isLineBreak c = false) : Whole cs where
  ne_nil := nonempty
  tight := ⟨fun c same => Text.isBlank_of_isPlain (first c same),
    fun c same => Text.isBlank_of_isPlain (last c same)⟩
  uncut := by
    have whole := withoutCommentFrom_code code []
    rwa [List.append_nil, withoutCommentFrom, List.append_nil] at whole
  unlabelled same := by cases last _ same
  unbroken := unbroken

theorem isPlain_of_joined {texts : List (List Char)} (undivided : ∀ text ∈ texts, Undivided text) :
    ∀ c ∈ operandGap.intercalate texts, Text.isPlain c = true ∨ c = ',' ∨ c = ' ' := by
  refine Text.forall_mem_intercalate ?_ fun text member c inside => ?_
  · intro c member
    exact .inr (by simpa [operandGap] using member)
  · exact .inl ((undivided text member).plain c inside)

theorem head?_joined {text : List Char} (nonempty : text ≠ []) (texts : List (List Char)) :
    (operandGap.intercalate (text :: texts)).head? = text.head? := by
  cases texts with
  | nil => rw [List.intercalate_singleton]
  | cons next texts =>
    rw [List.intercalate_cons_cons, List.append_assoc, List.head?_append_of_ne_nil _ nonempty]

theorem joined_ne_nil {texts : List (List Char)} (nonempty : texts ≠ [])
    (undivided : ∀ text ∈ texts, Undivided text) : operandGap.intercalate texts ≠ [] := by
  cases texts with
  | nil => exact absurd rfl nonempty
  | cons text texts =>
    intro empty
    have first := head?_joined (undivided text List.mem_cons_self).ne_nil texts
    rw [empty, List.head?_nil] at first
    exact (undivided text List.mem_cons_self).ne_nil (List.head?_eq_none_iff.mp first.symm)

theorem isPlain_of_getLast?_joined {texts : List (List Char)}
    (undivided : ∀ text ∈ texts, Undivided text) :
    ∀ c, (operandGap.intercalate texts).getLast? = some c → Text.isPlain c = true := by
  induction texts with
  | nil => nofun
  | cons text texts ih =>
    intro c last
    have after := fun t later => undivided t (List.mem_cons_of_mem text later)
    cases texts with
    | nil =>
      rw [List.intercalate_singleton] at last
      exact (undivided text List.mem_cons_self).plain c (List.mem_of_getLast? last)
    | cons next texts =>
      rw [List.intercalate_cons_cons,
        List.getLast?_append_of_ne_nil _ (joined_ne_nil (List.cons_ne_nil next texts) after)]
        at last
      exact ih after c last

theorem undivided_operands {operands : List Code.Operand}
    (readable : ∀ operand ∈ operands, operand.Readable) :
    ∀ text ∈ operands.map fun operand => operand.render.toList, Undivided text := by
  intro text member
  obtain ⟨operand, listed, rfl⟩ := List.mem_map.mp member
  exact undivided_render (readable operand listed)

theorem Whole.of_joined {texts : List (List Char)} (nonempty : texts ≠ [])
    (undivided : ∀ text ∈ texts, Undivided text) : Whole (operandGap.intercalate texts) := by
  have inside := isPlain_of_joined undivided
  refine .of_code (joined_ne_nil nonempty undivided) ?_ (isPlain_of_getLast?_joined undivided) ?_ ?_
  · cases texts with
    | nil => nofun
    | cons text texts =>
      have here := undivided text List.mem_cons_self
      rw [head?_joined here.ne_nil]
      exact fun c same => here.plain c (List.mem_of_head? same)
  · intro c member
    rcases inside c member with plain | rfl | rfl
    · exact code_of_isPlain plain
    · decide
    · decide
  · intro c member
    rcases inside c member with plain | rfl | rfl
    · exact Text.isLineBreak_of_isPlain plain
    · decide
    · decide

/-- The operands of an instruction stay whole. -/
theorem Whole.of_operands {operands : List Code.Operand} (nonempty : operands ≠ [])
    (readable : ∀ operand ∈ operands, operand.Readable) :
    Whole (operandGap.intercalate (operands.map fun operand => operand.render.toList)) :=
  .of_joined (by simp [nonempty]) (undivided_operands readable)

/-! ## The text of a line -/

theorem code_of_indent : ∀ c ∈ Code.indent.toList, c ≠ '\\' ∧ c ≠ '\x22' ∧ c ≠ '#' := by
  intro c member
  have blank : c = ' ' := (List.mem_replicate.mp (show c ∈ List.replicate 8 ' ' from member)).2
  rw [blank]
  decide

theorem isBlank_of_indent : ∀ c ∈ Code.indent.toList, Text.isBlank c = true :=
  Text.forall_mem_of_all (by decide)

theorem label?_eq_none {cs : List Char} (unlabelled : cs.getLast? ≠ some ':') :
    label? cs = none := by
  unfold label?
  split
  · next before same =>
    rw [← List.head?_reverse, same] at unlabelled
    exact absurd rfl unlabelled
  · rfl

/-- A line that holds a name and nothing else. -/
theorem readLine_name {name : List Char} (nonempty : name ≠ [])
    (plain : ∀ c ∈ name, Text.isPlain c = true) (s : ReaderState) (number : Nat) :
    s.readLine number (Code.indent.toList ++ name) =
      if name.head? == some '.' then s.direct number (String.ofList name) []
      else s.instruct number name [] := by
  have uncut : withoutComment (Code.indent.toList ++ name) = Code.indent.toList ++ name := by
    have whole := withoutCommentFrom_code (fun c member => code_of_isPlain (plain c member)) []
    rw [List.append_nil, withoutCommentFrom, List.append_nil] at whole
    rw [withoutComment, withoutCommentFrom_code code_of_indent, whole]
  have unlabelled : name.getLast? ≠ some ':' := by
    intro same
    cases plain _ (List.mem_of_getLast? same)
  have solid : ∀ c ∈ name, (c != ' ') = true := by
    intro c member
    exact bne_iff_ne.mpr (Text.ne_of_isPlain (plain c member) (by decide))
  rw [ReaderState.readLine, uncut, Text.trim_append isBlank_of_indent (.of_isPlain plain)]
  simp only [List.isEmpty_eq_false_iff.mpr nonempty, Bool.false_eq_true, if_false,
    label?_eq_none unlabelled, List.takeWhile_eq_self_iff.mpr solid,
    List.dropWhile_eq_nil_iff.mpr solid]
  rfl

/-- A line that holds a name, blanks and an argument. -/
theorem readLine_argument {name argument : List Char} {gap : Nat} (nonempty : name ≠ [])
    (plain : ∀ c ∈ name, Text.isPlain c = true) (parted : 0 < gap) (whole : Whole argument)
    (s : ReaderState) (number : Nat) :
    s.readLine number (Code.indent.toList ++ (name ++ (List.replicate gap ' ' ++ argument))) =
      if name.head? == some '.' then s.direct number (String.ofList name) argument
      else s.instruct number name argument := by
  obtain ⟨gap, rfl⟩ : ∃ k, gap = k + 1 := ⟨gap - 1, by omega⟩
  have blanks : ∀ c ∈ List.replicate (gap + 1) ' ', c = ' ' :=
    fun c member => (List.mem_replicate.mp member).2
  have uncut : withoutComment (Code.indent.toList ++ (name ++ (List.replicate (gap + 1) ' ' ++
      argument))) = Code.indent.toList ++ (name ++ (List.replicate (gap + 1) ' ' ++ argument)) := by
    rw [withoutComment, withoutCommentFrom_code code_of_indent,
      withoutCommentFrom_code fun c member => code_of_isPlain (plain c member),
      withoutCommentFrom_code fun c member => by rw [blanks c member]; decide]
    exact congrArg (fun cs => _ ++ (_ ++ (_ ++ cs))) whole.uncut
  have last : (name ++ (List.replicate (gap + 1) ' ' ++ argument)).getLast? =
      argument.getLast? := by
    rw [← List.append_assoc, List.getLast?_append_of_ne_nil _ whole.ne_nil]
  have tight : Text.Tight (name ++ (List.replicate (gap + 1) ' ' ++ argument)) := by
    refine ⟨fun c same => ?_, fun c same => whole.tight.last c (last ▸ same)⟩
    rw [List.head?_append_of_ne_nil _ nonempty] at same
    exact Text.isBlank_of_isPlain (plain c (List.mem_of_head? same))
  have solid : ∀ c ∈ name, (c != ' ') = true := by
    intro c member
    exact bne_iff_ne.mpr (Text.ne_of_isPlain (plain c member) (by decide))
  have named : (name ++ (List.replicate (gap + 1) ' ' ++ argument)).takeWhile (· != ' ') =
      name := by
    rw [List.takeWhile_append_of_pos solid, List.replicate_succ]
    simp
  have rest :
      Text.trim ((name ++ (List.replicate (gap + 1) ' ' ++ argument)).dropWhile (· != ' ')) =
      argument := by
    rw [List.dropWhile_append_of_pos solid]
    show Text.trim (List.replicate (gap + 1) ' ' ++ argument) = argument
    refine Text.trim_append (fun c member => ?_) whole.tight
    rw [blanks c member]
    decide
  have labelled : label? (name ++ (List.replicate (gap + 1) ' ' ++ argument)) = none :=
    label?_eq_none (last ▸ whole.unlabelled)
  have some : (name ++ (List.replicate (gap + 1) ' ' ++ argument)).isEmpty = false := by
    simp [nonempty]
  rw [ReaderState.readLine, uncut, Text.trim_append isBlank_of_indent tight]
  simp only [some, Bool.false_eq_true, if_false, labelled, named, rest]

theorem length_name_le (opcode : Opcode) : opcode.name.length ≤ 7 := by
  cases opcode <;> decide

theorem isPlain_name (opcode : Opcode) : ∀ c ∈ opcode.name.toList, Text.isPlain c = true := by
  cases opcode <;> exact Text.forall_mem_of_all (by decide)

theorem head?_name (opcode : Opcode) : (opcode.name.toList.head? == some '.') = false := by
  cases opcode <;> decide

theorem name_ne_nil (opcode : Opcode) : opcode.name.toList ≠ [] := by
  cases opcode <;> decide

theorem lowercase_name (opcode : Opcode) :
    String.ofList (Text.lowercase opcode.name.toList) = opcode.name := by
  cases opcode <;> decide

theorem instruct_operands {i : Code.Instruction}
    (readable : ∀ operand ∈ i.operands, operand.Readable)
    (s : ReaderState) (number : Nat) :
    s.instruct number i.opcode.name.toList
      (operandGap.intercalate (i.operands.map fun operand => operand.render.toList)) =
      .ok (s.push (i.denote number)) := by
  rw [ReaderState.instruct, splitOperands_joined (undivided_operands readable),
    mapM_readOperand readable]
  simp only [bind, Except.bind, lowercase_name]
  rfl

theorem toList_padRight (width : Nat) (text : String) :
    (Code.padRight width text).toList =
      text.toList ++ List.replicate (width - text.length) ' ' := by
  rw [Code.padRight, String.toList_append, String.toList_ofList]

theorem readLine_instruction {i : Code.Instruction}
    (readable : ∀ operand ∈ i.operands, operand.Readable) (s : ReaderState) (number : Nat) :
    s.readLine number (Code.Line.instruction i).render.toList = .ok (s.push (i.denote number)) := by
  have instructed := instruct_operands readable s number
  obtain ⟨opcode, operands⟩ := i
  cases operands with
  | nil =>
    rw [Code.Line.render, String.toList_append, readLine_name (name_ne_nil opcode)
      (isPlain_name opcode), head?_name]
    exact instructed
  | cons operand operands =>
    have short := length_name_le opcode
    have whole := Whole.of_operands (List.cons_ne_nil operand operands) readable
    have gap : 0 < 8 - opcode.name.length := by omega
    have read := readLine_argument (name_ne_nil opcode) (isPlain_name opcode) gap whole s number
    rw [head?_name] at read
    rw [Code.Line.render, String.toList_append, String.toList_append, toList_padRight,
      String.toList_intercalate, List.map_map, List.append_assoc, List.append_assoc]
    · exact read.trans instructed
    · nofun

theorem readLine_directive {name : String} {argument? : Option String}
    (readable : (Code.Line.directive name argument?).Readable) (s : ReaderState) (number : Nat) :
    s.readLine number (Code.Line.directive name argument?).render.toList =
      s.direct number name (argument?.getD "").toList := by
  obtain ⟨⟨point, plain⟩, whole⟩ := readable
  have nonempty : name.toList ≠ [] := by
    intro empty
    rw [empty] at point
    cases point
  cases argument? with
  | none =>
    rw [Code.Line.render, String.toList_append, readLine_name nonempty plain, point,
      String.ofList_toList]
    rfl
  | some argument =>
    have read := readLine_argument nonempty plain (Nat.succ_pos (7 - name.length))
      (whole argument rfl) s number
    rw [point, String.ofList_toList, List.replicate_succ'] at read
    rw [Code.Line.render, String.toList_append, String.toList_append, String.toList_append,
      toList_padRight]
    simp only [List.append_assoc] at read ⊢
    exact read

theorem readLine_label {name : String} (readable : (Code.Line.label name).Readable)
    (s : ReaderState) (number : Nat) :
    s.readLine number (Code.Line.label name).render.toList = .ok (s.setLabel name) := by
  obtain ⟨symbol, plain⟩ := readable
  have written : (Code.Line.label name).render.toList = name.toList ++ [':'] := by
    rw [Code.Line.render, String.toList_append]
    rfl
  have uncut : withoutComment (name.toList ++ [':']) = name.toList ++ [':'] := by
    rw [withoutComment, withoutCommentFrom_code fun c member => code_of_isPlain (plain c member)]
    rfl
  have tight : Text.Tight (name.toList ++ [':']) := by
    refine ⟨fun c same => ?_, fun c same => ?_⟩
    · cases letters : name.toList with
      | nil => cases letters ▸ symbol
      | cons first rest =>
        rw [letters] at same plain
        exact Text.isBlank_of_isPlain (plain c (by cases same; exact List.mem_cons_self))
    · rw [List.getLast?_concat] at same
      cases same
      decide
  have labelled : label? (name.toList ++ [':']) = some name := by
    rw [label?, List.reverse_concat]
    simp only [List.reverse_reverse, symbol, if_true, String.ofList_toList]
  rw [written, ReaderState.readLine, uncut]
  have trimmed := Text.trim_append (List.forall_mem_nil _) tight
  rw [List.nil_append] at trimmed
  simp [trimmed, labelled]

/-- Nothing but the indentation is left of a remark. -/
theorem withoutComment_comment (text : String) :
    withoutComment (Code.Line.comment text).render.toList = Code.indent.toList := by
  rw [Code.Line.render, String.toList_append, String.toList_append, List.append_assoc,
    withoutComment, withoutCommentFrom_code code_of_indent]
  rfl

theorem readLine_comment (text : String) (s : ReaderState) (number : Nat) :
    s.readLine number (Code.Line.comment text).render.toList = .ok s := by
  rw [ReaderState.readLine, withoutComment_comment]
  rfl

/-- Reading the text of a line is reading the line. -/
theorem readLine_render {line : Code.Line} (readable : line.Readable) (s : ReaderState)
    (number : Nat) : s.readLine number line.render.toList = line.read s number := by
  cases line with
  | directive name argument? => exact readLine_directive readable s number
  | label name => exact readLine_label readable s number
  | instruction i => exact readLine_instruction readable s number
  | comment text => exact readLine_comment text s number

theorem readLines_render {lines : List Code.Line} (readable : ∀ line ∈ lines, line.Readable)
    (s : ReaderState) (number : Nat) :
    s.readLines number (lines.map fun line => line.render.toList) =
      Code.Line.readAll s number lines := by
  induction lines generalizing s number with
  | nil => rfl
  | cons line lines ih =>
    have later := fun l member => readable l (List.mem_cons_of_mem line member)
    rw [List.map_cons, ReaderState.readLines, readLine_render (readable line List.mem_cons_self),
      Code.Line.readAll]
    cases line.read s number with
    | ok s' => exact ih later s' (number + 1)
    | error fault => rfl

/-! ## The text of a listing -/

theorem isLineBreak_of_indent : ∀ c ∈ Code.indent.toList, Text.isLineBreak c = false :=
  Text.forall_mem_of_any (by decide)

theorem isLineBreak_of_padRight {width : Nat} {text : String}
    (plain : ∀ c ∈ text.toList, Text.isPlain c = true) :
    ∀ c ∈ (Code.padRight width text).toList, Text.isLineBreak c = false := by
  rw [toList_padRight]
  refine List.forall_mem_append.mpr
    ⟨fun c member => Text.isLineBreak_of_isPlain (plain c member), ?_⟩
  intro c member
  rw [(List.mem_replicate.mp member).2]
  decide

/-- The text of a line is on one line. -/
theorem isLineBreak_of_render {line : Code.Line} (readable : line.Readable) :
    ∀ c ∈ line.render.toList, Text.isLineBreak c = false := by
  cases line with
  | directive name argument? =>
    obtain ⟨⟨_, plain⟩, whole⟩ := readable
    cases argument? with
    | none =>
      simp only [Code.Line.render, String.toList_append, List.forall_mem_append]
      exact ⟨isLineBreak_of_indent, fun c member => Text.isLineBreak_of_isPlain (plain c member)⟩
    | some argument =>
      simp only [Code.Line.render, String.toList_append, List.forall_mem_append]
      exact ⟨⟨⟨isLineBreak_of_indent, isLineBreak_of_padRight plain⟩,
        Text.forall_mem_of_any (by decide)⟩, (whole argument rfl).unbroken⟩
  | label name =>
    simp only [Code.Line.render, String.toList_append, List.forall_mem_append]
    exact ⟨fun c member => Text.isLineBreak_of_isPlain (readable.2 c member),
      Text.forall_mem_of_any (by decide)⟩
  | instruction i =>
    obtain ⟨opcode, operands⟩ := i
    cases operands with
    | nil =>
      simp only [Code.Line.render, String.toList_append, List.forall_mem_append]
      exact ⟨isLineBreak_of_indent,
        fun c member => Text.isLineBreak_of_isPlain (isPlain_name opcode c member)⟩
    | cons operand operands =>
      have whole := Whole.of_operands (List.cons_ne_nil operand operands) readable
      rw [Code.Line.render]
      · simp only [String.toList_append, List.forall_mem_append, String.toList_intercalate,
          List.map_map]
        exact ⟨⟨isLineBreak_of_indent, isLineBreak_of_padRight (isPlain_name opcode)⟩,
          whole.unbroken⟩
      · nofun
  | comment text =>
    simp only [Code.Line.render, String.toList_append, List.forall_mem_append]
    exact ⟨⟨isLineBreak_of_indent, Text.forall_mem_of_any (by decide)⟩, readable⟩

/-- The lines of the text of a listing are the texts of its lines. -/
theorem lines_text {listing : Code.Listing} (readable : ∀ line ∈ listing.lines, line.Readable) :
    Text.lines listing.text.toList = listing.lines.map fun line => line.render.toList := by
  have nonempty : (listing.lines.map fun line => line.render.toList) ≠ [] := by
    simp [Code.Listing.lines]
  have unbroken : ∀ l ∈ listing.lines.map fun line => line.render.toList,
      ∀ c ∈ l, Text.isLineBreak c = false := by
    intro l member
    obtain ⟨line, listed, rfl⟩ := List.mem_map.mp member
    exact isLineBreak_of_render (readable line listed)
  rw [Code.Listing.text, String.toList_append, String.toList_intercalate, List.map_map]
  exact Text.lines_joined nonempty unbroken

/-- Reading the text of a listing is reading its lines. -/
theorem ofText_eq {listing : Code.Listing} (readable : ∀ line ∈ listing.lines, line.Readable) :
    Image.ofText listing.text =
      (Code.Line.readAll .initial 1 listing.lines).map ReaderState.image := by
  rw [Image.ofText, lines_text readable, readLines_render readable]

end Assembly

end Reckon
