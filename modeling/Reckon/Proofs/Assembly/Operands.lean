import Reckon.Code.Listing
import Reckon.Proofs.Assembly.PlainText

/-!
# Operands are read as they were written

`Code.Operand.denote` is what an emitted operand means to the machine. Its text is plain, so that it
survives the ways in which a line is cut (`Assembly.Undivided`), and the machine's reader makes its
meaning of it (`Assembly.readOperand_render`). The operands of an instruction are found between the
commas (`Assembly.splitOperands_joined`).
-/

namespace Reckon

namespace Code.Operand

/-- What an emitted operand means to the machine: slots lie below the frame pointer, and string
literals are reached through their labels. -/
def denote : Operand → Assembly.Operand
  | immediate value => .immediate value
  | register r w => .register r w
  | slot index => .memory (.register .rbp) (-slotOffset index) none
  | literal place => .memory .rip 0 (some (literalLabel place))
  | symbol name => .symbol name

/-- The operand has a text that means it: its numbers can be written, its slot is one of the frame
and its symbol is a name. -/
def Readable : Operand → Prop
  | immediate value => 0 ≤ value ∧ Text.isWritable value = true
  | register _ _ => True
  | slot index => 0 ≤ index ∧ Text.isWritable (slotOffset index) = true
  | literal _ => True
  | symbol name => isName name.toList = true

end Code.Operand

namespace Assembly

open Code (literalLabel slotOffset)

/-! ## Numbers -/

theorem toList_toString_of_nonneg {value : Int} (nonneg : 0 ≤ value) :
    (toString value).toList = Nat.toDigits 10 value.natAbs := by
  rw [Int.toString_eq_repr, Int.repr_eq_if, if_pos nonneg, Nat.toList_repr]
  congr 1
  omega

theorem isNameChar_of_isDigit {c : Char} (digit : c.isDigit = true) :
    Lexer.isNameChar c = true := by
  simp only [Char.isDigit, Bool.and_eq_true, decide_eq_true_eq] at digit
  have isDigit : Text.isAsciiDigit c = true := by
    rw [Text.isAsciiDigit, Bool.and_eq_true, decide_eq_true_eq, decide_eq_true_eq]
    exact digit
  rw [Lexer.isNameChar, isDigit, Bool.or_true]

theorem isDigit_of_mem_toDigits {n : Nat} {c : Char} (member : c ∈ Nat.toDigits 10 n) :
    c.isDigit = true :=
  Nat.isDigit_of_mem_toDigits (by decide) (by decide) member

theorem isDigit_or_eq_of_mem_toString {value : Int} {c : Char}
    (member : c ∈ (toString value).toList) : c.isDigit = true ∨ c = '-' := by
  rw [Int.toString_eq_repr, Int.repr_eq_if] at member
  split at member
  · rw [Nat.toList_repr] at member
    exact .inl (isDigit_of_mem_toDigits member)
  · rw [String.toList_append, Nat.toList_repr] at member
    rcases List.mem_append.mp member with sign | digits
    · exact .inr (List.mem_singleton.mp sign)
    · exact .inl (isDigit_of_mem_toDigits digits)

theorem isPlain_of_mem_toDigits {n : Nat} {c : Char} (member : c ∈ Nat.toDigits 10 n) :
    Text.isPlain c = true :=
  Text.isPlain_of_isDigit (isDigit_of_mem_toDigits member)

theorem all_isDigit_toDigits (n : Nat) : (Nat.toDigits 10 n).all Text.isDigit = true := by
  refine List.all_eq_true.mpr fun c member => ?_
  rw [Text.isDigit, Text.digitValue?_of_isDigit (isDigit_of_mem_toDigits member)]
  rfl

theorem signedDigits?_neg (n : Nat) :
    signedDigits? ('-' :: Nat.toDigits 10 n) = some (true, Nat.toDigits 10 n) := by
  simp [signedDigits?, Nat.toDigits_ne_nil, all_isDigit_toDigits]

theorem signedDigits?_toDigits (n : Nat) :
    signedDigits? (Nat.toDigits 10 n) = some (false, Nat.toDigits 10 n) := by
  have all := all_isDigit_toDigits n
  cases written : Nat.toDigits 10 n with
  | nil => exact absurd written Nat.toDigits_ne_nil
  | cons c rest =>
    have digit := isDigit_of_mem_toDigits (n := n) (written ▸ List.mem_cons_self)
    have unsigned : c ≠ '-' := by
      rintro rfl
      cases digit
    rw [written] at all
    simp only [signedDigits?]
    split
    · next rest' same => exact absurd (List.cons.inj same).1 unsigned
    · simp [all]

theorem readSigned_toDigits {n : Nat} (short : n < Nat.pow 10 Text.digitLimit) (negative : Bool) :
    readSigned negative (Nat.toDigits 10 n) = .ok (if negative then -(n : Int) else n) := by
  rw [readSigned, Text.readNatural_toDigits short]

/-! ## Text that is not divided -/

/-- Plain text whose parentheses match: it is one operand. -/
structure Undivided (cs : List Char) : Prop where
  ne_nil : cs ≠ []
  plain : ∀ c ∈ cs, Text.isPlain c = true
  balanced : cs.count '(' = cs.count ')'

theorem Undivided.of_isNameChar {cs : List Char} (nonempty : cs ≠ [])
    (name : ∀ c ∈ cs, Lexer.isNameChar c = true) : Undivided cs where
  ne_nil := nonempty
  plain c member := Text.isPlain_of_isNameChar (name c member)
  balanced := by
    rw [List.count_eq_zero_of_not_mem, List.count_eq_zero_of_not_mem]
    · intro member
      cases name _ member
    · intro member
      cases name _ member

theorem count_toDigits (n : Nat) {c : Char} (other : c.isDigit = false) :
    (Nat.toDigits 10 n).count c = 0 := by
  refine List.count_eq_zero_of_not_mem fun member => ?_
  rw [isDigit_of_mem_toDigits member] at other
  cases other

theorem toList_immediate {value : Int} (nonneg : 0 ≤ value) :
    (Code.Operand.immediate value).render.toList = '$' :: Nat.toDigits 10 value.natAbs := by
  rw [Code.Operand.render, String.toList_append, toList_toString_of_nonneg nonneg]
  rfl

theorem toList_slot {index : Int} (nonneg : 0 ≤ index) :
    (Code.Operand.slot index).render.toList =
      '-' :: Nat.toDigits 10 (slotOffset index).natAbs ++ ['(', '%', 'r', 'b', 'p', ')'] := by
  have below : 0 ≤ slotOffset index := Int.mul_nonneg (by omega) (by decide)
  rw [Code.Operand.render, String.toList_append, String.toList_append,
    toList_toString_of_nonneg below]
  rfl

theorem toList_literalLabel (place : Nat) :
    (literalLabel place).toList = '.' :: 'L' :: 'S' :: Nat.toDigits 10 place := by
  rw [literalLabel, String.toList_append, Nat.toString_eq_repr, Nat.toList_repr]
  rfl

theorem toList_literal (place : Nat) :
    (Code.Operand.literal place).render.toList =
      '.' :: 'L' :: 'S' :: Nat.toDigits 10 place ++ ['(', '%', 'r', 'i', 'p', ')'] := by
  simp [Code.Operand.render, toList_literalLabel]

theorem isNameChar_of_isName {cs : List Char} (name : isName cs = true) :
    ∀ c ∈ cs, Lexer.isNameChar c = true := by
  cases cs with
  | nil => nofun
  | cons first rest =>
    obtain ⟨starts, all⟩ := Bool.and_eq_true_iff.mp name
    intro c member
    rcases List.mem_cons.mp member with rfl | later
    · rw [Lexer.isNameChar, starts]
      rfl
    · exact List.all_eq_true.mp all c later

theorem ne_nil_of_isName {cs : List Char} (name : isName cs = true) : cs ≠ [] := by
  rintro rfl
  cases name

theorem undivided_register (r : Register) (w : Width) :
    Undivided (Code.Operand.register r w).render.toList := by
  cases r <;> cases w <;> exact ⟨by decide, Text.forall_mem_of_all (by decide), by decide⟩

/-- The text of an operand is plain and one operand. -/
theorem undivided_render {operand : Code.Operand} (readable : operand.Readable) :
    Undivided operand.render.toList := by
  have opening : ('(' : Char).isDigit = false := by decide
  have closing : (')' : Char).isDigit = false := by decide
  cases operand with
  | immediate value =>
    rw [toList_immediate readable.1]
    refine ⟨nofun, ?_, by simp [count_toDigits, opening, closing]⟩
    exact List.forall_mem_cons.mpr ⟨by decide, fun c => isPlain_of_mem_toDigits⟩
  | register r w => exact undivided_register r w
  | slot index =>
    rw [toList_slot readable.1]
    refine ⟨nofun, ?_, by simp [count_toDigits, opening, closing]⟩
    exact List.forall_mem_append.mpr
      ⟨List.forall_mem_cons.mpr ⟨by decide, fun c => isPlain_of_mem_toDigits⟩,
        Text.forall_mem_of_all (by decide)⟩
  | literal place =>
    rw [toList_literal]
    refine ⟨nofun, ?_, by simp [count_toDigits, opening, closing]⟩
    refine List.forall_mem_append.mpr ⟨?_, Text.forall_mem_of_all (by decide)⟩
    simp only [List.forall_mem_cons]
    exact ⟨by decide, by decide, by decide, fun c => isPlain_of_mem_toDigits⟩
  | symbol name =>
    exact .of_isNameChar (ne_nil_of_isName readable) (isNameChar_of_isName readable)

/-! ## Reading an operand -/

theorem withoutFinalNewline_of_plain {cs : List Char} (plain : ∀ c ∈ cs, Text.isPlain c = true) :
    withoutFinalNewline cs = cs := by
  unfold withoutFinalNewline
  split
  · next before same =>
    have newline : '\n' ∈ cs := List.mem_reverse.mp (same ▸ List.mem_cons_self)
    cases plain _ newline
  · rfl

theorem memoryParts?_of_parts {displacement : List Char} (base : List Char)
    (before : ∀ c ∈ displacement, c ≠ '(')
    (written : ((signedDigits? displacement).isSome || displacement.all isSymbolChar) = true)
    (word : isWordText base.reverse = true) :
    memoryParts? (displacement ++ '(' :: '%' :: (base ++ [')'])) = some (displacement, base) := by
  have inside : ∀ c ∈ displacement, (c != '(') = true := fun c member => by simp [before c member]
  have taken : (displacement ++ '(' :: '%' :: (base ++ [')'])).takeWhile (· != '(') =
      displacement := by
    rw [List.takeWhile_append_of_pos inside]
    simp
  have left : (displacement ++ '(' :: '%' :: (base ++ [')'])).dropWhile (· != '(') =
      '(' :: '%' :: (base ++ [')']) := by
    rw [List.dropWhile_append_of_pos inside]
    simp
  simp only [memoryParts?, taken, left, List.reverse_append, List.reverse_cons, List.reverse_nil,
    List.nil_append, List.singleton_append, Bool.or_assoc, written, Bool.or_true, Bool.true_and,
    word, if_true, List.reverse_reverse]

theorem readOperand_immediate {value : Int} (readable : (Code.Operand.immediate value).Readable)
    (line : Int) :
    readOperand line (Code.Operand.immediate value).render.toList = .ok (.immediate value) := by
  have plain := (undivided_render readable).plain
  obtain ⟨nonneg, short⟩ := readable
  have short : value.natAbs < Nat.pow 10 Text.digitLimit := of_decide_eq_true short
  rw [readOperand, withoutFinalNewline_of_plain plain, toList_immediate nonneg]
  simp only [signedDigits?_toDigits, readSigned_toDigits short]
  show Except.ok (Operand.immediate (value.natAbs : Int)) = _
  rw [Int.natAbs_of_nonneg nonneg]

/-- Text that begins neither as a constant nor as a register is a place or a symbol. -/
theorem readOperand_of_place {cs : List Char} (plain : ∀ c ∈ cs, Text.isPlain c = true)
    (notConstant : cs.head? ≠ some '$') (notRegister : cs.head? ≠ some '%') (line : Int) :
    readOperand line cs = readPlace line cs cs := by
  rw [readOperand, withoutFinalNewline_of_plain plain]
  split
  · exact absurd rfl notConstant
  · exact absurd rfl notRegister
  · rfl

theorem readOperand_slot {index : Int} (readable : (Code.Operand.slot index).Readable)
    (line : Int) :
    readOperand line (Code.Operand.slot index).render.toList =
      .ok (.memory (.register .rbp) (-slotOffset index) none) := by
  have plain := (undivided_render readable).plain
  obtain ⟨nonneg, short⟩ := readable
  have short : (slotOffset index).natAbs < Nat.pow 10 Text.digitLimit := of_decide_eq_true short
  have below : 0 ≤ slotOffset index := Int.mul_nonneg (by omega) (by decide)
  rw [toList_slot nonneg] at plain ⊢
  have parts : memoryParts?
      ('-' :: Nat.toDigits 10 (slotOffset index).natAbs ++ ['(', '%', 'r', 'b', 'p', ')']) =
      some ('-' :: Nat.toDigits 10 (slotOffset index).natAbs, ['r', 'b', 'p']) := by
    refine memoryParts?_of_parts ['r', 'b', 'p'] ?_ ?_ (by decide)
    · refine List.forall_mem_cons.mpr ⟨by decide, ?_⟩
      rintro c member rfl
      cases isDigit_of_mem_toDigits member
    · simp [signedDigits?_neg]
  have base : base? (String.ofList ['r', 'b', 'p']) = some (.register .rbp) := by decide
  rw [readOperand_of_place plain (by simp) (by simp), readPlace, parts]
  simp only [readMemory, base, List.isEmpty_cons, Bool.false_eq_true, if_false, signedDigits?_neg,
    readSigned_toDigits short]
  show Except.ok (Operand.memory (.register .rbp) (-((slotOffset index).natAbs : Int)) none) = _
  rw [Int.natAbs_of_nonneg below]

theorem readOperand_literal (place : Nat) (line : Int) :
    readOperand line (Code.Operand.literal place).render.toList =
      .ok (.memory .rip 0 (some (literalLabel place))) := by
  have plain := (undivided_render (show (Code.Operand.literal place).Readable from trivial)).plain
  rw [toList_literal, ← toList_literalLabel] at plain ⊢
  have symbols : (literalLabel place).toList.all isSymbolChar = true := by
    rw [toList_literalLabel, List.all_eq_true]
    simp only [List.forall_mem_cons]
    refine ⟨by decide, by decide, by decide, ?_⟩
    intro c member
    have word := Text.isWord_of_isNameChar (isNameChar_of_isDigit (isDigit_of_mem_toDigits member))
    simp [isSymbolChar, word]
  have unsigned : signedDigits? (literalLabel place).toList = none := by
    rw [toList_literalLabel]
    have : Text.isDigit '.' = false := by decide
    simp [signedDigits?, this]
  have parts : memoryParts? ((literalLabel place).toList ++ ['(', '%', 'r', 'i', 'p', ')']) =
      some ((literalLabel place).toList, ['r', 'i', 'p']) := by
    refine memoryParts?_of_parts ['r', 'i', 'p'] ?_ (by simp [symbols]) (by decide)
    rw [toList_literalLabel]
    simp only [List.forall_mem_cons]
    refine ⟨by decide, by decide, by decide, ?_⟩
    rintro c member rfl
    cases isDigit_of_mem_toDigits member
  have base : base? (String.ofList ['r', 'i', 'p']) = some .rip := by decide
  have head : (literalLabel place).toList.head? = some '.' := by
    rw [toList_literalLabel]
    rfl
  rw [readOperand_of_place plain (by simp [head]) (by simp [head]), readPlace, parts]
  have nonempty : (literalLabel place).toList.isEmpty = false := by
    rw [toList_literalLabel]
    rfl
  simp only [readMemory, base, nonempty, Bool.false_eq_true, if_false, unsigned,
    String.ofList_toList]

theorem isSymbol_of_isName {cs : List Char} (name : isName cs = true) : isSymbol cs = true := by
  cases cs with
  | nil => cases name
  | cons first rest =>
    obtain ⟨starts, all⟩ := Bool.and_eq_true_iff.mp name
    rw [isSymbol, Bool.and_eq_true]
    constructor
    · rw [Lexer.isNameStart, Bool.or_eq_true] at starts
      rcases starts with letter | lowLine
      · simp [letter]
      · simp [lowLine]
    · refine List.all_eq_true.mpr fun c member => ?_
      have symbol := Text.isWord_of_isNameChar (List.all_eq_true.mp all c member)
      simp [isSymbolChar, symbol]

theorem readOperand_symbol {name : String} (isName : isName name.toList = true) (line : Int) :
    readOperand line name.toList = .ok (.symbol name) := by
  have plain : ∀ c ∈ name.toList, Text.isPlain c = true :=
    fun c member => Text.isPlain_of_isNameChar (isNameChar_of_isName isName c member)
  have letters := isNameChar_of_isName isName
  have outside : name.toList.dropWhile (· != '(') = [] := by
    refine List.dropWhile_eq_nil_iff.mpr fun c member => ?_
    have : c ≠ '(' := by
      rintro rfl
      cases letters _ member
    simp [this]
  have parts : memoryParts? name.toList = none := by
    simp only [memoryParts?, outside]
  have first : ∀ c, Lexer.isNameChar c = false → name.toList.head? ≠ some c := by
    intro c other same
    rw [letters c (List.mem_of_head? same)] at other
    cases other
  rw [readOperand_of_place plain (first _ (by decide)) (first _ (by decide)), readPlace, parts]
  simp [isSymbol_of_isName isName]

/-- An operand is read from its text with the meaning it was written for. -/
theorem readOperand_render {operand : Code.Operand} (readable : operand.Readable) (line : Int) :
    readOperand line operand.render.toList = .ok operand.denote := by
  cases operand with
  | immediate value => exact readOperand_immediate readable line
  | register r w => cases r <;> cases w <;> rfl
  | slot index => exact readOperand_slot readable line
  | literal place => exact readOperand_literal place line
  | symbol name => exact readOperand_symbol readable line

/-! ## Operands between commas -/

theorem splitOperandsFrom_append {cs : List Char} (plain : ∀ c ∈ cs, Text.isPlain c = true)
    (depth : Int) (current rest : List Char) :
    splitOperandsFrom depth current (cs ++ rest) =
      splitOperandsFrom (depth + cs.count '(' - cs.count ')') (cs.reverse ++ current) rest := by
  induction cs generalizing depth current with
  | nil => simp
  | cons c cs ih =>
    have notComma : c ≠ ',' := Text.ne_of_isPlain (plain c List.mem_cons_self) (by decide)
    rw [List.cons_append, splitOperandsFrom]
    simp only [beq_iff_eq, Bool.false_and, Bool.false_eq_true, if_false,
      beq_eq_false_iff_ne.mpr notComma]
    rw [ih fun d later => plain d (List.mem_cons_of_mem _ later)]
    simp only [List.reverse_cons, List.append_assoc, List.singleton_append, List.count_cons,
      beq_iff_eq]
    congr 1
    by_cases opening : c = '('
    · subst opening
      simp
      omega
    · by_cases closing : c = ')'
      · subst closing
        simp
        omega
      · simp [opening, closing]

/-- The comma and the blank between two operands. -/
def operandGap : List Char := [',', ' ']

theorem splitOperandsFrom_joined {texts : List (List Char)} (nonempty : texts ≠ [])
    (undivided : ∀ text ∈ texts, Undivided text) {margin : List Char}
    (blank : ∀ c ∈ margin, Text.isBlank c = true) :
    splitOperandsFrom 0 margin (operandGap.intercalate texts) = texts := by
  induction texts generalizing margin with
  | nil => exact absurd rfl nonempty
  | cons text texts ih =>
    have here := undivided text List.mem_cons_self
    have depth : (0 : Int) + text.count '(' - text.count ')' = 0 := by
      rw [here.balanced]
      omega
    have trimmed : Text.trim (text.reverse ++ margin).reverse = text := by
      rw [List.reverse_append, List.reverse_reverse]
      refine Text.trim_append (fun c member => ?_) (.of_isPlain here.plain)
      exact blank c (List.mem_reverse.mp member)
    cases texts with
    | nil =>
      rw [List.intercalate_singleton, ← List.append_nil text, splitOperandsFrom_append here.plain,
        List.append_nil, depth, splitOperandsFrom, trimmed]
      simp [here.ne_nil]
    | cons next texts =>
      have later : splitOperandsFrom 0 [' '] (operandGap.intercalate (next :: texts)) =
          next :: texts := by
        refine ih nofun (fun t member => undivided t (List.mem_cons_of_mem _ member)) ?_
        exact Text.forall_mem_of_all (by decide)
      rw [List.intercalate_cons_cons, List.append_assoc, splitOperandsFrom_append here.plain, depth]
      show splitOperandsFrom 0 (text.reverse ++ margin) (',' :: ' ' :: operandGap.intercalate _) = _
      rw [splitOperandsFrom, splitOperandsFrom]
      simp only [trimmed, BEq.rfl, Bool.and_self, if_true]
      exact congrArg (text :: ·) later

/-- The operands of an instruction are the texts between the commas. -/
theorem splitOperands_joined {texts : List (List Char)}
    (undivided : ∀ text ∈ texts, Undivided text) :
    splitOperands (operandGap.intercalate texts) = texts := by
  cases texts with
  | nil => rfl
  | cons text texts =>
    exact splitOperandsFrom_joined (List.cons_ne_nil text texts) undivided (List.forall_mem_nil _)

theorem mapM_readOperand {operands : List Code.Operand}
    (readable : ∀ operand ∈ operands, operand.Readable) (line : Int) :
    (operands.map fun operand => operand.render.toList).mapM (readOperand line) =
      .ok (operands.map Code.Operand.denote) := by
  induction operands with
  | nil => rfl
  | cons operand operands ih =>
    rw [List.map_cons, List.mapM_cons, readOperand_render (readable operand List.mem_cons_self),
      ih fun o later => readable o (List.mem_cons_of_mem _ later)]
    rfl

end Assembly

end Reckon
