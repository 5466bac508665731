import Reckon.Compilation
import Reckon.Proofs.Assembly.Lines
import Reckon.Proofs.Drafting
import Reckon.Proofs.SourceTrees

/-!
# The lines of generated code

The body of a listing consists of instructions and remarks, and those that come from the tree of a
source text have a text that is read as they are (`Code.inBody_lowerStatements`). A listing is made
exactly if lowering meets no failure and the size of the frame can be written
(`Code.generate_eq_ok_iff`).
-/

namespace Reckon.Code

/-! ## Lines of the body -/

/-- The line is an instruction or a remark that has a text. -/
def Line.InBody : Line → Prop
  | .instruction i => ∀ operand ∈ i.operands, operand.Readable
  | .comment text => ∀ c ∈ text.toList, Text.isLineBreak c = false
  | .directive _ _ | .label _ => False

theorem Line.InBody.readable {line : Line} (inBody : line.InBody) : line.Readable := by
  cases line with
  | instruction => exact inBody
  | comment => exact inBody
  | directive => cases inBody
  | label => cases inBody

@[simp] theorem inBody_bare (opcode : Opcode) : (Line.instruction ⟨opcode, []⟩).InBody :=
  List.forall_mem_nil _

@[simp] theorem inBody_one (opcode : Opcode) (operand : Operand) :
    (one opcode operand).InBody ↔ operand.Readable := by
  simp [one, Line.InBody]

@[simp] theorem inBody_two (opcode : Opcode) (source destination : Operand) :
    (two opcode source destination).InBody ↔ source.Readable ∧ destination.Readable := by
  simp [two, Line.InBody]

@[simp] theorem readable_register (r : Register) (w : Width) : (Operand.register r w).Readable :=
  trivial

@[simp] theorem readable_literal (place : Nat) : (Operand.literal place).Readable :=
  trivial

@[simp] theorem readable_immediate_zero : (Operand.immediate 0).Readable :=
  ⟨by decide, Text.isWritable_of_lt (by decide)⟩

theorem readable_immediate {value : Nat} (small : value < 0x10000000000000000) :
    (Operand.immediate value).Readable :=
  ⟨Int.natCast_nonneg value, Text.isWritable_of_lt (by simpa using small)⟩

/-- All lines of the emission are instructions and remarks that have a text. -/
def Emission.InBody (a : Emission) : Prop := ∀ line ∈ a.lines, line.InBody

namespace Emission

theorem InBody.append {a b : Emission} (first : a.InBody) (second : b.InBody) :
    (a ++ b).InBody := by
  cases complete : a.failure? with
  | some error =>
    rw [append_of_failure?_eq_some complete]
    exact first
  | none =>
    rw [append_of_failure?_eq_none complete]
    exact List.forall_mem_append.mpr ⟨first, second⟩

theorem inBody_emit {lines : List Line} (inBody : ∀ line ∈ lines, line.InBody) :
    (emit lines).InBody :=
  inBody

theorem inBody_fail (cause : Cause) (span : Span) : (fail cause span).InBody :=
  List.forall_mem_nil _

theorem inBody_spell {number : Int} {line : Line}
    (inBody : Text.isWritable number = true → line.InBody) : (spell number line).InBody := by
  unfold spell
  split
  · next writable => exact inBody_emit (by simpa using inBody writable)
  · exact List.forall_mem_nil _

theorem inBody_reach {index : Int} {line : Operand → Line} (inside : 0 ≤ index)
    (inBody : ∀ operand : Operand, operand.Readable → (line operand).InBody) :
    (reach index line).InBody :=
  inBody_spell fun writable => inBody (.slot index) ⟨inside, writable⟩

end Emission

open Emission

theorem inBody_store {size : Nat} {target : Expr} (sourced : target.Sourced size) :
    (store target).InBody := by
  cases sourced with
  | var name span inside =>
    exact inBody_reach (Int.natCast_nonneg _) fun slot readable => by simp [eax, readable]
  | number => exact inBody_fail _ _
  | string => exact inBody_fail _ _
  | binary => exact inBody_fail _ _
  | call => exact inBody_fail _ _

theorem inBody_combine? {operator : Operator} {combination : List Line}
    (combined : combine? operator = some combination) : ∀ l ∈ combination, l.InBody := by
  cases operator <;> cases combined <;> simp [eax, ebx, rax, rbx]

theorem inBody_invoke {name : String} (isName : isName name.toList = true)
    (count outstanding : Nat) :
    ∀ l ∈ invoke name count outstanding, l.InBody := by
  have eight : (Operand.immediate 8).Readable :=
    readable_immediate (show 8 < 0x10000000000000000 by decide)
  have target : (Operand.symbol name).Readable := isName
  unfold invoke
  simp only [List.forall_mem_append, List.forall_mem_map]
  refine ⟨⟨⟨⟨by simp [whole], ?_⟩, by simp [eax, target]⟩, ?_⟩, by simp [whole]⟩
  · split <;> simp [rsp, eight]
  · split <;> simp [rsp, eight]

theorem inBody_lowerArguments {pool : List String} {arguments : List Expr}
    (inBody : ∀ argument ∈ arguments, ∀ depth, (lower pool depth argument).InBody) (depth : Nat) :
    (lowerArguments pool depth arguments).InBody := by
  induction arguments generalizing depth with
  | nil => exact List.forall_mem_nil _
  | cons argument arguments ih =>
    have here := inBody argument List.mem_cons_self depth
    have later := ih (fun a member => inBody a (List.mem_cons_of_mem _ member)) (depth + 1)
    by_cases literal : ∃ raw span, argument = .string raw span
    · obtain ⟨raw, span, rfl⟩ := literal
      rw [lowerArguments]
      exact .append (inBody_emit (by simp [rax])) later
    · rw [lowerArguments]
      · exact .append (.append here (inBody_emit (by simp [rax]))) later
      · exact fun raw span same => literal ⟨raw, span, same⟩

/-- The code of a tree of a source text is made of instructions that have a text. -/
theorem inBody_lower {size : Nat} {e : Expr} (sourced : e.Sourced size) (pool : List String)
    (depth : Nat) : (lower pool depth e).InBody := by
  induction sourced generalizing depth with
  | number span bounded =>
    have small := readable_immediate (Nat.lt_of_le_of_lt bounded (by decide))
    exact inBody_spell fun _ => by simp [eax, small]
  | string span raw => exact inBody_fail _ _
  | var name span inside =>
    exact inBody_reach (Int.natCast_nonneg _) fun slot readable => by simp [eax, readable]
  | @binary operator left right operatorSpan span known target _ ihLeft ihRight =>
    by_cases assigns : operator = .assign
    · subst assigns
      rw [lower]
      exact .append (ihRight depth) (inBody_store target)
    · rw [lower]
      · split
        · exact inBody_fail _ _
        · next combination combined =>
          exact .append (.append (.append (ihLeft depth) (inBody_emit (by simp [rax])))
            (ihRight (depth + 1))) (inBody_emit (inBody_combine? combined))
      · exact assigns
  | call span name _ ih =>
    rw [lower]
    dsimp only
    split
    · exact inBody_fail _ _
    · refine .append (.append (inBody_emit (by simp [whole])) ?_) (inBody_invoke name _ _)
      exact inBody_lowerArguments ih _

theorem isLineBreak_onOneLine (text : String) :
    ∀ c ∈ (onOneLine text).toList, Text.isLineBreak c = false := by
  have pieces : ∀ l ∈ Text.lines text.toList, ∀ c ∈ l, Text.isLineBreak c = false :=
    Text.isLineBreak_of_mem_linesFrom (List.forall_mem_nil _)
  have same : String.toList ∘ String.ofList = id := funext fun _ => String.toList_ofList
  rw [onOneLine, String.toList_intercalate, List.map_map, same, List.map_id]
  exact Text.forall_mem_intercalate (Text.forall_mem_of_any (by decide)) pieces

theorem inBody_announce (number : Nat) (statement : Expr) : (announce number statement).InBody := by
  unfold announce
  split
  · refine inBody_emit fun l member => ?_
    rw [List.mem_singleton.mp member]
    exact isLineBreak_onOneLine _
  · exact List.forall_mem_nil _

theorem inBody_lowerStatements {size : Nat} {statements : List Expr}
    (sourced : ∀ e ∈ statements, e.Sourced size) (comments : Bool) (pool : List String)
    (number : Nat) : (lowerStatements comments pool number statements).InBody := by
  induction statements generalizing number with
  | nil => exact List.forall_mem_nil _
  | cons statement statements ih =>
    have here := inBody_lower (sourced statement List.mem_cons_self) pool 0
    have later := ih (fun e member => sourced e (List.mem_cons_of_mem _ member)) (number + 1)
    rw [lowerStatements]
    refine .append (.append ?_ here) later
    split
    · exact inBody_announce number statement
    · exact List.forall_mem_nil _

/-! ## Listings -/

/-- When the generator makes a listing, and which. -/
theorem generate_eq_ok_iff {options : Options} {program : Program} {listing : Listing} :
    (generate options program).result = .ok listing ↔
      let emission :=
        lowerStatements options.comments (pool program.statements) 1 program.statements
      emission.failure? = none ∧ Text.isWritable (frameSize program.table.size) = true ∧
        ⟨options.freestanding?.getD emission.calls.eraseDups.isEmpty, program.table.size,
          emission.lines, pool program.statements⟩ = listing := by
  rw [generate_eq_lowered]
  unfold lowered
  dsimp only
  split
  · next failed => simp [failed]
  · next complete =>
    split
    · next writable => simp [complete, writable]
    · next unwritable => simp [unwritable]

theorem externals_generate (options : Options) (program : Program) :
    (generate options program).externals = (lowerStatements options.comments
      (pool program.statements) 1 program.statements).calls.eraseDups := by
  rw [generate_eq_lowered]
  unfold lowered
  dsimp only
  split
  · rfl
  · split <;> rfl

end Reckon.Code

namespace Reckon.Compilation

open Code

/-- The stages of a compilation. -/
theorem stages_of_ofSource {options : Options} {source : String} {c : Compilation}
    (compiled : ofSource options source = .ok c) :
    (Parsing.ofSource source).result = .ok c.program ∧
      (generate options c.program).result = .ok c.listing ∧
      c.externals = (generate options c.program).externals := by
  unfold ofSource ofSourceLogged at compiled
  dsimp only at compiled
  split at compiled
  · cases compiled
  · next parsed =>
    split at compiled
    · cases compiled
    · next generated =>
      cases compiled
      exact ⟨parsed, generated, rfl⟩

theorem ofSource_of_stages {options : Options} {source : String} {program : Program}
    {listing : Listing} (parsed : (Parsing.ofSource source).result = .ok program)
    (generated : (generate options program).result = .ok listing) :
    ofSource options source = .ok ⟨source, program, (Parsing.ofSource source).consumed, listing,
      (generate options program).externals⟩ := by
  unfold ofSource ofSourceLogged
  dsimp only
  rw [parsed]
  dsimp only
  rw [generated]

/-- A source text compiles if it holds a program that is lowered without failure into a frame whose
size can be written. -/
theorem exists_ofSource {options : Options} {source : String} {program : Program}
    (parsed : (Parsing.ofSource source).result = .ok program)
    (complete : (lowerStatements options.comments (pool program.statements) 1
      program.statements).failure? = none)
    (writable : Text.isWritable (frameSize program.table.size) = true) :
    ∃ c, ofSource options source = .ok c ∧ c.program = program :=
  ⟨_, ofSource_of_stages parsed (generate_eq_ok_iff.mpr ⟨complete, writable, rfl⟩), rfl⟩

/-- A number is a program. -/
theorem exists_ofSource_one (freestanding? : Option Bool) :
    ∃ c, ofSource ⟨false, freestanding?⟩ "1;" = .ok c ∧
      c.program = ⟨[.number 1 ⟨0, 1⟩], ⟨[]⟩⟩ := by
  let program : Program := ⟨[.number 1 ⟨0, 1⟩], ⟨[]⟩⟩
  have parsed : (Parsing.ofSource "1;").result = .ok program := by cbv
  have emitted : (lowerStatements false (pool program.statements) 1 program.statements).failure? =
      none := by
    simp (disch := decide) only [program, lowerStatements, lower, Emission.spell_of_lt]
    rfl
  exact exists_ofSource parsed emitted (Text.isWritable_of_lt (by decide))

end Reckon.Compilation
