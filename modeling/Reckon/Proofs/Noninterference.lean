import Reckon.Proofs.Assembly.Loading
import Reckon.Proofs.Likeness

/-!
# String literals do not become code

Take two source texts whose tokens are the same but for layout and the texts of the string literals,
where equal literals correspond to equal literals and different ones to different ones. The code
that is emitted for them is the same (`Code.alike_lowerStatements`): a literal is named in it by its
place in the pool, and the places do not depend on the texts (`Code.idxOf_pool`).

Main statement: the two programs, if they can be loaded, have the same instructions and the same
labels of code (`Compilation.code_eq_of_alike`). This holds as long as no literal has both an
escaped quote and a line break that is no control character; otherwise what follows the line break
is read as lines of assembly (`Compilation.code_ne_of_break`).
-/

namespace Reckon

namespace Code

variable {R : String → String → Prop}

/-! ## The places of literals -/

/-- Equal literals correspond to equal literals, and different ones to different ones. -/
def OneToOne (R : String → String → Prop) : Prop :=
  ∀ a a' b b', R a a' → R b b' → (a = b ↔ a' = b')

theorem OneToOne.beq (oneToOne : OneToOne R) {a a' b b' : String} (first : R a a')
    (second : R b b') : (a == b) = (a' == b') := by
  have same := oneToOne a a' b b' first second
  by_cases equal : a = b
  · rw [beq_iff_eq.mpr equal, beq_iff_eq.mpr (same.mp equal)]
  · have different : a' ≠ b' := fun equal' => equal (same.mpr equal')
    rw [beq_eq_false_iff_ne.mpr equal, beq_eq_false_iff_ne.mpr different]

/-- Literals that correspond are left over when repetitions are dropped. -/
theorem OneToOne.eraseDups (oneToOne : OneToOne R) {as as' : List String}
    (related : List.Forall₂ R as as') : List.Forall₂ R as.eraseDups as'.eraseDups := by
  -- What is left after the first literal is shorter, but no tail of the list.
  induction length : as.length using Nat.strongRecOn generalizing as as' with
  | ind n ih =>
    cases related with
    | nil => exact .nil
    | @cons a a' as as' here later =>
      have others : List.Forall₂ R (as.filter fun b => !b == a) (as'.filter fun b => !b == a') := by
        refine List.rel_filter ?_ later
        intro b b' pair
        dsimp only
        rw [oneToOne.beq pair here]
      have shorter : (as.filter fun b => !b == a).length < n := by
        rw [← length]
        exact Nat.lt_succ_of_le (List.length_filter_le _ as)
      rw [List.eraseDups_cons, List.eraseDups_cons]
      exact .cons here (ih _ shorter others rfl)

/-- Literals that correspond have the same place. -/
theorem OneToOne.idxOf (oneToOne : OneToOne R) {as as' : List String}
    (related : List.Forall₂ R as as') {raw raw' : String} (pair : R raw raw') :
    as.idxOf raw = as'.idxOf raw' := by
  induction related with
  | nil => rfl
  | cons here _ ih => rw [List.idxOf_cons, List.idxOf_cons, ih, oneToOne.beq here pair]

theorem argumentLiterals_alike {arguments arguments' : List Expr}
    (alike : List.Forall₂ (Expr.Alike R) arguments arguments')
    (inside : List.Forall₂ (fun e e' => List.Forall₂ R (literals e) (literals e')) arguments
      arguments') :
    List.Forall₂ R (argumentLiterals arguments) (argumentLiterals arguments') := by
  induction alike with
  | nil => exact .nil
  | @cons e e' arguments arguments' here later ih =>
    cases inside with
    | cons within beyond =>
      have rest := ih beyond
      rcases here.literal_or with ⟨raw, raw', span, span', rfl, rfl, pair⟩ | ⟨other, other'⟩
      · rw [argumentLiterals, argumentLiterals]
        exact .cons pair rest
      · rw [argumentLiterals_cons other, argumentLiterals_cons other']
        exact List.rel_append within rest

/-- Trees alike pass literals that correspond. -/
theorem literals_alike {e e' : Expr} (alike : e.Alike R e') :
    List.Forall₂ R (literals e) (literals e') := by
  induction alike with
  | number | string | var => exact .nil
  | binary operator _ _ _ _ _ _ ihLeft ihRight =>
    by_cases assigns : operator = .assign
    · subst assigns
      rw [literals, literals]
      exact ihRight
    · rw [literals_binary assigns, literals_binary assigns]
      exact List.rel_append ihLeft ihRight
  | call name _ _ length pairs ih =>
    rw [literals, literals]
    exact argumentLiterals_alike (List.forall₂_iff_zip.mpr ⟨length, fun member => pairs _ member⟩)
      (List.forall₂_iff_zip.mpr ⟨length, fun member => ih _ member⟩)

theorem pool_alike (oneToOne : OneToOne R) {statements statements' : List Expr}
    (alike : List.Forall₂ (Expr.Alike R) statements statements') :
    List.Forall₂ R (pool statements) (pool statements') := by
  refine oneToOne.eraseDups ?_
  induction alike with
  | nil => exact .nil
  | cons here _ ih =>
    rw [List.flatMap_cons, List.flatMap_cons]
    exact List.rel_append (literals_alike here) ih

/-! ## Emissions -/

/-- Emissions with the same instructions and calls, of which one is complete if the other is. -/
structure Emission.Alike (a b : Emission) : Prop where
  code : codeOf a.lines = codeOf b.lines
  calls : a.calls = b.calls
  failure : a.failure?.isSome = b.failure?.isSome

namespace Emission.Alike

theorem refl (a : Emission) : a.Alike a :=
  ⟨rfl, rfl, rfl⟩

theorem fail (cause : Cause) (span span' : Span) : (fail cause span).Alike (fail cause span') :=
  ⟨rfl, rfl, rfl⟩

theorem append {a a' b b' : Emission} (first : a.Alike b) (second : a'.Alike b') :
    (a ++ a').Alike (b ++ b') := by
  have failure := first.failure
  cases complete : a.failure? with
  | some error =>
    rw [complete] at failure
    obtain ⟨error', complete'⟩ := Option.isSome_iff_exists.mp failure.symm
    rw [append_of_failure?_eq_some complete, append_of_failure?_eq_some complete']
    exact first
  | none =>
    rw [complete] at failure
    have complete' := Option.not_isSome_iff_eq_none.mp (Bool.eq_false_iff.mp failure.symm)
    rw [append_of_failure?_eq_none complete, append_of_failure?_eq_none complete']
    exact
      { code := by simp only [codeOf_append, first.code, second.code]
        calls := by simp only [first.calls, second.calls]
        failure := second.failure }

end Emission.Alike

section Lowering

variable {literals literals' : List String}

theorem alike_store {target target' : Expr} (alike : target.Alike R target') :
    (store target).Alike (store target') := by
  cases alike with
  | var index name => exact .refl _
  | number | string | binary | call => exact .fail _ _ _

theorem alike_lowerArguments
    (places : ∀ raw raw', R raw raw' → literals.idxOf raw = literals'.idxOf raw')
    {arguments arguments' : List Expr} (alike : List.Forall₂ (Expr.Alike R) arguments arguments')
    (inside : List.Forall₂
      (fun e e' => ∀ depth, (lower literals depth e).Alike (lower literals' depth e'))
      arguments arguments') (depth : Nat) :
    (lowerArguments literals depth arguments).Alike
      (lowerArguments literals' depth arguments') := by
  induction alike generalizing depth with
  | nil => exact .refl _
  | cons here later ih =>
    cases inside with
    | cons within beyond =>
      have rest := ih beyond (depth + 1)
      rcases here.literal_or with ⟨raw, raw', span, span', rfl, rfl, pair⟩ | ⟨other, other'⟩
      · rw [lowerArguments, lowerArguments, places raw raw' pair]
        exact .append (.refl _) rest
      · rw [lowerArguments_cons other, lowerArguments_cons other']
        exact .append (.append (within depth) (.refl _)) rest

/-- The code of trees alike is the same, if literals that correspond have the same place. -/
theorem alike_lower (places : ∀ raw raw', R raw raw' → literals.idxOf raw = literals'.idxOf raw')
    {e e' : Expr} (alike : e.Alike R e') (depth : Nat) :
    (lower literals depth e).Alike (lower literals' depth e') := by
  induction alike generalizing depth with
  | number | var => exact .refl _
  | string => exact .fail _ _ _
  | binary operator _ _ _ _ left _ ihLeft ihRight =>
    by_cases assigns : operator = .assign
    · subst assigns
      rw [lower, lower]
      exact .append (ihRight depth) (alike_store left)
    · cases combined : combine? operator with
      | none =>
        rw [lower, lower, combined]
        · exact .fail _ _ _
        · exact assigns
        · exact assigns
      | some combination =>
        rw [lower_binary assigns combined, lower_binary assigns combined]
        exact .append (.append (.append (ihLeft depth) (.refl _)) (ihRight (depth + 1))) (.refl _)
  | call name _ _ length pairs ih =>
    rw [lower, lower, length]
    dsimp only
    split
    · exact .fail _ _ _
    · refine .append (.append (.refl _) ?_) (.refl _)
      exact alike_lowerArguments places
        (List.forall₂_iff_zip.mpr ⟨length, fun member => pairs _ member⟩)
        (List.forall₂_iff_zip.mpr ⟨length, fun member => ih _ member⟩) _

theorem alike_announce {number : Nat} {statement statement' : Expr}
    (complete : (announce number statement).failure? = none)
    (complete' : (announce number statement').failure? = none) :
    (announce number statement).Alike (announce number statement') where
  code := codeOf_announce.trans codeOf_announce.symm
  calls := by
    unfold announce
    split <;> split <;> rfl
  failure := by rw [complete, complete']

/-- Programs alike that are lowered without failure have the same code, remarks apart. -/
theorem alike_lowerStatements
    (places : ∀ raw raw', R raw raw' → literals.idxOf raw = literals'.idxOf raw')
    {statements statements' : List Expr}
    (alike : List.Forall₂ (Expr.Alike R) statements statements') (comments : Bool) (number : Nat)
    (complete : (lowerStatements comments literals number statements).failure? = none)
    (complete' : (lowerStatements comments literals' number statements').failure? = none) :
    (lowerStatements comments literals number statements).Alike
      (lowerStatements comments literals' number statements') := by
  induction alike generalizing number with
  | nil => exact .refl _
  | cons here _ ih =>
    rw [lowerStatements, Emission.failure?_append_eq_none, Emission.failure?_append_eq_none]
      at complete complete'
    obtain ⟨⟨announced, -⟩, later⟩ := complete
    obtain ⟨⟨announced', -⟩, later'⟩ := complete'
    rw [lowerStatements, lowerStatements]
    refine .append (.append ?_ (alike_lower places here 0)) (ih (number + 1) later later')
    cases comments with
    | false => exact .refl _
    | true => exact alike_announce announced announced'

end Lowering

end Code

namespace Compilation

open Code Assembly

variable {R : String → String → Prop}

/-- String literals do not become code. Take two source texts that compile under the same options
and whose tokens, blanks left out, are the same but for the texts of string literals, with the same
pattern of equal and different literals: literals correspond one to one. Let no literal with an
escaped quote hold U+0085, U+2028 or U+2029. If both assembly texts are read, the programs that are
read have the same instructions and the same labels of code. -/
theorem code_eq_of_alike {options : Options} {source source' : String} {c c' : Compilation}
    {image image' : Image} (compiled : ofSource options source = .ok c)
    (compiled' : ofSource options source' = .ok c')
    (alike : List.Forall₂ (Token.Alike R) (Lexer.tokensOf source) (Lexer.tokensOf source'))
    (oneToOne : ∀ a a' b b', R a a' → R b b' → (a = b ↔ a' = b'))
    (unquoted : ∀ raw ∈ pool c.program.statements ++ pool c'.program.statements,
      '\x22' ∈ raw.toList → '\x85' ∉ raw.toList ∧ '\u2028' ∉ raw.toList ∧ '\u2029' ∉ raw.toList)
    (read : Image.ofText c.assembly = .ok image) (read' : Image.ofText c'.assembly = .ok image') :
    image.instructions.toList.map (fun i => (i.mnemonic, i.operands)) =
        image'.instructions.toList.map (fun i => (i.mnemonic, i.operands)) ∧
      image.codeLabels = image'.codeLabels := by
  obtain ⟨parsed, generated, -⟩ := stages_of_ofSource compiled
  obtain ⟨parsed', generated', -⟩ := stages_of_ofSource compiled'
  obtain ⟨statements, table⟩ := Program.alike_of_ofSource parsed parsed' alike
  obtain ⟨complete, -, listing⟩ := generate_eq_ok_iff.mp generated
  obtain ⟨complete', -, listing'⟩ := generate_eq_ok_iff.mp generated'
  have emitted := alike_lowerStatements
    (fun raw raw' => OneToOne.idxOf oneToOne (pool_alike oneToOne statements)) statements
    options.comments 1 complete complete'
  have body : codeOf c.listing.body = codeOf c'.listing.body := by
    rw [← listing, ← listing']
    exact emitted.code
  have freestanding : c.listing.freestanding = c'.listing.freestanding := by
    rw [← listing, ← listing']
    simp only [emitted.calls]
  have slots : c.listing.slots = c'.listing.slots := by
    rw [← listing, ← listing']
    simp only [table]
  obtain ⟨unquoted, unquoted'⟩ := List.forall_mem_append.mp unquoted
  obtain ⟨blocks, assembles⟩ := exists_assembles_of_assembly compiled unquoted read
  obtain ⟨blocks', assembles'⟩ := exists_assembles_of_assembly compiled' unquoted' read'
  constructor
  · refine assembles.instructions.trans (Eq.trans ?_ assembles'.instructions.symm)
    simp only [Listing.codeLines, codeOf_append, body, freestanding, slots]
  · rw [assembles.codeLabels, assembles'.codeLabels, freestanding]

/-- Three literals, of which two are equal, and a program with other literals laid out otherwise. -/
theorem code_eq_of_alike_signs :
    ∃ c c' image image', ofSource ⟨true, none⟩ "f(\"a\", \"b\", \"a\");" = .ok c ∧
      ofSource ⟨true, none⟩ "f( \"#\\\"\",\":\",\"#\\\"\" );" = .ok c' ∧
      Image.ofText c.assembly = .ok image ∧ Image.ofText c'.assembly = .ok image' ∧
      image.instructions.toList.map (fun i => (i.mnemonic, i.operands)) =
        image'.instructions.toList.map (fun i => (i.mnemonic, i.operands)) ∧
      image.codeLabels = image'.codeLabels := by
  let program : Program :=
    ⟨[.call "f" [.string "a" ⟨2, 5⟩, .string "b" ⟨7, 10⟩, .string "a" ⟨12, 15⟩] ⟨0, 16⟩], ⟨[]⟩⟩
  let program' : Program :=
    ⟨[.call "f" [.string "#\\\"" ⟨3, 8⟩, .string ":" ⟨9, 12⟩, .string "#\\\"" ⟨13, 18⟩] ⟨0, 20⟩],
      ⟨[]⟩⟩
  let kinds (first second : String) : List Token.Kind :=
    [.identifier "f", .openParen, .string first, .comma, .string second, .comma, .string first,
      .closeParen, .semicolon]
  have parsed : (Parsing.ofSource "f(\"a\", \"b\", \"a\");").result = .ok program := by cbv
  have parsed' : (Parsing.ofSource "f( \"#\\\"\",\":\",\"#\\\"\" );").result = .ok program' := by
    cbv
  have tokens : (Lexer.tokensOf "f(\"a\", \"b\", \"a\");").map Token.kind = kinds "a" "b" := by cbv
  have tokens' : (Lexer.tokensOf "f( \"#\\\"\",\":\",\"#\\\"\" );").map Token.kind =
      kinds "#\\\"" ":" := by
    cbv
  have literals : pool program.statements = ["a", "b"] := by cbv
  have literals' : pool program'.statements = ["#\\\"", ":"] := by cbv
  obtain ⟨c, compiled, same⟩ := @exists_ofSource ⟨true, none⟩ _ _ parsed (by cbv)
    (Text.isWritable_of_lt (by decide))
  obtain ⟨c', compiled', same'⟩ := @exists_ofSource ⟨true, none⟩ _ _ parsed' (by cbv)
    (Text.isWritable_of_lt (by decide))
  rw [← same] at literals
  rw [← same'] at literals'
  obtain ⟨image, -, read, -⟩ := exists_assembles_of_isLatin compiled (by simp [literals, isLatin])
  obtain ⟨image', -, read', -⟩ :=
    exists_assembles_of_isLatin compiled' (by simp [literals', isLatin])
  let corresponds (a a' : String) : Prop := a = "a" ∧ a' = "#\\\"" ∨ a = "b" ∧ a' = ":"
  have oneToOne : ∀ a a' b b', corresponds a a' → corresponds b b' → (a = b ↔ a' = b') := by
    intro a a' b b' first second
    rcases first with ⟨rfl, rfl⟩ | ⟨rfl, rfl⟩ <;> rcases second with ⟨rfl, rfl⟩ | ⟨rfl, rfl⟩ <;>
      decide
  have alike : List.Forall₂ (Token.Alike corresponds) (Lexer.tokensOf "f(\"a\", \"b\", \"a\");")
      (Lexer.tokensOf "f( \"#\\\"\",\":\",\"#\\\"\" );") := by
    have first : Token.Kind.Alike corresponds (.string "a") (.string "#\\\"") :=
      .string (.inl ⟨rfl, rfl⟩)
    have second : Token.Kind.Alike corresponds (.string "b") (.string ":") :=
      .string (.inr ⟨rfl, rfl⟩)
    rw [Token.forall₂_alike_iff, tokens, tokens']
    exact .cons (.same rfl) (.cons (.same rfl) (.cons first (.cons (.same rfl) (.cons second
      (.cons (.same rfl) (.cons first (.cons (.same rfl) (.cons (.same rfl) .nil))))))))
  exact ⟨c, c', image, image', compiled, compiled', read, read',
    code_eq_of_alike compiled compiled' alike oneToOne (by simp [literals, literals']) read read'⟩

/-- The raw text of a literal that names `main` once more. -/
def relabelling : String := "\\\"\x85.text\x85main:#"

/-- What follows the first next-line character is read as lines of their own. -/
theorem readLines_relabelling (s : ReaderState) (number : Nat) :
    ∃ s', s.readLines number (Text.lines
        ([Line.directive ".string" (some (quoted relabelling)),
          .directive ".section" (some ".note.GNU-stack,\"\",@progbits")].flatMap
            fun line => line.render.toList ++ ['\n'])) = .ok s' ∧
      s'.image.codeLabels = s.image.codeLabels.insert "main" s.image.instructions.size := by
  have divided : Text.lines
      ([Line.directive ".string" (some (quoted relabelling)),
        .directive ".section" (some ".note.GNU-stack,\"\",@progbits")].flatMap
          fun line => line.render.toList ++ ['\n']) =
      ["        .string \"\\\"".toList, ".text".toList, "main:#\"".toList,
        "        .section .note.GNU-stack,\"\",@progbits".toList] := by
    cbv
  have data : s.readLine number "        .string \"\\\"".toList =
      .ok { s with image := { s.image with data := s.image.data ++ [92, 0].toArray } } := by
    cbv
  have text (s : ReaderState) (number : Nat) :
      s.readLine number ".text".toList = .ok { s with sectionName := ".text" } := by
    cbv
  have label (s : ReaderState) (number : Nat) :
      s.readLine number "main:#\"".toList = .ok (s.setLabel "main") :=
    rfl
  have note (s : ReaderState) (number : Nat) :
      s.readLine number "        .section .note.GNU-stack,\"\",@progbits".toList =
        .ok { s with sectionName := ".note.GNU-stack" } := by
    cbv
  rw [divided]
  simp only [ReaderState.readLines, data, text, label, note]
  exact ⟨_, rfl, rfl⟩

/-- The listing of a program that passes one literal to a routine. -/
def passing (raw : String) : Listing :=
  ⟨false, 0, [two .lea (.literal 0) rax, one .push rax, one .pop (whole .rdi),
    two .mov (.immediate 0) eax, one .call (.symbol "f")], [raw]⟩

theorem generate_passing (raw : String) (span span' : Span) :
    (generate ⟨false, none⟩ ⟨[.call "f" [.string raw span] span'], ⟨[]⟩⟩).result =
      .ok (passing raw) := by
  have literals : pool [.call "f" [.string raw span] span'] = [raw] := by
    simp [pool, literals, argumentLiterals, List.eraseDups_cons]
  have emitted : lowerStatements false [raw] 1 [.call "f" [.string raw span] span'] =
      ⟨(passing raw).body, ["f"], none⟩ := by
    simp only [lowerStatements, lower, lowerArguments, List.idxOf_cons_self]
    rfl
  refine generate_eq_ok_iff.mpr ?_
  dsimp only
  rw [literals, emitted]
  exact ⟨rfl, Text.isWritable_of_lt (by decide), rfl⟩

/-- A literal with an escaped quote and the next-line character moves the label of `main` to the end
of the code. -/
theorem code_ne_of_break :
    ∃ c c' image image', ofSource ⟨false, none⟩ "f(\"x\");" = .ok c ∧
      ofSource ⟨false, none⟩ ("f(\"" ++ relabelling ++ "\");") = .ok c' ∧
      List.Forall₂ (Token.Alike fun a a' => a = "x" ∧ a' = relabelling)
        (Lexer.tokensOf "f(\"x\");") (Lexer.tokensOf ("f(\"" ++ relabelling ++ "\");")) ∧
      Image.ofText c.assembly = .ok image ∧ Image.ofText c'.assembly = .ok image' ∧
      image.codeLabels.get? "main" = some 4 ∧ image'.codeLabels.get? "main" = some 14 := by
  let kinds (raw : String) : List Token.Kind :=
    [.identifier "f", .openParen, .string raw, .closeParen, .semicolon]
  have parsed : (Parsing.ofSource "f(\"x\");").result =
      .ok ⟨[.call "f" [.string "x" ⟨2, 5⟩] ⟨0, 6⟩], ⟨[]⟩⟩ := by cbv
  have parsed' : (Parsing.ofSource ("f(\"" ++ relabelling ++ "\");")).result =
      .ok ⟨[.call "f" [.string relabelling ⟨2, 19⟩] ⟨0, 20⟩], ⟨[]⟩⟩ := by cbv
  have tokens : (Lexer.tokensOf "f(\"x\");").map Token.kind = kinds "x" := by cbv
  have tokens' : (Lexer.tokensOf ("f(\"" ++ relabelling ++ "\");")).map Token.kind =
      kinds relabelling := by cbv
  have wellFormed := wellFormed_of_generate parsed (generate_passing "x" ⟨2, 5⟩ ⟨0, 6⟩)
    (by simp [pool, literals, argumentLiterals, List.eraseDups_cons, isLatin])
  obtain ⟨image, blocks, read, assembles⟩ := wellFormed.exists_assembles
  obtain ⟨more, s, readCode, sameCode, imageCode⟩ := wellFormed.legible.readAll_codeLines
  -- The lines before the literal are those of the other program.
  let before := (passing "x").codeLines ++
    [.directive ".section" (some ".rodata"), .label (literalLabel 0)]
  have readable : ∀ line ∈ before, line.Readable := by
    intro line member
    refine wellFormed.legible.readable line ?_
    have whole : (passing "x").lines = before ++ [.directive ".string" (some (quoted "x")),
        .directive ".section" (some ".note.GNU-stack,\"\",@progbits")] := rfl
    rw [whole]
    exact List.mem_append_left _ member
  have readBefore : Line.readAll .initial 1 before =
      .ok (ReaderState.setLabel { s with sectionName := ".rodata" } (literalLabel 0)) :=
    Line.readAll_append readCode _
  obtain ⟨s', readRest, labels⟩ := readLines_relabelling
    (ReaderState.setLabel { s with sectionName := ".rodata" } (literalLabel 0)) (1 + before.length)
  have read' : Image.ofText (passing relabelling).text = .ok s'.image := by
    have whole : (passing relabelling).lines = before ++
        [.directive ".string" (some (quoted relabelling)),
          .directive ".section" (some ".note.GNU-stack,\"\",@progbits")] := rfl
    rw [Image.ofText, Listing.toList_text, whole, List.flatMap_append,
      readLines_append readable readBefore, readRest]
    rfl
  have size : s.image.instructions.size = 14 := by
    rw [imageCode, List.size_toArray, ← List.length_map Assembly.Instruction.code, sameCode]
    rfl
  refine ⟨_, _, image, s'.image, ofSource_of_stages parsed (generate_passing "x" ⟨2, 5⟩ ⟨0, 6⟩),
    ofSource_of_stages parsed' (generate_passing relabelling ⟨2, 19⟩ ⟨0, 20⟩), ?_, read, read',
    ?_, ?_⟩
  · rw [Token.forall₂_alike_iff, tokens, tokens']
    exact .cons (.same rfl) (.cons (.same rfl) (.cons (.string ⟨rfl, rfl⟩)
      (.cons (.same rfl) (.cons (.same rfl) .nil))))
  · rw [assembles.get?_codeLabels, if_pos rfl]
    rfl
  · rw [labels, Labels.get?, Labels.insert]
    exact congrArg some size

end Compilation

end Reckon
