import Mathlib.Data.List.Forall2
import Reckon.Proofs.SourceTrees

/-!
# Programs that differ in layout and literals only

Two rows of tokens may be the same but for the places of the tokens and the texts of the string
literals, where a relation `R` says which literals correspond (`Token.Alike`). The trees that are
read from them are then the same but for spans and literals (`Expr.Alike`), and the tables of
variables are equal.

* `Grammar.exists_derivesProgram_of_alike`: tokens alike derive programs alike.
* `Program.alike_of_ofSource`: programs that are read from texts with tokens alike are alike.
-/

namespace Reckon

variable {R : String → String → Prop}

/-- The token is a string literal. -/
def Token.Kind.isLiteral : Token.Kind → Bool
  | .string _ => true
  | _ => false

/-- Kinds of tokens that are the same but for the texts of literals, which correspond by `R`. -/
inductive Token.Kind.Alike (R : String → String → Prop) : Token.Kind → Token.Kind → Prop
  | string {raw raw' : String} : R raw raw' → Alike R (.string raw) (.string raw')
  | same {kind : Token.Kind} : kind.isLiteral = false → Alike R kind kind

/-- Tokens that are the same but for their places and the texts of literals. -/
def Token.Alike (R : String → String → Prop) (t t' : Token) : Prop :=
  t.kind.Alike R t'.kind

theorem Token.forall₂_alike_iff {ts us : List Token} :
    List.Forall₂ (Token.Alike R) ts us ↔
      List.Forall₂ (Token.Kind.Alike R) (ts.map Token.kind) (us.map Token.kind) := by
  rw [List.forall₂_map_left_iff, List.forall₂_map_right_iff]
  exact Iff.rfl

/-- Trees that are the same but for their spans and the texts of literals. -/
inductive Expr.Alike (R : String → String → Prop) : Expr → Expr → Prop
  | number (value : Int) (span span' : Span) : Alike R (.number value span) (.number value span')
  | string {raw raw' : String} (span span' : Span) :
    R raw raw' → Alike R (.string raw span) (.string raw' span')
  | var (index : Int) (name : String) (span span' : Span) :
    Alike R (.var index name span) (.var index name span')
  | binary {left left' right right' : Expr} (operator : Operator)
    (operatorSpan operatorSpan' span span' : Span) :
    Alike R left left' → Alike R right right' →
    Alike R (.binary operator operatorSpan left right span)
      (.binary operator operatorSpan' left' right' span')
  | call {arguments arguments' : List Expr} (name : String) (span span' : Span) :
    arguments.length = arguments'.length →
    (∀ pair ∈ arguments.zip arguments', Alike R pair.1 pair.2) →
    Alike R (.call name arguments span) (.call name arguments' span')

namespace Expr.Alike

variable {e e' : Expr}

theorem call_of_forall₂ {arguments arguments' : List Expr}
    (alike : List.Forall₂ (Expr.Alike R) arguments arguments') (name : String) (span span' : Span) :
    Expr.Alike R (.call name arguments span) (.call name arguments' span') := by
  obtain ⟨length, pairs⟩ := List.forall₂_iff_zip.mp alike
  exact .call name span span' length fun pair member => pairs member

theorem withSpan (alike : e.Alike R e') (span span' : Span) :
    (e.withSpan span).Alike R (e'.withSpan span') := by
  cases alike with
  | number value => exact .number value span span'
  | string _ _ related => exact .string span span' related
  | var index name => exact .var index name span span'
  | binary operator operatorSpan operatorSpan' _ _ left right =>
    exact .binary operator operatorSpan operatorSpan' span span' left right
  | call name _ _ length pairs => exact .call name span span' length pairs

/-- Of two trees alike, both are literals or none is. -/
theorem literal_or (alike : e.Alike R e') :
    (∃ raw raw' span span', e = .string raw span ∧ e' = .string raw' span' ∧ R raw raw') ∨
      (∀ raw span, e ≠ .string raw span) ∧ ∀ raw span, e' ≠ .string raw span := by
  cases alike with
  | string span span' related => exact .inl ⟨_, _, span, span', rfl, rfl, related⟩
  | number | var | binary | call =>
    refine .inr ⟨?_, ?_⟩
    all_goals
      intro raw span same
      cases same

end Expr.Alike

namespace Grammar

/-! ## Rows of tokens -/

section Rows

variable {ts us vs : List Token} {kind : Token.Kind} {span : Span}

/-- A row like one that begins with a sign or a name begins with it. -/
theorem exists_cons_of_alike (plain : kind.isLiteral = false)
    (alike : List.Forall₂ (Token.Alike R) (⟨kind, span⟩ :: ts) vs) :
    ∃ span' ts', vs = ⟨kind, span'⟩ :: ts' ∧ List.Forall₂ (Token.Alike R) ts ts' := by
  cases alike with
  | @cons _ t' _ ts' here later =>
    obtain ⟨kind', span'⟩ := t'
    have same : kind = kind' := by
      cases here with
      | string related => cases plain
      | same => rfl
    exact ⟨span', ts', by rw [same], later⟩

/-- A row like one that is made of two parts is made of two such parts. -/
theorem exists_append_of_alike (alike : List.Forall₂ (Token.Alike R) (ts ++ us) vs) :
    ∃ ts' us', vs = ts' ++ us' ∧ List.Forall₂ (Token.Alike R) ts ts' ∧
      List.Forall₂ (Token.Alike R) us us' := by
  refine ⟨vs.take ts.length, vs.drop ts.length, (List.take_append_drop _ vs).symm, ?_, ?_⟩
  · exact List.forall₂_take_append vs ts us (List.Forall₂.flip alike) |>.flip
  · exact List.forall₂_drop_append vs ts us (List.Forall₂.flip alike) |>.flip

/-- A row like one with a sign between two parts has the sign between two such parts. -/
theorem exists_sign_of_alike (plain : kind.isLiteral = false)
    (alike : List.Forall₂ (Token.Alike R) (ts ++ ⟨kind, span⟩ :: us) vs) :
    ∃ span' ts' us', vs = ts' ++ ⟨kind, span'⟩ :: us' ∧ List.Forall₂ (Token.Alike R) ts ts' ∧
      List.Forall₂ (Token.Alike R) us us' := by
  obtain ⟨ts', rest, rfl, before, signed⟩ := exists_append_of_alike alike
  obtain ⟨span', us', rfl, after⟩ := exists_cons_of_alike plain signed
  exact ⟨span', ts', us', rfl, before, after⟩

end Rows

/-! ## Derivations -/

mutual

/-- Tokens alike derive trees alike. -/
theorem exists_derives_of_alike {c : Category} {t t' : VariableTable} {ts us : List Token}
    {e : Expr} : Derives c t ts e t' → List.Forall₂ (Token.Alike R) ts us →
      ∃ e', Derives c t us e' t' ∧ e.Alike R e'
  | .sum derived, alike => by
    obtain ⟨e', derived', same⟩ := exists_derives_of_alike derived alike
    exact ⟨e', .sum derived', same⟩
  | .assignment sign left right, alike => by
    obtain ⟨sign', ts', us', rfl, before, after⟩ := exists_sign_of_alike rfl alike
    obtain ⟨left', derivedLeft, sameLeft⟩ := exists_derives_of_alike left before
    obtain ⟨right', derivedRight, sameRight⟩ := exists_derives_of_alike right after
    exact ⟨_, .assignment sign' derivedLeft derivedRight, .binary _ _ _ _ _ sameLeft sameRight⟩
  | .product derived, alike => by
    obtain ⟨e', derived', same⟩ := exists_derives_of_alike derived alike
    exact ⟨e', .product derived', same⟩
  | .additive sign additive left right, alike => by
    obtain ⟨sign', ts', us', rfl, before, after⟩ :=
      exists_sign_of_alike (by cases additive <;> rfl) alike
    obtain ⟨left', derivedLeft, sameLeft⟩ := exists_derives_of_alike left before
    obtain ⟨right', derivedRight, sameRight⟩ := exists_derives_of_alike right after
    exact ⟨_, .additive sign' additive derivedLeft derivedRight,
      .binary _ _ _ _ _ sameLeft sameRight⟩
  | .primary derived, alike => by
    obtain ⟨e', derived', same⟩ := exists_derives_of_alike derived alike
    exact ⟨e', .primary derived', same⟩
  | .multiplicative sign multiplicative left right, alike => by
    obtain ⟨sign', ts', us', rfl, before, after⟩ :=
      exists_sign_of_alike (by cases multiplicative <;> rfl) alike
    obtain ⟨left', derivedLeft, sameLeft⟩ := exists_derives_of_alike left before
    obtain ⟨right', derivedRight, sameRight⟩ := exists_derives_of_alike right after
    exact ⟨_, .multiplicative sign' multiplicative derivedLeft derivedRight,
      .binary _ _ _ _ _ sameLeft sameRight⟩
  | .number value span, alike => by
    obtain ⟨span', _, rfl, nothing⟩ := exists_cons_of_alike rfl alike
    cases nothing
    exact ⟨_, .number value span', .number value span span'⟩
  | .string raw span, alike => by
    cases alike with
    | @cons _ t' _ _ here nothing =>
      cases nothing
      obtain ⟨kind', span'⟩ := t'
      cases here with
      | string related => exact ⟨_, .string _ span', .string span span' related⟩
      | same plain => cases plain
  | .name name span, alike => by
    obtain ⟨span', _, rfl, nothing⟩ := exists_cons_of_alike rfl alike
    cases nothing
    exact ⟨_, .name name span', .var _ name span span'⟩
  | .bareCall name span opening closing, alike => by
    obtain ⟨span', _, rfl, afterName⟩ := exists_cons_of_alike rfl alike
    obtain ⟨opening', _, rfl, afterOpening⟩ := exists_cons_of_alike rfl afterName
    obtain ⟨closing', _, rfl, nothing⟩ := exists_cons_of_alike rfl afterOpening
    cases nothing
    exact ⟨_, .bareCall name span' opening' closing', .call_of_forall₂ .nil name _ _⟩
  | .call name span opening closing derived, alike => by
    obtain ⟨span', _, rfl, afterName⟩ := exists_cons_of_alike rfl alike
    obtain ⟨opening', _, rfl, afterOpening⟩ := exists_cons_of_alike rfl afterName
    obtain ⟨closing', _, _, rfl, inside, nothing⟩ := exists_sign_of_alike rfl afterOpening
    cases nothing
    obtain ⟨arguments', derived', same⟩ := exists_derivesArguments_of_alike derived inside
    exact ⟨_, .call name span' opening' closing' derived', .call_of_forall₂ same name _ _⟩
  | .group opening closing derived, alike => by
    obtain ⟨opening', _, rfl, afterOpening⟩ := exists_cons_of_alike rfl alike
    obtain ⟨closing', _, _, rfl, inside, nothing⟩ := exists_sign_of_alike rfl afterOpening
    cases nothing
    obtain ⟨e', derived', same⟩ := exists_derives_of_alike derived inside
    exact ⟨_, .group opening' closing' derived', same.withSpan _ _⟩

theorem exists_derivesArguments_of_alike {t t' : VariableTable} {ts us : List Token}
    {es : List Expr} : DerivesArguments t ts es t' → List.Forall₂ (Token.Alike R) ts us →
      ∃ es', DerivesArguments t us es' t' ∧ List.Forall₂ (Expr.Alike R) es es'
  | .first derived, alike => by
    obtain ⟨e', derived', same⟩ := exists_derives_of_alike derived alike
    exact ⟨[e'], .first derived', .cons same .nil⟩
  | .next comma front last, alike => by
    obtain ⟨comma', ts', us', rfl, before, after⟩ := exists_sign_of_alike rfl alike
    obtain ⟨es', derivedFront, sameFront⟩ := exists_derivesArguments_of_alike front before
    obtain ⟨e', derivedLast, sameLast⟩ := exists_derives_of_alike last after
    exact ⟨es' ++ [e'], .next comma' derivedFront derivedLast,
      List.rel_append sameFront (.cons sameLast .nil)⟩

end

/-- Tokens alike derive programs alike. -/
theorem exists_derivesProgram_of_alike {ts us : List Token} {statements : List Expr}
    {t : VariableTable} (derived : DerivesProgram ts statements t)
    (alike : List.Forall₂ (Token.Alike R) ts us) :
    ∃ statements', DerivesProgram us statements' t ∧
      List.Forall₂ (Expr.Alike R) statements statements' := by
  induction derived generalizing us with
  | empty =>
    cases alike
    exact ⟨[], .empty, .nil⟩
  | statement semicolon _ last ih =>
    obtain ⟨front', rest, rfl, before, after⟩ := exists_append_of_alike alike
    obtain ⟨semicolon', us', _, rfl, inside, nothing⟩ := exists_sign_of_alike rfl after
    cases nothing
    obtain ⟨statements', derivedFront, sameFront⟩ := ih before
    obtain ⟨e', derivedLast, sameLast⟩ := exists_derives_of_alike last inside
    exact ⟨statements' ++ [e'], .statement semicolon' derivedFront derivedLast,
      List.rel_append sameFront (.cons sameLast .nil)⟩

/-- Tokens are derived as one program at most. -/
theorem IsProgram.unique {ts : List Token} {program program' : Program}
    (inside : ∀ t ∈ ts, t.kind ≠ .eof) (first : IsProgram ts program)
    (second : IsProgram ts program') : program = program' := by
  have taken := (Parser.State.isProgram_iff inside).mp first
  rw [(Parser.State.isProgram_iff inside).mp second] at taken
  obtain ⟨statements, table⟩ := program
  cases taken
  rfl

end Grammar

namespace Program

/-- Programs that are read from texts with tokens alike have statements alike and the same
variables. -/
theorem alike_of_ofSource {source source' : String} {program program' : Program}
    (parsed : (Parsing.ofSource source).result = .ok program)
    (parsed' : (Parsing.ofSource source').result = .ok program')
    (alike : List.Forall₂ (Token.Alike R) (Lexer.tokensOf source) (Lexer.tokensOf source')) :
    List.Forall₂ (Expr.Alike R) program.statements program'.statements ∧
      program.table = program'.table := by
  obtain ⟨statements', derived, same⟩ :=
    Grammar.exists_derivesProgram_of_alike (isProgram_of_ofSource parsed) alike
  have read : Grammar.IsProgram (Lexer.tokensOf source') ⟨statements', program.table⟩ := derived
  have unique := read.unique (fun t => Lexer.kind_ne_eof_of_mem_tokensOf)
    (isProgram_of_ofSource parsed')
  rw [← unique]
  exact ⟨same, rfl⟩

end Program

end Reckon
