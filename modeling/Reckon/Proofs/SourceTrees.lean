import Reckon.Proofs.Parsing.Acceptance

/-!
# The trees of source texts

A tree that was read from a text is more special than its type: its numbers are literals, its names
and strings are those of tokens, its variables have slots in the table, and it has no holes, blocks
or unknown operators. `Expr.Sourced` says so, and `Program.sourced_of_ofSource` proves it of all
statements of a program that was read.
-/

namespace Reckon

open Grammar

/-- The operator has a precedence of its own. -/
def Operator.isKnown : Operator → Bool
  | .other _ => false
  | _ => true

/-- A tree that is read from a text whose variables fill a table of the given size. -/
inductive Expr.Sourced (size : Nat) : Expr → Prop
  | number {value : Nat} (span : Span) : value ≤ maxLiteral → Sourced size (.number value span)
  | string {raw : String} (span : Span) :
    isRaw raw.toList = true → Sourced size (.string raw span)
  | var {index : Nat} (name : String) (span : Span) :
    index < size → Sourced size (.var index name span)
  | binary {operator : Operator} {left right : Expr} (operatorSpan span : Span) :
    operator.isKnown = true → Sourced size left → Sourced size right →
    Sourced size (.binary operator operatorSpan left right span)
  | call {name : String} {arguments : List Expr} (span : Span) :
    isName name.toList = true → (∀ argument ∈ arguments, Sourced size argument) →
    Sourced size (.call name arguments span)

namespace Expr.Sourced

variable {size : Nat} {e : Expr}

/-- A tree stays one of its text when the table grows. -/
theorem mono {size' : Nat} (sourced : e.Sourced size) (grows : size ≤ size') : e.Sourced size' := by
  induction sourced with
  | number span bounded => exact .number span bounded
  | string span raw => exact .string span raw
  | var name span inside => exact .var name span (Nat.lt_of_lt_of_le inside grows)
  | binary operatorSpan span known _ _ left right =>
    exact .binary operatorSpan span known left right
  | call span name _ arguments => exact .call span name arguments

theorem withSpan (sourced : e.Sourced size) (span : Span) : (e.withSpan span).Sourced size := by
  cases sourced with
  | number _ bounded => exact .number span bounded
  | string _ raw => exact .string span raw
  | var name _ inside => exact .var name span inside
  | binary operatorSpan _ known left right => exact .binary operatorSpan span known left right
  | call _ name arguments => exact .call span name arguments

end Expr.Sourced

namespace VariableTable

theorem size_le_resolve (t : VariableTable) (name : String) : t.size ≤ (t.resolve name).2.size := by
  unfold resolve
  split
  · exact Nat.le_refl _
  · simp [size]

theorem resolve_lt (t : VariableTable) (name : String) :
    (t.resolve name).1 < (t.resolve name).2.size := by
  unfold resolve
  split
  · next index found =>
    obtain ⟨inside, _⟩ := List.idxOf?_eq_some_iff.mp found
    exact inside
  · simp [size]

end VariableTable

namespace Grammar

/-- The tokens are of kinds that stand in a text. -/
def Lexical (ts : List Token) : Prop := ∀ t ∈ ts, t.kind.Lexical

section Lexical

variable {ts us : List Token} {t : Token}

theorem Lexical.left (lexical : Lexical (ts ++ us)) : Lexical ts :=
  fun t member => lexical t (List.mem_append_left _ member)

theorem Lexical.right (lexical : Lexical (ts ++ us)) : Lexical us :=
  fun t member => lexical t (List.mem_append_right _ member)

theorem Lexical.head (lexical : Lexical (t :: ts)) : t.kind.Lexical :=
  lexical t List.mem_cons_self

theorem Lexical.tail (lexical : Lexical (t :: ts)) : Lexical ts :=
  fun t member => lexical t (List.mem_cons_of_mem _ member)

end Lexical

/-- A tree that was read while the table grew from one to the other. -/
structure Grown (t t' : VariableTable) (e : Expr) : Prop where
  grows : t.size ≤ t'.size
  sourced : e.Sourced t'.size

theorem Grown.operation {t t₁ t₂ : VariableTable} {left right : Expr} {operator : Operator}
    (sign : Span) (known : operator.isKnown = true) (first : Grown t t₁ left)
    (second : Grown t₁ t₂ right) : Grown t t₂ (operation operator sign left right) where
  grows := Nat.le_trans first.grows second.grows
  sourced := .binary sign _ known (first.sourced.mono second.grows) second.sourced

mutual

/-- A derived tree is one of its text. -/
theorem grown_of_derives {c : Category} {t t' : VariableTable} {ts : List Token} {e : Expr} :
    Derives c t ts e t' → Lexical ts → Grown t t' e
  | .sum derived, lexical => grown_of_derives derived lexical
  | .assignment sign left right, lexical =>
    .operation sign rfl (grown_of_derives left lexical.left)
      (grown_of_derives right lexical.right.tail)
  | .product derived, lexical => grown_of_derives derived lexical
  | .additive sign additive left right, lexical =>
    .operation sign (by cases additive <;> rfl) (grown_of_derives left lexical.left)
      (grown_of_derives right lexical.right.tail)
  | .primary derived, lexical => grown_of_derives derived lexical
  | .multiplicative sign multiplicative left right, lexical =>
    .operation sign (by cases multiplicative <;> rfl) (grown_of_derives left lexical.left)
      (grown_of_derives right lexical.right.tail)
  | .number _ span, lexical => ⟨Nat.le_refl _, .number span lexical.head⟩
  | .string _ span, lexical => ⟨Nat.le_refl _, .string span lexical.head⟩
  | .name name span, _ =>
    ⟨VariableTable.size_le_resolve _ name, .var name span (VariableTable.resolve_lt _ name)⟩
  | .bareCall _ span _ closing, lexical =>
    ⟨Nat.le_refl _, .call (span + closing) lexical.head (List.forall_mem_nil _)⟩
  | .call _ span _ closing derived, lexical =>
    have inside := grown_of_derivesArguments derived lexical.tail.tail.left
    ⟨inside.1, .call (span + closing) lexical.head inside.2⟩
  | .group opening closing derived, lexical =>
    have inside := grown_of_derives derived lexical.tail.left
    ⟨inside.grows, inside.sourced.withSpan (opening + closing)⟩

theorem grown_of_derivesArguments {t t' : VariableTable} {ts : List Token} {es : List Expr} :
    DerivesArguments t ts es t' → Lexical ts → t.size ≤ t'.size ∧ ∀ e ∈ es, e.Sourced t'.size
  | .first derived, lexical =>
    have one := grown_of_derives derived lexical
    ⟨one.grows, fun _ member => List.mem_singleton.mp member ▸ one.sourced⟩
  | .next _ front last, lexical =>
    have before := grown_of_derivesArguments front lexical.left
    have one := grown_of_derives last lexical.right.tail
    ⟨Nat.le_trans before.1 one.grows, List.forall_mem_append.mpr
      ⟨fun e member => (before.2 e member).mono one.grows,
        fun _ member => List.mem_singleton.mp member ▸ one.sourced⟩⟩

end

/-- The statements of a derived program are trees of its text. -/
theorem sourced_of_derivesProgram {ts : List Token} {statements : List Expr} {t : VariableTable}
    (derived : DerivesProgram ts statements t) (lexical : Lexical ts) :
    ∀ e ∈ statements, e.Sourced t.size := by
  induction derived with
  | empty => nofun
  | statement semicolon _ last ih =>
    have one := grown_of_derives last lexical.right.left
    refine List.forall_mem_append.mpr ⟨fun e member => ?_, fun e member => ?_⟩
    · exact (ih lexical.left e member).mono one.grows
    · exact List.mem_singleton.mp member ▸ one.sourced

end Grammar

namespace Program

variable {source : String} {program : Program}

/-- A program that was read from a text is derived from the tokens of that text. -/
theorem isProgram_of_ofSource (parsed : (Parsing.ofSource source).result = .ok program) :
    IsProgram (Lexer.tokensOf source) program :=
  (Parsing.result_eq_ok_iff.mp parsed).2

/-- The statements of a program that was read from a text are trees of that text. -/
theorem sourced_of_ofSource (parsed : (Parsing.ofSource source).result = .ok program) :
    ∀ e ∈ program.statements, e.Sourced program.table.size :=
  sourced_of_derivesProgram (isProgram_of_ofSource parsed) fun _ => Lexer.lexical_of_mem_tokensOf

end Program

end Reckon
