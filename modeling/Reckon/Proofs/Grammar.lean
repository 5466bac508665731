import Reckon.Program.Parser

/-!
# The grammar of programs

    program    ::= (assignment ';')*
    assignment ::= sum | sum '=' assignment
    sum        ::= product | sum ('+' | '-') product
    product    ::= primary | product ('*' | '/') primary
    primary    ::= NUMBER | STRING | NAME | NAME '(' ')' | NAME '(' arguments ')'
                 | '(' assignment ')'
    arguments  ::= assignment | arguments ',' assignment

`Derives c t ts e t'` says that category `c` derives the tokens `ts`. Beside the derivation stands
what it means: the tree `e`, and the table of variables, which is `t` before the tokens and `t'`
after them, because a variable takes its slot where its name first occurs. `DerivesProgram` does the
same for whole programs.

* `Derives.operation` treats the three kinds of operations alike, by the categories that an operator
  has on its two sides.
* `Derives.lift`: what a tighter category derives, every looser one derives with the same tree.
-/

namespace Reckon.Grammar

/-- The categories of expressions, loosest first. -/
inductive Category where
  | assignment
  | sum
  | product
  | primary
  deriving DecidableEq, Repr

/-- The signs between the members of a sum. -/
inductive Additive : Token.Kind → Operator → Prop
  | plus : Additive .plus .add
  | minus : Additive .minus .subtract

/-- The signs between the factors of a product. -/
inductive Multiplicative : Token.Kind → Operator → Prop
  | star : Multiplicative .star .multiply
  | slash : Multiplicative .slash .divide

/-- The tree of an operation: it covers the text of both operands. -/
def operation (operator : Operator) (sign : Span) (left right : Expr) : Expr :=
  .binary operator sign left right (left.span + right.span)

mutual

/-- A category derives tokens with a tree; the variables met are resolved from the first table to
the second. -/
inductive Derives : Category → VariableTable → List Token → Expr → VariableTable → Prop
  | sum {t t' : VariableTable} {ts : List Token} {e : Expr} :
    Derives .sum t ts e t' → Derives .assignment t ts e t'
  | assignment {t t₁ t₂ : VariableTable} {ts us : List Token} {left right : Expr} (sign : Span) :
    Derives .sum t ts left t₁ → Derives .assignment t₁ us right t₂ →
    Derives .assignment t (ts ++ ⟨.assign, sign⟩ :: us) (operation .assign sign left right) t₂
  | product {t t' : VariableTable} {ts : List Token} {e : Expr} :
    Derives .product t ts e t' → Derives .sum t ts e t'
  | additive {t t₁ t₂ : VariableTable} {ts us : List Token} {left right : Expr}
    {kind : Token.Kind} {operator : Operator} (sign : Span) :
    Additive kind operator → Derives .sum t ts left t₁ → Derives .product t₁ us right t₂ →
    Derives .sum t (ts ++ ⟨kind, sign⟩ :: us) (operation operator sign left right) t₂
  | primary {t t' : VariableTable} {ts : List Token} {e : Expr} :
    Derives .primary t ts e t' → Derives .product t ts e t'
  | multiplicative {t t₁ t₂ : VariableTable} {ts us : List Token} {left right : Expr}
    {kind : Token.Kind} {operator : Operator} (sign : Span) :
    Multiplicative kind operator → Derives .product t ts left t₁ → Derives .primary t₁ us right t₂ →
    Derives .product t (ts ++ ⟨kind, sign⟩ :: us) (operation operator sign left right) t₂
  | number {t : VariableTable} (value : Nat) (span : Span) :
    Derives .primary t [⟨.number value, span⟩] (.number value span) t
  | string {t : VariableTable} (raw : String) (span : Span) :
    Derives .primary t [⟨.string raw, span⟩] (.string raw span) t
  | name {t : VariableTable} (name : String) (span : Span) :
    Derives .primary t [⟨.identifier name, span⟩] (.var (t.resolve name).1 name span)
      (t.resolve name).2
  | bareCall {t : VariableTable} (name : String) (span opening closing : Span) :
    Derives .primary t [⟨.identifier name, span⟩, ⟨.openParen, opening⟩, ⟨.closeParen, closing⟩]
      (.call name [] (span + closing)) t
  | call {t t' : VariableTable} {ts : List Token} {arguments : List Expr} (name : String)
    (span opening closing : Span) :
    DerivesArguments t ts arguments t' →
    Derives .primary t
      (⟨.identifier name, span⟩ :: ⟨.openParen, opening⟩ :: (ts ++ [⟨.closeParen, closing⟩]))
      (.call name arguments (span + closing)) t'
  | group {t t' : VariableTable} {ts : List Token} {e : Expr} (opening closing : Span) :
    Derives .assignment t ts e t' →
    Derives .primary t (⟨.openParen, opening⟩ :: (ts ++ [⟨.closeParen, closing⟩]))
      (e.withSpan (opening + closing)) t'

/-- Tokens are one or more arguments with commas between them. -/
inductive DerivesArguments : VariableTable → List Token → List Expr → VariableTable → Prop
  | first {t t' : VariableTable} {ts : List Token} {e : Expr} :
    Derives .assignment t ts e t' → DerivesArguments t ts [e] t'
  | next {t t₁ t₂ : VariableTable} {ts us : List Token} {es : List Expr} {e : Expr} (comma : Span) :
    DerivesArguments t ts es t₁ → Derives .assignment t₁ us e t₂ →
    DerivesArguments t (ts ++ ⟨.comma, comma⟩ :: us) (es ++ [e]) t₂

end

theorem DerivesArguments.ne_nil {t t' : VariableTable} {ts : List Token} {es : List Expr}
    (derived : DerivesArguments t ts es t') : es ≠ [] := by
  intro empty
  cases derived with
  | first => cases empty
  | next => exact absurd empty (by simp)

/-- Tokens are a program with the given statements and variables. -/
inductive DerivesProgram : List Token → List Expr → VariableTable → Prop
  | empty : DerivesProgram [] [] .empty
  | statement {t t' : VariableTable} {ts us : List Token} {statements : List Expr} {e : Expr}
    (semicolon : Span) :
    DerivesProgram ts statements t → Derives .assignment t us e t' →
    DerivesProgram (ts ++ (us ++ [⟨.semicolon, semicolon⟩])) (statements ++ [e]) t'

/-- Tokens are derived as a program, which has the statements and the variables of the
derivation. -/
def IsProgram (tokens : List Token) (program : Program) : Prop :=
  DerivesProgram tokens program.statements program.table

/-- Tokens can be extended to a program. -/
def Viable (tokens : List Token) : Prop :=
  ∃ more program, IsProgram (tokens ++ more) program

/-! ## Levels -/

/-- How tightly a category binds: an operator of this precedence or a looser one ends what the
category derives. -/
def Category.level : Category → Nat
  | assignment => 1
  | sum => 2
  | product => 3
  | primary => 4

/-- The category that an operation with the operator belongs to. -/
def category : Operator → Category
  | .assign | .other _ => .assignment
  | .add | .subtract => .sum
  | .multiply | .divide => .product

/-- The category of the left operand of an operator. -/
def leftCategory : Operator → Category
  | .multiply | .divide => .product
  | .add | .subtract | .assign | .other _ => .sum

/-- The category of the right operand of an operator. -/
def rightCategory : Operator → Category
  | .assign | .other _ => .assignment
  | .add | .subtract => .product
  | .multiply | .divide => .primary

/-- What the parser takes for the least precedence in a right operand is the level of the operand's
category. -/
theorem level_rightCategory (operator : Operator) :
    (rightCategory operator).level = operator.rightPrecedence := by
  cases operator <;> rfl

theorem level_category {kind : Token.Kind} {operator : Operator}
    (sign : Parser.operator? kind = some operator) :
    (category operator).level = operator.precedence := by
  cases kind <;> cases sign <;> rfl

/-- The tokens that the parser takes for operators build the operations of the grammar. -/
theorem Derives.operation {t t₁ t₂ : VariableTable} {ts us : List Token} {left right : Expr}
    {kind : Token.Kind} {operator : Operator} (span : Span)
    (sign : Parser.operator? kind = some operator)
    (before : Derives (leftCategory operator) t ts left t₁)
    (after : Derives (rightCategory operator) t₁ us right t₂) :
    Derives (category operator) t (ts ++ ⟨kind, span⟩ :: us)
      (Grammar.operation operator span left right) t₂ := by
  cases kind <;> cases sign
  · exact .additive span .plus before after
  · exact .additive span .minus before after
  · exact .multiplicative span .star before after
  · exact .multiplicative span .slash before after
  · exact .assignment span before after

theorem Derives.of_primary {c : Category} {t t' : VariableTable} {ts : List Token} {e : Expr}
    (derived : Derives .primary t ts e t') : Derives c t ts e t' := by
  cases c
  · exact .sum (.product (.primary derived))
  · exact .product (.primary derived)
  · exact .primary derived
  · exact derived

/-- A looser category derives what a tighter one does, with the same tree. -/
theorem Derives.lift {c c' : Category} {t t' : VariableTable} {ts : List Token} {e : Expr}
    (looser : c.level ≤ c'.level) (derived : Derives c' t ts e t') : Derives c t ts e t' := by
  cases c' with
  | primary => exact derived.of_primary
  | product =>
    cases c with
    | assignment => exact .sum (.product derived)
    | sum => exact .product derived
    | product => exact derived
    | primary => exact absurd looser (by decide)
  | sum =>
    cases c with
    | assignment => exact .sum derived
    | sum => exact derived
    | product => exact absurd looser (by decide)
    | primary => exact absurd looser (by decide)
  | assignment =>
    cases c with
    | assignment => exact derived
    | sum => exact absurd looser (by decide)
    | product => exact absurd looser (by decide)
    | primary => exact absurd looser (by decide)

end Reckon.Grammar
