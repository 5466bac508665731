import Reckon.Proofs.Parsing.Nesting
import Reckon.Proofs.Parsing.VariableCount

/-!
# Variables and the names in the text

A name is a variable unless an opening parenthesis follows it. So the variables of a tree, from left
to right, are the names among its tokens that no such parenthesis follows
(`Grammar.uncalled_of_derives`), and a variable stands where its name does, with no more than
parentheses around it (`Grammar.bracketed_of_derives`).

Main statement: the table of a program lists these names by first occurrence, each once, and every
variable has the place of its name in the table for its slot (`Parsing.resolved_of_ofSource`).
-/

namespace Reckon

/-! ## Names in a text -/

namespace Lexer

theorem text_of_scan_identifier {first : Char} {rest : List Char} {name : String}
    (read : (scan first rest).reading = .token (.identifier name)) :
    (scan first rest).text = name.toList := by
  have scanned := scanned first rest
  generalize scan first rest = piece at scanned read
  cases scanned with
  | sign symbol =>
    cases read
    unfold Token.Kind.ofSymbol? at symbol
    split at symbol <;> cases symbol
  | numeral =>
    have number : readNumber (first :: rest.takeWhile Text.isAsciiDigit) =
        .token (.identifier name) := read
    unfold readNumber at number
    split at number
    · cases number
    · split at number <;> cases number
  | name =>
    cases read
    exact String.toList_ofList.symm
  | blank | literal | unterminated | invalid => cases read

/-- The token of a name stands where the text has the name. -/
theorem chars?_of_mem_tokensOf {source name : String} {span : Span}
    (member : ⟨.identifier name, span⟩ ∈ tokensOf source) :
    span.chars? source.toList = some name.toList := by
  obtain ⟨front, first, rest, whole, read⟩ := exists_scan_of_mem_outcomes (l := ofSource source)
    (List.nil_append _).symm rfl (Outcome.mem_of_mem_tokens member)
  cases reading : (scan first rest).reading with
  | token kind =>
    rw [reading] at read
    cases read
    rw [whole, ← (scanned first rest).append, text_of_scan_identifier reading]
    exact Span.chars?_append front name.toList _
  | wrong | tooLong =>
    rw [reading] at read
    cases read

end Lexer

namespace Token

/-- The row begins with an opening parenthesis. -/
def Opens (ts : List Token) : Prop :=
  ts.head?.map Token.kind = some .openParen

instance (ts : List Token) : Decidable (Opens ts) :=
  inferInstanceAs (Decidable (_ = _))

theorem not_opens_cons {kind : Kind} (other : kind ≠ .openParen) (span : Span) (ts : List Token) :
    ¬ Opens (⟨kind, span⟩ :: ts) :=
  fun opens => other (Option.some.inj opens)

/-- The names among the tokens that no opening parenthesis follows, in their order. -/
def uncalled : List Token → List String
  | [] => []
  | ⟨.identifier name, _⟩ :: rest => if Opens rest then uncalled rest else name :: uncalled rest
  | _ :: rest => uncalled rest

theorem uncalled_cons_of_sign {kind : Kind} (sign : ∀ name, kind ≠ .identifier name) (span : Span)
    (rest : List Token) : uncalled (⟨kind, span⟩ :: rest) = uncalled rest := by
  cases kind with
  | identifier name => exact absurd rfl (sign name)
  | _ => rfl

theorem uncalled_cons_of_name (name : String) (span : Span) {rest : List Token}
    (closed : ¬ Opens rest) :
    uncalled (⟨.identifier name, span⟩ :: rest) = name :: uncalled rest :=
  if_neg closed

theorem uncalled_suffix_cons (t : Token) (rest : List Token) :
    uncalled rest <:+ uncalled (t :: rest) := by
  obtain ⟨kind, span⟩ := t
  cases kind with
  | identifier name =>
    rw [uncalled]
    split
    · exact List.suffix_rfl
    · exact List.suffix_cons ..
  | _ => exact List.suffix_rfl

/-- A name is listed exactly if it stands somewhere without a parenthesis behind it. -/
theorem mem_uncalled_iff {ts : List Token} {name : String} :
    name ∈ uncalled ts ↔
      ∃ before span after, ts = before ++ ⟨.identifier name, span⟩ :: after ∧ ¬ Opens after := by
  constructor
  · intro listed
    fun_induction uncalled ts with
    | case1 => cases listed
    | case2 other span rest opens ih =>
      obtain ⟨before, place, after, rfl, closed⟩ := ih listed
      exact ⟨_ :: before, place, after, rfl, closed⟩
    | case3 other span rest here ih =>
      rcases List.mem_cons.mp listed with rfl | later
      · exact ⟨[], span, rest, rfl, here⟩
      · obtain ⟨before, place, after, rfl, closed⟩ := ih later
        exact ⟨_ :: before, place, after, rfl, closed⟩
    | case4 t rest sign ih =>
      obtain ⟨before, place, after, rfl, closed⟩ := ih listed
      exact ⟨t :: before, place, after, rfl, closed⟩
  · rintro ⟨before, span, after, rfl, closed⟩
    induction before with
    | nil =>
      rw [List.nil_append, uncalled_cons_of_name name span closed]
      exact List.mem_cons_self
    | cons t before ih => exact (uncalled_suffix_cons t _).subset ih

/-- A name, in any number of parentheses. -/
inductive Bracketed (name : Token) : List Token → Prop
  | bare : Bracketed name [name]
  | group {ts : List Token} (opening closing : Span) : Bracketed name ts →
    Bracketed name (⟨.openParen, opening⟩ :: (ts ++ [⟨.closeParen, closing⟩]))

theorem Bracketed.mem {name : Token} {ts : List Token} (bracketed : Bracketed name ts) :
    name ∈ ts := by
  induction bracketed with
  | bare => exact List.mem_cons_self
  | group _ _ _ ih => exact List.mem_cons_of_mem _ (List.mem_append_left _ ih)

end Token

/-! ## Variables of a tree -/

namespace Expr

/-- The expression is a variable with the name. -/
def IsVariable (name : String) : Expr → Prop
  | .var _ name' _ => name' = name
  | _ => False

theorem IsVariable.of_withSpan {e : Expr} {name : String} {span : Span}
    (named : (e.withSpan span).IsVariable name) : e.IsVariable name := by
  cases e <;> exact named

theorem mem_referencesAll {es : List Expr} {e : Expr} {v : Int × String} (member : e ∈ es)
    (reference : v ∈ e.references) : v ∈ referencesAll es := by
  obtain ⟨front, back, rfl⟩ := List.append_of_mem member
  rw [referencesAll_append, referencesAll]
  exact List.mem_append_right _ (List.mem_append_left _ reference)

/-- A variable inside a tree is one of its variables. -/
theorem Within.mem_references {e : Expr} {index : Int} {name : String} {span : Span}
    (node : (Expr.var index name span).Within e) : (index, name) ∈ e.references := by
  induction node with
  | self => exact List.mem_cons_self
  | left _ ih => exact List.mem_append_left _ ih
  | right _ ih => exact List.mem_append_right _ ih
  | argument member _ ih => exact mem_referencesAll member ih
  | statement member _ ih => exact mem_referencesAll member ih

end Expr

namespace Grammar

open Token (Opens uncalled Bracketed)

/-- A variable is derived from its name, in any number of parentheses. -/
theorem bracketed_of_derives {c : Category} {t t' : VariableTable} {ts : List Token} {e : Expr}
    {name : String} : Derives c t ts e t' → e.IsVariable name →
      ∃ place, Bracketed ⟨.identifier name, place⟩ ts
  | .sum derived, named | .product derived, named | .primary derived, named =>
    bracketed_of_derives derived named
  | .assignment .., named | .additive .., named | .multiplicative .., named => named.elim
  | .number .., named | .string .., named | .bareCall .., named | .call .., named => named.elim
  | .name name' span, named => by
    rw [show name' = name from named]
    exact ⟨span, .bare⟩
  | .group opening closing derived, named => by
    obtain ⟨place, bracketed⟩ := bracketed_of_derives derived named.of_withSpan
    exact ⟨place, .group opening closing bracketed⟩

/-- The names of both operands, with a sign between them. -/
theorem uncalled_operation {ts us rest : List Token} {kind : Token.Kind} {operator : Operator}
    {sign : Span} {left right : Expr} (isSign : ∀ name, kind ≠ .identifier name)
    (closed : kind ≠ .openParen)
    (first : ∀ rest, ¬ Opens rest → uncalled (ts ++ rest) = left.names ++ uncalled rest)
    (second : uncalled (us ++ rest) = right.names ++ uncalled rest) :
    uncalled (ts ++ ⟨kind, sign⟩ :: us ++ rest) =
      (operation operator sign left right).names ++ uncalled rest := by
  have names : (operation operator sign left right).names = left.names ++ right.names :=
    List.map_append
  rw [List.append_assoc, List.cons_append, first _ (Token.not_opens_cons closed _ _),
    Token.uncalled_cons_of_sign isSign, second, names, List.append_assoc]

mutual

/-- The variables of a derived tree are the names among its tokens that are not called, unless what
comes behind the tokens calls the last of them. -/
theorem uncalled_of_derives {c : Category} {t t' : VariableTable} {ts : List Token} {e : Expr} :
    Derives c t ts e t' → ∀ rest, ¬ Opens rest → uncalled (ts ++ rest) = e.names ++ uncalled rest
  | .sum derived, rest, closed | .product derived, rest, closed | .primary derived, rest, closed =>
    uncalled_of_derives derived rest closed
  | .assignment _ left right, rest, closed =>
    uncalled_operation (fun _ same => by cases same) (by decide) (uncalled_of_derives left)
      (uncalled_of_derives right rest closed)
  | .additive _ sign left right, rest, closed =>
    uncalled_operation (fun _ same => by cases sign <;> cases same) (by cases sign <;> decide)
      (uncalled_of_derives left) (uncalled_of_derives right rest closed)
  | .multiplicative _ sign left right, rest, closed =>
    uncalled_operation (fun _ same => by cases sign <;> cases same) (by cases sign <;> decide)
      (uncalled_of_derives left) (uncalled_of_derives right rest closed)
  | .number .., _, _ | .string .., _, _ | .bareCall .., _, _ => rfl
  | .name name span, _, closed => Token.uncalled_cons_of_name name span closed
  | .call name span opening closing derived, rest, _ => by
    have inside := uncalled_of_derivesArguments derived (⟨.closeParen, closing⟩ :: rest)
      (Token.not_opens_cons (by decide) _ _)
    rw [List.cons_append, List.cons_append, List.append_assoc]
    exact inside
  | .group opening closing derived, rest, _ => by
    have inside := uncalled_of_derives derived (⟨.closeParen, closing⟩ :: rest)
      (Token.not_opens_cons (by decide) _ _)
    rw [List.cons_append, List.append_assoc, Expr.names, Expr.references_withSpan]
    exact inside

theorem uncalled_of_derivesArguments {t t' : VariableTable} {ts : List Token} {es : List Expr} :
    DerivesArguments t ts es t' → ∀ rest, ¬ Opens rest →
      uncalled (ts ++ rest) = (Expr.referencesAll es).map Prod.snd ++ uncalled rest
  | .first derived, rest, closed => by
    rw [Expr.referencesAll, Expr.referencesAll, List.append_nil]
    exact uncalled_of_derives derived rest closed
  | .next comma front last, rest, closed => by
    have signed : ∀ name, Token.Kind.comma ≠ .identifier name := fun _ same => by cases same
    rw [List.append_assoc, List.cons_append,
      uncalled_of_derivesArguments front _ (Token.not_opens_cons (by decide) _ _),
      Token.uncalled_cons_of_sign signed, uncalled_of_derives last rest closed,
      Expr.referencesAll_concat, List.map_append, List.append_assoc]
    rfl

end

/-- A program ends with a semicolon, so nothing behind it calls its last name. -/
theorem uncalled_of_derivesProgram {ts : List Token} {statements : List Expr} {t : VariableTable}
    (derived : DerivesProgram ts statements t) (rest : List Token) :
    uncalled (ts ++ rest) = (Expr.referencesAll statements).map Prod.snd ++ uncalled rest := by
  induction derived generalizing rest with
  | empty => rfl
  | statement semicolon _ last ih =>
    have ended := uncalled_of_derives last (⟨.semicolon, semicolon⟩ :: rest)
      (Token.not_opens_cons (by decide) _ _)
    rw [List.append_assoc, List.append_assoc, ih, List.singleton_append, ended,
      Expr.referencesAll_concat, List.map_append, List.append_assoc]
    rfl

theorem resolves_of_derivesProgram {ts : List Token} {statements : List Expr} {t : VariableTable}
    (derived : DerivesProgram ts statements t) :
    Resolves .empty t (Expr.referencesAll statements) := by
  induction derived with
  | empty => exact .nil _
  | statement _ _ last ih =>
    rw [Expr.referencesAll_concat]
    exact ih.append (resolves_of_derives last)

end Grammar

/-- A variable stands in the program, at any depth. -/
def Program.Refers (p : Program) (index : Int) (name : String) (span : Span) : Prop :=
  ∃ e ∈ p.statements, (Expr.var index name span).Within e

/-- The variable is one of those that the program lists. -/
theorem Program.Refers.mem {p : Program} {index : Int} {name : String} {span : Span}
    (refers : p.Refers index name span) : (index, name) ∈ Expr.referencesAll p.statements := by
  obtain ⟨e, member, node⟩ := refers
  exact Expr.mem_referencesAll member node.mem_references

namespace Parsing

open Grammar Lexer Token

/-- The tokens that a variable of a program is read from. -/
theorem bracketed_of_refers {source : String} {program : Program} {index : Int} {name : String}
    {span : Span} (parsed : (ofSource source).result = .ok program)
    (refers : program.Refers index name span) :
    ∃ before block after place, tokensOf source = before ++ (block ++ after) ∧
      Covers block span ∧ Bracketed ⟨.identifier name, place⟩ block := by
  obtain ⟨clean, derived⟩ := result_eq_ok_iff.mp parsed
  obtain ⟨e, member, node⟩ := refers
  obtain ⟨before, block, after, t, t', split, derived⟩ :=
    contains_of_derivesProgram derived member node
  have ordered := ordered_tokensOf clean
  rw [split] at ordered
  obtain ⟨place, bracketed⟩ := bracketed_of_derives derived rfl
  have covers := covers_of_derives derived ordered.right.left
  exact ⟨before, block, after, place, split, covers, bracketed⟩

/-- Variables are resolved by name. Take a program that is read from a text. The names in its table
are distinct; they are the names in the text that no opening parenthesis follows, blanks aside, in
the order of their first such occurrence. Every variable in the program, at any depth, covers one
name in the text, with no more than parentheses around it; it has that name, and for its slot the
place of the name in the table. So two variables have the same slot exactly if they have the same
name, and a name that is called wherever it stands has no slot. -/
theorem resolved_of_ofSource {source : String} {program : Program}
    (parsed : (ofSource source).result = .ok program) :
    program.table.names.Nodup ∧
    program.table.names = (uncalled (tokensOf source)).eraseDups ∧
    (∀ index name span, program.Refers index name span →
      (∃ before block after place, tokensOf source = before ++ (block ++ after) ∧
        Covers block span ∧ Bracketed ⟨.identifier name, place⟩ block ∧
        place.chars? source.toList = some name.toList) ∧
      ∃ slot : Nat, index = slot ∧ program.table.names[slot]? = some name) ∧
    (∀ index name span index' name' span', program.Refers index name span →
      program.Refers index' name' span' → (index = index' ↔ name = name')) ∧
    ∀ name, (∀ before span after,
      tokensOf source = before ++ ⟨.identifier name, span⟩ :: after → Opens after) →
      name ∉ program.table.names := by
  obtain ⟨-, derived⟩ := result_eq_ok_iff.mp parsed
  have resolves := resolves_of_derivesProgram derived
  have listed := uncalled_of_derivesProgram derived []
  rw [List.append_nil, uncalled, List.append_nil] at listed
  have names : program.table.names = (uncalled (tokensOf source)).eraseDups := by
    rw [resolves.table, VariableTable.names_resolveAll_empty, listed]
  refine ⟨(grows_of_derivesProgram derived).nodup List.nodup_nil, names, ?_, ?_, ?_⟩
  · intro index name span refers
    obtain ⟨before, block, after, place, split, covers, bracketed⟩ :=
      bracketed_of_refers parsed refers
    have among : ⟨.identifier name, place⟩ ∈ tokensOf source := by
      rw [split]
      exact List.mem_append_right _ (List.mem_append_left _ bracketed.mem)
    refine ⟨⟨before, block, after, place, split, covers, bracketed, chars?_of_mem_tokensOf among⟩,
      _, resolves.found _ refers.mem, ?_⟩
    exact List.getElem?_idxOf (resolves.mem_names refers.mem)
  · intro index name span index' name' span' refers refers'
    exact resolves.slot_eq_iff refers.mem refers'.mem
  · intro name called member
    rw [names, List.mem_eraseDups, mem_uncalled_iff] at member
    obtain ⟨before, span, after, split, closed⟩ := member
    exact closed (called before span after split)

/-- `f` is a routine and a variable, `g` a routine only; the first `b` is assigned and the second
one stands in parentheses in an argument. -/
theorem resolved_of_ofSource_of_routines :
    let source := "b = f(a, ((b))) + g (); f;"
    let call : Expr := .call "f" [.var 1 "a" ⟨6, 7⟩, .var 0 "b" ⟨9, 14⟩] ⟨4, 15⟩
    let sum : Expr := .binary .add ⟨16, 17⟩ call (.call "g" [] ⟨18, 22⟩) ⟨4, 22⟩
    let program : Program :=
      ⟨[.binary .assign ⟨2, 3⟩ (.var 0 "b" ⟨0, 1⟩) sum ⟨0, 22⟩, .var 2 "f" ⟨24, 25⟩],
        ⟨["b", "a", "f"]⟩⟩
    (ofSource source).result = .ok program ∧
      ["b", "a", "f"] = (uncalled (tokensOf source)).eraseDups ∧
      (∃ before block after place, tokensOf source = before ++ (block ++ after) ∧
        Covers block ⟨9, 14⟩ ∧ Bracketed ⟨.identifier "b", place⟩ block ∧
        place.chars? source.toList = some "b".toList) ∧
      "g" ∉ program.table.names := by
  intro source call sum program
  have parsed : (ofSource source).result = .ok program := by cbv
  have listed : uncalled (tokensOf source) = ["b", "a", "b", "f"] := by cbv
  obtain ⟨-, names, resolved, -, routines⟩ := resolved_of_ofSource parsed
  have refers : program.Refers 0 "b" ⟨9, 14⟩ := by
    refine ⟨_, List.mem_cons_self, .right (.left (.argument ?_ .self))⟩
    exact List.mem_cons_of_mem _ List.mem_cons_self
  refine ⟨parsed, names, (resolved _ _ _ refers).1, routines "g" fun before span after split => ?_⟩
  by_contra closed
  have member := mem_uncalled_iff.mpr ⟨before, span, after, split, closed⟩
  rw [listed] at member
  simp at member

end Parsing

end Reckon
