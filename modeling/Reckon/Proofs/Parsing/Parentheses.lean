import Reckon.Proofs.Displacement
import Reckon.Proofs.Parsing.Rows

/-!
# Redundant parentheses

The tokens that derive a node may be put into parentheses wherever they stand: what is around them
is derived as before, with a tree that differs in spans only (`Grammar.enclosable_of_derives`). The
span of a node covers the text of these tokens, and a parenthesis runs together with nothing, so the
same can be done to the text.

Main statement: parentheses around the text of a node, wherever it is in a program, change neither
the statements and variables that are read nor the code (`Parsing.ofSource_enclose`).
-/

namespace Reckon

open Grammar
open Token (Ordered Covers)

/-- Any two spans correspond. -/
def Span.Anywhere (_ _ : Span) : Prop := True

/-- The text with a pair of parentheses around what the span covers. -/
def Span.enclose (s : Span) (source : String) : String :=
  let cs := source.toList
  let start := s.start.toNat
  let stop := s.stop.toNat
  String.ofList (cs.take start ++ '(' :: ((cs.drop start).take (stop - start) ++
    ')' :: cs.drop stop))

/-! ## Trees up to spans -/

theorem Expr.Displaced.trans_of_forall₂ {S : Span → Span → Prop} {es es' es'' : List Expr}
    (first : List.Forall₂ (fun e e' => ∀ e'' : Expr, e'.Displaced S e'' →
      e.Displaced Span.Anywhere e'') es es')
    (second : List.Forall₂ (Expr.Displaced S) es' es'') :
    List.Forall₂ (Expr.Displaced Span.Anywhere) es es'' := by
  induction first generalizing es'' with
  | nil =>
    cases second
    exact .nil
  | cons here _ ih =>
    cases second with
    | cons there later => exact .cons (here _ there) (ih later)

theorem Expr.Displaced.trans {S S' : Span → Span → Prop} {e e' e'' : Expr}
    (first : e.Displaced S e') (second : e'.Displaced S' e'') :
    e.Displaced Span.Anywhere e'' := by
  induction first generalizing e'' with
  | number value =>
    cases second
    exact .number value trivial
  | string raw =>
    cases second
    exact .string raw trivial
  | var index name =>
    cases second
    exact .var index name trivial
  | binary operator _ _ _ _ ihLeft ihRight =>
    cases second with
    | binary _ _ left right => exact .binary operator trivial (ihLeft left) (ihRight right) trivial
  | call name length _ _ ih =>
    cases second with
    | call _ length' pairs =>
      have inside := List.forall₂_iff_zip.mpr ⟨length', fun member => pairs _ member⟩
      refine .call_of_forall₂ (trans_of_forall₂ ?_ inside) name trivial
      exact List.forall₂_iff_zip.mpr ⟨length, fun member _ => ih _ member⟩

theorem Expr.forall₂_displaced_trans {S S' : Span → Span → Prop} {es es' es'' : List Expr}
    (first : List.Forall₂ (Expr.Displaced S) es es')
    (second : List.Forall₂ (Expr.Displaced S') es' es'') :
    List.Forall₂ (Expr.Displaced Span.Anywhere) es es'' :=
  Expr.Displaced.trans_of_forall₂
    (first.imp fun _ e' here e'' (there : e'.Displaced S' e'') => here.trans there) second

/-- Another span makes no other tree. -/
theorem Expr.Displaced.withSpan_right {e : Expr} (self : e.Displaced Span.Anywhere e)
    (span : Span) : e.Displaced Span.Anywhere (e.withSpan span) := by
  have same : e.withSpan e.span = e := by cases e <;> rfl
  have moved : (e.withSpan e.span).Displaced Span.Anywhere (e.withSpan span) :=
    self.withSpan trivial
  rwa [same] at moved

namespace Grammar

mutual

/-- Parsing yields neither holes nor blocks, so every derived tree is the same as itself. -/
theorem displaced_self {c : Category} {t t' : VariableTable} {ts : List Token} {e : Expr} :
    Derives c t ts e t' → e.Displaced Span.Anywhere e
  | .sum derived | .product derived | .primary derived => displaced_self derived
  | .assignment _ left right | .additive _ _ left right | .multiplicative _ _ left right =>
    .binary _ trivial (displaced_self left) (displaced_self right) trivial
  | .number value _ => .number value trivial
  | .string raw _ => .string raw trivial
  | .name name _ => .var _ name trivial
  | .bareCall name .. => .call_of_forall₂ .nil name trivial
  | .call name _ _ _ derived => .call_of_forall₂ (displaced_self_arguments derived) name trivial
  | .group _ _ derived => (displaced_self derived).withSpan trivial

theorem displaced_self_arguments {t t' : VariableTable} {ts : List Token} {es : List Expr} :
    DerivesArguments t ts es t' → List.Forall₂ (Expr.Displaced Span.Anywhere) es es
  | .first derived => .cons (displaced_self derived) .nil
  | .next _ front last =>
    List.rel_append (displaced_self_arguments front) (.cons (displaced_self last) .nil)

end

/-! ## Parentheses around tokens -/

/-- A part of the tokens without gap derives the tree, and with parentheses around this part the
tokens are a whole of the given kind. -/
def Enclosable (whole : List Token → Prop) (ts : List Token) (n : Expr) : Prop :=
  ∃ before block after t t', ts = before ++ (block ++ after) ∧ Derives .assignment t block n t' ∧
    ∀ opening closing, whole
      (before ++ ⟨.openParen, opening⟩ :: (block ++ ⟨.closeParen, closing⟩ :: after))

/-- The tokens derive an expression like the given one. -/
def DerivesLike (c : Category) (t : VariableTable) (e : Expr) (t' : VariableTable)
    (ts : List Token) : Prop :=
  ∃ e', Derives c t ts e' t' ∧ e.Displaced Span.Anywhere e'

/-- The tokens derive arguments like the given ones. -/
def DerivesArgumentsLike (t : VariableTable) (es : List Expr) (t' : VariableTable)
    (ts : List Token) : Prop :=
  ∃ es', DerivesArguments t ts es' t' ∧ List.Forall₂ (Expr.Displaced Span.Anywhere) es es'

/-- The tokens derive a program like the given one. -/
def DerivesProgramLike (statements : List Expr) (t : VariableTable) (ts : List Token) : Prop :=
  ∃ statements', DerivesProgram ts statements' t ∧
    List.Forall₂ (Expr.Displaced Span.Anywhere) statements statements'

section

variable {c c₁ c₂ : Category} {t t₁ t' : VariableTable} {ts us : List Token} {e n : Expr}
  {whole whole' : List Token → Prop}

theorem DerivesLike.mono (like : DerivesLike c t e t' ts)
    (step : ∀ e', Derives c t ts e' t' → Derives c₁ t ts e' t') : DerivesLike c₁ t e t' ts := by
  obtain ⟨e', derived, same⟩ := like
  exact ⟨e', step e' derived, same⟩

/-- Tokens that derive an expression may be put into parentheses as a whole. -/
theorem Enclosable.self (derived : Derives c t ts n t') :
    Enclosable (DerivesLike c t n t') ts n := by
  have looser : Derives .assignment t ts n t' := derived.lift (by cases c <;> decide)
  refine ⟨[], ts, [], t, t', by simp, looser, fun opening closing => ?_⟩
  exact ⟨_, .of_primary (.group opening closing looser), (displaced_self derived).withSpan_right _⟩

/-- What is around a part of the tokens is around the parentheses. -/
theorem Enclosable.between (enclosable : Enclosable whole ts n) (before after : List Token)
    (around : ∀ us, whole us → whole' (before ++ (us ++ after))) :
    Enclosable whole' (before ++ (ts ++ after)) n := by
  obtain ⟨as, block, bs, t, t', rfl, derived, enclosed⟩ := enclosable
  refine ⟨before ++ as, block, bs ++ after, t, t', by simp, derived, fun opening closing => ?_⟩
  simpa using around _ (enclosed opening closing)

theorem Enclosable.imp (enclosable : Enclosable whole ts n)
    (weaken : ∀ us, whole us → whole' us) : Enclosable whole' ts n := by
  simpa using enclosable.between [] [] fun us here => by simpa using weaken us here

theorem Enclosable.behind (enclosable : Enclosable whole us n) (ts : List Token) (sign : Token)
    (around : ∀ us, whole us → whole' (ts ++ sign :: us)) :
    Enclosable whole' (ts ++ sign :: us) n := by
  have placed : Enclosable whole' ((ts ++ [sign]) ++ (us ++ [])) n :=
    enclosable.between _ _ fun us here => by simpa using around us here
  simpa using placed

/-- Parentheses around a node of an operand leave the operation as it is. -/
theorem Enclosable.of_operation {sign : Token} {operator : Operator} {span : Span}
    {left right : Expr}
    (derived : Derives c t (ts ++ sign :: us) (operation operator span left right) t')
    (before : Derives c₁ t ts left t₁) (after : Derives c₂ t₁ us right t')
    (build : ∀ {ts us : List Token} {left right : Expr}, Derives c₁ t ts left t₁ →
      Derives c₂ t₁ us right t' →
      Derives c t (ts ++ sign :: us) (operation operator span left right) t')
    (inLeft : n.Within left → Enclosable (DerivesLike c₁ t left t₁) ts n)
    (inRight : n.Within right → Enclosable (DerivesLike c₂ t₁ right t') us n)
    (node : n.Within (operation operator span left right)) :
    Enclosable (DerivesLike c t (operation operator span left right) t') (ts ++ sign :: us) n := by
  cases node with
  | self => exact .self derived
  | left node =>
    refine (inLeft node).between [] (sign :: us) fun ts' like => ?_
    obtain ⟨left', derived', same⟩ := like
    exact ⟨_, build derived' after, .binary operator trivial same (displaced_self after) trivial⟩
  | right node =>
    refine (inRight node).behind ts sign fun us' like => ?_
    obtain ⟨right', derived', same⟩ := like
    exact ⟨_, build before derived', .binary operator trivial (displaced_self before) same trivial⟩

end

mutual

/-- The tokens of every node of a derived tree may be put into parentheses. -/
theorem enclosable_of_derives {c : Category} {t t' : VariableTable} {ts : List Token}
    {e n : Expr} : Derives c t ts e t' → n.Within e → Enclosable (DerivesLike c t e t') ts n
  | .sum derived, node =>
    (enclosable_of_derives derived node).imp fun _ like => like.mono fun _ => .sum
  | .product derived, node =>
    (enclosable_of_derives derived node).imp fun _ like => like.mono fun _ => .product
  | .primary derived, node =>
    (enclosable_of_derives derived node).imp fun _ like => like.mono fun _ => .primary
  | .assignment sign left right, node =>
    .of_operation (.assignment sign left right) left right (.assignment sign)
      (enclosable_of_derives left) (enclosable_of_derives right) node
  | .additive sign additive left right, node =>
    .of_operation (.additive sign additive left right) left right (.additive sign additive)
      (enclosable_of_derives left) (enclosable_of_derives right) node
  | .multiplicative sign multiplicative left right, node =>
    .of_operation (.multiplicative sign multiplicative left right) left right
      (.multiplicative sign multiplicative) (enclosable_of_derives left)
      (enclosable_of_derives right) node
  | .number value span, node => by
    cases node
    exact .self (.number value span)
  | .string raw span, node => by
    cases node
    exact .self (.string raw span)
  | .name name span, node => by
    cases node
    exact .self (.name name span)
  | .bareCall name span opening closing, node => by
    cases node with
    | self => exact .self (.bareCall name span opening closing)
    | argument member => cases member
  | .call name span opening closing derived, node => by
    cases node with
    | self => exact .self (.call name span opening closing derived)
    | argument member node =>
      refine (enclosable_of_derivesArguments derived member node).between [_, _] [_]
        fun us like => ?_
      obtain ⟨arguments', derived', same⟩ := like
      exact ⟨_, .call name span opening closing derived', .call_of_forall₂ same name trivial⟩
  | .group opening closing derived, node => by
    rcases node.of_withSpan with rfl | inside
    · exact .self (.group opening closing derived)
    · refine (enclosable_of_derives derived inside).between [_] [_] fun us like => ?_
      obtain ⟨e', derived', same⟩ := like
      exact ⟨_, .group opening closing derived', same.withSpan trivial⟩

theorem enclosable_of_derivesArguments {t t' : VariableTable} {ts : List Token} {es : List Expr}
    {e n : Expr} : DerivesArguments t ts es t' → e ∈ es → n.Within e →
      Enclosable (DerivesArgumentsLike t es t') ts n
  | .first derived, member, node => by
    rw [List.mem_singleton.mp member] at node
    refine (enclosable_of_derives derived node).imp fun us like => ?_
    obtain ⟨e', derived', same⟩ := like
    exact ⟨[e'], .first derived', .cons same .nil⟩
  | .next comma front last, member, node => by
    rcases List.mem_append.mp member with inFront | isLast
    · refine (enclosable_of_derivesArguments front inFront node).between [] (_ :: _)
        fun us like => ?_
      obtain ⟨es', derived', same⟩ := like
      exact ⟨_, .next comma derived' last,
        List.rel_append same (.cons (displaced_self last) .nil)⟩
    · rw [List.mem_singleton.mp isLast] at node
      refine (enclosable_of_derives last node).behind _ _ fun us like => ?_
      obtain ⟨e', derived', same⟩ := like
      exact ⟨_, .next comma front derived',
        List.rel_append (displaced_self_arguments front) (.cons same .nil)⟩

end

theorem displaced_self_program {ts : List Token} {statements : List Expr} {t : VariableTable}
    (derived : DerivesProgram ts statements t) :
    List.Forall₂ (Expr.Displaced Span.Anywhere) statements statements := by
  induction derived with
  | empty => exact .nil
  | statement _ _ last ih => exact List.rel_append ih (.cons (displaced_self last) .nil)

/-- The tokens of every node of a derived program may be put into parentheses. -/
theorem enclosable_of_derivesProgram {ts : List Token} {statements : List Expr}
    {t : VariableTable} {e n : Expr} (derived : DerivesProgram ts statements t)
    (member : e ∈ statements) (node : n.Within e) :
    Enclosable (DerivesProgramLike statements t) ts n := by
  induction derived with
  | empty => cases member
  | statement semicolon front last ih =>
    rcases List.mem_append.mp member with inFront | isLast
    · refine (ih inFront).between [] _ fun us like => ?_
      obtain ⟨statements', derived', same⟩ := like
      exact ⟨_, .statement semicolon derived' last,
        List.rel_append same (.cons (displaced_self last) .nil)⟩
    · rw [List.mem_singleton.mp isLast] at node
      refine (enclosable_of_derives last node).between _ [_] fun us like => ?_
      obtain ⟨e', derived', same⟩ := like
      exact ⟨_, .statement semicolon front derived',
        List.rel_append (displaced_self_program front) (.cons same .nil)⟩

end Grammar

/-! ## Parentheses around text -/

namespace Lexeme

/-- The lexeme of an opening parenthesis. -/
def opening : Lexeme := .sign '(' .openParen (by simp [signs])

/-- The lexeme of a closing parenthesis. -/
def closing : Lexeme := .sign ')' .closeParen (by simp [signs])

/-- A sign may stand between any two rows. -/
theorem isChain_append_sign {as bs : List Lexeme} {c : Char} {kind : Token.Kind}
    (listed : (c, kind) ∈ signs) (before : as.IsChain Apart) (behind : bs.IsChain Apart) :
    (as ++ .sign c kind listed :: bs).IsChain Apart := by
  refine List.isChain_append.mpr ⟨before, List.isChain_cons.mpr ⟨fun _ _ => trivial, behind⟩, ?_⟩
  intro l _ next first
  cases first
  cases l <;> trivial

/-- A sign may stand between any two lexemes. -/
theorem isChain_insert_sign {as bs : List Lexeme} {c : Char} {kind : Token.Kind}
    (listed : (c, kind) ∈ signs) (apart : (as ++ bs).IsChain Apart) :
    (as ++ .sign c kind listed :: bs).IsChain Apart := by
  obtain ⟨before, behind, -⟩ := List.isChain_append.mp apart
  exact isChain_append_sign listed before behind

theorem isChain_enclosed {as ms bs : List Lexeme} (apart : (as ++ (ms ++ bs)).IsChain Apart) :
    (as ++ opening :: (ms ++ closing :: bs)).IsChain Apart := by
  have inner : ((as ++ ms) ++ closing :: bs).IsChain Apart :=
    isChain_insert_sign _ (by rwa [List.append_assoc])
  rw [List.append_assoc] at inner
  exact isChain_insert_sign _ inner

/-- The kinds of tokens do not depend on where they begin. -/
theorem displaced_solidFrom (start start' : Nat) (ls : List Lexeme) :
    List.Forall₂ (Token.Displaced Span.Anywhere) (solidFrom start ls) (solidFrom start' ls) := by
  induction ls generalizing start start' with
  | nil => exact .nil
  | cons l ls ih =>
    by_cases blank : l.kind = .whitespace
    · rw [solidFrom_cons_of_blank blank, solidFrom_cons_of_blank blank]
      exact ih _ _
    · rw [solidFrom_cons_of_solid blank, solidFrom_cons_of_solid blank]
      exact .cons ⟨rfl, trivial⟩ (ih _ _)

/-- The tokens of a row with parentheses around a part of it. -/
theorem displaced_solidFrom_enclosed (as ms bs : List Lexeme) :
    List.Forall₂ (Token.Displaced Span.Anywhere)
      (solidFrom 0 as ++ ⟨.openParen, .eof⟩ :: (solidFrom (written as).length ms ++
        ⟨.closeParen, .eof⟩ :: solidFrom ((written as).length + (written ms).length) bs))
      (solidFrom 0 (as ++ opening :: (ms ++ closing :: bs))) := by
  have isOpening : opening.kind ≠ .whitespace := by
    intro same
    cases same
  have isClosing : closing.kind ≠ .whitespace := by
    intro same
    cases same
  rw [solidFrom_append, solidFrom_cons_of_solid isOpening, solidFrom_append,
    solidFrom_cons_of_solid isClosing]
  refine List.rel_append (displaced_solidFrom 0 0 as) (.cons ⟨rfl, trivial⟩ ?_)
  refine List.rel_append (displaced_solidFrom _ _ ms) (.cons ⟨rfl, trivial⟩ ?_)
  exact displaced_solidFrom _ _ bs

/-- Parentheses around the text of the middle part of a row are parentheses in the row. -/
theorem enclose_written {source : String} {as ms bs : List Lexeme} {span : Span}
    (whole : source.toList = written (as ++ (ms ++ bs)))
    (place : span = ⟨(written as).length, ((written as).length + (written ms).length : Nat)⟩) :
    span.enclose source = String.ofList (written (as ++ opening :: (ms ++ closing :: bs))) := by
  have row : written (as ++ opening :: (ms ++ closing :: bs)) =
      written as ++ '(' :: (written ms ++ ')' :: written bs) := by
    simp [written, text, opening, closing]
  have behind : (written as ++ (written ms ++ written bs)).drop
      ((written as).length + (written ms).length) = written bs := by
    rw [← List.append_assoc, ← List.length_append, List.drop_left]
  rw [Span.enclose, whole, place, row, written_append, written_append]
  simp only [Int.toNat_natCast, List.take_left, List.drop_left, Nat.add_sub_cancel_left, behind]

end Lexeme

namespace Parsing

theorem kind_ne_eof_of_mem_enclosed {before block after : List Token}
    (known : ∀ t ∈ before ++ (block ++ after), t.kind ≠ .eof) :
    ∀ t ∈ before ++ ⟨.openParen, .eof⟩ :: (block ++ ⟨.closeParen, .eof⟩ :: after),
      t.kind ≠ .eof := by
  intro t among
  simp only [List.mem_append, List.mem_cons] at among known
  rcases among with among | rfl | among | rfl | among
  · exact known t (.inl among)
  · intro same
    cases same
  · exact known t (.inr (.inl among))
  · intro same
    cases same
  · exact known t (.inr (.inr among))

/-- Parentheses around a node change what is read in spans only. -/
theorem displaced_enclose {source : String} {program : Program} {e n : Expr}
    (parsed : (ofSource source).result = .ok program) (member : e ∈ program.statements)
    (node : n.Within e) :
    ∃ program', (ofSource (n.span.enclose source)).result = .ok program' ∧
      program.Displaced Span.Anywhere program' := by
  obtain ⟨clean, derived⟩ := result_eq_ok_iff.mp parsed
  obtain ⟨ls, apart, whole, tokens⟩ := Lexer.exists_lexemes_of_failureOf? clean
  obtain ⟨before, block, after, t, t', split, derivedBlock, enclosed⟩ :=
    enclosable_of_derivesProgram derived member node
  have known : ∀ t ∈ before ++ (block ++ after), t.kind ≠ .eof := by
    rw [← split]
    exact fun t => Lexer.kind_ne_eof_of_mem_tokensOf
  rw [tokens] at split
  have ordered : Ordered block := by
    have all := Lexeme.ordered_solidFrom 0 ls
    rw [split] at all
    exact all.sublist ((List.sublist_append_left ..).trans (List.sublist_append_right ..))
  obtain ⟨as, ms, bs, rfl, left, row, right, place⟩ :=
    Lexeme.exists_rows split (covers_of_derives derivedBlock ordered)
  rw [Nat.zero_add] at row right place
  -- The row with parentheses is read like the tokens with parentheses.
  obtain ⟨tokens', clean'⟩ := Lexer.tokensOf_written (Lexeme.isChain_enclosed apart)
  have alike := Lexeme.displaced_solidFrom_enclosed as ms bs
  rw [left, row, right, ← tokens'] at alike
  obtain ⟨statements₁, derived₁, same₁⟩ := enclosed .eof .eof
  have isProgram₁ : IsProgram _ ⟨statements₁, program.table⟩ := derived₁
  have read := (displaced_ofTokens (fun _ _ _ _ _ _ => trivial) trivial alike
    Parser.State.displaced_initial).result
  rw [(ofTokens_eq_ok_iff (kind_ne_eof_of_mem_enclosed known)).mpr ⟨rfl, isProgram₁, rfl, rfl⟩,
    ← clean', ← ofSource_eq, ← Lexeme.enclose_written whole place] at read
  generalize (ofSource (n.span.enclose source)).result = result' at read ⊢
  cases read with
  | @ok _ program' same =>
    exact ⟨program', rfl, Expr.forall₂_displaced_trans same₁ same.statements, same.table⟩

end Parsing

namespace Compilation

/-- Redundant parentheses change nothing. Take any node, at any depth, of a program that is read
from a source text, and put a pair of parentheses around the text that its span covers. The new text
is read as a program with the same statements, but for spans, and the same variables. Under any
options both texts are compiled to the same assembly text with the same routines, or both fail with
the same error. -/
theorem ofSource_enclose {source : String} {program : Program} {e n : Expr}
    (parsed : (Parsing.ofSource source).result = .ok program) (member : e ∈ program.statements)
    (node : n.Within e) :
    (∃ program', (Parsing.ofSource (n.span.enclose source)).result = .ok program' ∧
      List.Forall₂ (Expr.Displaced Span.Anywhere) program.statements program'.statements ∧
      program.table = program'.table) ∧
    ∀ options, SourceError.Parallel Span.Anywhere SameCode (ofSource options source)
      (ofSource options (n.span.enclose source)) := by
  obtain ⟨program', parsed', same⟩ := Parsing.displaced_enclose parsed member node
  refine ⟨⟨program', parsed', same.statements, same.table⟩, fun options => ?_⟩
  refine parallel_ofSource ?_ options
  rw [parsed, parsed']
  exact .ok same

/-- Parentheses around the target of an assignment, and around a literal that is an argument. -/
theorem ofSource_enclose_target_and_argument :
    let target : Expr := .var 0 "x" ⟨0, 1⟩
    let literal : Expr := .string "a" ⟨4, 7⟩
    let program : Program :=
      ⟨[.binary .assign ⟨1, 2⟩ target (.call "f" [literal] ⟨2, 8⟩) ⟨0, 8⟩], ⟨["x"]⟩⟩
    (Parsing.ofSource "x=f(\"a\");").result = .ok program ∧
      ∀ options, SourceError.Parallel Span.Anywhere SameCode (ofSource options "x=f(\"a\");")
          (ofSource options "(x)=f(\"a\");") ∧
        SourceError.Parallel Span.Anywhere SameCode (ofSource options "x=f(\"a\");")
          (ofSource options "x=f((\"a\"));") := by
  intro target literal program
  have parsed : (Parsing.ofSource "x=f(\"a\");").result = .ok program := by cbv
  have first : target.span.enclose "x=f(\"a\");" = "(x)=f(\"a\");" := by cbv
  have second : literal.span.enclose "x=f(\"a\");" = "x=f((\"a\"));" := by cbv
  refine ⟨parsed, fun options => ⟨?_, ?_⟩⟩
  · rw [← first]
    exact (ofSource_enclose parsed List.mem_cons_self (.left .self)).2 options
  · rw [← second]
    have argument : literal.Within (.call "f" [literal] ⟨2, 8⟩) :=
      .argument List.mem_cons_self .self
    exact (ofSource_enclose parsed List.mem_cons_self (.right argument)).2 options

end Compilation

end Reckon
