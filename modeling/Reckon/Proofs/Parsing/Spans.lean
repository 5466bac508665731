import Reckon.Proofs.Grammar

/-!
# The tokens of a node

A tree that is derived from tokens in their order begins with the first of them and ends with the
last (`Grammar.covers_of_derives`). A node inside it is derived from a part of the tokens without
gap (`Grammar.contains_of_derives`), so the same holds of every node of a program
(`Grammar.contains_of_derivesProgram`).
-/

namespace Reckon

/-! ## Nodes -/

/-- The first tree is a node of the second, at any depth. -/
inductive Expr.Within (n : Expr) : Expr → Prop
  | self : Within n n
  | left {operator : Operator} {operatorSpan span : Span} {left right : Expr} :
    Within n left → Within n (.binary operator operatorSpan left right span)
  | right {operator : Operator} {operatorSpan span : Span} {left right : Expr} :
    Within n right → Within n (.binary operator operatorSpan left right span)
  | argument {name : String} {span : Span} {arguments : List Expr} {e : Expr} :
    e ∈ arguments → Within n e → Within n (.call name arguments span)
  | statement {statements : List Expr} {e : Expr} :
    e ∈ statements → Within n e → Within n (.block statements)

/-- A wider span makes a new root, but no other new node. -/
theorem Expr.Within.of_withSpan {n e : Expr} {span : Span} (node : n.Within (e.withSpan span)) :
    n = e.withSpan span ∨ n.Within e := by
  cases e with
  | number | string | var | hole =>
    cases node
    exact .inl rfl
  | binary =>
    cases node with
    | self => exact .inl rfl
    | left node => exact .inr (.left node)
    | right node => exact .inr (.right node)
  | call =>
    cases node with
    | self => exact .inl rfl
    | argument member node => exact .inr (.argument member node)
  | block => exact .inr node

/-! ## Rows of tokens -/

/-- The span in a text that begins at an offset. -/
def Span.shift (offset : Int) (s : Span) : Span :=
  ⟨s.start - offset, s.stop - offset⟩

/-- The token in a text that begins at an offset. -/
def Token.shift (offset : Int) (t : Token) : Token :=
  ⟨t.kind, t.span.shift offset⟩

namespace Token

/-- The tokens stand one behind the other, and none is empty. -/
structure Ordered (ts : List Token) : Prop where
  proper : ∀ t ∈ ts, 0 ≤ t.span.start ∧ t.span.start < t.span.stop
  apart : ts.Pairwise fun t u => t.span.stop ≤ u.span.start

theorem Ordered.sublist {ts us : List Token} (ordered : Ordered us) (sublist : ts.Sublist us) :
    Ordered ts where
  proper t member := ordered.proper t (sublist.subset member)
  apart := ordered.apart.sublist sublist

/-- The span begins where the first token does, and ends where the last one does. -/
structure Covers (ts : List Token) (span : Span) : Prop where
  first : ∃ t, ts.head? = some t ∧ t.span.start = span.start
  last : ∃ t, ts.getLast? = some t ∧ t.span.stop = span.stop

theorem Covers.one (t : Token) : Covers [t] t.span :=
  ⟨⟨t, rfl, rfl⟩, ⟨t, rfl, rfl⟩⟩

theorem Covers.le_start {ts : List Token} {span : Span} {offset : Int} (covers : Covers ts span)
    (behind : ∀ t ∈ ts, offset ≤ t.span.start) : offset ≤ span.start := by
  obtain ⟨t, head, start⟩ := covers.first
  rw [← start]
  exact behind t (List.mem_of_head? head)

theorem Covers.start_nonneg {ts : List Token} {span : Span} (covers : Covers ts span)
    (ordered : Ordered ts) : 0 ≤ span.start :=
  covers.le_start fun t member => (ordered.proper t member).1

/-- The union of two spans covers all that stands between them. -/
theorem Covers.add {ts us : List Token} {a b : Span} (ms : List Token) (left : Covers ts a)
    (right : Covers us b) (ordered : Ordered (ts ++ (ms ++ us))) :
    Covers (ts ++ (ms ++ us)) (a + b) := by
  have orderedLeft := ordered.sublist (List.sublist_append_left ts _)
  have orderedRight := ordered.sublist
    ((List.sublist_append_right ms us).trans (List.sublist_append_right ts _))
  have before : ∀ t ∈ ts, ∀ u ∈ us, t.span.stop ≤ u.span.start := fun t inLeft u inRight =>
    (List.pairwise_append.mp ordered.apart).2.2 t inLeft u (List.mem_append_right ms inRight)
  have nonnegLeft := left.start_nonneg orderedLeft
  have nonnegRight := right.start_nonneg orderedRight
  obtain ⟨t, head, start⟩ := left.first
  obtain ⟨t', last', stop'⟩ := left.last
  obtain ⟨u, head', start'⟩ := right.first
  obtain ⟨u', last, stop⟩ := right.last
  have inT := List.mem_of_head? head
  have inT' := List.mem_of_getLast? last'
  have inU := List.mem_of_head? head'
  have inU' := List.mem_of_getLast? last
  have union : a + b = ⟨a.start, b.stop⟩ := by
    have one := before t inT u inU
    have other := before t' inT' u' inU'
    have properT := orderedLeft.proper t inT
    have properU := orderedRight.proper u' inU'
    show Span.union a b = _
    rw [Span.union, if_neg (by simpa [Span.isEof] using nonnegLeft),
      if_neg (by simpa [Span.isEof] using nonnegRight), Int.min_eq_left (by omega),
      Int.max_eq_right (by omega)]
  rw [union]
  refine ⟨⟨t, ?_, start⟩, ⟨u', ?_, stop⟩⟩
  · rw [List.head?_append, head, Option.some_or]
  · rw [List.getLast?_append, List.getLast?_append, last, Option.some_or, Option.some_or]

end Token

namespace Grammar

open Token (Ordered Covers)

/-! ## Spans of derived trees -/

/-- Parsing yields no blocks, so a wider span can be given to every derived tree. -/
theorem span_withSpan {c : Category} {t t' : VariableTable} {ts : List Token} {e : Expr} :
    Derives c t ts e t' → ∀ span, (e.withSpan span).span = span
  | .sum derived, span | .product derived, span | .primary derived, span =>
    span_withSpan derived span
  | .assignment .., _ | .additive .., _ | .multiplicative .., _ | .number .., _ | .string .., _
  | .name .., _ | .bareCall .., _ | .call .., _ => rfl
  | .group (e := e) _ _ derived, span => by
    have inside := span_withSpan derived span
    cases e <;> exact inside

/-- A derived tree begins with the first of its tokens and ends with the last. -/
theorem covers_of_derives {c : Category} {t t' : VariableTable} {ts : List Token} {e : Expr} :
    Derives c t ts e t' → Ordered ts → Covers ts e.span
  | .sum derived, ordered | .product derived, ordered | .primary derived, ordered =>
    covers_of_derives derived ordered
  | .assignment _ left right, ordered =>
    .add [_] (covers_of_derives left (ordered.sublist (List.sublist_append_left ..)))
      (covers_of_derives right (ordered.sublist (by simp))) ordered
  | .additive _ _ left right, ordered =>
    .add [_] (covers_of_derives left (ordered.sublist (List.sublist_append_left ..)))
      (covers_of_derives right (ordered.sublist (by simp))) ordered
  | .multiplicative _ _ left right, ordered =>
    .add [_] (covers_of_derives left (ordered.sublist (List.sublist_append_left ..)))
      (covers_of_derives right (ordered.sublist (by simp))) ordered
  | .number .., _ | .string .., _ | .name .., _ => .one _
  | .bareCall .., ordered => .add [_] (.one _) (.one _) ordered
  | .call .., ordered => .add (_ :: _) (.one _) (.one _) ordered
  | .group opening closing derived, ordered => by
    rw [span_withSpan derived]
    exact .add _ (.one ⟨.openParen, opening⟩) (.one ⟨.closeParen, closing⟩) ordered

/-! ## Blocks of tokens -/

/-- A part of the tokens without gap derives the tree. -/
def Contains (ts : List Token) (n : Expr) : Prop :=
  ∃ before block after t t', ts = before ++ (block ++ after) ∧ Derives .assignment t block n t'

namespace Contains

variable {ts : List Token} {n : Expr}

theorem whole {c : Category} {t t' : VariableTable} (derived : Derives c t ts n t') :
    Contains ts n :=
  ⟨[], ts, [], t, t', by simp, derived.lift (by cases c <;> decide)⟩

theorem append (contains : Contains ts n) (us : List Token) : Contains (ts ++ us) n := by
  obtain ⟨before, block, after, t, t', rfl, derived⟩ := contains
  exact ⟨before, block, after ++ us, t, t', by simp, derived⟩

theorem prepend (contains : Contains ts n) (us : List Token) : Contains (us ++ ts) n := by
  obtain ⟨before, block, after, t, t', rfl, derived⟩ := contains
  exact ⟨us ++ before, block, after, t, t', by simp, derived⟩

theorem operand {us : List Token} (contains : Contains us n) (ts : List Token) (sign : Token) :
    Contains (ts ++ sign :: us) n :=
  (contains.prepend [sign]).prepend ts

/-- The nodes of an operation are the operation and the nodes of its operands. -/
theorem of_operation {us : List Token} {sign : Token} {operator : Operator} {span : Span}
    {left right : Expr} {c : Category} {t t' : VariableTable}
    (derived : Derives c t (ts ++ sign :: us) (operation operator span left right) t')
    (inLeft : n.Within left → Contains ts n) (inRight : n.Within right → Contains us n)
    (node : n.Within (operation operator span left right)) : Contains (ts ++ sign :: us) n := by
  cases node with
  | self => exact .whole derived
  | left node => exact (inLeft node).append _
  | right node => exact (inRight node).operand ts sign

end Contains

mutual

/-- Every node of a derived tree is derived from a part of the tokens. -/
theorem contains_of_derives {c : Category} {t t' : VariableTable} {ts : List Token} {e n : Expr} :
    Derives c t ts e t' → n.Within e → Contains ts n
  | .sum derived, node => contains_of_derives derived node
  | .product derived, node => contains_of_derives derived node
  | .primary derived, node => contains_of_derives derived node
  | .assignment sign left right, node =>
    .of_operation (.assignment sign left right) (contains_of_derives left)
      (contains_of_derives right) node
  | .additive sign additive left right, node =>
    .of_operation (.additive sign additive left right) (contains_of_derives left)
      (contains_of_derives right) node
  | .multiplicative sign multiplicative left right, node =>
    .of_operation (.multiplicative sign multiplicative left right) (contains_of_derives left)
      (contains_of_derives right) node
  | .number value span, node => by
    cases node
    exact .whole (t := t) (.number value span)
  | .string raw span, node => by
    cases node
    exact .whole (t := t) (.string raw span)
  | .name name span, node => by
    cases node
    exact .whole (.name name span)
  | .bareCall name span opening closing, node => by
    cases node with
    | self => exact .whole (t := t) (.bareCall name span opening closing)
    | argument member => cases member
  | .call name span opening closing derived, node => by
    cases node with
    | self => exact .whole (.call name span opening closing derived)
    | argument member node =>
      exact ((contains_of_derivesArguments derived member node).append _).prepend [_, _]
  | .group opening closing derived, node => by
    rcases node.of_withSpan with rfl | inside
    · exact .whole (.group opening closing derived)
    · exact ((contains_of_derives derived inside).append _).prepend [_]

theorem contains_of_derivesArguments {t t' : VariableTable} {ts : List Token} {es : List Expr}
    {e n : Expr} : DerivesArguments t ts es t' → e ∈ es → n.Within e → Contains ts n
  | .first derived, member, node => by
    rw [List.mem_singleton.mp member] at node
    exact contains_of_derives derived node
  | .next comma front last, member, node => by
    rcases List.mem_append.mp member with inFront | isLast
    · exact (contains_of_derivesArguments front inFront node).append _
    · rw [List.mem_singleton.mp isLast] at node
      exact (contains_of_derives last node).operand _ _

end

/-- Every node of a derived program is derived from a part of the tokens. -/
theorem contains_of_derivesProgram {ts : List Token} {statements : List Expr} {t : VariableTable}
    {e n : Expr} (derived : DerivesProgram ts statements t) (member : e ∈ statements)
    (node : n.Within e) : Contains ts n := by
  induction derived with
  | empty => cases member
  | statement semicolon _ last ih =>
    rcases List.mem_append.mp member with inFront | isLast
    · exact (ih inFront).append _
    · rw [List.mem_singleton.mp isLast] at node
      exact ((contains_of_derives last node).append _).prepend _

end Grammar

end Reckon
