import Reckon.Proofs.Lexing.Tiling
import Reckon.Proofs.Parsing.Acceptance
import Reckon.Proofs.Parsing.Rows

/-!
# Spans nest like the tree

Every token covers a piece of the text (`Lexer.liesIn_of_mem_tokensOf`), and a node covers the text
from the first of its tokens to the last, so it lies wherever all of its tokens lie
(`Grammar.Contains.le_start`, `Grammar.Contains.stop_le`). Parentheses widen a span after the parts
of the node have got theirs, which keeps the parts inside (`Expr.Nested.withSpan`).

Main statement: the spans of a program that is read from a text lie in the text, those of the parts
of a node lie in the node, and what stands side by side does not overlap
(`Parsing.nested_of_ofSource`).
-/

namespace Reckon

/-! ## Places in a text -/

/-- The span covers a piece of the text that is not empty. -/
structure Span.LiesIn (source : String) (s : Span) : Prop where
  nonneg : 0 ≤ s.start
  proper : s.start < s.stop
  inside : s.stop ≤ source.length

theorem Tiles.of_mem {start stop : Nat} {spans : List Span} {s : Span}
    (tiles : Tiles start stop spans) (member : s ∈ spans) :
    start ≤ s.start ∧ s.start < s.stop ∧ s.stop ≤ stop := by
  induction tiles with
  | nil => cases member
  | @cons start middle stop spans nonempty rest ih =>
    rcases List.mem_cons.mp member with rfl | later
    · have := rest.length_le
      dsimp only
      omega
    · have := ih later
      omega

namespace Lexer

variable {source : String}

theorem liesIn_of_mem_outcomes {o : Outcome} (member : o ∈ (ofSource source).outcomes) :
    o.span.LiesIn source := by
  have tiles := tiles_outcomes (ofSource source)
  rw [show (ofSource source).rest.length = source.length from String.length_toList,
    show (ofSource source).position = 0 from rfl, Nat.zero_add] at tiles
  obtain ⟨nonneg, proper, inside⟩ := tiles.of_mem (List.mem_map_of_mem member)
  exact ⟨nonneg, proper, inside⟩

theorem liesIn_of_mem_tokensOf {t : Token} (member : t ∈ tokensOf source) :
    t.span.LiesIn source :=
  liesIn_of_mem_outcomes (o := .token t) (Outcome.mem_of_mem_tokens member)

end Lexer

/-- The first span lies inside the second. -/
structure Span.Inside (a b : Span) : Prop where
  start : b.start ≤ a.start
  stop : a.stop ≤ b.stop

namespace Token

variable {ts us : List Token} {span : Span}

theorem Ordered.left (ordered : Ordered (ts ++ us)) : Ordered ts :=
  ordered.sublist (List.sublist_append_left ts us)

theorem Ordered.right (ordered : Ordered (ts ++ us)) : Ordered us :=
  ordered.sublist (List.sublist_append_right ts us)

namespace Covers

variable (covers : Covers ts span)

include covers

theorem stop_le {offset : Int} (before : ∀ t ∈ ts, t.span.stop ≤ offset) : span.stop ≤ offset := by
  obtain ⟨t, last, stop⟩ := covers.last
  rw [← stop]
  exact before t (List.mem_of_getLast? last)

/-- All tokens lie inside what they cover together. -/
theorem inside_of_mem {t : Token} (ordered : Ordered ts) (member : t ∈ ts) :
    t.span.Inside span := by
  have proper := ordered.proper t member
  constructor
  · obtain ⟨first, head, start⟩ := covers.first
    obtain ⟨rest, rfl⟩ := List.head?_eq_some_iff.mp head
    rcases List.mem_cons.mp member with rfl | later
    · exact Int.le_of_eq start.symm
    · have apart := (List.pairwise_cons.mp ordered.apart).1 t later
      have properFirst := ordered.proper first List.mem_cons_self
      omega
  · obtain ⟨last, tail, stop⟩ := covers.last
    obtain ⟨front, rfl⟩ := List.getLast?_eq_some_iff.mp tail
    rcases List.mem_append.mp member with earlier | here
    · have apart := (List.pairwise_append.mp ordered.apart).2.2 t earlier last List.mem_cons_self
      have properLast := ordered.proper last (List.mem_append_right front List.mem_cons_self)
      omega
    · rw [List.mem_singleton.mp here]
      exact Int.le_of_eq stop

theorem start_lt_stop (ordered : Ordered ts) : span.start < span.stop := by
  obtain ⟨first, head, start⟩ := covers.first
  have member := List.mem_of_head? head
  have proper := ordered.proper first member
  have inside := covers.inside_of_mem ordered member
  have := inside.stop
  omega

/-- What some of the tokens cover lies inside what all of them cover. -/
theorem inside {part : Span} (whole : Covers us part) (among : ∀ t ∈ us, t ∈ ts)
    (ordered : Ordered ts) : part.Inside span where
  start := whole.le_start fun t member => (covers.inside_of_mem ordered (among t member)).start
  stop := whole.stop_le fun t member => (covers.inside_of_mem ordered (among t member)).stop

end Covers

end Token

/-! ## Nodes and their tokens -/

namespace Grammar

open Token (Ordered Covers)

/-- A node covers some of the tokens that contain it. -/
theorem Contains.covers {ts : List Token} {n : Expr} (contains : Contains ts n)
    (ordered : Ordered ts) :
    ∃ block, (∀ t ∈ block, t ∈ ts) ∧ Ordered block ∧ Covers block n.span := by
  obtain ⟨before, block, after, t, t', rfl, derived⟩ := contains
  have orderedBlock := ordered.right.left
  refine ⟨block, fun t member => ?_, orderedBlock, covers_of_derives derived orderedBlock⟩
  exact List.mem_append_right _ (List.mem_append_left _ member)

section Contains

variable {ts : List Token} {n : Expr} (contains : Contains ts n) (ordered : Ordered ts)

include contains ordered

theorem Contains.le_start {offset : Int} (behind : ∀ t ∈ ts, offset ≤ t.span.start) :
    offset ≤ n.span.start := by
  obtain ⟨block, among, -, covers⟩ := contains.covers ordered
  exact covers.le_start fun t member => behind t (among t member)

theorem Contains.stop_le {offset : Int} (before : ∀ t ∈ ts, t.span.stop ≤ offset) :
    n.span.stop ≤ offset := by
  obtain ⟨block, among, -, covers⟩ := contains.covers ordered
  exact covers.stop_le fun t member => before t (among t member)

/-- A node lies in the text that its tokens come from. -/
theorem Contains.liesIn {source : String} (among : ∀ t ∈ ts, t.span.LiesIn source) :
    n.span.LiesIn source where
  nonneg := contains.le_start ordered fun t member => (among t member).nonneg
  proper := by
    obtain ⟨block, -, orderedBlock, covers⟩ := contains.covers ordered
    exact covers.start_lt_stop orderedBlock
  inside := contains.stop_le ordered fun t member => (among t member).inside

end Contains

end Grammar

/-! ## Parts of a node -/

/-- The expression stands before the other, without overlap. -/
def Expr.Before (a b : Expr) : Prop :=
  a.span.stop ≤ b.span.start

/-- The parts of the node lie inside it, one behind the other. The operands of an operation have the
operator between them, and the arguments of a call begin behind its beginning and end before its
end. -/
inductive Expr.Nested : Expr → Prop
  | number (value : Int) (span : Span) : Nested (.number value span)
  | string (raw : String) (span : Span) : Nested (.string raw span)
  | var (index : Int) (name : String) (span : Span) : Nested (.var index name span)
  | binary {operator : Operator} {sign span : Span} {left right : Expr} :
    left.span.Inside span → sign.Inside span → right.span.Inside span →
    left.span.stop ≤ sign.start → sign.start < sign.stop → sign.stop ≤ right.span.start →
    Nested (.binary operator sign left right span)
  | call {arguments : List Expr} {span : Span} (name : String) :
    (∀ a ∈ arguments, span.start < a.span.start ∧ a.span.stop < span.stop) →
    arguments.Pairwise Expr.Before → Nested (.call name arguments span)

/-- A wider span keeps the parts of a node inside. -/
theorem Expr.Nested.withSpan {e : Expr} {span : Span} (nested : e.Nested)
    (inside : e.span.Inside span) : (e.withSpan span).Nested := by
  have widen {part : Span} (within : part.Inside e.span) : part.Inside span :=
    ⟨Int.le_trans inside.start within.start, Int.le_trans within.stop inside.stop⟩
  cases nested with
  | number | string | var => constructor
  | binary left sign right before proper behind =>
    exact .binary (widen left) (widen sign) (widen right) before proper behind
  | call name strictly apart =>
    refine .call name (fun a member => ?_) apart
    obtain ⟨behind, before⟩ := strictly a member
    exact ⟨Int.lt_of_le_of_lt inside.start behind, Int.lt_of_lt_of_le before inside.stop⟩

namespace Grammar

open Token (Ordered Covers)

/-- An operation has its sign between its operands. -/
theorem nested_operation {c c' : Category} {t t₁ t₂ : VariableTable} {ts us : List Token}
    {operator : Operator} {left right : Expr} (sign : Token) (first : Derives c t ts left t₁)
    (second : Derives c' t₁ us right t₂) (ordered : Ordered (ts ++ sign :: us)) :
    (operation operator sign.span left right).Nested := by
  have covers := covers_of_derives first ordered.left
  have covers' := covers_of_derives second (ordered.right.sublist (List.sublist_cons_self sign us))
  have whole : Covers (ts ++ sign :: us) (left.span + right.span) :=
    .add [sign] covers covers' ordered
  obtain ⟨-, later, across⟩ := List.pairwise_append.mp ordered.apart
  refine .binary (whole.inside covers (fun t member => ?_) ordered)
    (whole.inside_of_mem ordered ?_) (whole.inside covers' (fun t member => ?_) ordered)
    (covers.stop_le fun t member => across t member sign List.mem_cons_self)
    (ordered.right.proper sign List.mem_cons_self).2
    (covers'.le_start (List.pairwise_cons.mp later).1)
  · exact List.mem_append_left _ member
  · exact List.mem_append_right _ List.mem_cons_self
  · exact List.mem_append_right _ (List.mem_cons_of_mem _ member)

/-- What stands between parentheses begins behind the first and ends before the second. -/
theorem strictly_inside (front : List Token) {ts : List Token} {opening closing : Token}
    {span : Span} {n : Expr}
    (covers : Covers (front ++ opening :: (ts ++ [closing])) span)
    (ordered : Ordered (front ++ opening :: (ts ++ [closing]))) (contains : Contains ts n) :
    span.start < n.span.start ∧ n.span.stop < span.stop := by
  have opens : opening ∈ front ++ opening :: (ts ++ [closing]) := by simp
  have closes : closing ∈ front ++ opening :: (ts ++ [closing]) := by simp
  obtain ⟨behind, rest⟩ := List.pairwise_cons.mp ordered.right.apart
  have orderedInside : Ordered ts :=
    ordered.right.sublist ((List.sublist_append_left ts _).cons opening)
  have begins : opening.span.stop ≤ n.span.start :=
    contains.le_start orderedInside fun t member => behind t (List.mem_append_left _ member)
  have ends : n.span.stop ≤ closing.span.start :=
    contains.stop_le orderedInside fun t member =>
      (List.pairwise_append.mp rest).2.2 t member closing List.mem_cons_self
  have first := covers.inside_of_mem ordered opens
  have last := covers.inside_of_mem ordered closes
  have properOpening := ordered.proper opening opens
  have properClosing := ordered.proper closing closes
  exact ⟨by have := first.start; omega, by have := last.stop; omega⟩

/-- Arguments stand one behind the other. -/
theorem pairwise_of_derivesArguments {t t' : VariableTable} {ts : List Token} {es : List Expr} :
    DerivesArguments t ts es t' → Ordered ts → es.Pairwise Expr.Before
  | .first _, _ => List.pairwise_singleton ..
  | .next comma front last, ordered => by
    obtain ⟨-, later, across⟩ := List.pairwise_append.mp ordered.apart
    refine List.pairwise_append.mpr ⟨pairwise_of_derivesArguments front ordered.left,
      List.pairwise_singleton .., fun a inFront b isLast => ?_⟩
    have proper := ordered.right.proper ⟨.comma, comma⟩ List.mem_cons_self
    have before : a.span.stop ≤ comma.start :=
      (contains_of_derivesArguments front inFront .self).stop_le ordered.left
        fun t member => across t member ⟨.comma, comma⟩ List.mem_cons_self
    have behind : comma.stop ≤ b.span.start := by
      rw [List.mem_singleton.mp isLast]
      exact (Contains.whole last).le_start (ordered.right.sublist (List.sublist_cons_self ..))
        (List.pairwise_cons.mp later).1
    unfold Expr.Before
    dsimp only at proper
    omega

/-- The parts of a derived tree lie inside it. -/
theorem nested_of_derives {c : Category} {t t' : VariableTable} {ts : List Token} {e : Expr} :
    Derives c t ts e t' → Ordered ts → e.Nested
  | .sum derived, ordered | .product derived, ordered | .primary derived, ordered =>
    nested_of_derives derived ordered
  | .assignment sign left right, ordered => nested_operation ⟨_, sign⟩ left right ordered
  | .additive sign _ left right, ordered => nested_operation ⟨_, sign⟩ left right ordered
  | .multiplicative sign _ left right, ordered => nested_operation ⟨_, sign⟩ left right ordered
  | .number value span, _ => .number value span
  | .string raw span, _ => .string raw span
  | .name name span, _ => .var _ name span
  | .bareCall name .., _ => .call name (List.forall_mem_nil _) .nil
  | .call name span opening closing derived, ordered => by
    have whole := covers_of_derives (.call name span opening closing derived) ordered
    refine .call name (fun a member => ?_)
      (pairwise_of_derivesArguments derived
        (ordered.sublist (((List.sublist_append_left ..).cons _).cons _)))
    exact strictly_inside [⟨.identifier name, span⟩] whole ordered
      (contains_of_derivesArguments derived member .self)
  | .group opening closing derived, ordered => by
    have whole := Covers.add _ (.one ⟨.openParen, opening⟩) (.one ⟨.closeParen, closing⟩) ordered
    have inside := strictly_inside [] whole ordered (.whole derived)
    have nested := nested_of_derives derived
      (ordered.sublist ((List.sublist_append_left ..).cons _))
    exact nested.withSpan ⟨Int.le_of_lt inside.1, Int.le_of_lt inside.2⟩

/-- The statements of a program stand one behind the other. -/
theorem pairwise_of_derivesProgram {t : VariableTable} {ts : List Token} {statements : List Expr}
    (derived : DerivesProgram ts statements t) (ordered : Ordered ts) :
    statements.Pairwise Expr.Before := by
  induction derived with
  | empty => exact .nil
  | @statement t t' ts us statements e semicolon program last ih =>
    obtain ⟨-, -, across⟩ := List.pairwise_append.mp ordered.apart
    refine List.pairwise_append.mpr ⟨ih ordered.left, List.pairwise_singleton ..,
      fun a earlier b isLast => ?_⟩
    rw [List.mem_singleton.mp isLast]
    refine (Contains.whole last).le_start ordered.right.left fun u inLast => ?_
    exact (contains_of_derivesProgram program earlier .self).stop_le ordered.left fun t member =>
      across t member u (List.mem_append_left _ inLast)

end Grammar

namespace Parsing

open Grammar

/-- Spans nest like the tree. Take a program that is read from a text. Every node, at any depth,
covers a piece of the text that is not empty. The spans of its parts lie inside its own: the left
operand ends before the sign of the operator begins, and the sign ends before the right operand
begins; the arguments of a call begin behind the beginning of the call and end before its end, one
behind the other without overlap. So do the statements of the program stand. -/
theorem nested_of_ofSource {source : String} {program : Program}
    (parsed : (ofSource source).result = .ok program) :
    (∀ e ∈ program.statements, ∀ n : Expr, n.Within e →
      (0 ≤ n.span.start ∧ n.span.start < n.span.stop ∧ n.span.stop ≤ source.length) ∧ n.Nested) ∧
    program.statements.Pairwise Expr.Before := by
  obtain ⟨clean, derived⟩ := result_eq_ok_iff.mp parsed
  have ordered := Lexer.ordered_tokensOf clean
  refine ⟨fun e member n node => ?_, pairwise_of_derivesProgram derived ordered⟩
  have contains := contains_of_derivesProgram derived member node
  have lies := contains.liesIn ordered fun t => Lexer.liesIn_of_mem_tokensOf
  obtain ⟨before, block, after, t, t', split, derived⟩ := contains
  rw [split] at ordered
  exact ⟨⟨lies.nonneg, lies.proper, lies.inside⟩, nested_of_derives derived ordered.right.left⟩

/-- A sum in parentheses as an argument, and an assignment in parentheses as a statement. -/
theorem nested_of_ofSource_of_groups :
    let sum : Expr := .binary .add ⟨5, 6⟩ (.var 0 "a" ⟨3, 4⟩) (.number 1 ⟨7, 8⟩) ⟨2, 9⟩
    let call : Expr := .call "f" [sum, .var 1 "b" ⟨11, 12⟩] ⟨0, 13⟩
    let assignment : Expr :=
      .binary .assign ⟨18, 19⟩ (.var 2 "c" ⟨16, 17⟩) (.number 2 ⟨20, 21⟩) ⟨15, 22⟩
    (ofSource "f((a + 1), b); (c = 2);").result =
        .ok ⟨[call, assignment], ⟨["a", "b", "c"]⟩⟩ ∧
      sum.Nested ∧ call.Nested ∧ assignment.Nested ∧ [call, assignment].Pairwise Expr.Before := by
  intro sum call assignment
  have parsed : (ofSource "f((a + 1), b); (c = 2);").result =
      .ok ⟨[call, assignment], ⟨["a", "b", "c"]⟩⟩ := by cbv
  obtain ⟨nodes, apart⟩ := nested_of_ofSource parsed
  have first : call ∈ [call, assignment] := List.mem_cons_self
  have second : assignment ∈ [call, assignment] := List.mem_cons_of_mem _ List.mem_cons_self
  exact ⟨parsed, (nodes call first sum (.argument List.mem_cons_self .self)).2,
    (nodes call first call .self).2, (nodes assignment second assignment .self).2, apart⟩

end Parsing

end Reckon
