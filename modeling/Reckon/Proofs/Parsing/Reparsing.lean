import Reckon.Proofs.Lexing.Tiling
import Reckon.Proofs.Parsing.Rows
import Reckon.Proofs.Parsing.Slots
import Reckon.Proofs.SourceTrees

/-!
# Reading the text of a node again

A derivation depends on the places of its tokens and on the table it starts from in one way only: it
can be repeated on the same tokens at other places and from another table, and gives the same tree
with other places and slots (`Grammar.derives_of_moves`). Hence the text of a node, read as a
statement of its own, gives that node (`Parsing.ofSource_text_of_node`).
-/

namespace Reckon

open Grammar
open Token (Ordered Covers)

/-! ## Trees in a text of their own -/

mutual

/-- The expression with other places and other slots. -/
def Expr.relabel (place : Span → Span) (slot : Int → Int) : Expr → Expr
  | .number value span => .number value (place span)
  | .string raw span => .string raw (place span)
  | .var index name span => .var (slot index) name (place span)
  | .binary operator operatorSpan left right span =>
    .binary operator (place operatorSpan) (left.relabel place slot) (right.relabel place slot)
      (place span)
  | .call name arguments span => .call name (Expr.relabelAll place slot arguments) (place span)
  | .hole span => .hole (place span)
  | .block statements => .block (Expr.relabelAll place slot statements)

/-- Expressions with other places and other slots. -/
def Expr.relabelAll (place : Span → Span) (slot : Int → Int) : List Expr → List Expr
  | [] => []
  | e :: rest => e.relabel place slot :: Expr.relabelAll place slot rest

end

/-- The expression in a text that has nothing else: places are counted from its own beginning, and
slots are numbered by first occurrence. -/
def Expr.detached (e : Expr) : Expr :=
  e.relabel (Span.shift e.span.start) fun slot => e.slots.eraseDups.idxOf slot

theorem Span.shift_add {offset : Int} {a b : Span} (nonneg : 0 ≤ offset) (first : offset ≤ a.start)
    (second : offset ≤ b.start) : (a + b).shift offset = a.shift offset + b.shift offset := by
  show (union a b).shift offset = union (a.shift offset) (b.shift offset)
  have least : min (a.start - offset) (b.start - offset) = min a.start b.start - offset := by omega
  have greatest : max (a.stop - offset) (b.stop - offset) = max a.stop b.stop - offset := by omega
  rw [union, if_neg (by simp [isEof]; omega), if_neg (by simp [isEof]; omega), union,
    if_neg (by simp [isEof, shift]; omega), if_neg (by simp [isEof, shift]; omega)]
  simp only [shift, least, greatest]

namespace Expr

variable {place : Span → Span} {slot : Int → Int}

theorem relabelAll_concat (es : List Expr) (e : Expr) :
    relabelAll place slot (es ++ [e]) = relabelAll place slot es ++ [e.relabel place slot] := by
  induction es with
  | nil => rfl
  | cons e' es ih => rw [List.cons_append, relabelAll, relabelAll, ih, List.cons_append]

theorem relabel_withSpan (e : Expr) (span : Span) :
    (e.withSpan span).relabel place slot = (e.relabel place slot).withSpan (place span) := by
  cases e <;> rfl

theorem span_relabel {c : Category} {t t' : VariableTable} {ts : List Token} {e : Expr}
    (derived : Derives c t ts e t') : (e.relabel place slot).span = place e.span := by
  cases e with
  | block => cases span_withSpan derived ⟨0, 0⟩
  | number | string | var | binary | call | hole => rfl

end Expr

namespace Grammar

variable {offset : Int} {slot : Int → Int} {w u : VariableTable} {ts us : List Token}
  {vs vs' : List (Int × String)} {sign : Token}

/-- Tokens in their order behind an offset, with variables that get the slots of a final table when
they are met from another table on. -/
structure Moves (offset : Int) (slot : Int → Int) (w : VariableTable) (ts : List Token)
    (vs : List (Int × String)) (u : VariableTable) : Prop where
  ordered : Ordered ts
  nonneg : 0 ≤ offset
  behind : ∀ t ∈ ts, offset ≤ t.span.start
  slots : ∀ v ∈ vs, slot v.1 = w.names.idxOf v.2
  table : (u.resolveAll (vs.map Prod.snd)).names <+: w.names

theorem Moves.enclosed (before : List Token)
    (moves : Moves offset slot w (before ++ (ts ++ us)) vs u) : Moves offset slot w ts vs u where
  ordered := moves.ordered.sublist
    ((List.sublist_append_left ts us).trans (List.sublist_append_right ..))
  nonneg := moves.nonneg
  behind t member := moves.behind t (List.mem_append_right _ (List.mem_append_left _ member))
  slots := moves.slots
  table := moves.table

theorem Moves.left (moves : Moves offset slot w (ts ++ us) (vs ++ vs') u) :
    Moves offset slot w ts vs u where
  ordered := moves.ordered.sublist (List.sublist_append_left ..)
  nonneg := moves.nonneg
  behind t member := moves.behind t (List.mem_append_left _ member)
  slots v member := moves.slots v (List.mem_append_left _ member)
  table := by
    have all := moves.table
    rw [List.map_append, VariableTable.resolveAll_append] at all
    exact (VariableTable.prefix_resolveAll ..).trans all

theorem Moves.right (moves : Moves offset slot w (ts ++ sign :: us) (vs ++ vs') u) :
    Moves offset slot w us vs' (u.resolveAll (vs.map Prod.snd)) where
  ordered := moves.ordered.sublist (by simp)
  nonneg := moves.nonneg
  behind t member := moves.behind t (List.mem_append_right _ (List.mem_cons_of_mem _ member))
  slots v member := moves.slots v (List.mem_append_right _ member)
  table := by
    rw [← VariableTable.resolveAll_append, ← List.map_append]
    exact moves.table

/-- An operation is moved by moving its operands. -/
theorem Moves.operation {c c₁ c₂ : Category} {t t₁ t₂ : VariableTable} {l r : Expr}
    {operator : Operator} {span : Span} (left : Derives c₁ t ts l t₁)
    (right : Derives c₂ t₁ us r t₂)
    (moves : Moves offset slot w (ts ++ sign :: us) (l.references ++ r.references) u)
    (moved : Derives c u
      (ts.map (Token.shift offset) ++ sign.shift offset :: us.map (Token.shift offset))
      (operation operator (span.shift offset) (l.relabel (Span.shift offset) slot)
        (r.relabel (Span.shift offset) slot)) ((u.resolveAll l.names).resolveAll r.names)) :
    Derives c u ((ts ++ sign :: us).map (Token.shift offset))
      ((operation operator span l r).relabel (Span.shift offset) slot)
      (u.resolveAll (operation operator span l r).names) := by
  have first := (covers_of_derives left moves.left.ordered).le_start moves.left.behind
  have second := (covers_of_derives right moves.right.ordered).le_start moves.right.behind
  have names : (Grammar.operation operator span l r).names = l.names ++ r.names := List.map_append
  rw [List.map_append, List.map_cons, names, VariableTable.resolveAll_append]
  rw [Grammar.operation, Expr.span_relabel left, Expr.span_relabel right,
    ← Span.shift_add moves.nonneg first second] at moved
  exact moved

mutual

/-- A derivation from tokens can be repeated on the tokens at other places, from any table on. -/
theorem derives_of_moves {c : Category} {t t' : VariableTable} {ts : List Token} {e : Expr}
    {u : VariableTable} : Derives c t ts e t' → Moves offset slot w ts e.references u →
      Derives c u (ts.map (Token.shift offset)) (e.relabel (Span.shift offset) slot)
        (u.resolveAll e.names)
  | .sum derived, moves => .sum (derives_of_moves derived moves)
  | .assignment sign left right, moves =>
    moves.operation left right (.assignment (sign.shift offset) (derives_of_moves left moves.left)
      (derives_of_moves right moves.right))
  | .product derived, moves => .product (derives_of_moves derived moves)
  | .additive sign additive left right, moves =>
    moves.operation left right (.additive (sign.shift offset) additive
      (derives_of_moves left moves.left) (derives_of_moves right moves.right))
  | .primary derived, moves => .primary (derives_of_moves derived moves)
  | .multiplicative sign multiplicative left right, moves =>
    moves.operation left right (.multiplicative (sign.shift offset) multiplicative
      (derives_of_moves left moves.left) (derives_of_moves right moves.right))
  | .number value span, _ => .number value (span.shift offset)
  | .string raw span, _ => .string raw (span.shift offset)
  | .name (t := t) name span, moves => by
    -- Here alone the table matters: the slot is renumbered to where the name stands in `u`.
    have place : (slot (t.resolve name).1 : Int) = (u.resolve name).1 := by
      rw [VariableTable.resolve_eq_idxOf moves.table]
      exact moves.slots _ List.mem_cons_self
    rw [Expr.relabel, place]
    exact .name name (span.shift offset)
  | .bareCall name span opening closing, moves => by
    have place : (span + closing).shift offset = span.shift offset + closing.shift offset :=
      Span.shift_add moves.nonneg (moves.behind ⟨.identifier name, span⟩ (by simp))
        (moves.behind ⟨.closeParen, closing⟩ (by simp))
    rw [Expr.relabel, place]
    exact .bareCall name (span.shift offset) (opening.shift offset) (closing.shift offset)
  | .call name span opening closing derived, moves => by
    have place : (span + closing).shift offset = span.shift offset + closing.shift offset :=
      Span.shift_add moves.nonneg (moves.behind ⟨.identifier name, span⟩ (by simp))
        (moves.behind ⟨.closeParen, closing⟩ (by simp))
    have inside := derivesArguments_of_moves derived (moves.enclosed [_, _])
    rw [Expr.relabel, place, List.map_cons, List.map_cons, List.map_append]
    exact .call name (span.shift offset) (opening.shift offset) (closing.shift offset) inside
  | .group opening closing derived, moves => by
    have place : (opening + closing).shift offset = opening.shift offset + closing.shift offset :=
      Span.shift_add moves.nonneg (moves.behind ⟨.openParen, opening⟩ (by simp))
        (moves.behind ⟨.closeParen, closing⟩ (by simp))
    rw [Expr.references_withSpan] at moves
    have inside := derives_of_moves derived (moves.enclosed [_])
    rw [Expr.relabel_withSpan, place, List.map_cons, List.map_append, Expr.names,
      Expr.references_withSpan]
    exact .group (opening.shift offset) (closing.shift offset) inside

theorem derivesArguments_of_moves {t t' : VariableTable} {ts : List Token} {es : List Expr}
    {u : VariableTable} : DerivesArguments t ts es t' →
      Moves offset slot w ts (Expr.referencesAll es) u →
      DerivesArguments u (ts.map (Token.shift offset)) (Expr.relabelAll (Span.shift offset) slot es)
        (u.resolveAll ((Expr.referencesAll es).map Prod.snd))
  | .first derived, moves => by
    rw [Expr.referencesAll, Expr.referencesAll, List.append_nil] at moves ⊢
    exact .first (derives_of_moves derived moves)
  | .next comma front last, moves => by
    rw [Expr.referencesAll_concat] at moves ⊢
    rw [Expr.relabelAll_concat, List.map_append, List.map_cons, List.map_append,
      VariableTable.resolveAll_append]
    exact .next (comma.shift offset) (derivesArguments_of_moves front moves.left)
      (derives_of_moves last moves.right)

end

end Grammar

namespace Parsing

/-- The lexeme of the sign that ends a statement. -/
def semicolon : Lexeme := .sign ';' .semicolon (by simp [signs])

/-- A row of lexemes that derives an expression is, with a semicolon behind it, the text of the
program that has this statement only. -/
theorem ofSource_statement {ls : List Lexeme} {e : Expr} {table : VariableTable}
    (apart : ls.IsChain Lexeme.Apart)
    (derived : Derives .assignment .empty (Lexeme.solidFrom 0 ls) e table) :
    (ofSource (String.ofList (Lexeme.written ls) ++ ";")).result = .ok ⟨[e], table⟩ := by
  have apart' : (ls ++ [semicolon]).IsChain Lexeme.Apart := by
    refine List.isChain_append.mpr ⟨apart, .singleton _, fun l _ next first => ?_⟩
    cases first
    cases l <;> trivial
  have text : String.ofList (Lexeme.written ls) ++ ";" =
      String.ofList (Lexeme.written (ls ++ [semicolon])) := by
    rw [Lexeme.written_append, String.ofList_append]
    rfl
  obtain ⟨tokens, clean⟩ := Lexer.tokensOf_written apart'
  rw [text, result_eq_ok_iff, tokens, Lexeme.solidFrom_append]
  exact ⟨clean, .statement _ .empty derived⟩

/-- The span of a node delimits the text of the node. Take any node, at any depth, of a tree that is
read from a source text. Its span is not the end of the input, and the text it covers, read with a
semicolon behind it, is a program with exactly one statement: the node itself, with places counted
from its beginning and slots numbered by first occurrence. -/
theorem ofSource_text_of_node {source : String} {program : Program} {e n : Expr}
    (parsed : (ofSource source).result = .ok program) (member : e ∈ program.statements)
    (node : n.Within e) :
    n.span.isEof = false ∧ ∃ text, n.span.text? source = some text ∧
      (ofSource (text ++ ";")).result = .ok ⟨[n.detached], ⟨n.names.eraseDups⟩⟩ := by
  obtain ⟨clean, derived⟩ := result_eq_ok_iff.mp parsed
  obtain ⟨ls, apart, whole, tokens⟩ := Lexer.exists_lexemes_of_failureOf? clean
  obtain ⟨before, block, after, t, t', split, derived⟩ :=
    contains_of_derivesProgram derived member node
  rw [tokens] at split
  have ordered : Ordered block := by
    have all := Lexeme.ordered_solidFrom 0 ls
    rw [split] at all
    exact all.sublist ((List.sublist_append_left ..).trans (List.sublist_append_right ..))
  have covers := covers_of_derives derived ordered
  obtain ⟨as, ms, bs, rfl, row, place⟩ := Lexeme.exists_row split covers
  rw [Nat.zero_add] at row place
  have moves : Moves (Lexeme.written as).length (fun slot => n.slots.eraseDups.idxOf slot)
      (VariableTable.empty.resolveAll n.names) block n.references .empty := by
    refine ⟨ordered, Int.natCast_nonneg _, ?_, ?_, List.prefix_rfl⟩
    · rw [← row]
      exact fun t => Lexeme.le_start_of_mem_solidFrom
    · intro v reference
      rw [VariableTable.names_resolveAll_empty]
      exact congrArg Int.ofNat ((resolves_of_derives derived).idxOf_slots reference)
  have again := derives_of_moves derived moves
  rw [← row, Lexeme.shift_solidFrom] at again
  have table : VariableTable.empty.resolveAll n.names = ⟨n.names.eraseDups⟩ := by
    rw [← VariableTable.names_resolveAll_empty]
  have apart' : ms.IsChain Lexeme.Apart := apart.infix ⟨as, bs, List.append_assoc ..⟩
  refine ⟨?_, String.ofList (Lexeme.written ms), ?_, ?_⟩
  · have nonneg := covers.start_nonneg ordered
    simpa [Span.isEof] using nonneg
  · rw [place, Span.text?, whole, Lexeme.written_append, Lexeme.written_append, Span.chars?_append]
    rfl
  · rw [← table, Expr.detached, place]
    exact ofSource_statement apart' again

/-- A node in parentheses inside a call, whose variables were first met in the other order. -/
theorem ofSource_text_of_node_in_call :
    let quotient : Expr :=
      .binary .divide ⟨15, 16⟩ (.var 1 "a" ⟨13, 14⟩) (.var 0 "b" ⟨16, 17⟩) ⟨12, 18⟩
    let program : Program :=
      ⟨[.binary .assign ⟨2, 3⟩ (.var 0 "b" ⟨0, 1⟩) (.number 1 ⟨4, 5⟩) ⟨0, 5⟩,
        .call "f" [.var 0 "b" ⟨9, 10⟩, quotient] ⟨7, 19⟩], ⟨["b", "a"]⟩⟩
    (ofSource "b = 1; f(b, (a /b)) ;").result = .ok program ∧
      (ofSource "(a /b);").result = .ok
        ⟨[.binary .divide ⟨3, 4⟩ (.var 0 "a" ⟨1, 2⟩) (.var 1 "b" ⟨4, 5⟩) ⟨0, 6⟩],
          ⟨["a", "b"]⟩⟩ := by
  intro quotient program
  have parsed : (ofSource "b = 1; f(b, (a /b)) ;").result = .ok program := by cbv
  have node : quotient.Within (.call "f" [.var 0 "b" ⟨9, 10⟩, quotient] ⟨7, 19⟩) :=
    .argument (List.mem_cons_of_mem _ List.mem_cons_self) .self
  obtain ⟨-, text, covered, again⟩ :=
    ofSource_text_of_node parsed (List.mem_cons_of_mem _ List.mem_cons_self) node
  have piece : quotient.span.text? "b = 1; f(b, (a /b)) ;" = some "(a /b)" := by cbv
  cases piece.symm.trans covered
  exact ⟨parsed, again⟩

end Parsing

end Reckon
