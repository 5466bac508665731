import Reckon.Proofs.Lexing.Writing
import Reckon.Proofs.Parsing.Spans

/-!
# The lexemes under the tokens

The parser sees the tokens of a text without the blanks between them. Where the text has no lexical
error, the tokens are those of a row of lexemes that stand apart and make up the text
(`Lexer.exists_lexemes_of_failureOf?`). A part of the tokens without gap belongs to a part of the
lexemes without gap, whose text is what the span of the tokens covers (`Lexeme.exists_row`).
-/

namespace Reckon

open Token (Ordered Covers)

/-- The tokens that are no blanks. -/
def Token.solid (ts : List Token) : List Token :=
  ts.filter fun t => t.kind ≠ .whitespace

theorem Token.solid_cons (t : Token) (ts : List Token) :
    solid (t :: ts) = if t.kind = .whitespace then solid ts else t :: solid ts := by
  by_cases blank : t.kind = .whitespace
  · simp [solid, blank]
  · simp [solid, blank]

/-! ## Rows of lexemes -/

namespace Lexeme

variable {ls : List Lexeme} {start : Nat}

theorem written_append (as bs : List Lexeme) : written (as ++ bs) = written as ++ written bs :=
  List.flatMap_append

theorem length_written_cons (l : Lexeme) (ls : List Lexeme) :
    (written (l :: ls)).length = l.text.length + (written ls).length := by
  rw [written, List.flatMap_cons, List.length_append]
  rfl

theorem tokensFrom_append (start : Nat) (as bs : List Lexeme) :
    tokensFrom start (as ++ bs) =
      tokensFrom start as ++ tokensFrom (start + (written as).length) bs := by
  induction as generalizing start with
  | nil => rfl
  | cons a as ih =>
    rw [List.cons_append, tokensFrom, tokensFrom, ih, length_written_cons, Nat.add_assoc]
    rfl

theorem le_start_of_mem_tokensFrom {t : Token} (member : t ∈ tokensFrom start ls) :
    (start : Int) ≤ t.span.start := by
  induction ls generalizing start with
  | nil => cases member
  | cons l ls ih =>
    rcases List.mem_cons.mp member with rfl | later
    · exact Int.le_refl _
    · have after := ih later
      omega

theorem ordered_tokensFrom (start : Nat) (ls : List Lexeme) : Ordered (tokensFrom start ls) := by
  induction ls generalizing start with
  | nil => exact ⟨List.forall_mem_nil _, .nil⟩
  | cons l ls ih =>
    have longer := List.length_pos_iff.mpr (Lexer.text_ne_nil_of_lexeme l)
    have later := ih (start + l.text.length)
    refine ⟨List.forall_mem_cons.mpr ⟨?_, later.proper⟩, .cons ?_ later.apart⟩
    · dsimp only
      omega
    · intro t member
      exact le_start_of_mem_tokensFrom member

/-- Another beginning shifts all tokens. -/
theorem shift_tokensFrom (start offset : Nat) (ls : List Lexeme) :
    (tokensFrom (offset + start) ls).map (Token.shift offset) = tokensFrom start ls := by
  induction ls generalizing start with
  | nil => rfl
  | cons l ls ih =>
    rw [tokensFrom, tokensFrom, List.map_cons, Nat.add_assoc, ih]
    congr 1
    simp only [Token.shift, Span.shift, Token.mk.injEq, Span.mk.injEq, true_and]
    omega

/-! ## Parts of a row -/

/-- The tokens of a row of lexemes that are no blanks. -/
def solidFrom (start : Nat) (ls : List Lexeme) : List Token :=
  Token.solid (tokensFrom start ls)

theorem solidFrom_append (start : Nat) (as bs : List Lexeme) :
    solidFrom start (as ++ bs) =
      solidFrom start as ++ solidFrom (start + (written as).length) bs := by
  rw [solidFrom, tokensFrom_append, Token.solid, List.filter_append]
  rfl

theorem solidFrom_cons_of_blank {l : Lexeme} (blank : l.kind = .whitespace) :
    solidFrom start (l :: ls) = solidFrom (start + l.text.length) ls :=
  (Token.solid_cons ..).trans (if_pos blank)

theorem solidFrom_cons_of_solid {l : Lexeme} (solid : l.kind ≠ .whitespace) :
    solidFrom start (l :: ls) =
      ⟨l.kind, ⟨start, (start + l.text.length : Nat)⟩⟩ :: solidFrom (start + l.text.length) ls :=
  (Token.solid_cons ..).trans (if_neg solid)

theorem le_start_of_mem_solidFrom {t : Token} (member : t ∈ solidFrom start ls) :
    (start : Int) ≤ t.span.start :=
  le_start_of_mem_tokensFrom (List.mem_of_mem_filter member)

theorem ordered_solidFrom (start : Nat) (ls : List Lexeme) : Ordered (solidFrom start ls) :=
  (ordered_tokensFrom start ls).sublist List.filter_sublist

theorem shift_solidFrom (start : Nat) (ls : List Lexeme) :
    (solidFrom start ls).map (Token.shift start) = solidFrom 0 ls := by
  rw [solidFrom, solidFrom, ← shift_tokensFrom 0 start, Token.solid, Token.solid, List.filter_map]
  rfl

/-- Where the tokens are divided, the lexemes can be divided. -/
theorem exists_append_of_solidFrom {xs ys : List Token} (same : solidFrom start ls = xs ++ ys) :
    ∃ as bs, ls = as ++ bs ∧ solidFrom start as = xs ∧
      solidFrom (start + (written as).length) bs = ys := by
  induction ls generalizing start xs with
  | nil =>
    obtain ⟨rfl, rfl⟩ := List.append_eq_nil_iff.mp same.symm
    exact ⟨[], [], rfl, rfl, rfl⟩
  | cons l ls ih =>
    by_cases blank : l.kind = .whitespace
    · rw [solidFrom_cons_of_blank blank] at same
      obtain ⟨as, bs, rfl, left, right⟩ := ih same
      rw [Nat.add_assoc, ← length_written_cons] at right
      exact ⟨l :: as, bs, rfl, (solidFrom_cons_of_blank blank).trans left, right⟩
    · cases xs with
      | nil => exact ⟨[], l :: ls, rfl, rfl, same⟩
      | cons x xs =>
        rw [solidFrom_cons_of_solid blank] at same
        obtain ⟨rfl, later⟩ := List.cons.inj same
        obtain ⟨as, bs, rfl, left, right⟩ := ih later
        rw [Nat.add_assoc, ← length_written_cons] at right
        refine ⟨l :: as, bs, rfl, ?_, right⟩
        rw [solidFrom_cons_of_solid blank, left]

/-- The blanks before the first token can be cut off. -/
theorem exists_of_head? {t : Token} (first : (solidFrom start ls).head? = some t) :
    ∃ as bs, ls = as ++ bs ∧
      solidFrom (start + (written as).length) bs = solidFrom start ls ∧
      t.span.start = (start + (written as).length : Nat) := by
  induction ls generalizing start with
  | nil => cases first
  | cons l ls ih =>
    by_cases blank : l.kind = .whitespace
    · rw [solidFrom_cons_of_blank blank] at first ⊢
      obtain ⟨as, bs, rfl, same, begins⟩ := ih first
      rw [Nat.add_assoc, ← length_written_cons] at same begins
      exact ⟨l :: as, bs, rfl, same, begins⟩
    · rw [solidFrom_cons_of_solid blank] at first
      cases first
      exact ⟨[], l :: ls, rfl, rfl, rfl⟩

/-- The blanks behind the last token can be cut off. -/
theorem exists_of_getLast? {t : Token} (last : (solidFrom start ls).getLast? = some t) :
    ∃ as bs, ls = as ++ bs ∧ solidFrom start as = solidFrom start ls ∧
      t.span.stop = (start + (written as).length : Nat) := by
  induction ls using List.reverseRecOn with
  | nil => cases last
  | append_singleton ls l ih =>
    by_cases blank : l.kind = .whitespace
    · rw [solidFrom_append, solidFrom_cons_of_blank blank] at last ⊢
      rw [show solidFrom _ [] = [] from rfl, List.append_nil] at last ⊢
      obtain ⟨as, bs, rfl, same, ends⟩ := ih last
      exact ⟨as, bs ++ [l], List.append_assoc .., same, ends⟩
    · rw [solidFrom_append, solidFrom_cons_of_solid blank, List.getLast?_append] at last
      cases last
      refine ⟨ls ++ [l], [], (List.append_nil _).symm, rfl, ?_⟩
      rw [written_append, List.length_append, Nat.add_assoc, length_written_cons]
      rfl

/-- Where a part of the tokens without gap is divided off, the lexemes can be divided so that the
middle part has the text that the span of the tokens covers. -/
theorem exists_rows {before block after : List Token} {span : Span}
    (same : solidFrom start ls = before ++ (block ++ after)) (covers : Covers block span) :
    ∃ as ms bs, ls = as ++ (ms ++ bs) ∧ solidFrom start as = before ∧
      solidFrom (start + (written as).length) ms = block ∧
      solidFrom (start + (written as).length + (written ms).length) bs = after ∧
      span = ⟨(start + (written as).length : Nat),
        (start + (written as).length + (written ms).length : Nat)⟩ := by
  obtain ⟨as, rest, rfl, left, same⟩ := exists_append_of_solidFrom same
  obtain ⟨ms, bs, rfl, same, right⟩ := exists_append_of_solidFrom same
  obtain ⟨t, first, begins⟩ := covers.first
  obtain ⟨u, last, ends⟩ := covers.last
  rw [← same] at first last
  obtain ⟨as', ms, rfl, same', start'⟩ := exists_of_head? first
  rw [← same'] at last
  obtain ⟨ms, bs', rfl, same'', stop'⟩ := exists_of_getLast? last
  -- What is cut off on both sides of the middle part has no tokens.
  have noneBefore := List.self_eq_append_left.mp (same'.trans (solidFrom_append ..))
  have noneBehind := List.self_eq_append_right.mp (same''.trans (solidFrom_append ..))
  have length : (written (as ++ as')).length = (written as).length + (written as').length := by
    rw [written_append, List.length_append]
  refine ⟨as ++ as', ms, bs' ++ bs, by simp only [List.append_assoc], ?_, ?_, ?_, ?_⟩
  · rw [solidFrom_append, left, noneBefore, List.append_nil]
  · rw [length, ← Nat.add_assoc, same'', same', same]
  · rw [length, solidFrom_append, ← Nat.add_assoc, noneBehind, List.nil_append, ← right]
    simp only [written_append, List.length_append, Nat.add_assoc]
  · rw [length, ← Nat.add_assoc, ← start', ← stop', begins, ends]

/-- A part of the tokens without gap belongs to a part of the lexemes without gap. It has the text
that the span of the tokens covers. -/
theorem exists_row {before block after : List Token} {span : Span}
    (same : solidFrom start ls = before ++ (block ++ after)) (covers : Covers block span) :
    ∃ as ms bs, ls = as ++ (ms ++ bs) ∧ solidFrom (start + (written as).length) ms = block ∧
      span = ⟨(start + (written as).length : Nat),
        (start + (written as).length + (written ms).length : Nat)⟩ := by
  obtain ⟨as, ms, bs, split, -, row, -, place⟩ := exists_rows same covers
  exact ⟨as, ms, bs, split, row, place⟩

end Lexeme

/-! ## The lexemes of a source text -/

namespace Lexer

theorem tokens_map_token (ts : List Token) : Outcome.tokens (ts.map .token) = Token.solid ts := by
  induction ts with
  | nil => rfl
  | cons t ts ih =>
    rw [List.map_cons, Outcome.tokens, ih, Token.solid_cons]

theorem failure?_map_token (ts : List Token) : Outcome.failure? (ts.map .token) = none := by
  induction ts with
  | nil => rfl
  | cons t ts ih => exact ih

theorem exists_tokens_of_failure? {outcomes : List Outcome}
    (clean : Outcome.failure? outcomes = none) : ∃ ts : List Token, outcomes = ts.map .token := by
  fun_induction Outcome.failure? outcomes with
  | case1 => exact ⟨[], rfl⟩
  | case2 => cases clean
  | case3 t rest ih =>
    obtain ⟨ts, rfl⟩ := ih clean
    exact ⟨t :: ts, rfl⟩

/-- A text without lexical errors is a row of lexemes that stand apart. -/
theorem exists_lexemes_of_failureOf? {source : String} (clean : failureOf? source = none) :
    ∃ ls : List Lexeme, ls.IsChain Lexeme.Apart ∧ source.toList = Lexeme.written ls ∧
      tokensOf source = Lexeme.solidFrom 0 ls := by
  obtain ⟨ts, read⟩ := exists_tokens_of_failure? clean
  obtain ⟨ls, apart, text, rfl⟩ := exists_lexemes read
  refine ⟨ls, apart, text, ?_⟩
  rw [tokensOf, read, tokens_map_token]
  rfl

theorem ordered_tokensOf {source : String} (clean : failureOf? source = none) :
    Ordered (tokensOf source) := by
  obtain ⟨ls, -, -, tokens⟩ := exists_lexemes_of_failureOf? clean
  rw [tokens]
  exact Lexeme.ordered_solidFrom 0 ls

/-- The text of lexemes that stand apart has their tokens and no lexical error. -/
theorem tokensOf_written {ls : List Lexeme} (apart : ls.IsChain Lexeme.Apart) :
    tokensOf (String.ofList (Lexeme.written ls)) = Lexeme.solidFrom 0 ls ∧
      failureOf? (String.ofList (Lexeme.written ls)) = none := by
  have read := outcomes_written apart 0 0
  rw [tokensOf, failureOf?, ofSource, String.toList_ofList, read]
  exact ⟨tokens_map_token _, failure?_map_token _⟩

end Lexer

end Reckon
