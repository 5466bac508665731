import Reckon.Proofs.Lexing.Writing

/-!
# The outcomes of the lexer tile the text

One call of the lexer takes a piece of text that is not empty, whether it gives a token or fails
(`Lexer.exists_piece_of_next?`). So the outcomes of all calls, errors included, cover the text from
beginning to end without gap (`Lexer.outcomes_tile`), and each of them says something of the piece
it covers (`Lexer.Outcome.Covers`).
-/

namespace Reckon

/-! ## Tilings -/

/-- Spans that follow one another without gap from one offset to another, none of them empty. -/
inductive Tiles : Nat → Nat → List Span → Prop
  | nil (offset : Nat) : Tiles offset offset []
  | cons {start middle stop : Nat} {spans : List Span} : start < middle →
    Tiles middle stop spans → Tiles start stop (⟨start, middle⟩ :: spans)

theorem Tiles.length_le {start stop : Nat} {spans : List Span} (tiles : Tiles start stop spans) :
    start + spans.length ≤ stop := by
  induction tiles with
  | nil => exact Nat.le_refl _
  | cons nonempty _ ih =>
    rw [List.length_cons]
    omega

/-- The characters at a place in the middle of a text. -/
theorem Span.chars?_append (before piece after : List Char) :
    chars? ⟨before.length, (before.length + piece.length : Nat)⟩ (before ++ (piece ++ after)) =
      some piece := by
  have inside : ¬ ((before.length : Int) < 0) := by omega
  have first : offsetIn (before ++ (piece ++ after)).length before.length = before.length := by
    rw [offsetIn, if_neg inside, Int.toNat_natCast, List.length_append]
    omega
  have last : offsetIn (before ++ (piece ++ after)).length (before.length + piece.length : Nat) =
      before.length + piece.length := by
    rw [offsetIn, if_neg (by omega), Int.toNat_natCast, List.length_append, List.length_append]
    omega
  have covered : range? ⟨before.length, (before.length + piece.length : Nat)⟩ =
      some ((before.length : Int), ((before.length + piece.length : Nat) : Int)) :=
    if_neg (by simp [isEof])
  rw [chars?, covered, Option.map_some]
  dsimp only
  rw [first, last, List.drop_left, Nat.add_sub_cancel_left, List.take_left]

namespace Lexer

/-! ## Pieces -/

/-- What an outcome says of the text it covers: it is a token, it has the place of its error, or the
text is a row of digits too long to be read. -/
inductive Outcome.Covers (text : List Char) : Outcome → Prop
  | token (t : Token) : Covers text (.token t)
  | wrong {e : CompileError} (lexical : e.cause.isLexical = true) :
    Covers text (.failure (.compile e) e.span)
  | tooLong (span : Span) (decimal : ∀ c ∈ text, c.isDigit = true) (long : 4300 < text.length) :
    Covers text (.failure (.numeral ⟨text.length⟩) span)

theorem readNumber_eq_tooLong {digits : List Char} {error : Text.TooManyDigits}
    (read : readNumber digits = .tooLong error) :
    4300 < digits.length ∧ error = ⟨digits.length⟩ := by
  unfold readNumber at read
  split at read
  · next natural =>
    cases read
    unfold Text.readNatural at natural
    split at natural
    · cases natural
    · next long =>
      cases natural
      exact ⟨Nat.not_le.mp long, rfl⟩
  · split at read <;> cases read

/-- One call of the lexer takes a piece of the text. -/
theorem exists_piece_of_next? {l l' : Lexer} {o : Outcome} (called : l.next? = some (o, l')) :
    ∃ text, text ≠ [] ∧ l.rest = text ++ l'.rest ∧ l'.position = l.position + text.length ∧
      o.span = ⟨l.position, l'.position⟩ ∧ o.Covers text := by
  obtain ⟨first, rest, begins, rfl, behind, position⟩ := exists_scan_of_next? called
  have whole := (scanned first rest).append
  refine ⟨_, text_ne_nil first rest, ?_, position, ?_⟩
  · rw [begins, behind, whole]
  · cases read : (scan first rest).reading with
    | token kind => exact ⟨rfl, .token _⟩
    | wrong cause => exact ⟨rfl, .wrong (isLexical_of_scan read)⟩
    | tooLong error =>
      have scanned := scanned first rest
      generalize scan first rest = piece at scanned read
      cases scanned with
      | numeral digit =>
        obtain ⟨long, rfl⟩ := readNumber_eq_tooLong read
        exact ⟨rfl, .tooLong _ (forall_mem_run digit) long⟩
      | sign | blank | literal | unterminated | name | invalid => cases read

/-- Every outcome of a text is what the scanner makes of the text from some place on. -/
theorem exists_scan_of_mem_outcomes {source : String} {l : Lexer} {before : List Char} {o : Outcome}
    (whole : source.toList = before ++ l.rest) (position : before.length = l.position)
    (member : o ∈ l.outcomes) :
    ∃ front first rest, source.toList = front ++ first :: rest ∧
      o = (scan first rest).reading.outcome
        ⟨front.length, (front.length + (scan first rest).text.length : Nat)⟩ := by
  fun_induction outcomes l generalizing before with
  | case1 l ended => cases member
  | case2 l outcome l' called ih =>
    obtain ⟨first, rest, begins, read, behind, moved⟩ := exists_scan_of_next? called
    rw [begins] at whole
    rcases List.mem_cons.mp member with rfl | later
    · exact ⟨before, first, rest, whole, by rw [read, moved, position]⟩
    · have split : source.toList = before ++ (scan first rest).text ++ l'.rest := by
        rw [whole, behind, List.append_assoc, (scanned first rest).append]
      exact ih split (by rw [List.length_append, position, moved]) later

theorem tiles_outcomes (l : Lexer) :
    Tiles l.position (l.position + l.rest.length) (l.outcomes.map Outcome.span) := by
  fun_induction outcomes l with
  | case1 l ended =>
    rw [rest_of_end ended]
    exact .nil _
  | case2 l o l' called ih =>
    obtain ⟨text, nonempty, whole, position, span, -⟩ := exists_piece_of_next? called
    have longer := List.length_pos_iff.mpr nonempty
    rw [List.map_cons, span, whole, List.length_append, ← Nat.add_assoc, ← position]
    exact .cons (by omega) ih

/-- The texts of the outcomes are, one after the other, the text that was to be read. -/
theorem exists_texts {source : String} {l : Lexer} {before : List Char}
    (whole : source.toList = before ++ l.rest) (position : before.length = l.position) :
    ∃ texts : List (List Char), texts.flatten = l.rest ∧
      List.Forall₂ (fun o text => o.span.chars? source.toList = some text ∧ o.Covers text)
        l.outcomes texts := by
  fun_induction outcomes l generalizing before with
  | case1 l ended => exact ⟨[], (rest_of_end ended).symm, .nil⟩
  | case2 l o l' called ih =>
    obtain ⟨text, -, split, moved, span, covers⟩ := exists_piece_of_next? called
    rw [split] at whole
    have later : source.toList = before ++ text ++ l'.rest := by rw [whole, List.append_assoc]
    obtain ⟨texts, rest, all⟩ := ih later (by rw [List.length_append, position, moved])
    refine ⟨text :: texts, ?_, .cons ⟨?_, covers⟩ all⟩
    · rw [List.flatten_cons, rest, split]
    · rw [span, whole, moved, ← position]
      exact Span.chars?_append before text l'.rest

/-! ## Neighbours -/

/-- Not two rows of blanks side by side, nor two numbers. -/
def Outcome.Unmerged (o p : Outcome) : Prop :=
  ∀ t u, o = .token t → p = .token u →
    ¬ (t.kind = .whitespace ∧ u.kind = .whitespace) ∧
      ∀ m n, ¬ (t.kind = .number m ∧ u.kind = .number n)

theorem kind_of_sign {c : Char} {kind : Token.Kind} (listed : (c, kind) ∈ signs) :
    kind ≠ .whitespace ∧ ∀ n, kind ≠ .number n := by
  simp only [signs, List.mem_cons, List.not_mem_nil, or_false, Prod.mk.injEq] at listed
  rcases listed with ⟨-, rfl⟩ | ⟨-, rfl⟩ | ⟨-, rfl⟩ | ⟨-, rfl⟩ | ⟨-, rfl⟩ | ⟨-, rfl⟩ | ⟨-, rfl⟩ |
    ⟨-, rfl⟩ | ⟨-, rfl⟩ <;> simp

theorem unmerged_of_apart {a b : Lexeme} (apart : a.Apart b) (s s' : Span) :
    Outcome.Unmerged (.token ⟨a.kind, s⟩) (.token ⟨b.kind, s'⟩) := by
  intro t u isToken isToken'
  cases isToken
  cases isToken'
  constructor
  · rintro ⟨first, second⟩
    cases a with
    | blank =>
      cases b with
      | blank => exact apart
      | sign c kind listed => exact (kind_of_sign listed).1 second
      | numeral | name | literal => cases second
    | sign c kind listed => exact (kind_of_sign listed).1 first
    | numeral | name | literal => cases first
  · rintro m n ⟨first, second⟩
    cases a with
    | numeral =>
      cases b with
      | numeral => exact apart
      | sign c kind listed => exact (kind_of_sign listed).2 n second
      | blank | name | literal => cases second
    | sign c kind listed => exact (kind_of_sign listed).2 m first
    | blank | name | literal => cases first

/-- What two calls of the lexer in a row give is not merged. -/
theorem unmerged_of_next? {l l' l'' : Lexer} {o p : Outcome} (called : l.next? = some (o, l'))
    (calledAgain : l'.next? = some (p, l'')) : o.Unmerged p := by
  intro t u isToken isToken'
  subst isToken isToken'
  obtain ⟨a, rfl, -, -, ends⟩ := exists_lexeme_of_next? called
  obtain ⟨b, rfl, begins, -⟩ := exists_lexeme_of_next? calledAgain
  rw [begins, List.head?_append_of_ne_nil _ (text_ne_nil_of_lexeme b)] at ends
  exact unmerged_of_apart (apart_iff.mpr ends) _ _ _ _ rfl rfl

theorem isChain_outcomes (l : Lexer) : l.outcomes.IsChain Outcome.Unmerged := by
  fun_induction outcomes l with
  | case1 l ended => exact .nil
  | case2 l o l' called ih =>
    refine List.isChain_cons.mpr ⟨fun p second => ?_, ih⟩
    cases calledAgain : l'.next? with
    | none =>
      rw [outcomes_of_end calledAgain] at second
      cases second
    | some next =>
      rw [outcomes_of_next? calledAgain] at second
      cases second
      exact unmerged_of_next? called calledAgain

/-- The outcomes of all calls on a text tile it: they begin at its beginning, each begins where the
one before it ends and none is empty, and they end at its end. So their texts make up the text, and
there are no more of them than it has characters. Tokens next to each other are neither both blanks
nor both numbers. -/
theorem outcomes_tile (source : String) :
    let outcomes := (ofSource source).outcomes
    Tiles 0 source.length (outcomes.map Outcome.span) ∧
      (∃ texts : List (List Char), texts.flatten = source.toList ∧
        List.Forall₂ (fun o text => o.span.chars? source.toList = some text ∧ o.Covers text)
          outcomes texts) ∧
      outcomes.length ≤ source.length ∧ outcomes.IsChain Outcome.Unmerged := by
  have tiles : Tiles 0 source.length ((ofSource source).outcomes.map Outcome.span) := by
    have all := tiles_outcomes (ofSource source)
    rwa [ofSource, Nat.zero_add, String.length_toList] at all
  have few := tiles.length_le
  rw [List.length_map, Nat.zero_add] at few
  have texts := exists_texts (l := ofSource source) (List.nil_append source.toList).symm rfl
  exact ⟨tiles, texts, few, isChain_outcomes _⟩

end Lexer

end Reckon
