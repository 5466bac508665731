import Reckon.Proofs.Parsing.Parentheses
import Reckon.Proofs.Parsing.VariableCount

/-!
# Printed programs can be read back

The printed form of a program separates arguments by commas and statements by line breaks, and both
may stand in its literals as well. Still nothing is lost but the places in the text: a form tells by
its first character what it is a form of, a literal ends at the first quote that is not escaped, and
numbers and names end where a character follows that is in none of them.

`Expr.Written` lists the forms, and every tree of a source text has one
(`Grammar.legible_of_derives`). `Expr.Written.unambiguous` reads a form off the beginning of any
text that goes on with a separator.

Main statement: two programs that were read from texts print alike if and only if they have the same
variables and the same statements up to spans (`Program.print_eq_print_iff`).
-/

namespace Reckon

open Grammar

/-! ## Texts with a known end -/

/-- The characters that go between forms or close them. -/
def separators : List Char :=
  [' ', ')', ',', ']', '\n']

/-- A text that is empty or begins with a character that goes between forms. -/
def Separated (text : List Char) : Prop :=
  ∀ c ∈ text.head?, c ∈ separators

section

variable {rest rest' : List Char}

theorem Separated.cons {c : Char} (listed : c ∈ separators) (text : List Char) :
    Separated (c :: text) := by
  intro d head
  cases head
  exact listed

theorem Separated.not_isNameChar (separated : Separated rest) :
    ∀ c ∈ rest.head?, Lexer.isNameChar c = false := by
  intro c head
  have listed := separated c head
  simp only [separators, List.mem_cons, List.not_mem_nil, or_false] at listed
  rcases listed with rfl | rfl | rfl | rfl | rfl <;> rfl

theorem takeWhile_append_of_stops {p : Char → Bool} {text : List Char}
    (inside : ∀ c ∈ text, p c = true) (stops : ∀ c ∈ rest.head?, p c = false) :
    (text ++ rest).takeWhile p = text := by
  rw [List.takeWhile_append_of_pos inside]
  cases rest with
  | nil => exact List.append_nil text
  | cons c rest =>
    rw [List.takeWhile_cons_of_neg, List.append_nil]
    rw [stops c rfl]
    decide

/-- Two texts that begin with characters of a class and go on with one outside of it fall into the
same two parts. -/
theorem append_inj_of_class {p : Char → Bool} {text text' : List Char}
    (inside : ∀ c ∈ text, p c = true) (inside' : ∀ c ∈ text', p c = true)
    (stops : ∀ c ∈ rest.head?, p c = false) (stops' : ∀ c ∈ rest'.head?, p c = false)
    (same : text ++ rest = text' ++ rest') : text = text' ∧ rest = rest' := by
  have texts : text = text' := by
    rw [← takeWhile_append_of_stops inside stops, same, takeWhile_append_of_stops inside' stops']
  subst texts
  exact ⟨rfl, List.append_cancel_left same⟩

/-- Decimal digits that end before a separator tell their number. -/
theorem toDigits_append_inj {n n' : Nat} (separated : Separated rest)
    (separated' : Separated rest')
    (same : Nat.toDigits 10 n ++ rest = Nat.toDigits 10 n' ++ rest') : n = n' ∧ rest = rest' := by
  have inside (k : Nat) : ∀ c ∈ Nat.toDigits 10 k, Lexer.isNameChar c = true := fun _ member =>
    Assembly.isNameChar_of_isDigit (Assembly.isDigit_of_mem_toDigits member)
  obtain ⟨digits, rests⟩ := append_inj_of_class (inside n) (inside n') separated.not_isNameChar
    separated'.not_isNameChar same
  refine ⟨?_, rests⟩
  rw [← @Nat.ofDigitChars_ten_toDigits n, digits, Nat.ofDigitChars_ten_toDigits]

/-- Names that end before other characters are told apart. -/
theorem name_append_inj {name name' : String} {c c' : Char} (isName : isName name.toList = true)
    (isName' : Reckon.isName name'.toList = true) (stop : Lexer.isNameChar c = false)
    (stop' : Lexer.isNameChar c' = false)
    (same : name.toList ++ c :: rest = name'.toList ++ c' :: rest') :
    name = name' ∧ c = c' ∧ rest = rest' := by
  have stops (d : Char) (text : List Char) (stop : Lexer.isNameChar d = false) :
      ∀ b ∈ (d :: text).head?, Lexer.isNameChar b = false := by
    intro b head
    cases head
    exact stop
  obtain ⟨names, rests⟩ := append_inj_of_class (Assembly.isNameChar_of_isName isName)
    (Assembly.isNameChar_of_isName isName') (stops c rest stop) (stops c' rest' stop') same
  obtain ⟨chars, rests⟩ := List.cons.inj rests
  exact ⟨String.toList_inj.mp names, chars, rests⟩

/-- A literal ends at the quote where the lexer ends it. -/
theorem raw_append_inj {raw raw' : String} (isRaw : isRaw raw.toList = true)
    (isRaw' : Reckon.isRaw raw'.toList = true)
    (same : raw.toList ++ '\x22' :: rest = raw'.toList ++ '\x22' :: rest') :
    raw = raw' ∧ rest = rest' := by
  have first := Lexer.stringBody_append isRaw rest
  rw [same, Lexer.stringBody_append isRaw' rest'] at first
  obtain ⟨raws, rests⟩ := Prod.mk.inj (Option.some.inj first)
  exact ⟨String.toList_inj.mp raws.symm, rests.symm⟩

end

/-! ## Rows of forms -/

/-- Whatever is written to the same text, up to what follows a separator, is the same. -/
def Unambiguous {α : Type} (Writes : α → List Char → Prop) (Same : α → α → Prop) (a : α)
    (text : List Char) : Prop :=
  ∀ ⦃a' text' rest rest'⦄, Writes a' text' → Separated rest → Separated rest' →
    text ++ rest = text' ++ rest' → Same a a' ∧ rest = rest'

section

variable {α : Type} {Writes : α → List Char → Prop} {Same : α → α → Prop} {as as' : List α}
  {texts texts' : List (List Char)} {rest rest' : List Char}

theorem separated_flatMap {mark : Char} (listed : mark ∈ separators)
    (gap : List Char) (texts : List (List Char)) (separated : Separated rest) :
    Separated (texts.flatMap ((mark :: gap) ++ ·) ++ rest) := by
  cases texts with
  | nil => exact separated
  | cons => exact .cons listed _

/-- Forms that each follow a mark are told apart if the mark does not stand behind the last. -/
theorem flatMap_inj_of_unambiguous {mark : Char} (listed : mark ∈ separators)
    (gap : List Char) (first : List.Forall₂ (Unambiguous Writes Same) as texts)
    (second : List.Forall₂ Writes as' texts') (separated : Separated rest)
    (separated' : Separated rest') (last : rest.head? ≠ some mark)
    (last' : rest'.head? ≠ some mark)
    (same : texts.flatMap ((mark :: gap) ++ ·) ++ rest =
      texts'.flatMap ((mark :: gap) ++ ·) ++ rest') :
    List.Forall₂ Same as as' ∧ rest = rest' := by
  induction first generalizing as' texts' with
  | nil =>
    cases second with
    | nil => exact ⟨.nil, same⟩
    | cons => exact absurd (congrArg List.head? same) last
  | @cons a text as texts here _ ih =>
    cases second with
    | nil => exact absurd (congrArg List.head? same).symm last'
    | @cons a' text' as' texts' written later =>
      simp only [List.flatMap_cons, List.append_assoc] at same
      obtain ⟨alike, same⟩ := here written (separated_flatMap listed gap texts separated)
        (separated_flatMap listed gap texts' separated') (List.append_cancel_left same)
      obtain ⟨others, rests⟩ := ih later same
      exact ⟨.cons alike others, rests⟩

theorem intercalate_cons_eq (gap text : List Char) (texts : List (List Char)) :
    gap.intercalate (text :: texts) = text ++ texts.flatMap (gap ++ ·) := by
  induction texts generalizing text with
  | nil => simp
  | cons next texts ih =>
    rw [List.intercalate_cons_cons, ih, List.flatMap_cons, List.append_assoc, List.append_assoc]

/-- Forms with commas between them are told apart if no form begins as the list ends. -/
theorem intercalate_inj_of_unambiguous (close : Char) (closes : close ∈ [')', ']'])
    (opens : ∀ ⦃a text⦄, Writes a text → ∃ c tail, text = c :: tail ∧ c ≠ close)
    (first : List.Forall₂ (fun a text => Writes a text ∧ Unambiguous Writes Same a text) as texts)
    (second : List.Forall₂ Writes as' texts')
    (same : [',', ' '].intercalate texts ++ close :: rest =
      [',', ' '].intercalate texts' ++ close :: rest') :
    List.Forall₂ Same as as' ∧ rest = rest' := by
  have separator : close ∈ separators := by
    simp only [separators, List.mem_cons, List.not_mem_nil, or_false] at closes ⊢
    tauto
  have noComma : close ≠ ',' := by
    rintro rfl
    simp at closes
  have last (rest : List Char) : (close :: rest).head? ≠ some ',' := fun head =>
    noComma (Option.some.inj head)
  cases first with
  | nil =>
    cases second with
    | nil => exact ⟨.nil, (List.cons.inj same).2⟩
    | cons written =>
      obtain ⟨c, tail, rfl, other⟩ := opens written
      rw [intercalate_cons_eq] at same
      exact absurd (List.cons.inj same).1.symm other
  | @cons a text as texts here later =>
    cases second with
    | nil =>
      obtain ⟨c, tail, rfl, other⟩ := opens here.1
      rw [intercalate_cons_eq] at same
      exact absurd (List.cons.inj same).1 other
    | @cons a' text' as' texts' written others =>
      rw [intercalate_cons_eq, intercalate_cons_eq, List.append_assoc, List.append_assoc] at same
      have comma : ',' ∈ separators := by decide
      obtain ⟨alike, same⟩ := here.2 written
        (separated_flatMap comma [' '] texts (.cons separator rest))
        (separated_flatMap comma [' '] texts' (.cons separator rest')) same
      obtain ⟨pairs, rests⟩ := flatMap_inj_of_unambiguous comma [' ']
        (later.imp fun _ _ both => both.2) others
        (.cons separator rest) (.cons separator rest') (last rest) (last rest') same
      exact ⟨.cons alike pairs, (List.cons.inj rests).2⟩

end

/-! ## Forms of expressions -/

/-- The text is the form of the expression, whose parts are those of a source text. -/
inductive Expr.Written : Expr → List Char → Prop
  | number (value : Nat) (span : Span) : Written (.number value span) (Nat.toDigits 10 value)
  | string {raw : String} (span : Span) : isRaw raw.toList = true →
    Written (.string raw span) ('\x22' :: (raw.toList ++ ['\x22']))
  | var (index : Nat) {name : String} (span : Span) : isName name.toList = true →
    Written (.var index name span) (name.toList ++ '#' :: Nat.toDigits 10 index)
  | binary {operator : Operator} {left right : Expr} {text text' : List Char}
    (operatorSpan span : Span) : operator.isKnown = true → Written left text →
    Written right text' →
    Written (.binary operator operatorSpan left right span)
      ('(' :: (text ++ ' ' :: (operator.symbol.toList ++ ' ' :: (text' ++ [')']))))
  | call {name : String} {arguments : List Expr} {texts : List (List Char)} (span : Span) :
    isName name.toList = true → arguments.length = texts.length →
    (∀ pair ∈ arguments.zip texts, Written pair.1 pair.2) →
    Written (.call name arguments span)
      (name.toList ++ '(' :: ([',', ' '].intercalate texts ++ [')']))

/-- What a form is by its first character. -/
inductive Initial where
  | digit
  | quote
  | letter
  | parenthesis

/-- The first character of a form, by its kind. -/
def Initial.ofChar? (c : Char) : Option Initial :=
  if c.isDigit then some .digit
  else if c = '\x22' then some .quote
  else if c = '(' then some .parenthesis
  else if Lexer.isNameStart c then some .letter
  else none

/-- How the form of an expression begins. -/
def Expr.initial? : Expr → Option Initial
  | .number .. => some .digit
  | .string .. => some .quote
  | .var .. | .call .. => some .letter
  | .binary .. => some .parenthesis
  | .hole _ | .block _ => none

theorem Initial.ofChar?_of_isNameStart {c : Char} (starts : Lexer.isNameStart c = true) :
    Initial.ofChar? c = some .letter := by
  have noDigit : c.isDigit = false := by
    rw [← Lexer.isAsciiDigit_eq]
    exact Lexer.isAsciiDigit_eq_false starts
  have noQuote : c ≠ '\x22' := by
    rintro rfl
    cases starts
  have noParenthesis : c ≠ '(' := by
    rintro rfl
    cases starts
  rw [ofChar?, noDigit, if_neg (by decide), if_neg noQuote, if_neg noParenthesis, if_pos starts]

theorem Initial.exists_of_isName {name : List Char} (isName : isName name = true) :
    ∃ c tail, name = c :: tail ∧ Initial.ofChar? c = some .letter := by
  cases name with
  | nil => cases isName
  | cons c tail =>
    exact ⟨c, tail, rfl, ofChar?_of_isNameStart (Bool.and_eq_true_iff.mp isName).1⟩

namespace Expr.Written

variable {e e' : Expr} {text text' rest rest' : List Char}

theorem initial (written : e.Written text) :
    ∃ c tail, text = c :: tail ∧ Initial.ofChar? c = e.initial? := by
  cases written with
  | number value span =>
    obtain ⟨c, tail, digits⟩ := List.exists_cons_of_ne_nil (@Nat.toDigits_ne_nil value 10)
    have digit : c.isDigit = true := by
      refine Assembly.isDigit_of_mem_toDigits (n := value) ?_
      rw [digits]
      exact List.mem_cons_self
    refine ⟨c, tail, digits, ?_⟩
    rw [Initial.ofChar?, if_pos digit]
    rfl
  | string => exact ⟨_, _, rfl, rfl⟩
  | binary => exact ⟨_, _, rfl, rfl⟩
  | var _ _ isName | call _ isName =>
    obtain ⟨c, tail, name, letter⟩ := Initial.exists_of_isName isName
    rw [name]
    exact ⟨c, _, rfl, letter⟩

/-- Forms of different kinds differ from the first character on. -/
theorem initial_eq (written : e.Written text) (written' : e'.Written text')
    (same : text ++ rest = text' ++ rest') : e.initial? = e'.initial? := by
  obtain ⟨c, tail, rfl, first⟩ := written.initial
  obtain ⟨c', tail', rfl, first'⟩ := written'.initial
  rw [← first, ← first', (List.cons.inj same).1]

theorem opens {close : Char} (closes : Initial.ofChar? close = none) (written : e.Written text) :
    ∃ c tail, text = c :: tail ∧ c ≠ close := by
  obtain ⟨c, tail, begins, first⟩ := written.initial
  refine ⟨c, tail, begins, ?_⟩
  rintro rfl
  rw [closes] at first
  cases written <;> cases first

theorem withSpan (written : e.Written text) (span : Span) : (e.withSpan span).Written text := by
  cases written with
  | number value => exact .number value span
  | string _ raw => exact .string span raw
  | var index _ isName => exact .var index span isName
  | binary operatorSpan _ known left right => exact .binary operatorSpan span known left right
  | call _ isName length pairs => exact .call span isName length pairs

theorem call_of_forall₂ {name : String} {arguments : List Expr} {texts : List (List Char)}
    (isName : isName name.toList = true) (written : List.Forall₂ Expr.Written arguments texts)
    (span : Span) :
    (Expr.call name arguments span).Written
      (name.toList ++ '(' :: ([',', ' '].intercalate texts ++ [')'])) := by
  obtain ⟨length, pairs⟩ := List.forall₂_iff_zip.mp written
  exact .call span isName length fun pair member => pairs member

end Expr.Written

/-! ## Forms are told apart -/

theorem Operator.symbol_append_inj {operator operator' : Operator} {rest rest' : List Char}
    (known : operator.isKnown = true) (known' : operator'.isKnown = true)
    (same : operator.symbol.toList ++ rest = operator'.symbol.toList ++ rest') :
    operator = operator' ∧ rest = rest' := by
  have short (o : Operator) (known : o.isKnown = true) : o.symbol.toList.length = 1 := by
    cases o <;> first | rfl | cases known
  obtain ⟨symbols, rests⟩ := List.append_inj same ((short _ known).trans (short _ known').symm)
  refine ⟨?_, rests⟩
  cases operator with
  | other => cases known
  | _ =>
    cases operator' with
    | other => cases known'
    | _ => first | rfl | exact absurd symbols (by decide)

/-- A form at the beginning of a text tells the expression, up to spans, and where it ends. -/
theorem Expr.Written.unambiguous {e : Expr} {text : List Char} (written : e.Written text) :
    Unambiguous Expr.Written (Expr.Displaced Span.Anywhere) e text := by
  -- The first character tells the kinds apart, but for a variable and a call: there the sign behind
  -- the name does.
  induction written with
  | number value span =>
    intro e' text' rest rest' written' separated separated' same
    have initial := Expr.Written.initial_eq (.number value span) written' same
    cases written' with
    | number value' =>
      obtain ⟨rfl, rests⟩ := toDigits_append_inj separated separated' same
      exact ⟨.number _ trivial, rests⟩
    | string | var | binary | call => cases initial
  | @string raw span isRaw =>
    intro e' text' rest rest' written' separated separated' same
    have initial := Expr.Written.initial_eq (.string span isRaw) written' same
    cases written' with
    | @string raw' _ isRaw' =>
      rw [List.cons_append, List.cons_append, List.append_assoc, List.append_assoc] at same
      obtain ⟨rfl, rests⟩ := raw_append_inj isRaw isRaw' (List.cons.inj same).2
      exact ⟨.string _ trivial, rests⟩
    | number | var | binary | call => cases initial
  | @var index name span isName =>
    intro e' text' rest rest' written' separated separated' same
    have initial := Expr.Written.initial_eq (.var index span isName) written' same
    cases written' with
    | @var index' name' _ isName' =>
      rw [List.append_assoc, List.append_assoc] at same
      obtain ⟨rfl, -, same⟩ := name_append_inj isName isName' rfl rfl same
      obtain ⟨rfl, rests⟩ := toDigits_append_inj separated separated' same
      exact ⟨.var _ _ trivial, rests⟩
    | call _ isName' =>
      rw [List.append_assoc, List.append_assoc] at same
      obtain ⟨-, signs, -⟩ := name_append_inj isName isName' rfl rfl same
      cases signs
    | number | string | binary => cases initial
  | @binary operator left right text₁ text₂ operatorSpan span known writtenLeft writtenRight
      ihLeft ihRight =>
    intro e' text' rest rest' written' separated separated' same
    have initial := Expr.Written.initial_eq
      (.binary operatorSpan span known writtenLeft writtenRight) written' same
    cases written' with
    | binary _ _ known' writtenLeft' writtenRight' =>
      simp only [List.cons_append, List.append_assoc, List.nil_append, List.cons.injEq,
        true_and] at same
      obtain ⟨lefts, same⟩ := ihLeft writtenLeft' (.cons (by decide) _) (.cons (by decide) _) same
      obtain ⟨rfl, signs⟩ := Operator.symbol_append_inj known known' (List.cons.inj same).2
      obtain ⟨rights, ends⟩ := ihRight writtenRight' (.cons (by decide) _) (.cons (by decide) _)
        (List.cons.inj signs).2
      exact ⟨.binary _ trivial lefts rights trivial, (List.cons.inj ends).2⟩
    | number | string | var | call => cases initial
  | @call name arguments texts span isName length pairs ih =>
    intro e' text' rest rest' written' separated separated' same
    have initial := Expr.Written.initial_eq (.call span isName length pairs) written' same
    cases written' with
    | var _ _ isName' =>
      rw [List.append_assoc, List.append_assoc] at same
      obtain ⟨-, signs, -⟩ := name_append_inj isName isName' rfl rfl same
      cases signs
    | @call name' arguments' texts' _ isName' length' pairs' =>
      simp only [List.append_assoc, List.cons_append, List.nil_append] at same
      obtain ⟨rfl, -, same⟩ := name_append_inj isName isName' rfl rfl same
      have written : List.Forall₂ (fun e text => e.Written text ∧
          Unambiguous Expr.Written (Expr.Displaced Span.Anywhere) e text) arguments texts :=
        List.forall₂_iff_zip.mpr ⟨length, fun member => ⟨pairs _ member, ih _ member⟩⟩
      have written' : List.Forall₂ Expr.Written arguments' texts' :=
        List.forall₂_iff_zip.mpr ⟨length', fun member => pairs' _ member⟩
      obtain ⟨alike, rests⟩ := intercalate_inj_of_unambiguous ')' (by decide)
        (fun _ _ here => here.opens rfl) written written' same
      exact ⟨.call_of_forall₂ alike _ trivial, rests⟩
    | number | string | binary => cases initial

/-! ## Trees of source texts have forms -/

/-- The expression has a form. -/
def Expr.Legible (e : Expr) : Prop :=
  ∃ text, e.Written text

theorem Expr.exists_forall₂_written {es : List Expr} (legible : ∀ e ∈ es, e.Legible) :
    ∃ texts, List.Forall₂ Expr.Written es texts := by
  induction es with
  | nil => exact ⟨[], .nil⟩
  | cons e es ih =>
    obtain ⟨⟨text, here⟩, later⟩ := List.forall_mem_cons.mp legible
    obtain ⟨texts, others⟩ := ih later
    exact ⟨text :: texts, .cons here others⟩

theorem Expr.Legible.operation {left right : Expr} {operator : Operator}
    (known : operator.isKnown = true) (sign : Span) (first : left.Legible)
    (second : right.Legible) : (Grammar.operation operator sign left right).Legible := by
  obtain ⟨text, left⟩ := first
  obtain ⟨text', right⟩ := second
  exact ⟨_, .binary sign _ known left right⟩

theorem Expr.Legible.call {name : String} {arguments : List Expr}
    (isName : isName name.toList = true) (legible : ∀ e ∈ arguments, e.Legible) (span : Span) :
    (Expr.call name arguments span).Legible := by
  obtain ⟨texts, written⟩ := exists_forall₂_written legible
  exact ⟨_, .call_of_forall₂ isName written span⟩

theorem Expr.Legible.withSpan {e : Expr} (legible : e.Legible) (span : Span) :
    (e.withSpan span).Legible :=
  legible.imp fun _ written => written.withSpan span

namespace Grammar

mutual

/-- A derived tree has a form. -/
theorem legible_of_derives {c : Category} {t t' : VariableTable} {ts : List Token} {e : Expr} :
    Derives c t ts e t' → Lexical ts → e.Legible
  | .sum derived, lexical | .product derived, lexical | .primary derived, lexical =>
    legible_of_derives derived lexical
  | .assignment sign left right, lexical =>
    .operation rfl sign (legible_of_derives left lexical.left)
      (legible_of_derives right lexical.right.tail)
  | .additive sign additive left right, lexical =>
    .operation (by cases additive <;> rfl) sign (legible_of_derives left lexical.left)
      (legible_of_derives right lexical.right.tail)
  | .multiplicative sign multiplicative left right, lexical =>
    .operation (by cases multiplicative <;> rfl) sign (legible_of_derives left lexical.left)
      (legible_of_derives right lexical.right.tail)
  | .number value span, _ => ⟨_, .number value span⟩
  | .string _ span, lexical => ⟨_, .string span lexical.head⟩
  | .name _ span, lexical => ⟨_, .var _ span lexical.head⟩
  | .bareCall _ span _ closing, lexical =>
    .call lexical.head (List.forall_mem_nil _) (span + closing)
  | .call _ span _ closing derived, lexical =>
    .call lexical.head (legible_of_derivesArguments derived lexical.tail.tail.left) (span + closing)
  | .group opening closing derived, lexical =>
    (legible_of_derives derived lexical.tail.left).withSpan (opening + closing)

theorem legible_of_derivesArguments {t t' : VariableTable} {ts : List Token} {es : List Expr} :
    DerivesArguments t ts es t' → Lexical ts → ∀ e ∈ es, e.Legible
  | .first derived, lexical =>
    List.forall_mem_singleton.mpr (legible_of_derives derived lexical)
  | .next _ front last, lexical =>
    List.forall_mem_append.mpr ⟨legible_of_derivesArguments front lexical.left,
      List.forall_mem_singleton.mpr (legible_of_derives last lexical.right.tail)⟩

end

theorem legible_of_derivesProgram {ts : List Token} {statements : List Expr} {t : VariableTable}
    (derived : DerivesProgram ts statements t) (lexical : Lexical ts) :
    ∀ e ∈ statements, e.Legible := by
  induction derived with
  | empty => exact List.forall_mem_nil _
  | statement semicolon _ last ih =>
    have one := legible_of_derives last lexical.right.left
    exact List.forall_mem_append.mpr ⟨ih lexical.left, List.forall_mem_singleton.mpr one⟩

end Grammar

theorem Program.exists_forall₂_written {source : String} {program : Program}
    (parsed : (Parsing.ofSource source).result = .ok program) :
    ∃ texts, List.Forall₂ Expr.Written program.statements texts :=
  Expr.exists_forall₂_written (legible_of_derivesProgram (isProgram_of_ofSource parsed)
    fun _ => Lexer.lexical_of_mem_tokensOf)

/-! ## Printing writes the forms -/

/-- An expression printed to the text, and to nothing else. -/
def Printed.plain (text : List Char) : Printed :=
  ⟨[], some (String.ofList text)⟩

theorem Expr.printAll_of_forall₂ {es : List Expr} {texts : List (List Char)}
    (printed : List.Forall₂ (fun e text => Expr.print e = .ok (.plain text)) es texts) :
    Expr.printAll es = .ok (texts.map .plain) := by
  induction printed with
  | nil => rfl
  | cons here _ ih =>
    rw [Expr.printAll, here, ih]
    rfl

theorem Printed.ok_eq_plain {form : String} {text : List Char} (same : form.toList = text) :
    (.ok ⟨[], some form⟩ : Except SourceError Printed) = .ok (.plain text) := by
  rw [Printed.plain, ← same, String.ofList_toList]

theorem toList_toString_natCast (value : Nat) :
    (toString (value : Int)).toList = Nat.toDigits 10 value := by
  rw [Assembly.toList_toString_of_nonneg (Int.natCast_nonneg value), Int.natAbs_natCast]

theorem toList_intercalate_ofList (gap : String) (texts : List (List Char)) :
    (gap.intercalate (texts.map String.ofList)).toList = gap.toList.intercalate texts := by
  rw [String.toList_intercalate, List.map_map]
  congr 1
  exact List.map_id'' (fun _ => String.toList_ofList) texts

/-- An expression is printed to its form. -/
theorem Expr.Written.print_eq {e : Expr} {text : List Char} (written : e.Written text) :
    e.print = .ok (.plain text) := by
  induction written with
  | number value =>
    rw [Expr.print]
    exact Printed.ok_eq_plain (toList_toString_natCast value)
  | string =>
    rw [Expr.print]
    exact Printed.ok_eq_plain (by simp)
  | @var index name =>
    rw [Expr.print]
    refine Printed.ok_eq_plain ?_
    show (name ++ "#" ++ toString (index : Int)).toList = _
    rw [String.toList_append, toList_toString_natCast, String.toList_append, List.append_assoc]
    rfl
  | @binary operator _ _ text text' _ _ _ _ _ ihLeft ihRight =>
    rw [Expr.print, ihLeft, ihRight]
    refine Printed.ok_eq_plain ?_
    show ("(" ++ String.ofList text ++ " " ++ operator.symbol ++ " " ++ String.ofList text' ++
      ")").toList = _
    simp
  | @call name arguments texts _ _ length _ ih =>
    have printed := Expr.printAll_of_forall₂
      (List.forall₂_iff_zip.mpr ⟨length, fun member => ih _ member⟩)
    have shown : Printed.arguments (texts.map .plain) = .ok (texts.map String.ofList) := by
      rw [Printed.arguments_of_isSome (by simp [Printed.plain]), List.map_map]
      rfl
    have noLines : (texts.map .plain).flatMap Printed.lines = [] := by
      simp [Printed.plain]
    rw [Expr.print, printed]
    show (Printed.arguments _ >>= _) = _
    rw [shown]
    show Except.ok (Printed.mk ((texts.map .plain).flatMap Printed.lines) (some _)) = _
    rw [noLines]
    refine Printed.ok_eq_plain ?_
    rw [String.toList_append, String.toList_append, String.toList_append,
      toList_intercalate_ofList, List.append_assoc, List.append_assoc]
    rfl

/-! ## The variables of a program -/

namespace VariableTable

/-- The entry of a variable, given by its name and its slot. -/
def entry (slot : String × Nat) : List Char :=
  slot.1.toList ++ '=' :: Nat.toDigits 10 slot.2

/-- The text is the entry of a variable with a proper name. -/
def Entry (slot : String × Nat) (text : List Char) : Prop :=
  isName slot.1.toList = true ∧ text = entry slot

theorem Entry.unambiguous {slot : String × Nat} {text : List Char} (entry : Entry slot text) :
    Unambiguous Entry Eq slot text := by
  obtain ⟨isName, rfl⟩ := entry
  rintro slot' text' rest rest' ⟨isName', rfl⟩ separated separated' same
  rw [VariableTable.entry, VariableTable.entry, List.append_assoc, List.append_assoc] at same
  obtain ⟨names, -, same⟩ := name_append_inj isName isName' rfl rfl same
  obtain ⟨indices, rests⟩ := toDigits_append_inj separated separated' same
  exact ⟨Prod.ext names indices, rests⟩

theorem Entry.opens {slot : String × Nat} {text : List Char} (entry : Entry slot text) :
    ∃ c tail, text = c :: tail ∧ c ≠ ']' := by
  obtain ⟨isName, rfl⟩ := entry
  obtain ⟨c, tail, name, letter⟩ := Initial.exists_of_isName isName
  rw [VariableTable.entry, name]
  refine ⟨c, _, rfl, ?_⟩
  rintro rfl
  cases letter

theorem forall₂_entry {t : VariableTable} (isName : ∀ name ∈ t.names, isName name.toList = true) :
    List.Forall₂ Entry t.names.zipIdx (t.names.zipIdx.map entry) := by
  refine List.forall₂_map_right_iff.mpr (List.forall₂_same.mpr fun slot member => ⟨?_, rfl⟩)
  exact isName _ (List.fst_mem_of_mem_zipIdx member)

theorem toList_header (t : VariableTable) :
    t.header.toList =
      "Program [".toList ++ ([',', ' '].intercalate (t.names.zipIdx.map entry) ++ [']']) := by
  have entries : (t.names.zipIdx.map fun slot => slot.1 ++ "=" ++ toString slot.2) =
      (t.names.zipIdx.map entry).map String.ofList := by
    rw [List.map_map]
    refine List.map_congr_left fun slot _ => ?_
    rw [← String.toList_inj]
    simp [entry]
  show ("Program [" ++ ", ".intercalate (t.names.zipIdx.map fun slot =>
    slot.1 ++ "=" ++ toString slot.2) ++ "]").toList = _
  rw [entries, String.toList_append, String.toList_append, toList_intercalate_ofList,
    List.append_assoc]
  rfl

/-- The first line of a program tells its variables and where it ends. -/
theorem header_append_inj {t t' : VariableTable} {rest rest' : List Char}
    (names : ∀ name ∈ t.names, isName name.toList = true)
    (names' : ∀ name ∈ t'.names, isName name.toList = true)
    (same : t.header.toList ++ rest = t'.header.toList ++ rest') : t = t' ∧ rest = rest' := by
  have written := (forall₂_entry names).imp fun _ _ entry => And.intro entry entry.unambiguous
  simp only [toList_header, List.append_assoc, List.cons_append, List.nil_append] at same
  obtain ⟨slots, rests⟩ := intercalate_inj_of_unambiguous ']' (by decide)
    (fun _ _ entry => entry.opens) written (forall₂_entry names') (List.append_cancel_left same)
  rw [List.forall₂_eq_eq_eq] at slots
  have equal := congrArg (List.map Prod.fst) slots
  rw [List.zipIdx_map_fst, List.zipIdx_map_fst] at equal
  exact ⟨congrArg VariableTable.mk equal, rests⟩

end VariableTable

/-! ## Programs -/

namespace Program

variable {program program' : Program} {texts texts' : List (List Char)}

/-- The lines of a program with the given variables and forms of statements. -/
def form (t : VariableTable) (texts : List (List Char)) : List Char :=
  t.header.toList ++ texts.flatMap (('\n' :: "  Expr: ".toList) ++ ·)

theorem print_of_forall₂ (written : List.Forall₂ Expr.Written program.statements texts) :
    program.print = .ok (String.ofList (form program.table texts)) := by
  have printed := Expr.printAll_of_forall₂ (written.imp fun _ _ here => here.print_eq)
  have lines : (texts.map .plain).flatMap Printed.statementLines =
      (texts.map ("  Expr: ".toList ++ ·)).map String.ofList := by
    rw [List.flatMap_map, List.map_map, List.map_eq_flatMap]
    refine List.flatMap_congr fun text _ => ?_
    show ["  Expr: " ++ String.ofList text] = [String.ofList ("  Expr: ".toList ++ text)]
    rw [String.ofList_append, String.ofList_toList]
  have whole : "\n".intercalate
      (program.table.header :: (texts.map .plain).flatMap Printed.statementLines) =
        String.ofList (form program.table texts) := by
    rw [← String.toList_inj, String.toList_ofList, lines,
      ← @String.ofList_toList program.table.header, ← List.map_cons, toList_intercalate_ofList,
      intercalate_cons_eq, List.flatMap_map, form]
    rfl
  rw [print, printed, ← whole]
  rfl

theorem displaced_of_form_eq (names : ∀ name ∈ program.table.names, isName name.toList = true)
    (names' : ∀ name ∈ program'.table.names, isName name.toList = true)
    (written : List.Forall₂ Expr.Written program.statements texts)
    (written' : List.Forall₂ Expr.Written program'.statements texts')
    (same : form program.table texts = form program'.table texts') :
    program.Displaced Span.Anywhere program' := by
  obtain ⟨tables, rows⟩ := VariableTable.header_append_inj names names' same
  have nothing : Separated [] := by
    intro c head
    cases head
  rw [← List.append_nil (List.flatMap _ texts), ← List.append_nil (List.flatMap _ texts')] at rows
  obtain ⟨statements, -⟩ := flatMap_inj_of_unambiguous (by decide) _
    (written.imp fun _ _ here => here.unambiguous) written' nothing nothing (by decide) (by decide)
    rows
  exact ⟨statements, tables⟩

theorem Displaced.print_eq {S : Span → Span → Prop} (displaced : program.Displaced S program') :
    program.print = program'.print := by
  have statements := Expr.printAll_eq (displaced.statements.imp fun _ _ here => here.print_eq)
  rw [print, print, statements, displaced.table]

/-- Two programs that were read from texts print alike if and only if they have the same variables
and the same statements up to spans. -/
theorem print_eq_print_iff {source source' : String}
    (parsed : (Parsing.ofSource source).result = .ok program)
    (parsed' : (Parsing.ofSource source').result = .ok program') :
    ∃ text text', program.print = .ok text ∧ program'.print = .ok text' ∧
      (text = text' ↔ program.Displaced Span.Anywhere program') := by
  obtain ⟨texts, written⟩ := exists_forall₂_written parsed
  obtain ⟨texts', written'⟩ := exists_forall₂_written parsed'
  refine ⟨_, _, print_of_forall₂ written, print_of_forall₂ written', ?_, ?_⟩
  · intro same
    exact displaced_of_form_eq (isName_of_mem_names parsed) (isName_of_mem_names parsed') written
      written' (String.ofList_inj.mp same)
  · intro displaced
    have same := displaced.print_eq
    rw [print_of_forall₂ written, print_of_forall₂ written'] at same
    exact Except.ok.inj same

theorem print_eq_print_iff_of_literal :
    let literal := "1\\\")\n  Expr: f(\\\"2"
    let one : Program := ⟨[.call "f" [.string literal ⟨2, 22⟩] ⟨0, 23⟩], ⟨[]⟩⟩
    let moved : Program := ⟨[.call "f" [.string literal ⟨4, 24⟩] ⟨1, 26⟩], ⟨[]⟩⟩
    let two : Program :=
      ⟨[.call "f" [.string "1" ⟨2, 5⟩] ⟨0, 6⟩, .call "f" [.string "2" ⟨10, 13⟩] ⟨8, 14⟩], ⟨[]⟩⟩
    (Parsing.ofSource "f(\"1\\\")\n  Expr: f(\\\"2\");").result = .ok one ∧
      (Parsing.ofSource " f (\"1\\\")\n  Expr: f(\\\"2\"\n) ;").result = .ok moved ∧
      (Parsing.ofSource "f(\"1\"); f(\"2\");").result = .ok two ∧
      (∃ text text', one.print = .ok text ∧ moved.print = .ok text' ∧ text = text') ∧
      ∃ text text', one.print = .ok text ∧ two.print = .ok text' ∧ text ≠ text' := by
  intro literal one moved two
  have parsed : (Parsing.ofSource "f(\"1\\\")\n  Expr: f(\\\"2\");").result = .ok one := by cbv
  have parsedMoved : (Parsing.ofSource " f (\"1\\\")\n  Expr: f(\\\"2\"\n) ;").result =
      .ok moved := by cbv
  have parsedTwo : (Parsing.ofSource "f(\"1\"); f(\"2\");").result = .ok two := by cbv
  have alike : one.Displaced Span.Anywhere moved :=
    ⟨.cons (.call_of_forall₂ (.cons (.string literal trivial) .nil) "f" trivial) .nil, rfl⟩
  have unlike : ¬ one.Displaced Span.Anywhere two := by
    intro displaced
    cases displaced.statements.length_eq
  obtain ⟨text, text', printed, printed', same⟩ := print_eq_print_iff parsed parsedMoved
  obtain ⟨first, second, printedOne, printedTwo, differ⟩ := print_eq_print_iff parsed parsedTwo
  exact ⟨parsed, parsedMoved, parsedTwo, ⟨text, text', printed, printed', same.mpr alike⟩,
    first, second, printedOne, printedTwo, fun equal => unlike (differ.mp equal)⟩

end Program

end Reckon
