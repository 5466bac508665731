import Mathlib.Algebra.Group.Nat.Even
import Mathlib.Data.List.Chain
import Reckon.Proofs.Assembly.PlainText

/-!
# Tokens as they are written

A lexeme is the text of one token. `Lexeme` says which texts there are, in terms of characters and
without the lexer: signs, numerals, names, blanks and string literals. `Lexeme.Apart` says which of
them may stand side by side without running together.

* `Lexer.scan_lexeme`: a lexeme is read as its token, whatever follows that does not extend it.
* `Lexer.exists_lexeme_of_scan`: what is read as a token is a lexeme that is not extended.
* `Lexer.drain_written`: lexemes written one after the other are read as their tokens.
* `Lexer.exists_lexemes`: every text without lexical error is such a row of lexemes.
-/

namespace Reckon

/-! ## Raw text of string literals -/

/-- The number of backslashes at the end of a text, where `before` of them stand in front of it. -/
def backslashes (before : Nat) (cs : List Char) : Nat :=
  cs.foldl (fun count c => if c = '\\' then count + 1 else 0) before

/-- A text that ends at a closing quote and not before, where `before` backslashes stand in front of
it: each quote inside is escaped by an odd number of backslashes, and those at the end are
paired. -/
structure Closed (before : Nat) (raw : List Char) : Prop where
  escaped : ∀ front back, raw = front ++ '\x22' :: back → Odd (backslashes before front)
  paired : Even (backslashes before raw)

theorem closed_nil {before : Nat} : Closed before [] ↔ Even before := by
  constructor
  · exact Closed.paired
  · intro even
    refine ⟨fun front back same => ?_, even⟩
    cases front <;> cases same

theorem closed_cons {before : Nat} {c : Char} {cs : List Char} :
    Closed before (c :: cs) ↔
      (c = '\x22' → Odd before) ∧ Closed (if c = '\\' then before + 1 else 0) cs := by
  constructor
  · intro closed
    refine ⟨fun quote => closed.escaped [] cs (by rw [quote]; rfl), fun front back same => ?_,
      closed.paired⟩
    exact closed.escaped (c :: front) back (by rw [same]; rfl)
  · intro ⟨here, later⟩
    refine ⟨fun front back same => ?_, later.paired⟩
    cases front with
    | nil =>
      cases same
      exact here rfl
    | cons d front =>
      cases same
      exact later.escaped front back rfl

/-- The character after a single backslash ends the row of backslashes, unless it is one itself. -/
theorem closed_cons_of_plain {before : Nat} {c : Char} {cs : List Char} (notQuote : c ≠ '\x22')
    (notBackslash : c ≠ '\\') : Closed before (c :: cs) ↔ Closed 0 cs := by
  rw [closed_cons, if_neg notBackslash]
  exact and_iff_right fun quote => absurd quote notQuote

/-- The raw text of a string literal, as it is scanned, is text that ends at a closing quote. -/
theorem closed_iff_isRaw {before : Nat} {raw : List Char} (even : Even before) :
    Closed before raw ↔ isRaw raw = true := by
  fun_induction isRaw raw generalizing before with
  | case1 => exact closed_nil.trans (iff_of_true even rfl)
  | case2 =>
    rw [closed_cons, if_pos rfl, closed_nil, Nat.even_add_one]
    exact iff_of_false (fun closed => closed.2 even) Bool.false_ne_true
  | case3 rest ih =>
    rw [closed_cons, if_pos rfl, closed_cons, if_neg (by decide), ih (by decide)]
    exact ⟨fun closed => closed.2.2,
      fun raw => ⟨fun quote => absurd quote (by decide), fun _ => even.add_one, raw⟩⟩
  | case4 rest ih =>
    have again : Even (before + 1 + 1) := even.add_one.add_one
    rw [closed_cons, if_pos rfl, closed_cons, if_pos rfl, ih again]
    have plain : ∀ count : Nat, '\\' = '\x22' → Odd count := fun _ quote => absurd quote (by decide)
    exact ⟨fun closed => closed.2.2, fun raw => ⟨plain _, plain _, raw⟩⟩
  | case5 c rest notLast notQuoted notDoubled ih =>
    rw [Bool.and_eq_true, ← @ih 0 (by decide), closed_cons, bne_iff_ne]
    have quoteless : (c = '\x22' → Odd before) ↔ c ≠ '\x22' :=
      ⟨fun escaped quote => Nat.not_odd_iff_even.mpr even (escaped quote),
        fun notQuote quote => absurd quote notQuote⟩
    rw [quoteless]
    by_cases backslash : c = '\\'
    · cases rest with
      | nil => exact absurd rfl (notLast backslash)
      | cons d rest =>
        have notQuote : d ≠ '\x22' := fun quote => notQuoted rest backslash (by rw [quote])
        have notBackslash : d ≠ '\\' := fun other => notDoubled rest backslash (by rw [other])
        rw [closed_cons_of_plain notQuote notBackslash, closed_cons_of_plain notQuote notBackslash]
    · rw [if_neg backslash]

/-! ## Lexemes -/

/-- The operators and delimiters. -/
def signs : List (Char × Token.Kind) :=
  [('+', .plus), ('-', .minus), ('*', .star), ('/', .slash), ('=', .assign), (';', .semicolon),
    ('(', .openParen), (')', .closeParen), (',', .comma)]

/-- The blanks. -/
def blanks : List Char := [' ', '\t', '\n', '\r', '\x0c', '\x0b']

/-- The text of a token. -/
inductive Lexeme where
  /-- An operator or a delimiter. -/
  | sign (c : Char) (kind : Token.Kind) (listed : (c, kind) ∈ signs)
  /-- Decimal digits, leading zeros included. -/
  | numeral (digits : List Char) (nonempty : digits ≠ [])
    (decimal : ∀ c ∈ digits, c.isDigit = true) (short : digits.length ≤ 4300)
    (small : Nat.ofDigitChars 10 digits 0 ≤ 2 ^ 31 - 1)
  /-- A letter or low line, and then letters, low lines and digits. -/
  | name (first : Char) (more : List Char) (begins : first.isAlpha = true ∨ first = '_')
    (continues : ∀ c ∈ more, c.isAlphanum = true ∨ c = '_')
  /-- A row of blanks. -/
  | blank (row : List Char) (nonempty : row ≠ []) (blank : ∀ c ∈ row, c ∈ blanks)
  /-- A string literal by the text between its quotes. -/
  | literal (raw : List Char) (closed : Closed 0 raw)

namespace Lexeme

/-- The characters of a lexeme. -/
def text : Lexeme → List Char
  | sign c _ _ => [c]
  | numeral digits .. => digits
  | name first more _ _ => first :: more
  | blank row .. => row
  | literal raw _ => '\x22' :: raw ++ ['\x22']

/-- What a lexeme is as a token. -/
def kind : Lexeme → Token.Kind
  | sign _ kind _ => kind
  | numeral digits .. => .number (Nat.ofDigitChars 10 digits 0)
  | name first more _ _ => .identifier (String.ofList (first :: more))
  | blank .. => .whitespace
  | literal raw _ => .string (String.ofList raw)

/-- The second lexeme may stand right behind the first. -/
def Apart : Lexeme → Lexeme → Prop
  | blank .., blank .. => False
  | numeral .., numeral .. => False
  | name .., name .. => False
  | name .., numeral .. => False
  | _, _ => True

/-- The text of a row of lexemes. -/
def written (ls : List Lexeme) : List Char :=
  ls.flatMap text

/-- The tokens of a row of lexemes that begins at an offset: each begins where the one before it
ends. -/
def tokensFrom (start : Nat) : List Lexeme → List Token
  | [] => []
  | l :: ls =>
    let stop := start + l.text.length
    ⟨l.kind, ⟨start, stop⟩⟩ :: tokensFrom stop ls

/-- A character right behind the lexeme would belong to it. -/
def extendedBy : Lexeme → Char → Bool
  | numeral .., c => Text.isAsciiDigit c
  | name .., c => Lexer.isNameChar c
  | blank .., c => Lexer.isSpace c
  | sign .., _ | literal .., _ => false

end Lexeme

/-! ## Classes of characters -/

namespace Lexer

theorem ofSymbol?_eq_some_iff {c : Char} {kind : Token.Kind} :
    Token.Kind.ofSymbol? c = some kind ↔ (c, kind) ∈ signs := by
  constructor
  · intro symbol
    unfold Token.Kind.ofSymbol? at symbol
    split at symbol <;> cases symbol <;> decide
  · intro listed
    simp only [signs, List.mem_cons, List.not_mem_nil, or_false, Prod.mk.injEq] at listed
    rcases listed with ⟨rfl, rfl⟩ | ⟨rfl, rfl⟩ | ⟨rfl, rfl⟩ | ⟨rfl, rfl⟩ | ⟨rfl, rfl⟩ | ⟨rfl, rfl⟩ |
      ⟨rfl, rfl⟩ | ⟨rfl, rfl⟩ | ⟨rfl, rfl⟩ <;> rfl

theorem isSpace_iff {c : Char} : isSpace c = true ↔ c ∈ blanks := by
  simp [isSpace, blanks, or_assoc]

theorem isAsciiDigit_eq (c : Char) : Text.isAsciiDigit c = c.isDigit := rfl

theorem isNameStart_iff {c : Char} : isNameStart c = true ↔ c.isAlpha = true ∨ c = '_' := by
  simp only [isNameStart, Text.isAsciiLetter, Char.isAlpha, Char.isUpper, Char.isLower,
    Bool.or_eq_true, Bool.and_eq_true, decide_eq_true_eq, beq_iff_eq, Char.le_def, ge_iff_le]
  tauto

theorem isNameChar_iff {c : Char} : isNameChar c = true ↔ c.isAlphanum = true ∨ c = '_' := by
  rw [isNameChar, Bool.or_eq_true, isNameStart_iff, isAsciiDigit_eq, Char.isAlphanum,
    Bool.or_eq_true]
  tauto

theorem class_of_sign {c : Char} {kind : Token.Kind} (listed : (c, kind) ∈ signs) :
    Text.isAsciiDigit c = false ∧ isSpace c = false ∧ isNameChar c = false ∧ c ≠ '\x22' := by
  have all : ∀ pair ∈ signs, Text.isAsciiDigit pair.1 = false ∧ isSpace pair.1 = false ∧
      isNameChar pair.1 = false ∧ pair.1 ≠ '\x22' := by decide
  exact all (c, kind) listed

theorem class_of_blank {c : Char} (blank : c ∈ blanks) :
    Text.isAsciiDigit c = false ∧ isNameChar c = false := by
  simp only [blanks, List.mem_cons, List.not_mem_nil, or_false] at blank
  rcases blank with rfl | rfl | rfl | rfl | rfl | rfl <;> exact ⟨rfl, rfl⟩

theorem ofSymbol?_eq_none {c : Char} (other : isSpace c = true ∨ isNameChar c = true) :
    Token.Kind.ofSymbol? c = none := by
  cases symbol : Token.Kind.ofSymbol? c with
  | none => rfl
  | some kind =>
    obtain ⟨-, noSpace, noName, -⟩ := class_of_sign (ofSymbol?_eq_some_iff.mp symbol)
    rcases other with space | inName
    · exact absurd (noSpace.symm.trans space) Bool.false_ne_true
    · exact absurd (noName.symm.trans inName) Bool.false_ne_true

theorem isSpace_eq_false {c : Char} (inName : isNameChar c = true) : isSpace c = false := by
  cases space : isSpace c with
  | false => rfl
  | true =>
    obtain ⟨-, outside⟩ := class_of_blank (isSpace_iff.mp space)
    exact absurd (outside.symm.trans inName) Bool.false_ne_true

theorem isNameChar_of_isAsciiDigit {c : Char} (digit : Text.isAsciiDigit c = true) :
    isNameChar c = true := by
  rw [isNameChar, digit, Bool.or_true]

theorem isNameChar_of_isNameStart {c : Char} (starts : isNameStart c = true) :
    isNameChar c = true := by
  rw [isNameChar, starts, Bool.true_or]

theorem isAsciiDigit_eq_false {c : Char} (starts : isNameStart c = true) :
    Text.isAsciiDigit c = false := by
  simp only [isNameStart, Text.isAsciiLetter, Bool.or_eq_true, Bool.and_eq_true, decide_eq_true_eq,
    beq_iff_eq, Char.le_def, UInt32.le_iff_toNat_le] at starts
  simp only [Text.isAsciiDigit, Bool.and_eq_false_iff, decide_eq_false_iff_not, Char.le_def,
    UInt32.le_iff_toNat_le]
  have bounds : '0'.val.toNat = 48 ∧ '9'.val.toNat = 57 ∧ 'a'.val.toNat = 97 ∧
      'A'.val.toNat = 65 ∧ '_'.val.toNat = 95 := by decide
  rcases starts with (⟨low, -⟩ | ⟨low, -⟩) | rfl <;> omega

/-! ## Reading lexemes -/

section Scan

variable {first : Char} {rest : List Char}

theorem scan_sign {kind : Token.Kind} (symbol : Token.Kind.ofSymbol? first = some kind) :
    scan first rest = ⟨.token kind, [first], rest⟩ := by
  rw [scan, symbol]

theorem scan_digit (digit : Text.isAsciiDigit first = true) :
    scan first rest = run Text.isAsciiDigit readNumber first rest := by
  rw [scan, ofSymbol?_eq_none (.inr (isNameChar_of_isAsciiDigit digit))]
  exact if_pos digit

theorem scan_blank (space : isSpace first = true) :
    scan first rest = run isSpace (fun _ => .token .whitespace) first rest := by
  obtain ⟨noDigit, -⟩ := class_of_blank (isSpace_iff.mp space)
  rw [scan, ofSymbol?_eq_none (.inl space)]
  dsimp only
  rw [noDigit, space]
  rfl

theorem scan_quote : scan '\x22' rest =
    match stringBody rest with
    | some (raw, after) =>
      ⟨.token (.string (String.ofList raw)), '\x22' :: raw ++ ['\x22'], after⟩
    | none => ⟨.wrong .unterminatedString, '\x22' :: rest, []⟩ :=
  rfl

theorem scan_name (starts : isNameStart first = true) :
    scan first rest =
      run isNameChar (fun text => .token (.identifier (String.ofList text))) first rest := by
  have inName := isNameChar_of_isNameStart starts
  have notQuote : (first == '\x22') = false := by
    refine beq_eq_false_iff_ne.mpr fun quote => ?_
    rw [quote] at starts
    cases starts
  rw [scan, ofSymbol?_eq_none (.inr inName)]
  dsimp only
  rw [isAsciiDigit_eq_false starts, isSpace_eq_false inName, notQuote, starts]
  rfl

theorem run_append {p : Char → Bool} {more : List Char} (read : List Char → Reading)
    (continues : ∀ c ∈ more, p c = true) (ends : ∀ c ∈ rest.head?, p c = false) :
    run p read first (more ++ rest) = ⟨read (first :: more), first :: more, rest⟩ := by
  have stops : rest.takeWhile p = [] ∧ rest.dropWhile p = rest := by
    cases rest with
    | nil => exact ⟨rfl, rfl⟩
    | cons c rest =>
      have other : p c = false := ends c rfl
      exact ⟨List.takeWhile_cons_of_neg (by simp [other]),
        List.dropWhile_cons_of_neg (by simp [other])⟩
  rw [run, List.takeWhile_append_of_pos continues, List.dropWhile_append_of_pos continues, stops.1,
    stops.2, List.append_nil]

theorem stringBody_append {raw : List Char} (isRaw : isRaw raw = true) (after : List Char) :
    stringBody (raw ++ '\x22' :: after) = some (raw, after) := by
  fun_induction Reckon.isRaw raw with
  | case1 => rfl
  | case2 => cases isRaw
  | case3 rest ih =>
    rw [List.cons_append, List.cons_append, stringBody, ih isRaw]
    rfl
  | case4 rest ih =>
    rw [List.cons_append, List.cons_append, stringBody, ih isRaw]
    rfl
  | case5 c rest notLast notQuoted notDoubled ih =>
    obtain ⟨notQuote, raw⟩ := Bool.and_eq_true_iff.mp isRaw
    rw [List.cons_append, stringBody, ih raw]
    · rfl
    · simpa using notQuote
    · intro tail backslash same
      cases rest with
      | nil => exact notLast backslash rfl
      | cons d rest => exact notQuoted rest backslash (by rw [(List.cons.inj same).1])
    · intro tail backslash same
      cases rest with
      | nil => exact notLast backslash rfl
      | cons d rest => exact notDoubled rest backslash (by rw [(List.cons.inj same).1])

theorem readNumber_of_decimal {digits : List Char} (decimal : ∀ c ∈ digits, c.isDigit = true)
    (short : digits.length ≤ 4300) (small : Nat.ofDigitChars 10 digits 0 ≤ 2 ^ 31 - 1) :
    readNumber digits = .token (.number (Nat.ofDigitChars 10 digits 0)) := by
  have within : digits.length ≤ Text.digitLimit := short
  have read : Text.readNatural digits = .ok (Nat.ofDigitChars 10 digits 0) := by
    rw [Text.readNatural, if_pos within, Text.naturalValue_eq_ofDigitChars decimal]
  have fits : ¬ maxLiteral < Nat.ofDigitChars 10 digits 0 := Nat.not_lt.mpr small
  rw [readNumber, read]
  exact if_neg fits

/-- A lexeme is read as its token, if what follows it does not begin with a character that belongs
to it. -/
theorem scan_lexeme (l : Lexeme) (ends : ∀ c ∈ rest.head?, l.extendedBy c = false) :
    ∃ first more, l.text ++ rest = first :: more ∧
      scan first more = ⟨.token l.kind, l.text, rest⟩ := by
  cases l with
  | sign c kind listed => exact ⟨c, rest, rfl, scan_sign (ofSymbol?_eq_some_iff.mpr listed)⟩
  | numeral digits nonempty decimal short small =>
    cases digits with
    | nil => exact absurd rfl nonempty
    | cons c digits =>
      have continues : ∀ d ∈ digits, Text.isAsciiDigit d = true :=
        fun d member => decimal d (List.mem_cons_of_mem c member)
      refine ⟨c, digits ++ rest, rfl, ?_⟩
      rw [scan_digit (decimal c List.mem_cons_self), run_append readNumber continues ends,
        readNumber_of_decimal decimal short small]
      rfl
  | name c more begins continues =>
    refine ⟨c, more ++ rest, rfl, ?_⟩
    rw [scan_name (isNameStart_iff.mpr begins), run_append _
      (fun d member => isNameChar_iff.mpr (continues d member)) ends]
    rfl
  | blank row nonempty blank =>
    cases row with
    | nil => exact absurd rfl nonempty
    | cons c row =>
      refine ⟨c, row ++ rest, rfl, ?_⟩
      rw [scan_blank (isSpace_iff.mpr (blank c List.mem_cons_self)), run_append _
        (fun d member => isSpace_iff.mpr (blank d (List.mem_cons_of_mem c member))) ends]
      rfl
  | literal raw closed =>
    have body := stringBody_append ((closed_iff_isRaw (by decide)).mp closed) rest
    refine ⟨'\x22', raw ++ '\x22' :: rest, ?_, ?_⟩
    · simp [Lexeme.text]
    · rw [scan_quote, body]
      rfl

end Scan

/-- Lexemes may stand side by side exactly if the second does not extend the first. -/
theorem apart_iff {l l' : Lexeme} :
    l.Apart l' ↔ ∀ c ∈ l'.text.head?, l.extendedBy c = false := by
  cases l' with
  | sign c kind listed =>
    obtain ⟨noDigit, noSpace, noName, -⟩ := class_of_sign listed
    cases l <;> simp [Lexeme.Apart, Lexeme.text, Lexeme.extendedBy, noDigit, noSpace, noName]
  | numeral digits nonempty decimal short small =>
    cases digits with
    | nil => exact absurd rfl nonempty
    | cons c digits =>
      have digit : Text.isAsciiDigit c = true := decimal c List.mem_cons_self
      have inName := isNameChar_of_isAsciiDigit digit
      have noSpace := isSpace_eq_false inName
      cases l <;> simp [Lexeme.Apart, Lexeme.text, Lexeme.extendedBy, digit, inName, noSpace]
  | name c more begins continues =>
    have starts := isNameStart_iff.mpr begins
    have inName := isNameChar_of_isNameStart starts
    have noDigit := isAsciiDigit_eq_false starts
    have noSpace := isSpace_eq_false inName
    cases l <;> simp [Lexeme.Apart, Lexeme.text, Lexeme.extendedBy, noDigit, inName, noSpace]
  | blank row nonempty blank =>
    cases row with
    | nil => exact absurd rfl nonempty
    | cons c row =>
      have space := isSpace_iff.mpr (blank c List.mem_cons_self)
      obtain ⟨noDigit, noName⟩ := class_of_blank (blank c List.mem_cons_self)
      cases l <;> simp [Lexeme.Apart, Lexeme.text, Lexeme.extendedBy, noDigit, noName, space]
  | literal raw closed =>
    have plain : Text.isAsciiDigit '\x22' = false ∧ isSpace '\x22' = false ∧
        isNameChar '\x22' = false := ⟨rfl, rfl, rfl⟩
    cases l <;> simp [Lexeme.Apart, Lexeme.text, Lexeme.extendedBy, plain]

/-! ## Rows of lexemes -/

theorem text_ne_nil_of_lexeme (l : Lexeme) : l.text ≠ [] := by
  cases l with
  | sign => exact List.cons_ne_nil _ _
  | numeral digits nonempty => exact nonempty
  | name => exact List.cons_ne_nil _ _
  | blank row nonempty => exact nonempty
  | literal => exact List.cons_ne_nil _ _

theorem head?_written (l : Lexeme) (ls : List Lexeme) :
    (Lexeme.written (l :: ls)).head? = l.text.head? := by
  rw [Lexeme.written, List.flatMap_cons, List.head?_append_of_ne_nil _ (text_ne_nil_of_lexeme l)]

/-- Nothing that is written behind a lexeme extends it, if the next lexeme stands apart. -/
theorem ends_of_isChain {l : Lexeme} {ls : List Lexeme}
    (apart : (l :: ls).IsChain Lexeme.Apart) :
    ∀ c ∈ (Lexeme.written ls).head?, l.extendedBy c = false := by
  cases ls with
  | nil =>
    intro c impossible
    cases impossible
  | cons l' ls =>
    rw [head?_written]
    exact apart_iff.mp (List.isChain_cons_cons.mp apart).1

theorem next?_lexeme {l : Lexeme} {rest : List Char}
    (ends : ∀ c ∈ rest.head?, l.extendedBy c = false) (start position : Nat) :
    let stop := position + l.text.length
    next? ⟨l.text ++ rest, start, position⟩ =
      some (.token ⟨l.kind, ⟨position, stop⟩⟩, ⟨rest, position, stop⟩) := by
  obtain ⟨first, more, same, scanned⟩ := scan_lexeme l ends
  rw [next?, same]
  dsimp only
  rw [scanned]
  rfl

theorem outcomes_of_next? {l l' : Lexer} {o : Outcome} (called : l.next? = some (o, l')) :
    l.outcomes = o :: l'.outcomes := by
  rw [outcomes]
  split
  · next ended => cases called.symm.trans ended
  · next o' l'' again =>
    cases again.symm.trans called
    rfl

theorem outcomes_of_end {l : Lexer} (ended : l.next? = none) : l.outcomes = [] := by
  rw [outcomes]
  split
  · rfl
  · next called => cases ended.symm.trans called

/-- Lexemes that stand apart are read one after the other. -/
theorem outcomes_written {ls : List Lexeme} (apart : ls.IsChain Lexeme.Apart)
    (start position : Nat) :
    outcomes ⟨Lexeme.written ls, start, position⟩ =
      (Lexeme.tokensFrom position ls).map .token := by
  induction ls generalizing start position with
  | nil => exact outcomes_of_end rfl
  | cons l ls ih =>
    have called := next?_lexeme (ends_of_isChain apart) start position
    rw [Lexeme.written, List.flatMap_cons, ← Lexeme.written, outcomes_of_next? called,
      ih (List.isChain_cons.mp apart).2]
    rfl

/-- A lexer all of whose outcomes are tokens drains to them and the end of the input. -/
theorem drain_of_outcomes {l : Lexer} {ts : List Token} (read : l.outcomes = ts.map .token) :
    l.drain.1 = ts ++ [Token.eof] ∧ l.drain.2.1 = none := by
  fun_induction drain l generalizing ts with
  | case1 l ended =>
    rw [outcomes_of_end ended] at read
    rw [List.map_eq_nil_iff.mp read.symm]
    exact ⟨rfl, rfl⟩
  | case2 l t l' called tokens error? last drained ih =>
    rw [outcomes_of_next? called] at read
    obtain ⟨u, us, rfl, same, later⟩ := List.map_eq_cons_iff.mp read.symm
    cases same
    obtain ⟨all, complete⟩ := ih later.symm
    rw [drained] at all complete
    exact ⟨congrArg (t :: ·) all, complete⟩
  | case3 l error span l' called =>
    rw [outcomes_of_next? called] at read
    obtain ⟨u, us, rfl, same, later⟩ := List.map_eq_cons_iff.mp read.symm
    cases same

/-- Lexing undoes writing. Take a row of lexemes: operators and delimiters, decimal numerals of at
most 4300 digits up to the greatest literal, names, rows of blanks, and string literals whose raw
text has no unescaped quote and no unpaired backslash at its end. If no blanks stand next to blanks,
no numeral right behind a numeral, and neither a name nor a numeral right behind a name, then the
text they are written as is divided into their tokens, in order, each with its kind and value and
from where the one before it ends, and the end of the input. -/
theorem drain_written {ls : List Lexeme} (apart : ls.IsChain Lexeme.Apart) :
    let drained := (ofSource (String.ofList (Lexeme.written ls))).drain
    drained.1 = Lexeme.tokensFrom 0 ls ++ [Token.eof] ∧ drained.2.1 = none := by
  apply drain_of_outcomes
  rw [ofSource, String.toList_ofList]
  exact outcomes_written apart 0 0

/-- A name before a sign, a numeral with leading zeros before a name, and a literal that ends in an
escaped backslash and has an escaped quote and the look of other tokens inside. -/
theorem drain_written_of_each_kind :
    (ofSource "x1 =007y*\"+\\\"/*\\\\\"\t;").drain.1 =
      [⟨.identifier "x1", ⟨0, 2⟩⟩, ⟨.whitespace, ⟨2, 3⟩⟩, ⟨.assign, ⟨3, 4⟩⟩, ⟨.number 7, ⟨4, 7⟩⟩,
        ⟨.identifier "y", ⟨7, 8⟩⟩, ⟨.star, ⟨8, 9⟩⟩, ⟨.string "+\\\"/*\\\\", ⟨9, 18⟩⟩,
        ⟨.whitespace, ⟨18, 19⟩⟩, ⟨.semicolon, ⟨19, 20⟩⟩, Token.eof] := by
  let ls : List Lexeme :=
    [.name 'x' ['1'] (by decide) (by simp), .blank [' '] (by decide) (by simp [blanks]),
      .sign '=' .assign (by decide),
      .numeral ['0', '0', '7'] (by decide) (by simp) (by decide) (by decide),
      .name 'y' [] (by decide) (by simp), .sign '*' .star (by decide),
      .literal ['+', '\\', '\x22', '/', '*', '\\', '\\'] ((closed_iff_isRaw (by decide)).mpr rfl),
      .blank ['\t'] (by decide) (by simp [blanks]), .sign ';' .semicolon (by decide)]
  have apart : ls.IsChain Lexeme.Apart := by simp [ls, Lexeme.Apart]
  exact (drain_written apart).1

/-! ## What is read as a token -/

section Scanned

variable {first : Char} {rest : List Char}

theorem stringBody_eq_append {cs raw after : List Char} (body : stringBody cs = some (raw, after)) :
    cs = raw ++ '\x22' :: after := by
  fun_induction stringBody cs generalizing raw after with
  | case1 => cases body
  | case2 rest =>
    cases body
    rfl
  | case3 rest ih | case4 rest ih =>
    obtain ⟨⟨raw', after'⟩, inner, same⟩ := Option.map_eq_some_iff.1 body
    cases same
    rw [ih inner]
    rfl
  | case5 c rest _ _ _ ih =>
    obtain ⟨⟨raw', after'⟩, inner, same⟩ := Option.map_eq_some_iff.1 body
    cases same
    rw [ih inner]
    rfl

/-- A piece and what follows it are the text that was there. -/
theorem Scanned.append {piece : Piece} (scanned : Scanned first rest piece) :
    piece.text ++ piece.rest = first :: rest := by
  cases scanned with
  | sign | invalid => rfl
  | numeral | blank | name => exact congrArg (first :: ·) List.takeWhile_append_dropWhile
  | literal quote body =>
    rw [stringBody_eq_append body]
    simp
  | unterminated => exact List.append_nil _

theorem run_ends (p : Char → Bool) (read : List Char → Reading) :
    ∀ c ∈ (run p read first rest).rest.head?, p c = false := by
  intro c behind
  have stops := List.head?_dropWhile_not p rest
  rw [show (rest.dropWhile p).head? = some c from behind] at stops
  exact stops

theorem forall_mem_run {p : Char → Bool} (here : p first = true) :
    ∀ c ∈ first :: rest.takeWhile p, p c = true :=
  List.forall_mem_cons.mpr ⟨here, List.all_eq_true.mp List.all_takeWhile⟩

theorem exists_numeral {digits : List Char} {kind : Token.Kind} (nonempty : digits ≠ [])
    (decimal : ∀ c ∈ digits, c.isDigit = true) (read : readNumber digits = .token kind) :
    ∃ l : Lexeme, l.kind = kind ∧ l.text = digits ∧ l.extendedBy = Text.isAsciiDigit := by
  unfold readNumber at read
  split at read
  · cases read
  · next value natural =>
    unfold Text.readNatural at natural
    split at natural
    · next short =>
      cases natural
      rw [Text.naturalValue_eq_ofDigitChars decimal] at read
      split at read
      · cases read
      · next small =>
        cases read
        exact ⟨.numeral digits nonempty decimal short (Nat.not_lt.mp small), rfl, rfl, rfl⟩
    · cases natural

/-- What is read as a token is a lexeme, and what follows does not extend it. -/
theorem exists_lexeme_of_scan {kind : Token.Kind} (read : (scan first rest).reading = .token kind) :
    ∃ l : Lexeme, l.kind = kind ∧ l.text = (scan first rest).text ∧
      ∀ c ∈ (scan first rest).rest.head?, l.extendedBy c = false := by
  have scanned := scanned first rest
  generalize scan first rest = piece at scanned read ⊢
  cases scanned with
  | sign symbol =>
    cases read
    exact ⟨.sign first kind (ofSymbol?_eq_some_iff.mp symbol), rfl, rfl, fun _ _ => rfl⟩
  | numeral digit =>
    obtain ⟨l, same, text, extended⟩ :=
      exists_numeral (List.cons_ne_nil _ _) (forall_mem_run digit) read
    refine ⟨l, same, text, ?_⟩
    rw [extended]
    exact run_ends Text.isAsciiDigit readNumber
  | blank space =>
    cases read
    have blank : ∀ c ∈ first :: rest.takeWhile isSpace, c ∈ blanks :=
      fun c member => isSpace_iff.mp (forall_mem_run space c member)
    exact ⟨.blank _ (List.cons_ne_nil _ _) blank, rfl, rfl, run_ends isSpace _⟩
  | literal quote body =>
    cases read
    subst quote
    exact ⟨.literal _ ((closed_iff_isRaw (by decide)).mpr (isRaw_of_stringBody body)), rfl, rfl,
      fun _ _ => rfl⟩
  | unterminated | invalid => cases read
  | name starts =>
    cases read
    have continues := List.all_eq_true.mp (@List.all_takeWhile _ isNameChar rest)
    exact ⟨.name first _ (isNameStart_iff.mp starts)
      (fun c member => isNameChar_iff.mp (continues c member)), rfl, rfl, run_ends isNameChar _⟩

end Scanned

/-- What one call of the lexer does: it takes the piece that begins the text. -/
theorem exists_scan_of_next? {l l' : Lexer} {o : Outcome} (called : l.next? = some (o, l')) :
    ∃ first rest, l.rest = first :: rest ∧
      o = (scan first rest).reading.outcome ⟨l.position, l'.position⟩ ∧
      l'.rest = (scan first rest).rest ∧
      l'.position = l.position + (scan first rest).text.length := by
  unfold next? at called
  split at called
  · cases called
  · next first rest text =>
    cases called
    exact ⟨first, rest, text, rfl, rfl, rfl⟩

/-- A call of the lexer that gives a token takes a lexeme, which the rest of the text does not
extend. -/
theorem exists_lexeme_of_next? {l l' : Lexer} {t : Token} (called : l.next? = some (.token t, l')) :
    ∃ lexeme : Lexeme, t = ⟨lexeme.kind, ⟨l.position, l'.position⟩⟩ ∧
      l.rest = lexeme.text ++ l'.rest ∧ l'.position = l.position + lexeme.text.length ∧
      ∀ c ∈ l'.rest.head?, lexeme.extendedBy c = false := by
  obtain ⟨first, rest, text, outcome, behind, position⟩ := exists_scan_of_next? called
  have whole := (scanned first rest).append
  cases read : (scan first rest).reading with
  | token kind =>
    obtain ⟨lexeme, rfl, here, ends⟩ := exists_lexeme_of_scan read
    rw [read] at outcome
    cases outcome
    rw [← here] at whole position
    rw [← behind] at whole ends
    exact ⟨lexeme, rfl, text.trans whole.symm, position, ends⟩
  | wrong cause =>
    rw [read] at outcome
    cases outcome
  | tooLong error =>
    rw [read] at outcome
    cases outcome

theorem rest_of_end {l : Lexer} (ended : l.next? = none) : l.rest = [] := by
  unfold next? at ended
  split at ended
  · next empty => exact empty
  · cases ended

/-- Every text that is divided into tokens is written as lexemes that stand apart. -/
theorem exists_lexemes {l : Lexer} {ts : List Token} (read : l.outcomes = ts.map .token) :
    ∃ ls : List Lexeme, ls.IsChain Lexeme.Apart ∧ l.rest = Lexeme.written ls ∧
      ts = Lexeme.tokensFrom l.position ls := by
  fun_induction outcomes l generalizing ts with
  | case1 l ended => exact ⟨[], .nil, rest_of_end ended, List.map_eq_nil_iff.mp read.symm⟩
  | case2 l outcome l' called ih =>
    obtain ⟨t, us, rfl, rfl, later⟩ := List.map_eq_cons_iff.mp read.symm
    obtain ⟨ls, apart, behind, rfl⟩ := ih later.symm
    obtain ⟨lexeme, rfl, text, position, ends⟩ := exists_lexeme_of_next? called
    refine ⟨lexeme :: ls, List.isChain_cons.mpr ⟨fun next first => ?_, apart⟩, ?_, ?_⟩
    · obtain ⟨ls, rfl⟩ := List.head?_eq_some_iff.mp first
      rw [behind, head?_written] at ends
      exact apart_iff.mpr ends
    · rw [text, behind]
      rfl
    · rw [Lexeme.tokensFrom, position, Nat.cast_add]

end Lexer

end Reckon
