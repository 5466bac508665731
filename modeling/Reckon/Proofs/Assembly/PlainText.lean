import Mathlib
import Reckon.Assembly.Reader
import Reckon.Code.Literal
import Reckon.Proofs.Lexemes

/-!
# Text that is read as it was written

Reading assembly text cuts lines, remarks, blanks and commas away. `Text.isPlain` names the
characters that none of these cuts concerns; code is written with them, apart from the bodies of
strings, which are protected by their quotes.

* `Text.lines_joined`: lines without line breaks are read back from their text.
* `Assembly.withoutCommentFrom_literal`: no remark begins inside a string literal.
* `Text.readNatural_toDigits`: a number that can be written is read back.
* `Assembly.exists_stringBytes`: a literal of characters up to U+00FF has bytes.
-/

namespace Reckon

namespace Text

/-! ## Characters of a text -/

theorem forall_mem_of_all {p : Char → Bool} {cs : List Char} (all : cs.all p = true) :
    ∀ c ∈ cs, p c = true :=
  List.all_eq_true.mp all

theorem forall_mem_of_any {p : Char → Bool} {cs : List Char} (none : cs.any p = false) :
    ∀ c ∈ cs, p c = false :=
  fun c member => Bool.eq_false_iff.mpr (List.any_eq_false.mp none c member)

/-- A visible ASCII character, but for the signs that end an operand, a label, a string or the code
of a line: the comma, the colon, the quote, the number sign and the backslash. -/
def isPlain (c : Char) : Bool :=
  inRanges [(0x21, 0x21), (0x24, 0x2B), (0x2D, 0x39), (0x3B, 0x5B), (0x5D, 0x7E)] c

section IsPlain

variable {c : Char}

theorem isPlain_iff :
    isPlain c = true ↔ 0x21 ≤ c.toNat ∧ c.toNat ≤ 0x7E ∧ c.toNat ≠ 0x22 ∧ c.toNat ≠ 0x23 ∧
      c.toNat ≠ 0x2C ∧ c.toNat ≠ 0x3A ∧ c.toNat ≠ 0x5C := by
  simp only [isPlain, inRanges, List.any_cons, List.any_nil, Bool.or_eq_true, Bool.and_eq_true,
    decide_eq_true_eq, Bool.false_eq_true, or_false]
  omega

theorem ne_of_isPlain {d : Char} (plain : isPlain c = true) (other : isPlain d = false) :
    c ≠ d := by
  rintro rfl
  rw [plain] at other
  cases other

theorem isBlank_of_isPlain (plain : isPlain c = true) : isBlank c = false := by
  have bounds := isPlain_iff.mp plain
  simp only [isBlank, inRanges, blankRanges, List.any_cons, List.any_nil, Bool.or_eq_false_iff,
    Bool.and_eq_false_iff, decide_eq_false_iff_not, and_true]
  omega

theorem isLineBreak_of_isPlain (plain : isPlain c = true) : isLineBreak c = false := by
  rw [isLineBreak, List.contains_eq_mem, decide_eq_false_iff_not]
  simp only [List.mem_cons, List.not_mem_nil, or_false, not_or]
  refine ⟨?_, ?_, ?_, ?_, ?_, ?_, ?_, ?_, ?_, ?_⟩ <;> exact ne_of_isPlain plain (by decide)

theorem isPlain_of_isNameChar (name : Lexer.isNameChar c = true) : isPlain c = true := by
  simp only [Lexer.isNameChar, Lexer.isNameStart, isAsciiLetter, isAsciiDigit, Bool.or_eq_true,
    Bool.and_eq_true, decide_eq_true_eq, beq_iff_eq, Char.le_def, UInt32.le_iff_toNat_le,
    Char.ext_iff, ← UInt32.toNat_inj] at name
  have code : c.toNat = c.val.toNat := rfl
  rw [isPlain_iff, code]
  simp only [Char.reduceVal, UInt32.reduceToNat] at name
  omega

theorem inRanges_of_mem {ranges : List (Nat × Nat)} {first last : Nat}
    (listed : (first, last) ∈ ranges) (lower : first ≤ c.toNat) (upper : c.toNat ≤ last) :
    inRanges ranges c = true :=
  List.any_eq_true.mpr ⟨(first, last), listed, by simp [lower, upper]⟩

theorem isWord_of_isNameChar (name : Lexer.isNameChar c = true) : isWord c = true := by
  simp only [Lexer.isNameChar, Lexer.isNameStart, isAsciiLetter, isAsciiDigit, Bool.or_eq_true,
    Bool.and_eq_true, decide_eq_true_eq, Char.le_def, UInt32.le_iff_toNat_le] at name
  rw [isWord, Bool.or_eq_true]
  rcases name with ((⟨lower, upper⟩ | ⟨lower, upper⟩) | lowLine) | ⟨lower, upper⟩
  · exact .inr (inRanges_of_mem (.tail _ (.tail _ (.head _))) lower upper)
  · exact .inr (inRanges_of_mem (.tail _ (.head _)) lower upper)
  · exact .inl lowLine
  · exact .inr (inRanges_of_mem (.head _) lower upper)

end IsPlain

/-! ## Lines -/

theorem forall_mem_intercalate {gap : List Char} {ls : List (List Char)} {p : Char → Prop}
    (between : ∀ c ∈ gap, p c) (inside : ∀ l ∈ ls, ∀ c ∈ l, p c) :
    ∀ c ∈ gap.intercalate ls, p c := by
  induction ls with
  | nil => nofun
  | cons l ls ih =>
    have here := inside l List.mem_cons_self
    have later := ih fun m member => inside m (List.mem_cons_of_mem _ member)
    cases ls with
    | nil => rwa [List.intercalate_singleton]
    | cons l' ls =>
      rw [List.intercalate_cons_cons]
      exact List.forall_mem_append.mpr ⟨List.forall_mem_append.mpr ⟨here, between⟩, later⟩

theorem linesFrom_append {cs : List Char} (unbroken : ∀ c ∈ cs, isLineBreak c = false) {b : Char}
    (breaks : isLineBreak b = true) (notReturn : b ≠ '\r') (current rest : List Char) :
    linesFrom current (cs ++ b :: rest) = (current.reverse ++ cs) :: linesFrom [] rest := by
  induction cs generalizing current with
  | nil =>
    rw [List.nil_append, linesFrom, if_pos breaks, List.append_nil]
    exact fun _ isReturn => absurd isReturn notReturn
  | cons c cs ih =>
    have here := unbroken c List.mem_cons_self
    have notReturn : c ≠ '\r' := by
      rintro rfl
      cases here
    rw [List.cons_append, linesFrom]
    · rw [here, if_neg Bool.false_ne_true,
        ih fun d later => unbroken d (List.mem_cons_of_mem _ later)]
      simp
    · intro _ isReturn
      exact absurd isReturn notReturn

/-- The first line of a text ends where the first line break stands. -/
theorem lines_append {l : List Char} (unbroken : ∀ c ∈ l, isLineBreak c = false) {b : Char}
    (breaks : isLineBreak b = true) (notReturn : b ≠ '\r') (rest : List Char) :
    lines (l ++ b :: rest) = l :: lines rest :=
  linesFrom_append unbroken breaks notReturn [] rest

theorem intercalate_append {gap : List Char} {ls : List (List Char)} (nonempty : ls ≠ []) :
    gap.intercalate ls ++ gap = ls.flatMap (· ++ gap) := by
  induction ls with
  | nil => exact absurd rfl nonempty
  | cons l ls ih =>
    cases ls with
    | nil => simp
    | cons l' ls =>
      rw [List.intercalate_cons_cons, List.append_assoc, ih nofun]
      rfl

/-- Lines that hold no line break are the lines of their text. -/
theorem lines_joined {ls : List (List Char)} (nonempty : ls ≠ [])
    (unbroken : ∀ l ∈ ls, ∀ c ∈ l, isLineBreak c = false) :
    lines (['\n'].intercalate ls ++ ['\n']) = ls := by
  rw [intercalate_append nonempty]
  clear nonempty
  induction ls with
  | nil => rfl
  | cons l ls ih =>
    rw [List.flatMap_cons, List.append_assoc, List.singleton_append,
      lines_append (unbroken l List.mem_cons_self) rfl (by decide),
      ih fun m later => unbroken m (List.mem_cons_of_mem _ later)]

theorem isLineBreak_of_mem_linesFrom {current cs : List Char}
    (unbroken : ∀ c ∈ current, isLineBreak c = false) :
    ∀ l ∈ linesFrom current cs, ∀ c ∈ l, isLineBreak c = false := by
  fun_induction linesFrom current cs with
  | case1 current empty => nofun
  | case2 current solid =>
    intro l member c inside
    rw [List.mem_singleton.mp member] at inside
    exact unbroken c (List.mem_reverse.mp inside)
  | case3 current rest ih =>
    intro l member c inside
    rcases List.mem_cons.mp member with rfl | later
    · exact unbroken c (List.mem_reverse.mp inside)
    · exact ih nofun l later c inside
  | case4 current d rest _ breaking ih =>
    intro l member c inside
    rcases List.mem_cons.mp member with rfl | later
    · exact unbroken c (List.mem_reverse.mp inside)
    · exact ih nofun l later c inside
  | case5 current d rest _ solid ih =>
    refine ih fun c member => ?_
    rcases List.mem_cons.mp member with rfl | earlier
    · exact Bool.eq_false_iff.mpr solid
    · exact unbroken c earlier

/-! ## Blanks around a text -/

/-- The text neither begins nor ends with a blank. -/
structure Tight (cs : List Char) : Prop where
  first : ∀ c, cs.head? = some c → isBlank c = false
  last : ∀ c, cs.getLast? = some c → isBlank c = false

theorem Tight.of_isPlain {cs : List Char} (plain : ∀ c ∈ cs, isPlain c = true) : Tight cs where
  first c same := isBlank_of_isPlain (plain c (List.mem_of_head? same))
  last c same := isBlank_of_isPlain (plain c (List.mem_of_getLast? same))

theorem dropWhile_isBlank {cs : List Char} (solid : ∀ c, cs.head? = some c → isBlank c = false) :
    cs.dropWhile isBlank = cs := by
  cases cs with
  | nil => rfl
  | cons c cs => rw [List.dropWhile_cons_of_neg (by rw [solid c rfl]; exact Bool.false_ne_true)]

/-- Blanks before a text are cut away, and nothing else. -/
theorem trim_append {margin cs : List Char} (blank : ∀ c ∈ margin, isBlank c = true)
    (tight : Tight cs) : trim (margin ++ cs) = cs := by
  rw [trim, List.dropWhile_append_of_pos blank, dropWhile_isBlank tight.first, trimRight,
    dropWhile_isBlank, List.reverse_reverse]
  intro c same
  rw [List.head?_reverse] at same
  exact tight.last c same

/-- The blanks at the end of a text are cut away behind its last solid character. -/
theorem trimRight_append {c : Char} (solid : isBlank c = false) (before after : List Char) :
    trimRight (before ++ c :: after) = before ++ c :: trimRight after := by
  have stops : (c :: before.reverse).dropWhile isBlank = c :: before.reverse :=
    dropWhile_isBlank fun d same => by cases same; exact solid
  rw [trimRight, trimRight, List.reverse_append, List.reverse_cons, List.append_assoc,
    List.singleton_append, List.dropWhile_append, stops]
  cases after.reverse.dropWhile isBlank with
  | nil => simp
  | cons d ds => simp

theorem mem_of_mem_trimRight {c : Char} {cs : List Char} (member : c ∈ trimRight cs) : c ∈ cs :=
  List.mem_reverse.mp ((List.dropWhile_suffix isBlank).mem (List.mem_reverse.mp member))

/-! ## Numerals -/

theorem digitValue?_of_isDigit {c : Char} (digit : c.isDigit = true) :
    digitValue? c = some (c.toNat - '0'.toNat) := by
  simp only [Char.isDigit, Bool.and_eq_true, decide_eq_true_eq] at digit
  have lower : 0x30 ≤ c.toNat := digit.1
  have upper : c.toNat ≤ 0x30 + 9 := digit.2
  rw [digitValue?, zeroDigits, List.find?_cons_of_pos (by simp [lower, upper])]
  rfl

theorem isPlain_of_isDigit {c : Char} (digit : c.isDigit = true) : isPlain c = true := by
  simp only [Char.isDigit, Bool.and_eq_true, decide_eq_true_eq] at digit
  have lower : 0x30 ≤ c.toNat := digit.1
  have upper : c.toNat ≤ 0x39 := digit.2
  rw [isPlain_iff]
  omega

theorem naturalValue_eq_ofDigitChars {cs : List Char} (digits : ∀ c ∈ cs, c.isDigit = true) :
    naturalValue cs = Nat.ofDigitChars 10 cs 0 := by
  rw [naturalValue, Nat.ofDigitChars_eq_foldl]
  refine List.foldl_ext _ _ _ fun value c member => ?_
  rw [digitValue?_of_isDigit (digits c member)]
  rfl

/-- A number that can be written is read back from its digits. -/
theorem readNatural_toDigits {n : Nat} (short : n < Nat.pow 10 digitLimit) :
    readNatural (Nat.toDigits 10 n) = .ok n := by
  have digits : ∀ c ∈ Nat.toDigits 10 n, c.isDigit = true :=
    fun c => Nat.isDigit_of_mem_toDigits (by decide) (by decide)
  have fits {limit : Nat} (positive : 0 < limit) (short : n < Nat.pow 10 limit) :
      (Nat.toDigits 10 n).length ≤ limit :=
    (Nat.length_toDigits_le_iff (by decide) positive).mpr short
  rw [readNatural, if_pos (fits (by decide) short), naturalValue_eq_ofDigitChars digits,
    Nat.ofDigitChars_ten_toDigits]

end Text

namespace Assembly

/-! ## Remarks -/

/-- A remark begins at none of these characters outside a string. -/
theorem withoutCommentFrom_code {cs : List Char}
    (code : ∀ c ∈ cs, c ≠ '\\' ∧ c ≠ '\x22' ∧ c ≠ '#') (rest : List Char) :
    withoutCommentFrom false false (cs ++ rest) = cs ++ withoutCommentFrom false false rest := by
  induction cs with
  | nil => rfl
  | cons c cs ih =>
    obtain ⟨notBackslash, notQuote, notSign⟩ := code c List.mem_cons_self
    rw [List.cons_append, withoutCommentFrom]
    simp [notBackslash, notQuote, notSign, ih fun d later => code d (List.mem_cons_of_mem _ later)]

theorem withoutCommentFrom_inside {cs : List Char} (inside : ∀ c ∈ cs, c ≠ '\\' ∧ c ≠ '\x22')
    (rest : List Char) :
    withoutCommentFrom true false (cs ++ rest) = cs ++ withoutCommentFrom true false rest := by
  induction cs with
  | nil => rfl
  | cons c cs ih =>
    obtain ⟨notBackslash, notQuote⟩ := inside c List.mem_cons_self
    rw [List.cons_append, withoutCommentFrom]
    simp [notBackslash, notQuote, ih fun d later => inside d (List.mem_cons_of_mem _ later)]

end Assembly

namespace Code

/-! ## String literals -/

/-- The escape of a control character: a backslash and octal digits. -/
theorem exists_escapeChar {c : Char} (control : isControl c = true) :
    ∃ digit digits, escapeChar c = '\\' :: digit :: digits ∧
      ∀ d ∈ digit :: digits, d.isDigit = true := by
  have all : ∀ d ∈ (Text.padded 8 3 c.toNat).toList, d.isDigit = true := by
    intro d member
    rw [Text.padded, String.toList_ofList] at member
    rcases List.mem_append.mp member with zero | digit
    · rw [(List.mem_replicate.mp zero).2]
      rfl
    · exact Nat.isDigit_of_mem_toDigits (by decide) (by decide) digit
  rw [escapeChar, if_pos control]
  cases written : (Text.padded 8 3 c.toNat).toList with
  | nil =>
    rw [Text.padded, String.toList_ofList, List.append_eq_nil_iff] at written
    exact absurd written.2 Nat.toDigits_ne_nil
  | cons digit digits => exact ⟨digit, digits, rfl, written ▸ all⟩

theorem escapeChar_of_not_isControl {c : Char} (solid : isControl c = false) :
    escapeChar c = [c] := by
  rw [escapeChar, solid]
  rfl

theorem escapeControls_cons (c : Char) (cs : List Char) :
    escapeControls (c :: cs) = escapeChar c ++ escapeControls cs :=
  rfl

theorem escapeControls_cons_of_not_isControl {c : Char} (solid : isControl c = false)
    (cs : List Char) : escapeControls (c :: cs) = c :: escapeControls cs := by
  rw [escapeControls_cons, escapeChar_of_not_isControl solid]
  rfl

theorem mem_escapeControls {c : Char} {cs : List Char} (solid : isControl c = false)
    (member : c ∈ cs) : c ∈ escapeControls cs := by
  refine List.mem_flatMap.mpr ⟨c, member, ?_⟩
  rw [escapeChar_of_not_isControl solid]
  exact List.mem_singleton_self c

/-- What is written for a literal: its characters but for the control characters, backslashes and
digits. -/
theorem of_mem_escapeControls {c : Char} {cs : List Char} (member : c ∈ escapeControls cs) :
    (c ∈ cs ∧ isControl c = false) ∨ c = '\\' ∨ c.isDigit = true := by
  obtain ⟨d, inside, written⟩ := List.mem_flatMap.mp member
  cases control : isControl d with
  | false =>
    rw [escapeChar_of_not_isControl control, List.mem_singleton] at written
    rw [written]
    exact .inl ⟨inside, control⟩
  | true =>
    obtain ⟨digit, digits, same, all⟩ := exists_escapeChar control
    rw [same] at written
    rcases List.mem_cons.mp written with backslash | numeral
    · exact .inr (.inl backslash)
    · exact .inr (.inr (all c numeral))

end Code

namespace Assembly

open Code

/-- Inside a string, a backslash before a character changes nothing about what follows, unless the
character is a quote or a backslash. -/
theorem withoutCommentFrom_escaped {c : Char} (notBackslash : c ≠ '\\') (notQuote : c ≠ '\x22')
    (rest : List Char) :
    withoutCommentFrom true true (escapeChar c ++ rest) =
      withoutCommentFrom true false (escapeChar c ++ rest) := by
  cases control : isControl c with
  | false =>
    rw [escapeChar_of_not_isControl control, List.singleton_append, withoutCommentFrom,
      withoutCommentFrom]
    simp [notBackslash, notQuote]
  | true =>
    obtain ⟨digit, digits, written, all⟩ := exists_escapeChar control
    have plain := Text.isPlain_of_isDigit (all digit List.mem_cons_self)
    have notBackslash' : digit ≠ '\\' := Text.ne_of_isPlain plain (by decide)
    have notQuote' : digit ≠ '\x22' := Text.ne_of_isPlain plain (by decide)
    rw [written]
    simp [withoutCommentFrom, notBackslash', notQuote']

theorem withoutCommentFrom_escapeChar {c : Char} (notBackslash : c ≠ '\\') (notQuote : c ≠ '\x22')
    (rest : List Char) :
    withoutCommentFrom true false (escapeChar c ++ rest) =
      escapeChar c ++ withoutCommentFrom true false rest := by
  cases control : isControl c with
  | false =>
    rw [escapeChar_of_not_isControl control]
    exact withoutCommentFrom_inside (by simp [notBackslash, notQuote]) rest
  | true =>
    obtain ⟨digit, digits, written, all⟩ := exists_escapeChar control
    have inside : ∀ d ∈ digits, d ≠ '\\' ∧ d ≠ '\x22' := by
      intro d member
      have plain := Text.isPlain_of_isDigit (all d (List.mem_cons_of_mem _ member))
      exact ⟨Text.ne_of_isPlain plain (by decide), Text.ne_of_isPlain plain (by decide)⟩
    rw [written]
    simp [withoutCommentFrom, withoutCommentFrom_inside inside]

/-- No remark begins inside a string literal, and the literal ends with its closing quote. -/
theorem withoutCommentFrom_literal {raw : List Char} (isRaw : isRaw raw = true) (rest : List Char) :
    withoutCommentFrom true false (escapeControls raw ++ rest) =
      escapeControls raw ++ withoutCommentFrom true false rest := by
  fun_induction Reckon.isRaw raw with
  | case1 => rfl
  | case2 => cases isRaw
  | case3 tail ih =>
    rw [escapeControls_cons_of_not_isControl rfl, escapeControls_cons_of_not_isControl rfl]
    simp [withoutCommentFrom, ih isRaw]
  | case4 tail ih =>
    rw [escapeControls_cons_of_not_isControl rfl, escapeControls_cons_of_not_isControl rfl]
    simp [withoutCommentFrom, ih isRaw]
  | case5 c tail notLast notQuoted notDoubled ih =>
    obtain ⟨notQuote, raw⟩ := Bool.and_eq_true_iff.mp isRaw
    have notQuote : c ≠ '\x22' := by simpa using notQuote
    by_cases backslash : c = '\\'
    · -- A lone backslash: the next character, which is there, is neither a quote nor a backslash.
      subst backslash
      cases tail with
      | nil => exact absurd rfl (notLast rfl)
      | cons d tail =>
        have notQuote' : d ≠ '\x22' := fun quote => notQuoted tail rfl (by rw [quote])
        have notBackslash' : d ≠ '\\' := fun other => notDoubled tail rfl (by rw [other])
        have inner := ih raw
        rw [escapeControls_cons, List.append_assoc] at inner
        rw [escapeControls_cons_of_not_isControl rfl, escapeControls_cons, List.cons_append,
          withoutCommentFrom, List.append_assoc]
        simp [withoutCommentFrom_escaped notBackslash' notQuote', inner]
    · rw [escapeControls_cons, List.append_assoc, withoutCommentFrom_escapeChar backslash notQuote,
        ih raw, List.append_assoc]

/-! ## The bytes of a string -/

theorem hexValue?_lt {c : Char} : (hexValue? c).getD 0 < 16 := by
  simp only [hexValue?, Text.isAsciiDigit, Bool.and_eq_true, decide_eq_true_eq, Char.le_def,
    UInt32.le_iff_toNat_le]
  have code : c.toNat = c.val.toNat := rfl
  rw [code]
  split
  · next digit =>
    have : c.val.toNat ≤ 57 := digit.2
    show c.val.toNat - 48 < 16
    omega
  · split
    · next letter =>
      have : c.val.toNat ≤ 102 := letter.2
      show c.val.toNat - 97 + 10 < 16
      omega
    · split
      · next letter =>
        have : c.val.toNat ≤ 70 := letter.2
        show c.val.toNat - 65 + 10 < 16
        omega
      · decide

theorem digitsValue_lt {digits : List Char} (short : digits.length ≤ 2) :
    digitsValue 16 digits < 256 := by
  match digits with
  | [] => decide
  | [a] =>
    have := hexValue?_lt (c := a)
    simp only [digitsValue, List.foldl_cons, List.foldl_nil]
    omega
  | [a, b] =>
    have := hexValue?_lt (c := a)
    have := hexValue?_lt (c := b)
    simp only [digitsValue, List.foldl_cons, List.foldl_nil]
    omega
  | _ :: _ :: _ :: _ => exact absurd short (by simp)

theorem toNat_ofNat_lt {n : Nat} (small : n < 256) : (Char.ofNat n).toNat < 256 := by
  have valid : n.isValidChar := .inl (by omega)
  rw [Char.ofNat, dif_pos valid]
  exact small

theorem fitsByte_simpleEscape {c : Char} (fits : Text.fitsByte c = true) :
    Text.fitsByte (simpleEscape c) = true := by
  unfold simpleEscape
  split
  all_goals first | rfl | exact fits

/-- An escape that begins with a character of one byte stands for one. -/
theorem fitsByte_escape {first : Char} (fits : Text.fitsByte first = true) (after : List Char) :
    Text.fitsByte (escape first after).1 = true := by
  unfold escape
  split
  · dsimp only
    split
    · rfl
    · refine decide_eq_true (toNat_ofNat_lt (digitsValue_lt ?_))
      have taken := (List.takeWhile_sublist isHexDigit (l := after.take 2)).length_le
      exact Nat.le_trans taken (List.length_take_le 2 after)
  · split
    · exact decide_eq_true (toNat_ofNat_lt (Nat.mod_lt _ (by decide)))
    · exact fitsByte_simpleEscape fits

theorem fitsByte_unescape {cs : List Char} (fits : ∀ c ∈ cs, Text.fitsByte c = true) :
    ∀ c ∈ unescape cs, Text.fitsByte c = true := by
  fun_induction unescape cs with
  | case1 => nofun
  | case2 => exact fits
  | case3 first after c used escaped ih =>
    intro d member
    rcases List.mem_cons.mp member with rfl | later
    · have := fitsByte_escape (fits first (by simp)) after
      rwa [escaped] at this
    · exact ih (fun e kept => fits e (by simp [List.mem_of_mem_drop kept])) d later
  | case4 c rest _ _ ih =>
    intro d member
    rcases List.mem_cons.mp member with rfl | later
    · exact fits d List.mem_cons_self
    · exact ih (fun e kept => fits e (List.mem_cons_of_mem _ kept)) d later

theorem fitsByte_escapeControls {cs : List Char} (fits : ∀ c ∈ cs, Text.fitsByte c = true) :
    ∀ c ∈ escapeControls cs, Text.fitsByte c = true := by
  intro c member
  rcases of_mem_escapeControls member with ⟨inside, -⟩ | rfl | digit
  · exact fits c inside
  · rfl
  · have bounds := Text.isPlain_iff.mp (Text.isPlain_of_isDigit digit)
    exact decide_eq_true (by omega)

/-- A string literal all of whose characters fit in a byte has bytes. -/
theorem exists_stringBytes {raw : List Char} (fits : ∀ c ∈ raw, Text.fitsByte c = true) :
    ∃ bytes, stringBytes (escapeControls raw) = .ok bytes := by
  have all := fitsByte_unescape (fitsByte_escapeControls fits)
  rw [stringBytes, Text.encodeLatin, List.dropWhile_eq_nil_iff.mpr all]
  exact ⟨_, rfl⟩

end Assembly

end Reckon
