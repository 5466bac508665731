import Reckon.Proofs.Assembly.PlainText

/-!
# Which literals are decoded as they were written

The control characters of a string literal are written as octal escapes, and the bytes of a string
directive are decoded from what was written. A control character that stands for itself is decoded
again from its escape. One that stands right behind a backslash is not: the backslash takes that of
the escape with it, and the three digits stay as they are. `Assembly.escapedControls` counts these.

* `Assembly.exists_stringBytes_iff`: a literal has bytes exactly if its characters fit in bytes.
* `Assembly.stringBytes_escapeControls`: escaping control characters leaves the bytes alone if none
  of them stands behind a backslash, and adds three bytes for each that does.
-/

namespace Reckon

namespace Text

theorem encodeLatin_of_fitsByte {cs : List Char} (fits : ∀ c ∈ cs, fitsByte c = true) :
    encodeLatin cs = .ok (cs.map fun c => c.toNat.toUInt8) := by
  rw [encodeLatin, List.dropWhile_eq_nil_iff.mpr fits]

/-- A text has bytes exactly if each of its characters fits in one. -/
theorem exists_encodeLatin_iff {cs : List Char} :
    (∃ bytes, encodeLatin cs = .ok bytes) ↔ ∀ c ∈ cs, fitsByte c = true := by
  constructor
  · intro encoded
    obtain ⟨bytes, encoded⟩ := encoded
    unfold encodeLatin at encoded
    split at encoded
    · next whole => exact List.dropWhile_eq_nil_iff.mp whole
    · cases encoded
  · intro fits
    exact ⟨_, encodeLatin_of_fitsByte fits⟩

end Text

namespace Assembly

open Code

/-- How many control characters of a literal stand right behind a backslash that begins an
escape. -/
def escapedControls : List Char → Nat
  | [] => 0
  | '\\' :: first :: after => (if isControl first then 1 else 0) + escapedControls after
  | _ :: rest => escapedControls rest

/-! ## The digits of an escape -/

theorem isHexDigit_of_isOctalDigit {c : Char} (octal : isOctalDigit c = true) :
    isHexDigit c = true := by
  simp only [isOctalDigit, Bool.and_eq_true, decide_eq_true_eq] at octal
  have decimal : Text.isAsciiDigit c = true := by
    simp only [Text.isAsciiDigit, Bool.and_eq_true, decide_eq_true_eq]
    exact ⟨octal.1, Char.le_trans octal.2 (by decide)⟩
  rw [isHexDigit, hexValue?, if_pos decimal]
  rfl

/-- A digit is neither a control character nor a backslash, and fits in a byte. -/
theorem plain_of_isHexDigit {c : Char} (digit : isHexDigit c = true) :
    isControl c = false ∧ c ≠ '\\' ∧ Text.fitsByte c = true := by
  have bounds : 0x30 ≤ c.toNat ∧ c.toNat ≤ 0x66 ∧ c.toNat ≠ 0x5C := by
    simp only [isHexDigit, hexValue?, Text.isAsciiDigit, Bool.and_eq_true, decide_eq_true_eq,
      Char.le_def, UInt32.le_iff_toNat_le, Char.reduceVal, UInt32.reduceToNat] at digit
    have code : c.toNat = c.val.toNat := rfl
    split at digit
    · omega
    · split at digit
      · omega
      · split at digit
        · omega
        · cases digit
  refine ⟨?_, ?_, decide_eq_true (by omega)⟩
  · simp only [isControl, Bool.or_eq_false_iff, decide_eq_false_iff_not, beq_eq_false_iff_ne]
    omega
  · intro backslash
    rw [backslash] at bounds
    exact bounds.2.2 rfl

/-- What an escape takes of the text after its first character are digits. -/
theorem isHexDigit_of_mem_take {first : Char} {after : List Char} :
    ∀ d ∈ after.take (escape first after).2, isHexDigit d = true := by
  have front (p : Char → Bool) :
      after.take ((after.take 2).takeWhile p).length = (after.take 2).takeWhile p := by
    have inside : (after.take 2).takeWhile p <+: after :=
      (List.takeWhile_prefix p).trans (List.take_prefix 2 after)
    exact (List.prefix_iff_eq_take.mp inside).symm
  unfold escape
  split
  · dsimp only
    split
    · nofun
    · rw [front]
      exact fun d taken => List.mem_takeWhile_imp taken
  · split
    · rw [front]
      exact fun d taken => isHexDigit_of_isOctalDigit (List.mem_takeWhile_imp taken)
    · nofun

/-- Escaping control characters changes no digits at the beginning of a text. -/
theorem takeWhile_escapeControls {p : Char → Bool}
    (digits : ∀ c, p c = true → isHexDigit c = true) (cs : List Char) (n : Nat) :
    ((escapeControls cs).take n).takeWhile p = (cs.take n).takeWhile p := by
  have stops : p '\\' = false := by
    cases backslash : p '\\' with
    | false => rfl
    | true => exact absurd rfl (plain_of_isHexDigit (digits _ backslash)).2.1
  induction cs generalizing n with
  | nil => rfl
  | cons c cs ih =>
    cases n with
    | zero => rfl
    | succ n =>
      cases control : isControl c with
      | true =>
        obtain ⟨digit, tail, written, -⟩ := exists_escapeChar control
        have other : p c = false := by
          cases digit : p c with
          | false => rfl
          | true => rw [(plain_of_isHexDigit (digits c digit)).1] at control; cases control
        rw [escapeControls_cons, written, List.cons_append, List.take_succ_cons,
          List.takeWhile_cons_of_neg (by rw [stops]; decide), List.take_succ_cons,
          List.takeWhile_cons_of_neg (by rw [other]; decide)]
      | false =>
        rw [escapeControls_cons_of_not_isControl control, List.take_succ_cons, List.take_succ_cons]
        simp only [List.takeWhile_cons, ih]

/-- An escape is read alike before a text and before the same text with its control characters
escaped. -/
theorem escape_escapeControls (first : Char) (after : List Char) :
    escape first (escapeControls after) = escape first after := by
  unfold escape
  rw [takeWhile_escapeControls (fun _ digit => digit),
    takeWhile_escapeControls fun _ octal => isHexDigit_of_isOctalDigit octal]

theorem drop_escapeControls {cs : List Char} {n : Nat}
    (digits : ∀ d ∈ cs.take n, isHexDigit d = true) :
    (escapeControls cs).drop n = escapeControls (cs.drop n) := by
  induction n generalizing cs with
  | zero => rfl
  | succ n ih =>
    cases cs with
    | nil => rfl
    | cons c cs =>
      obtain ⟨here, later⟩ := List.forall_mem_cons.mp digits
      rw [escapeControls_cons_of_not_isControl (plain_of_isHexDigit here).1, List.drop_succ_cons,
        List.drop_succ_cons, ih later]

theorem escapedControls_cons {c : Char} (notBackslash : c ≠ '\\') (cs : List Char) :
    escapedControls (c :: cs) = escapedControls cs := by
  rw [escapedControls]
  exact fun _ _ same => absurd same notBackslash

theorem escapedControls_drop {cs : List Char} {n : Nat}
    (digits : ∀ d ∈ cs.take n, isHexDigit d = true) :
    escapedControls (cs.drop n) = escapedControls cs := by
  induction n generalizing cs with
  | zero => rfl
  | succ n ih =>
    cases cs with
    | nil => rfl
    | cons c cs =>
      obtain ⟨here, later⟩ := List.forall_mem_cons.mp digits
      rw [List.drop_succ_cons, ih later, escapedControls_cons (plain_of_isHexDigit here).2.1]

/-! ## Control characters -/

/-- The escape of a control character: a backslash and three octal digits that denote it. -/
theorem exists_octal {c : Char} (control : isControl c = true) :
    ∃ x y z, escapeChar c = ['\\', x, y, z] ∧ isOctalDigit x = true ∧ isOctalDigit y = true ∧
      isOctalDigit z = true ∧ Char.ofNat (digitsValue 8 [x, y, z] % 256) = c := by
  have small : c.toNat < 128 := by
    simp only [isControl, Bool.or_eq_true, decide_eq_true_eq, beq_iff_eq] at control
    omega
  have written : ∀ n < 128,
      let digits := List.replicate (3 - (Nat.toDigits 8 n).length) '0' ++ Nat.toDigits 8 n
      digits.length = 3 ∧ digits.all isOctalDigit = true ∧ digitsValue 8 digits % 256 = n := by
    decide
  obtain ⟨three, octal, value⟩ := written c.toNat small
  rw [escapeChar, if_pos control, Text.padded, String.toList_ofList]
  obtain ⟨x, y, z, digits⟩ := List.length_eq_three.mp three
  rw [digits] at octal value ⊢
  simp only [List.all_cons, List.all_nil, Bool.and_true, Bool.and_eq_true] at octal
  exact ⟨x, y, z, rfl, octal.1, octal.2.1, octal.2.2, by rw [value, Char.ofNat_toNat]⟩

/-- A control character that is written as an escape is decoded again. -/
theorem unescape_escapeChar {c : Char} (control : isControl c = true) (rest : List Char) :
    unescape (escapeChar c ++ rest) = c :: unescape rest := by
  obtain ⟨x, y, z, written, first, second, third, value⟩ := exists_octal control
  have notX : (x == 'x') = false := by
    cases same : x == 'x' with
    | false => rfl
    | true => rw [beq_iff_eq.mp same] at first; cases first
  have escaped : escape x (y :: z :: rest) = (c, 2) := by
    rw [escape, notX, first]
    simp [second, third, value]
  rw [written]
  simp only [List.cons_append, List.nil_append]
  rw [unescape, escaped]
  rfl

/-- Behind a backslash, the escape of a control character is decoded as a backslash and three
digits. -/
theorem unescape_backslash_escapeChar {c : Char} (control : isControl c = true) (rest : List Char) :
    ∃ x y z, unescape ('\\' :: escapeChar c ++ rest) = '\\' :: x :: y :: z :: unescape rest := by
  obtain ⟨x, y, z, written, first, second, third, -⟩ := exists_octal control
  have kept {d : Char} (octal : isOctalDigit d = true) (cs : List Char) :
      unescape (d :: cs) = d :: unescape cs := by
    have notBackslash := (plain_of_isHexDigit (isHexDigit_of_isOctalDigit octal)).2.1
    rw [unescape]
    · exact fun same => absurd same notBackslash
    · exact fun _ _ same => absurd same notBackslash
  refine ⟨x, y, z, ?_⟩
  rw [written, show '\\' :: ['\\', x, y, z] ++ rest = '\\' :: '\\' :: x :: y :: z :: rest from rfl,
    unescape, show escape '\\' (x :: y :: z :: rest) = ('\\', 0) from rfl]
  simp only [List.drop_zero, kept first, kept second, kept third]

/-- A backslash before a control character stands for the character. -/
theorem escape_of_isControl {c : Char} (control : isControl c = true) (after : List Char) :
    (escape c after).2 = 0 := by
  have notX : (c == 'x') = false := by
    cases same : c == 'x' with
    | false => rfl
    | true => rw [beq_iff_eq.mp same] at control; cases control
  have notOctal : isOctalDigit c = false := by
    cases octal : isOctalDigit c with
    | false => rfl
    | true =>
      rw [(plain_of_isHexDigit (isHexDigit_of_isOctalDigit octal)).1] at control
      cases control
  rw [escape, notX, notOctal]
  rfl

/-! ## Decoding -/

/-- What is decoded from a literal with its control characters escaped, compared with what is
decoded from the literal itself. -/
theorem unescape_escapeControls (raw : List Char) :
    (unescape (escapeControls raw)).length = (unescape raw).length + 3 * escapedControls raw ∧
      (escapedControls raw = 0 → unescape (escapeControls raw) = unescape raw) := by
  fun_induction unescape raw with
  | case1 => simp [escapeControls, unescape, escapedControls]
  | case2 =>
    rw [escapeControls_cons_of_not_isControl rfl]
    simp [escapeControls, unescape, escapedControls]
  | case3 first after c used escaped ih =>
    cases control : isControl first with
    | true =>
      -- The backslash and that of the escape belong together: three digits are left over.
      have none := escape_of_isControl control after
      rw [escaped] at none
      obtain rfl : used = 0 := none
      obtain ⟨x, y, z, decoded⟩ := unescape_backslash_escapeChar control (escapeControls after)
      rw [List.cons_append, ← escapeControls_cons, ← escapeControls_cons_of_not_isControl rfl]
        at decoded
      rw [List.drop_zero] at ih
      rw [decoded, escapedControls, control, if_pos rfl, List.drop_zero]
      refine ⟨?_, fun absent => by omega⟩
      simp only [List.length_cons, ih.1]
      omega
    | false =>
      -- An escape uses up digits only, and escaping changes no digit, so the same ones are used up.
      have digits : ∀ d ∈ after.take used, isHexDigit d = true := by
        have taken := @isHexDigit_of_mem_take first after
        rwa [escaped] at taken
      have decoded : unescape (escapeControls ('\\' :: first :: after)) =
          c :: unescape (escapeControls (after.drop used)) := by
        rw [escapeControls_cons_of_not_isControl rfl, escapeControls_cons_of_not_isControl control,
          unescape, escape_escapeControls, escaped, ← drop_escapeControls digits]
      rw [escapedControls_drop digits] at ih
      rw [decoded, escapedControls, control, if_neg Bool.false_ne_true, Nat.zero_add]
      refine ⟨?_, fun absent => by rw [ih.2 absent]⟩
      simp only [List.length_cons, ih.1]
      omega
  | case4 c rest notLast notEscape ih =>
    have alone : c = '\\' → rest = [] := by
      intro backslash
      cases rest with
      | nil => rfl
      | cons first after => exact absurd rfl (notEscape first after backslash)
    have notBackslash : c ≠ '\\' := fun backslash => notLast backslash (alone backslash)
    have decoded : unescape (escapeControls (c :: rest)) = c :: unescape (escapeControls rest) := by
      cases control : isControl c with
      | true => rw [escapeControls_cons, unescape_escapeChar control]
      | false =>
        rw [escapeControls_cons_of_not_isControl control, unescape]
        · exact fun same => absurd same notBackslash
        · exact fun _ _ same => absurd same notBackslash
    rw [decoded, escapedControls_cons notBackslash]
    refine ⟨?_, fun absent => by rw [ih.2 absent]⟩
    simp only [List.length_cons, ih.1]
    omega

/-! ## Characters that do not fit in a byte -/

theorem simpleEscape_of_not_fitsByte {c : Char} (wide : Text.fitsByte c = false) :
    simpleEscape c = c := by
  unfold simpleEscape
  split
  all_goals first | rfl | cases wide

/-- Decoding loses no character that does not fit in a byte. -/
theorem fitsByte_of_unescape {cs : List Char}
    (fits : ∀ c ∈ unescape cs, Text.fitsByte c = true) : ∀ c ∈ cs, Text.fitsByte c = true := by
  fun_induction unescape cs with
  | case1 => exact fits
  | case2 => exact fits
  | case3 first after c used escaped ih =>
    obtain ⟨here, later⟩ := List.forall_mem_cons.mp fits
    have digits : ∀ d ∈ after.take used, isHexDigit d = true := by
      have taken := @isHexDigit_of_mem_take first after
      rwa [escaped] at taken
    refine List.forall_mem_cons.mpr ⟨rfl, List.forall_mem_cons.mpr ⟨?_, ?_⟩⟩
    · cases wide : Text.fitsByte first with
      | true => rfl
      | false =>
        have notX : (first == 'x') = false := by
          cases same : first == 'x' with
          | false => rfl
          | true => rw [beq_iff_eq.mp same] at wide; cases wide
        have notOctal : isOctalDigit first = false := by
          cases octal : isOctalDigit first with
          | false => rfl
          | true =>
            rw [(plain_of_isHexDigit (isHexDigit_of_isOctalDigit octal)).2.2] at wide
            cases wide
        rw [escape, notX, notOctal] at escaped
        have same : simpleEscape first = c := congrArg Prod.fst escaped
        rw [simpleEscape_of_not_fitsByte wide] at same
        rw [← wide, same]
        exact here
    · rw [← List.take_append_drop used after]
      exact List.forall_mem_append.mpr
        ⟨fun d taken => (plain_of_isHexDigit (digits d taken)).2.2, ih later⟩
  | case4 c rest _ _ ih =>
    obtain ⟨here, later⟩ := List.forall_mem_cons.mp fits
    exact List.forall_mem_cons.mpr ⟨here, ih later⟩

theorem fitsByte_of_escapeControls {cs : List Char}
    (fits : ∀ c ∈ escapeControls cs, Text.fitsByte c = true) :
    ∀ c ∈ cs, Text.fitsByte c = true := by
  intro c member
  cases control : isControl c with
  | true =>
    simp only [isControl, Bool.or_eq_true, decide_eq_true_eq, beq_iff_eq] at control
    exact decide_eq_true (by omega)
  | false => exact fits c (mem_escapeControls control member)

/-- A literal has bytes exactly if its characters fit in bytes. -/
theorem exists_stringBytes_iff {raw : List Char} :
    (∃ bytes, stringBytes raw = .ok bytes) ↔ ∀ c ∈ raw, Text.fitsByte c = true := by
  rw [stringBytes, Text.exists_encodeLatin_iff]
  exact ⟨fitsByte_of_unescape, fitsByte_unescape⟩

/-- Escaping control characters changes nothing about whether a literal has bytes. -/
theorem exists_stringBytes_escapeControls_iff {raw : List Char} :
    (∃ bytes, stringBytes (escapeControls raw) = .ok bytes) ↔
      ∀ c ∈ raw, Text.fitsByte c = true := by
  rw [exists_stringBytes_iff]
  exact ⟨fitsByte_of_escapeControls, fitsByte_escapeControls⟩

theorem length_of_stringBytes {raw : List Char} {bytes : List UInt8}
    (decoded : stringBytes raw = .ok bytes) : bytes.length = (unescape raw).length := by
  have fits := Text.exists_encodeLatin_iff.mp ⟨bytes, decoded⟩
  rw [stringBytes, Text.encodeLatin_of_fitsByte fits] at decoded
  rw [← Except.ok.inj decoded, List.length_map]

/-- What escaping control characters does to the bytes of a literal.

* If no control character stands right behind a backslash that begins an escape, the literal is
  decoded to the same bytes, or is refused in the same way.
* The literal has bytes after escaping exactly if it has bytes before.
* There are three bytes more for each control character that stands right behind a backslash. -/
theorem stringBytes_escapeControls (raw : List Char) :
    (escapedControls raw = 0 → stringBytes (escapeControls raw) = stringBytes raw) ∧
      ((∃ bytes, stringBytes (escapeControls raw) = .ok bytes) ↔
        ∃ bytes, stringBytes raw = .ok bytes) ∧
      ∀ bytes bytes', stringBytes raw = .ok bytes →
        stringBytes (escapeControls raw) = .ok bytes' →
        bytes'.length = bytes.length + 3 * escapedControls raw := by
  obtain ⟨longer, same⟩ := unescape_escapeControls raw
  refine ⟨fun absent => ?_, ?_, fun bytes bytes' before after => ?_⟩
  · rw [stringBytes, same absent, stringBytes]
  · rw [exists_stringBytes_escapeControls_iff, exists_stringBytes_iff]
  · rw [length_of_stringBytes before, length_of_stringBytes after, longer]

/-- A backslash and a tab are the raw text of a literal. Its only byte is the tab; once the tab is
escaped there are four, a backslash and three digits. -/
theorem stringBytes_escapeControls_tab :
    Lexer.tokensOf "\"\\\t\"" = [⟨.string "\\\t", ⟨0, 4⟩⟩] ∧
      stringBytes ['\\', '\t'] = .ok [9] ∧
      stringBytes (escapeControls ['\\', '\t']) = .ok [92, 48, 49, 49] :=
  ⟨by cbv, by cbv, by cbv⟩

end Assembly

end Reckon
