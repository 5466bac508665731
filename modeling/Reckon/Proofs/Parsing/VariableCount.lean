import Mathlib.Algebra.Order.BigOperators.Group.List
import Mathlib.Data.List.Nodup
import Reckon.Capacity
import Reckon.Proofs.Parsing.Rows
import Reckon.Proofs.Parsing.Slots
import Reckon.Proofs.SourceTrees

/-!
# How many variables a text can have

The table of a program has names that stand in the text, each once (`Grammar.grows_of_derives`), so
their characters together are no more than those of the text (`Program.length_names_le`). There are
few names of one or two characters, so that a text has at most about a third as many variables as
characters (`Program.size_table_lt`).
-/

namespace Reckon

open Grammar

/-- The name that a token is. -/
def Token.name? (t : Token) : Option String :=
  match t.kind with
  | .identifier name => some name
  | _ => none

/-- The names among the tokens, those of routines included. -/
def Token.names (ts : List Token) : List String :=
  ts.filterMap Token.name?

namespace Grammar

/-! ## The names of a derivation -/

/-- The table grows by names among the tokens, and has no name twice. -/
structure Grows (t t' : VariableTable) (ts : List Token) : Prop where
  names : ∃ added, t'.names = t.names ++ added ∧ added.Sublist (Token.names ts)
  nodup : t.names.Nodup → t'.names.Nodup

namespace Grows

variable {t t₁ t' : VariableTable} {ts us : List Token}

theorem refl (t : VariableTable) (ts : List Token) : Grows t t ts :=
  ⟨⟨[], (List.append_nil _).symm, List.nil_sublist _⟩, id⟩

theorem trans (first : Grows t t₁ ts) (second : Grows t₁ t' us) : Grows t t' (ts ++ us) := by
  obtain ⟨added, names, among⟩ := first.names
  obtain ⟨added', names', among'⟩ := second.names
  refine ⟨⟨added ++ added', ?_, ?_⟩, fun nodup => second.nodup (first.nodup nodup)⟩
  · rw [names', names, List.append_assoc]
  · rw [Token.names, List.filterMap_append]
    exact among.append among'

theorem mono (grows : Grows t t' ts) (among : ts.Sublist us) : Grows t t' us := by
  obtain ⟨added, names, inside⟩ := grows.names
  exact ⟨⟨added, names, inside.trans (among.filterMap _)⟩, grows.nodup⟩

theorem resolve (t : VariableTable) (name : String) (span : Span) :
    Grows t (t.resolve name).2 [⟨.identifier name, span⟩] := by
  rw [VariableTable.resolve_eq]
  dsimp only
  split
  · exact refl _ _
  · next unknown =>
    refine ⟨⟨[name], rfl, List.Sublist.refl _⟩, fun nodup => ?_⟩
    exact List.nodup_append.mpr ⟨nodup, List.nodup_singleton _, fun a known b new same => by
      rw [List.mem_singleton.mp new] at same
      exact unknown (same ▸ known)⟩

/-- The table grows by the names of both operands. -/
theorem operation {sign : Token} (left : Grows t t₁ ts) (right : Grows t₁ t' us) :
    Grows t t' (ts ++ sign :: us) :=
  left.trans (right.mono (List.sublist_cons_self sign us))

end Grows

mutual

theorem grows_of_derives {c : Category} {t t' : VariableTable} {ts : List Token} {e : Expr} :
    Derives c t ts e t' → Grows t t' ts
  | .sum derived | .product derived | .primary derived => grows_of_derives derived
  | .assignment _ left right | .additive _ _ left right | .multiplicative _ _ left right =>
    (grows_of_derives left).operation (grows_of_derives right)
  | .number .. | .string .. | .bareCall .. => .refl _ _
  | .name name span => .resolve _ name span
  | .call _ _ _ _ derived =>
    (grows_of_derivesArguments derived).mono
      (((List.sublist_append_left _ _).cons _).cons _)
  | .group _ _ derived =>
    (grows_of_derives derived).mono ((List.sublist_append_left _ _).cons _)

theorem grows_of_derivesArguments {t t' : VariableTable} {ts : List Token} {es : List Expr} :
    DerivesArguments t ts es t' → Grows t t' ts
  | .first derived => grows_of_derives derived
  | .next _ front last => (grows_of_derivesArguments front).operation (grows_of_derives last)

end

theorem grows_of_derivesProgram {ts : List Token} {statements : List Expr} {t : VariableTable}
    (derived : DerivesProgram ts statements t) : Grows .empty t ts := by
  induction derived with
  | empty => exact .refl _ _
  | statement _ _ last ih =>
    exact ih.trans ((grows_of_derives last).mono (List.sublist_append_left _ _))

end Grammar

/-! ## The characters of names -/

/-- A token that is a name has the text of the name. -/
theorem Lexeme.length_le_of_name? {l : Lexeme} {name : String} {span : Span}
    (isName : Token.name? ⟨l.kind, span⟩ = some name) : name.length ≤ l.text.length := by
  cases l with
  | name first more =>
    cases isName
    rw [String.length_ofList]
    exact Nat.le_refl _
  | sign c kind listed =>
    simp only [signs, List.mem_cons, List.not_mem_nil, or_false, Prod.mk.injEq] at listed
    rcases listed with ⟨-, rfl⟩ | ⟨-, rfl⟩ | ⟨-, rfl⟩ | ⟨-, rfl⟩ | ⟨-, rfl⟩ | ⟨-, rfl⟩ | ⟨-, rfl⟩ |
      ⟨-, rfl⟩ | ⟨-, rfl⟩ <;> cases isName
  | numeral | blank | literal => cases isName

/-- The names of a row of lexemes have no more characters than the row. -/
theorem Lexeme.length_names_le (start : Nat) (ls : List Lexeme) :
    ((Token.names (solidFrom start ls)).map String.length).sum ≤ (written ls).length := by
  induction ls generalizing start with
  | nil => exact Nat.le_refl _
  | cons l ls ih =>
    have rest := ih (start + l.text.length)
    rw [length_written_cons]
    by_cases blank : l.kind = .whitespace
    · rw [solidFrom_cons_of_blank blank]
      omega
    · rw [solidFrom_cons_of_solid blank, Token.names, List.filterMap_cons]
      split
      · exact Nat.le_trans rest (Nat.le_add_left ..)
      · next name isName =>
        have here := length_le_of_name? isName
        rw [List.map_cons, List.sum_cons]
        exact Nat.add_le_add here rest

/-! ## Short names -/

/-- The characters of ASCII. -/
def asciiChars : List Char := (List.range 128).map Char.ofNat

/-- The texts of one or two ASCII characters. -/
def shortTexts : List String :=
  asciiChars.map (fun c => String.ofList [c]) ++
    asciiChars.flatMap fun c => asciiChars.map fun d => String.ofList [c, d]

theorem length_shortTexts : shortTexts.length = 16512 := by
  simp [shortTexts, asciiChars, List.length_flatMap, Function.comp_def]

theorem mem_asciiChars {c : Char} (inName : Lexer.isNameChar c = true) : c ∈ asciiChars := by
  have small : c.toNat < 128 := by
    simp only [Lexer.isNameChar, Lexer.isNameStart, Text.isAsciiLetter, Text.isAsciiDigit,
      Bool.or_eq_true, Bool.and_eq_true, decide_eq_true_eq, beq_iff_eq, Char.le_def,
      UInt32.le_iff_toNat_le] at inName
    have bounds : 'z'.val.toNat = 122 ∧ 'Z'.val.toNat = 90 ∧ '9'.val.toNat = 57 ∧
        '_'.val.toNat = 95 := by decide
    show c.val.toNat < 128
    rcases inName with ((⟨-, high⟩ | ⟨-, high⟩) | rfl) | ⟨-, high⟩ <;> omega
  exact List.mem_map.mpr ⟨c.toNat, List.mem_range.mpr small, Char.ofNat_toNat c⟩

/-- A name of at most two characters is one of the short texts. -/
theorem mem_shortTexts {name : String} (isName : isName name.toList = true)
    (short : name.length ≤ 2) : name ∈ shortTexts := by
  have whole : String.ofList name.toList = name := String.ofList_toList
  rw [← String.length_toList] at short
  rw [← whole]
  generalize name.toList = cs at isName short
  cases cs with
  | nil => cases isName
  | cons c rest =>
    obtain ⟨begins, continues⟩ := Bool.and_eq_true_iff.mp isName
    have first := mem_asciiChars (Lexer.isNameChar_of_isNameStart begins)
    cases rest with
    | nil => exact List.mem_append_left _ (List.mem_map.mpr ⟨c, first, rfl⟩)
    | cons d rest =>
      rw [List.length_cons, List.length_cons] at short
      obtain rfl : rest = [] := List.eq_nil_of_length_eq_zero (by omega)
      have second := mem_asciiChars (List.all_eq_true.mp continues d List.mem_cons_self)
      refine List.mem_append_right _ (List.mem_flatMap.mpr ⟨c, first, ?_⟩)
      exact List.mem_map.mpr ⟨d, second, rfl⟩

/-- Different names have about three characters each, or more. -/
theorem three_mul_length_le {names : List String} (nodup : names.Nodup)
    (areNames : ∀ name ∈ names, isName name.toList = true) :
    3 * names.length ≤ (names.map String.length).sum + 2 * 16512 := by
  have few : (names.filter fun name => name.length ≤ 2).length ≤ 16512 := by
    rw [← length_shortTexts]
    refine (nodup.filter _).length_le_of_subset fun name member => ?_
    obtain ⟨listed, short⟩ := List.mem_filter.mp member
    exact mem_shortTexts (areNames name listed) (of_decide_eq_true short)
  have counted : 3 * names.length ≤ (names.map String.length).sum +
      2 * (names.filter fun name => name.length ≤ 2).length := by
    clear few nodup
    induction names with
    | nil => exact Nat.le_refl _
    | cons name names ih =>
      obtain ⟨here, later⟩ := List.forall_mem_cons.mp areNames
      have rest := ih later
      have nonempty : 0 < name.length := by
        rw [← String.length_toList]
        cases empty : name.toList with
        | nil =>
          rw [empty] at here
          cases here
        | cons => exact Nat.succ_pos _
      rw [List.map_cons, List.sum_cons, List.length_cons, List.filter_cons]
      split
      · rw [List.length_cons]
        omega
      · next long =>
        have : 2 < name.length := by simpa using long
        omega
  omega

/-! ## The table of a source text -/

namespace Program

variable {source : String} {program : Program}

theorem isName_of_mem_names (parsed : (Parsing.ofSource source).result = .ok program) :
    ∀ name ∈ program.table.names, isName name.toList = true := by
  obtain ⟨added, names, among⟩ := (grows_of_derivesProgram (isProgram_of_ofSource parsed)).names
  intro name member
  rw [names] at member
  obtain ⟨t, token, isName⟩ := List.mem_filterMap.mp (among.subset member)
  have lexical := Lexer.lexical_of_mem_tokensOf token
  unfold Token.name? at isName
  split at isName
  · next name' kind =>
    cases isName
    rw [kind] at lexical
    exact lexical
  · cases isName

/-- The names of the variables have no more characters than the text. -/
theorem length_names_le (parsed : (Parsing.ofSource source).result = .ok program) :
    (program.table.names.map String.length).sum ≤ source.length := by
  obtain ⟨added, names, among⟩ := (grows_of_derivesProgram (isProgram_of_ofSource parsed)).names
  obtain ⟨clean, -⟩ := Parsing.result_eq_ok_iff.mp parsed
  obtain ⟨ls, -, whole, tokens⟩ := Lexer.exists_lexemes_of_failureOf? clean
  rw [tokens] at among
  have row := Lexeme.length_names_le 0 ls
  rw [← whole, String.length_toList] at row
  rw [names]
  exact ((among.map String.length).sum_le_sum fun _ _ => Nat.zero_le _).trans row

/-- A text whose length is an index has far fewer variables than would fill an address space. -/
theorem size_table_lt (parsed : (Parsing.ofSource source).result = .ok program)
    (short : (source.length : Int) < indexLimit) : program.table.size + 8 ≤ 2 ^ 62 := by
  have nodup := (grows_of_derivesProgram (isProgram_of_ofSource parsed)).nodup List.nodup_nil
  have counted := three_mul_length_le nodup (isName_of_mem_names parsed)
  have within := length_names_le parsed
  have size : program.table.size = program.table.names.length := rfl
  unfold indexLimit at short
  omega

end Program

end Reckon
