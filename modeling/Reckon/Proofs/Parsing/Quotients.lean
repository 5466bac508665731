import Reckon.Proofs.Likeness
import Reckon.Proofs.Parsing.Parentheses
import Reckon.Proofs.Parsing.Reparsing

/-!
# The text of a quotient

Two texts that are each an expression make a quotient when they are put into parentheses with a
slash between them. Its operands are the expressions that the texts are by themselves, up to places
and slots: a variable that occurs in both texts has one slot in the quotient. `Expr.outline` is what
is left of a tree without its places and slots.

Main statement: the text of a quotient is read as the quotient of its operands
(`Parsing.exists_quotient`).
-/

namespace Reckon

open Grammar

/-! ## Outlines -/

/-- The expression without its places and slots. -/
def Expr.outline (e : Expr) : Expr :=
  e.relabel (fun _ => .eof) fun _ => 0

namespace Expr

variable {place : Span → Span} {slot : Int → Int}

theorem relabelAll_eq_map (es : List Expr) :
    relabelAll place slot es = es.map (relabel place slot) := by
  induction es with
  | nil => rfl
  | cons e es ih => rw [relabelAll, ih, List.map_cons]

mutual

/-- Other places and slots leave the outline as it is. -/
theorem outline_relabel : ∀ e : Expr, (e.relabel place slot).outline = e.outline
  | .number .. | .string .. | .var .. | .hole _ => rfl
  | .binary _ _ left right _ =>
    congrArg₂ (Expr.binary _ _ · · _) (outline_relabel left) (outline_relabel right)
  | .call _ arguments _ => congrArg (Expr.call _ · _) (outlineAll_relabelAll arguments)
  | .block statements => congrArg Expr.block (outlineAll_relabelAll statements)

theorem outlineAll_relabelAll : ∀ es : List Expr,
    relabelAll (fun _ => .eof) (fun _ => 0) (relabelAll place slot es) =
      relabelAll (fun _ => .eof) (fun _ => 0) es
  | [] => rfl
  | e :: rest => congrArg₂ List.cons (outline_relabel e) (outlineAll_relabelAll rest)

end

theorem outline_call (name : String) (arguments : List Expr) (span : Span) :
    (call name arguments span).outline = .call name (arguments.map outline) .eof :=
  congrArg (Expr.call name · .eof) (relabelAll_eq_map arguments)

theorem outline_withSpan (e : Expr) (span : Span) : (e.withSpan span).outline = e.outline := by
  cases e <;> rfl

/-- Trees that differ in spans only have the same outline. -/
theorem Alike.outline_eq {e e' : Expr} (alike : e.Alike Eq e') : e.outline = e'.outline := by
  induction alike with
  | number | var => rfl
  | string _ _ same => rw [same]; rfl
  | binary operator _ _ _ _ _ _ left right =>
    exact congrArg₂ (Expr.binary operator _ · · _) left right
  | @call arguments arguments' name _ _ length _ ih =>
    have outlines : arguments.map outline = arguments'.map outline := by
      rw [← List.forall₂_eq_eq_eq, List.forall₂_map_left_iff, List.forall₂_map_right_iff]
      exact List.forall₂_iff_zip.mpr ⟨length, fun member => ih _ member⟩
    rw [outline_call, outline_call, outlines]

end Expr

/-! ## Derivations elsewhere -/

namespace Lexeme

theorem alike_solidFrom (start start' : Nat) (ls : List Lexeme) :
    List.Forall₂ (Token.Alike Eq) (solidFrom start ls) (solidFrom start' ls) := by
  refine (displaced_solidFrom start start' ls).imp fun t t' displaced => ?_
  rw [Token.Alike, ← displaced.kind]
  cases t.kind with
  | string raw => exact .string rfl
  | _ => exact .same rfl

end Lexeme

namespace Grammar

/-- The tokens of a row derive the same tree elsewhere, up to places and slots, whatever variables
are known there. -/
theorem exists_derives_elsewhere {c : Category} {t t' : VariableTable} {ls : List Lexeme}
    {e : Expr} {start : Nat} (derived : Derives c t (Lexeme.solidFrom start ls) e t')
    (u : VariableTable) (start' : Nat) :
    ∃ e' u', Derives c u (Lexeme.solidFrom start' ls) e' u' ∧ e'.outline = e.outline := by
  let w := u.resolveAll e.names
  let slot : Int → Int := fun index => w.names.idxOf (t'.names.getD index.toNat "")
  have resolves := resolves_of_derives derived
  have slots : ∀ v ∈ e.references, slot v.1 = w.names.idxOf v.2 := by
    intro v member
    have known := resolves.mem_names member
    have name : t'.names.getD v.1.toNat "" = v.2 := by
      rw [resolves.found v member, Int.toNat_natCast,
        List.getD_eq_getElem _ _ (List.idxOf_lt_length_of_mem known), List.getElem_idxOf]
    show (w.names.idxOf (t'.names.getD v.1.toNat "") : Int) = _
    rw [name]
  have moves : Moves 0 slot w (Lexeme.solidFrom start ls) e.references u :=
    ⟨Lexeme.ordered_solidFrom start ls, Int.le_refl 0, fun t member =>
      Int.le_trans (Int.natCast_nonneg start) (Lexeme.le_start_of_mem_solidFrom member), slots,
      List.prefix_rfl⟩
  have unmoved : (Lexeme.solidFrom start ls).map (Token.shift 0) = Lexeme.solidFrom start ls := by
    refine List.map_id'' (fun t => ?_) _
    simp [Token.shift, Span.shift]
  have again := derives_of_moves derived moves
  rw [unmoved] at again
  obtain ⟨e', derived', alike⟩ :=
    exists_derives_of_alike again (Lexeme.alike_solidFrom start start' ls)
  exact ⟨e', _, derived', by rw [← alike.outline_eq, Expr.outline_relabel]⟩

theorem eq_nil_of_derivesProgram {ts : List Token} {t : VariableTable}
    (derived : DerivesProgram ts [] t) : ts = [] ∧ t = .empty := by
  generalize none : ([] : List Expr) = statements at derived
  cases derived with
  | empty => exact ⟨rfl, rfl⟩
  | statement => exact absurd none (by simp)

/-- A program with one statement is this statement and a semicolon. -/
theorem exists_of_derivesProgram_singleton {ts : List Token} {e : Expr} {t : VariableTable}
    (derived : DerivesProgram ts [e] t) :
    ∃ us span, ts = us ++ [⟨.semicolon, span⟩] ∧ Derives .assignment .empty us e t := by
  generalize one : [e] = statements at derived
  cases derived with
  | empty => cases one
  | @statement _ _ ts us statements e' semicolon front last =>
    obtain ⟨rfl, same⟩ := List.append_inj' (show [] ++ [e] = statements ++ [e'] from one) rfl
    obtain rfl := List.singleton_inj.mp same
    obtain ⟨rfl, rfl⟩ := eq_nil_of_derivesProgram front
    exact ⟨us, semicolon, List.nil_append _, last⟩

end Grammar

/-! ## Texts -/

namespace Lexeme

/-- Only one lexeme ends with a semicolon. -/
theorem eq_semicolon_of_getLast? {l : Lexeme} (last : l.text.getLast? = some ';') :
    l = Parsing.semicolon := by
  have member : ';' ∈ l.text := List.mem_of_getLast? last
  cases l with
  | sign c kind listed =>
    cases List.mem_singleton.mp member
    simp only [signs, List.mem_cons, Prod.mk.injEq, List.not_mem_nil, or_false] at listed
    obtain rfl : kind = .semicolon := by simpa using listed
    rfl
  | numeral digits _ decimal => exact absurd (decimal _ member) (by decide)
  | name first more begins continues =>
    rcases List.mem_cons.mp member with rfl | later
    · exact absurd begins (by decide)
    · exact absurd (continues _ later) (by decide)
  | blank row _ blank => exact absurd (blank _ member) (by decide)
  | literal raw =>
    rw [text, List.getLast?_append_of_ne_nil _ (List.cons_ne_nil _ _)] at last
    cases last

theorem exists_of_written_semicolon {ls : List Lexeme} {cs : List Char}
    (whole : cs ++ [';'] = written ls) :
    ∃ ms, ls = ms ++ [Parsing.semicolon] ∧ cs = written ms := by
  rcases List.eq_nil_or_concat ls with rfl | ⟨ms, l, rfl⟩
  · simp [written] at whole
  · have single : written [l] = l.text := by simp [written]
    rw [List.concat_eq_append, written_append, single] at whole
    have last : l.text.getLast? = some ';' := by
      rw [← List.getLast?_append_of_ne_nil (written ms) (Lexer.text_ne_nil_of_lexeme l), ← whole,
        List.getLast?_concat]
    obtain rfl := eq_semicolon_of_getLast? last
    exact ⟨ms, List.concat_eq_append, List.append_cancel_right whole⟩

/-- The lexeme of one space. -/
def space : Lexeme := .blank [' '] (List.cons_ne_nil _ _) (by simp [blanks])

/-- The lexeme of a slash. -/
def slash : Lexeme := .sign '/' .slash (by simp [signs])

/-- The row of a quotient whose operands are the given rows. -/
def quotient (ls ms : List Lexeme) : List Lexeme :=
  opening :: (ls ++ closing :: space :: slash :: space :: opening :: (ms ++ [closing]))

theorem isChain_quotient {ls ms : List Lexeme} (apart : ls.IsChain Apart)
    (apart' : ms.IsChain Apart) : (quotient ls ms).IsChain Apart := by
  have second : (opening :: (ms ++ [closing])).IsChain Apart :=
    List.isChain_cons.mpr ⟨fun _ _ => trivial, isChain_append_sign _ apart' .nil⟩
  have behind : (space :: slash :: space :: opening :: (ms ++ [closing])).IsChain Apart :=
    .cons_cons trivial (.cons_cons trivial (.cons_cons trivial second))
  exact List.isChain_cons.mpr ⟨fun _ _ => trivial, isChain_append_sign _ apart behind⟩

/-- The tokens of a quotient. -/
theorem exists_solidFrom_quotient (start : Nat) (ls ms : List Lexeme) :
    ∃ o c s o' c' start₁ start₂, solidFrom start (quotient ls ms) =
      (⟨.openParen, o⟩ :: (solidFrom start₁ ls ++ [⟨.closeParen, c⟩])) ++
        ⟨.slash, s⟩ :: ⟨.openParen, o'⟩ :: (solidFrom start₂ ms ++ [⟨.closeParen, c'⟩]) := by
  have isOpening : opening.kind ≠ .whitespace := by
    intro same
    cases same
  have isClosing : closing.kind ≠ .whitespace := by
    intro same
    cases same
  have isSlash : slash.kind ≠ .whitespace := by
    intro same
    cases same
  rw [quotient, solidFrom_cons_of_solid isOpening, solidFrom_append,
    solidFrom_cons_of_solid isClosing, solidFrom_cons_of_blank rfl, solidFrom_cons_of_solid isSlash,
    solidFrom_cons_of_blank rfl, solidFrom_cons_of_solid isOpening, solidFrom_append,
    solidFrom_cons_of_solid isClosing]
  simp only [List.cons_append, List.append_assoc]
  exact ⟨_, _, _, _, _, _, _, rfl⟩

theorem ofList_written_quotient {text text' : String} {ls ms : List Lexeme}
    (first : text.toList = written ls) (second : text'.toList = written ms) :
    String.ofList (written (quotient ls ms)) = "(" ++ text ++ ") / (" ++ text' ++ ")" := by
  rw [← String.toList_inj, String.toList_ofList]
  simp only [String.toList_append, first, second, quotient, written, List.flatMap_cons,
    List.flatMap_append]
  simp [Lexeme.text, opening, closing, slash, space]

end Lexeme

/-- The row of a quotient derives the quotient of what its operands derive. -/
theorem Grammar.exists_derives_quotient {t t' : VariableTable} {ls ms : List Lexeme}
    {left₀ right₀ : Expr} (derived : Derives .assignment .empty (Lexeme.solidFrom 0 ls) left₀ t)
    (derived' : Derives .assignment .empty (Lexeme.solidFrom 0 ms) right₀ t') :
    ∃ sign left right span u,
      Derives .assignment .empty (Lexeme.solidFrom 0 (Lexeme.quotient ls ms))
        (.binary .divide sign left right span) u ∧
      left.outline = left₀.outline ∧ right.outline = right₀.outline := by
  obtain ⟨o, c, s, o', c', start₁, start₂, tokens⟩ := Lexeme.exists_solidFrom_quotient 0 ls ms
  obtain ⟨left, u, derivedLeft, sameLeft⟩ := exists_derives_elsewhere derived .empty start₁
  obtain ⟨right, u', derivedRight, sameRight⟩ := exists_derives_elsewhere derived' u start₂
  rw [tokens]
  refine ⟨s, _, _, _, u', .sum (.product (.multiplicative s .slash
    (.primary (.group o c derivedLeft)) (.group o' c' derivedRight))), ?_, ?_⟩
  · rw [Expr.outline_withSpan, sameLeft]
  · rw [Expr.outline_withSpan, sameRight]

namespace Parsing

/-- A text that is read, with a semicolon behind it, as one statement is a row of lexemes that
derives this statement. -/
theorem exists_row_of_statement {text : String} {e : Expr} {t : VariableTable}
    (parsed : (ofSource (text ++ ";")).result = .ok ⟨[e], t⟩) :
    ∃ ls : List Lexeme, ls.IsChain Lexeme.Apart ∧ text.toList = Lexeme.written ls ∧
      Derives .assignment .empty (Lexeme.solidFrom 0 ls) e t := by
  obtain ⟨clean, derived⟩ := result_eq_ok_iff.mp parsed
  obtain ⟨ls, apart, whole, tokens⟩ := Lexer.exists_lexemes_of_failureOf? clean
  rw [String.toList_append] at whole
  obtain ⟨ms, rfl, written⟩ := Lexeme.exists_of_written_semicolon whole
  obtain ⟨us, span, split, statement⟩ := exists_of_derivesProgram_singleton derived
  rw [tokens, Lexeme.solidFrom_append] at split
  obtain ⟨rfl, -⟩ := List.append_inj' split rfl
  exact ⟨ms, (List.isChain_append.mp apart).1, written, statement⟩

/-- The text of a quotient is read as the quotient of its operands. -/
theorem exists_quotient {text text' : String} {left₀ right₀ : Expr} {t t' : VariableTable}
    (parsed : (ofSource (text ++ ";")).result = .ok ⟨[left₀], t⟩)
    (parsed' : (ofSource (text' ++ ";")).result = .ok ⟨[right₀], t'⟩) :
    ∃ sign left right span u,
      (ofSource ("(" ++ text ++ ") / (" ++ text' ++ ");")).result =
        .ok ⟨[.binary .divide sign left right span], u⟩ ∧
      left.outline = left₀.outline ∧ right.outline = right₀.outline := by
  obtain ⟨ls, apart, written, derived⟩ := exists_row_of_statement parsed
  obtain ⟨ms, apart', written', derived'⟩ := exists_row_of_statement parsed'
  obtain ⟨sign, left, right, span, u, quotient, outlines⟩ :=
    exists_derives_quotient derived derived'
  have read := ofSource_statement (Lexeme.isChain_quotient apart apart') quotient
  rw [Lexeme.ofList_written_quotient written written', String.append_assoc,
    show ")" ++ ";" = ");" from rfl] at read
  exact ⟨sign, left, right, span, u, read, outlines⟩

end Parsing

end Reckon
