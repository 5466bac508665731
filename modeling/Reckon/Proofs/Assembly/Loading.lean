import Reckon.Proofs.Assembly.Escapes
import Reckon.Proofs.Assembly.ReadBack

/-!
# Which compiled programs can be loaded

The text of a compiled program is refused for the sake of its string literals only. A literal with a
character above U+00FF has no bytes. A literal with one of the line breaks that are no control
characters (U+0085, U+2028 and U+2029) is cut there, and its directive is left without the closing
quote, unless an escaped quote happens to stand before the cut.

Main statement: if no literal holds both an escaped quote and such a line break, the text of a
compiled program is read without fault exactly if its literals consist of characters up to U+00FF
other than U+0085 (`Compilation.exists_ofText_iff`).
-/

namespace Reckon

open Assembly

namespace Code

/-! ## Literals that are cut -/

/-- A literal in which a line ends is written with a line break that is no control character. -/
theorem exists_break {raw : List Char} (broken : ∃ c ∈ raw, isUnbroken c = false) :
    ∃ before b after, escapeControls raw = before ++ b :: after ∧
      (∀ d ∈ before, Text.isLineBreak d = false) ∧ Text.isLineBreak b = true ∧ b ≠ '\r' := by
  obtain ⟨c, inside, broken⟩ := broken
  obtain ⟨solid, breaks⟩ := Bool.or_eq_false_iff.mp broken
  have found : ((escapeControls raw).find? Text.isLineBreak).isSome = true := by
    rw [List.find?_isSome]
    exact ⟨c, mem_escapeControls solid inside, by simpa using breaks⟩
  obtain ⟨b, first⟩ := Option.isSome_iff_exists.mp found
  obtain ⟨breaks, before, after, divided, unbroken⟩ := List.find?_eq_some_iff_append.mp first
  refine ⟨before, b, after, divided, fun d member => by simpa using unbroken d member, breaks, ?_⟩
  intro isReturn
  have written : b ∈ escapeControls raw := by rw [divided]; simp
  rcases of_mem_escapeControls written with ⟨-, solid⟩ | backslash | digit
  · rw [isReturn] at solid
    cases solid
  · rw [isReturn] at backslash
    cases backslash
  · rw [isReturn] at digit
    cases digit

theorem quote_mem_of_mem_escapeControls {cs : List Char} (written : '\x22' ∈ escapeControls cs) :
    '\x22' ∈ cs := by
  rcases of_mem_escapeControls written with ⟨inside, -⟩ | backslash | digit
  · exact inside
  · cases backslash
  · cases digit

/-- The directive of a literal that is cut by a line break, and that has no quote before it. -/
def Line.Unclosed (line : Line) : Prop :=
  ∃ raw, line = .directive ".string" (some (quoted raw)) ∧
    (∃ c ∈ raw.toList, isUnbroken c = false) ∧ '\x22' ∉ raw.toList

end Code

namespace Assembly

/-! ## What is left of a cut literal -/

theorem isSymbol_of_mem_space {cs : List Char} (space : ' ' ∈ cs) : isSymbol cs = false := by
  cases cs with
  | nil => cases space
  | cons first rest =>
    rw [isSymbol, Bool.and_eq_false_iff]
    rcases List.mem_cons.mp space with rfl | later
    · exact .inl (by decide)
    · refine .inr (Bool.eq_false_iff.mpr fun all => ?_)
      have symbol := List.all_eq_true.mp all ' ' later
      exact absurd symbol (by decide +kernel)

theorem label?_of_mem_space {cs : List Char} (space : ' ' ∈ cs) : label? cs = none := by
  unfold label?
  split
  · next before same =>
    have divided : cs = before.reverse ++ [':'] := by
      rw [← List.reverse_reverse cs, same, List.reverse_cons]
    have kept : ' ' ∈ before.reverse := by
      rw [divided] at space
      rcases List.mem_append.mp space with kept | colon
      · exact kept
      · cases List.mem_singleton.mp colon
    rw [isSymbol_of_mem_space kept, if_neg Bool.false_ne_true]
  · rfl

theorem quotedBody?_of_unquoted {cs : List Char} (unquoted : '\x22' ∉ cs) :
    quotedBody? ('\x22' :: cs) = none := by
  unfold quotedBody?
  split
  · next rest same =>
    obtain rfl : cs = rest := (List.cons.inj same).2
    split
    · next body last =>
      refine absurd ?_ unquoted
      rw [← List.mem_reverse, last]
      exact List.mem_cons_self
    · rfl
  · rfl

/-- No remark begins behind a quote that is not closed. -/
theorem withoutCommentFrom_unquoted {cs : List Char} (unquoted : '\x22' ∉ cs) (escaped : Bool) :
    withoutCommentFrom true escaped cs = cs := by
  induction cs generalizing escaped with
  | nil => rfl
  | cons c cs ih =>
    obtain ⟨notQuote, later⟩ := not_or.mp fun member => unquoted (List.mem_cons.mpr member)
    have solid : (c == '\x22') = false := beq_eq_false_iff_ne.mpr fun same => notQuote same.symm
    rw [withoutCommentFrom]
    simp [ih later, solid]

/-- A string directive whose quote is not closed is refused. -/
theorem readLine_unclosed {cs : List Char} (unquoted : '\x22' ∉ cs) (s : ReaderState)
    (number : Nat) :
    ∃ text, s.readLine number (Code.indent.toList ++ (".string".toList ++ ' ' :: '\x22' :: cs)) =
      .error (.onLine number (.malformedString text)) := by
  have uncut : withoutComment (Code.indent.toList ++ (".string".toList ++ ' ' :: '\x22' :: cs)) =
      Code.indent.toList ++ (".string".toList ++ ' ' :: '\x22' :: cs) := by
    rw [withoutComment, withoutCommentFrom_code code_of_indent,
      withoutCommentFrom_code fun c member =>
        code_of_isPlain (Text.forall_mem_of_all (by decide) c member)]
    show _ ++ (_ ++ ' ' :: '\x22' :: withoutCommentFrom true false cs) = _
    rw [withoutCommentFrom_unquoted unquoted]
  have trimmed : Text.trim (Code.indent.toList ++ (".string".toList ++ ' ' :: '\x22' :: cs)) =
      ".string".toList ++ ' ' :: '\x22' :: Text.trimRight cs := by
    rw [Text.trim, List.dropWhile_append_of_pos isBlank_of_indent,
      Text.dropWhile_isBlank fun c first => by cases first; decide]
    exact Text.trimRight_append (by decide) ".string ".toList cs
  have argument : Text.trim (' ' :: '\x22' :: Text.trimRight cs) =
      '\x22' :: Text.trimRight (Text.trimRight cs) :=
    Text.trimRight_append (by decide) [] (Text.trimRight cs)
  have unclosed : '\x22' ∉ Text.trimRight (Text.trimRight cs) := fun member =>
    unquoted (Text.mem_of_mem_trimRight (Text.mem_of_mem_trimRight member))
  have unlabelled : label? (".string".toList ++ ' ' :: '\x22' :: Text.trimRight cs) = none :=
    label?_of_mem_space (by simp)
  have read : s.readLine number (Code.indent.toList ++ (".string".toList ++ ' ' :: '\x22' :: cs)) =
      s.direct number ".string" ('\x22' :: Text.trimRight (Text.trimRight cs)) := by
    rw [ReaderState.readLine, uncut, trimmed, ← argument]
    simp only [unlabelled]
    rfl
  rw [read, ReaderState.direct, quotedBody?_of_unquoted unclosed]
  exact ⟨_, rfl⟩

/-- The first line of the text of a cut literal is refused, and the rest begins a new line. -/
theorem exists_cut {line : Code.Line} (unclosed : line.Unclosed) (rest : List Char) :
    ∃ first others, Text.lines (line.render.toList ++ '\n' :: rest) = first :: others ∧
      ∀ (s : ReaderState) (number : Nat), ∃ fault, s.readLine number first = .error fault := by
  obtain ⟨raw, rfl, broken, unquoted⟩ := unclosed
  obtain ⟨before, b, after, written, unbroken, breaks, notReturn⟩ := Code.exists_break broken
  have shut : '\x22' ∉ before := by
    intro member
    refine unquoted (Code.quote_mem_of_mem_escapeControls ?_)
    rw [written]
    exact List.mem_append_left _ member
  have text :
      (Code.Line.directive ".string" (some (Code.quoted raw))).render.toList ++ '\n' :: rest =
      (Code.indent.toList ++ (".string".toList ++ ' ' :: '\x22' :: before)) ++
        b :: (after ++ '\x22' :: '\n' :: rest) := by
    rw [Code.Line.render]
    simp only [String.toList_append, Code.toList_quoted, written]
    simp [toList_padRight, show ".string".length = 7 from rfl]
  have whole : ∀ c ∈ Code.indent.toList ++ (".string".toList ++ ' ' :: '\x22' :: before),
      Text.isLineBreak c = false := by
    simp only [List.forall_mem_append, List.forall_mem_cons]
    exact ⟨isLineBreak_of_indent, Text.forall_mem_of_any (by decide), by decide, by decide,
      unbroken⟩
  rw [text, Text.lines_append whole breaks notReturn]
  refine ⟨_, _, rfl, fun s number => ?_⟩
  obtain ⟨text, refused⟩ := readLine_unclosed shut s number
  exact ⟨_, refused⟩

/-- Lines are refused if all can be read but for cut literals, of which there is one. -/
theorem readLines_of_unclosed {lines : List Code.Line}
    (each : ∀ line ∈ lines, line.Readable ∨ line.Unclosed) (cut : ∃ line ∈ lines, line.Unclosed)
    (s : ReaderState) (number : Nat) :
    ∃ fault, s.readLines number
      (Text.lines (lines.flatMap fun line => line.render.toList ++ ['\n'])) = .error fault := by
  induction lines generalizing s number with
  | nil =>
    obtain ⟨line, member, -⟩ := cut
    cases member
  | cons line lines ih =>
    have later := fun l member => each l (List.mem_cons_of_mem line member)
    rw [List.flatMap_cons, List.append_assoc, List.singleton_append]
    by_cases here : line.Unclosed
    · obtain ⟨first, others, divided, refused⟩ := exists_cut here
        (lines.flatMap fun line => line.render.toList ++ ['\n'])
      obtain ⟨fault, refused⟩ := refused s number
      rw [divided, ReaderState.readLines, refused]
      exact ⟨fault, rfl⟩
    · have readable := (each line List.mem_cons_self).resolve_right here
      have cut : ∃ l ∈ lines, l.Unclosed := by
        obtain ⟨l, member, unclosed⟩ := cut
        rcases List.mem_cons.mp member with rfl | member
        · exact absurd unclosed here
        · exact ⟨l, member, unclosed⟩
      rw [Text.lines_append (isLineBreak_of_render readable) rfl (by decide),
        ReaderState.readLines]
      cases s.readLine number line.render.toList with
      | error fault => exact ⟨fault, rfl⟩
      | ok s' => exact ih later cut s' (number + 1)

/-- Lines that can be read are read before the text that follows them. -/
theorem readLines_append {lines : List Code.Line} (readable : ∀ line ∈ lines, line.Readable)
    {s s' : ReaderState} {number : Nat} (done : Code.Line.readAll s number lines = .ok s')
    (rest : List Char) :
    s.readLines number
      (Text.lines ((lines.flatMap fun line => line.render.toList ++ ['\n']) ++ rest)) =
      s'.readLines (number + lines.length) (Text.lines rest) := by
  induction lines generalizing s number with
  | nil =>
    cases done
    rfl
  | cons line lines ih =>
    have here := readable line List.mem_cons_self
    rw [Code.Line.readAll, ← readLine_render here] at done
    rw [List.flatMap_cons, List.append_assoc, List.append_assoc, List.singleton_append,
      Text.lines_append (isLineBreak_of_render here) rfl (by decide), ReaderState.readLines]
    cases read : s.readLine number line.render.toList with
    | error fault =>
      rw [read] at done
      cases done
    | ok s₁ =>
      rw [read] at done
      have later := ih (fun l member => readable l (List.mem_cons_of_mem _ member)) done
      rw [List.length_cons, Nat.add_comm lines.length, ← Nat.add_assoc]
      exact later

end Assembly

namespace Code

/-! ## Listings that are read -/

/-- Each of the lines that were read without fault was read without fault. -/
theorem Line.exists_read_of_readAll {lines : List Line} {s s' : ReaderState} {number : Nat}
    (done : readAll s number lines = .ok s') :
    ∀ line ∈ lines, ∃ before number after, line.read before number = .ok after := by
  induction lines generalizing s number with
  | nil => nofun
  | cons line lines ih =>
    rw [readAll] at done
    cases first : line.read s number with
    | error fault =>
      rw [first] at done
      cases done
    | ok after =>
      rw [first] at done
      exact List.forall_mem_cons.mpr ⟨⟨s, number, after, first⟩, ih done⟩

/-- A string directive that is read without fault has bytes. -/
theorem fitsByte_of_read {raw : String} {s s' : ReaderState} {number : Nat}
    (done : (Line.directive ".string" (some (quoted raw))).read s number = .ok s') :
    ∀ c ∈ raw.toList, Text.fitsByte c = true := by
  apply exists_stringBytes_escapeControls_iff.mp
  rw [Line.read, Option.getD_some, ReaderState.direct] at done
  simp only [quotedBody?_quoted] at done
  cases decoded : stringBytes (escapeControls raw.toList) with
  | ok bytes => exact ⟨bytes, rfl⟩
  | error error =>
    rw [decoded] at done
    cases done

theorem directive_mem_literalLines {literals : List String} {raw : String}
    (member : raw ∈ literals) :
    Line.directive ".string" (some (quoted raw)) ∈ literalLines literals := by
  obtain ⟨place, listed⟩ := List.mem_iff_getElem?.mp member
  have numbered : (raw, place) ∈ literals.zipIdx := List.mk_mem_zipIdx_iff_getElem?.mpr listed
  rw [literalLines_eq, if_neg (by simp [List.ne_nil_of_mem member])]
  refine List.mem_cons_of_mem _ (List.mem_flatMap.mpr ⟨_, numbered, ?_⟩)
  exact List.mem_cons_of_mem _ List.mem_cons_self

namespace Listing

variable {listing : Listing} {image : Image}

theorem toList_text (listing : Listing) :
    listing.text.toList = listing.lines.flatMap fun line => line.render.toList ++ ['\n'] := by
  rw [Listing.text, String.toList_append, String.toList_intercalate, List.map_map]
  refine (Text.intercalate_append (by simp [Listing.lines])).trans ?_
  rw [List.flatMap_map]
  rfl

/-- The text of a legible listing is read only if its literals have bytes. -/
theorem Legible.fitsByte_of_ofText (legible : listing.Legible)
    (read : Image.ofText listing.text = .ok image) :
    ∀ raw ∈ listing.literals, ∀ c ∈ raw.toList, Text.fitsByte c = true := by
  intro raw member
  rw [ofText_eq legible.readable] at read
  cases done : Line.readAll .initial 1 listing.lines with
  | error fault =>
    rw [done] at read
    cases read
  | ok s =>
    have listed : Line.directive ".string" (some (quoted raw)) ∈ listing.lines := by
      simp [Listing.lines, directive_mem_literalLines member]
    obtain ⟨before, number, after, here⟩ := Line.exists_read_of_readAll done _ listed
    exact fitsByte_of_read here

/-- The text of a listing is refused in which a literal is cut before any quote. -/
theorem ofText_ne_ok (frame : Text.isWritable (frameSize listing.slots) = true)
    (body : ∀ line ∈ listing.body, line.InBody)
    (isRaw : ∀ raw ∈ listing.literals, isRaw raw.toList = true)
    (unquoted : ∀ raw ∈ listing.literals, (∃ c ∈ raw.toList, isUnbroken c = false) →
      '\x22' ∉ raw.toList)
    (broken : ∃ raw ∈ listing.literals, ∃ c ∈ raw.toList, isUnbroken c = false) :
    Image.ofText listing.text ≠ .ok image := by
  have unclosed : ∀ raw ∈ listing.literals, (∃ c ∈ raw.toList, isUnbroken c = false) →
      (Line.directive ".string" (some (quoted raw))).Unclosed := fun raw member cut =>
    ⟨raw, rfl, cut, unquoted raw member cut⟩
  have each : ∀ line ∈ listing.lines, line.Readable ∨ line.Unclosed := by
    intro line member
    rcases of_mem_lines frame body line member with readable | literal
    · exact .inl readable
    · obtain ⟨raw, listed, rfl⟩ := literal
      by_cases cut : ∃ c ∈ raw.toList, isUnbroken c = false
      · exact .inr (unclosed raw listed cut)
      · refine .inl (readable_directive rfl (by decide) (whole_quoted (isRaw raw listed) ?_))
        intro c inside
        by_contra broken
        exact cut ⟨c, inside, Bool.eq_false_iff.mpr broken⟩
  obtain ⟨raw, member, cut⟩ := broken
  have listed : Line.directive ".string" (some (quoted raw)) ∈ listing.lines := by
    simp [Listing.lines, directive_mem_literalLines member]
  obtain ⟨fault, refused⟩ :=
    readLines_of_unclosed each ⟨_, listed, unclosed raw member cut⟩ .initial 1
  rw [Image.ofText, toList_text, refused]
  intro read
  cases read

end Listing

/-! ## Compiled programs -/

theorem isUnbroken_eq_false_iff {c : Char} :
    isUnbroken c = false ↔ c = '\x85' ∨ c = '\u2028' ∨ c = '\u2029' := by
  constructor
  · intro broken
    obtain ⟨solid, breaks⟩ := Bool.or_eq_false_iff.mp broken
    rw [Bool.not_eq_false', Text.isLineBreak, List.contains_eq_mem, decide_eq_true_eq] at breaks
    simp only [List.mem_cons, List.not_mem_nil, or_false] at breaks
    rcases breaks with rfl | rfl | rfl | rfl | rfl | rfl | rfl | breaks
    all_goals first | exact breaks | cases solid
  · intro same
    rcases same with rfl | rfl | rfl
    all_goals rfl

theorem isLatin_of_fitsByte {c : Char} (fits : Text.fitsByte c = true)
    (unbroken : isUnbroken c = true) : isLatin c = true := by
  rw [isLatin, Bool.and_eq_true]
  refine ⟨decide_eq_true (Nat.le_of_lt_succ (of_decide_eq_true fits)), bne_iff_ne.mpr ?_⟩
  intro same
  rw [isUnbroken_eq_false_iff.mpr (.inl same)] at unbroken
  cases unbroken

/-- The text of a generated listing is read only if its literals have a text that is read back. -/
theorem isLatin_of_ofText {source : String} {program : Program} {options : Options}
    {listing : Listing} {image : Image} (parsed : (Parsing.ofSource source).result = .ok program)
    (generated : (generate options program).result = .ok listing)
    (unquoted : ∀ raw ∈ pool program.statements, (∃ c ∈ raw.toList, isUnbroken c = false) →
      '\x22' ∉ raw.toList)
    (read : Image.ofText listing.text = .ok image) :
    ∀ raw ∈ pool program.statements, ∀ c ∈ raw.toList, isLatin c = true := by
  have sourced := Program.sourced_of_ofSource parsed
  obtain ⟨-, writable, rfl⟩ := generate_eq_ok_iff.mp generated
  have body := inBody_lowerStatements sourced options.comments (pool program.statements) 1
  have isRaw := isRaw_of_mem_pool sourced
  by_cases broken : ∃ raw ∈ pool program.statements, ∃ c ∈ raw.toList, isUnbroken c = false
  · exact absurd read (Listing.ofText_ne_ok writable body isRaw unquoted broken)
  · have unbroken : ∀ raw ∈ pool program.statements, ∀ c ∈ raw.toList, isUnbroken c = true := by
      intro raw member c inside
      by_contra cut
      exact broken ⟨raw, member, c, inside, Bool.eq_false_iff.mpr cut⟩
    have legible := legible_of_generate parsed generated unbroken
    intro raw member c inside
    exact isLatin_of_fitsByte (legible.fitsByte_of_ofText read raw member c inside)
      (unbroken raw member c inside)

end Code

namespace Compilation

open Code

section Loaded

variable {options : Options} {source : String} {c : Compilation}

/-- A compiled program is loaded only if its literals have a text that is read back. -/
theorem isLatin_of_assembly {image : Image} (compiled : ofSource options source = .ok c)
    (unquoted : ∀ raw ∈ pool c.program.statements, '\x22' ∈ raw.toList →
      '\x85' ∉ raw.toList ∧ '\u2028' ∉ raw.toList ∧ '\u2029' ∉ raw.toList)
    (read : Image.ofText c.assembly = .ok image) :
    ∀ raw ∈ pool c.program.statements, ∀ ch ∈ raw.toList, isLatin ch = true := by
  obtain ⟨parsed, generated, -⟩ := stages_of_ofSource compiled
  refine isLatin_of_ofText parsed generated (fun raw member cut quote => ?_) read
  obtain ⟨ch, inside, broken⟩ := cut
  obtain ⟨noNext, noLine, noParagraph⟩ := unquoted raw member quote
  rcases isUnbroken_eq_false_iff.mp broken with rfl | rfl | rfl
  · exact noNext inside
  · exact noLine inside
  · exact noParagraph inside

theorem exists_assembles_of_isLatin (compiled : ofSource options source = .ok c)
    (latin : ∀ raw ∈ pool c.program.statements, ∀ ch ∈ raw.toList, isLatin ch = true) :
    ∃ image blocks, Image.ofText c.assembly = .ok image ∧ c.listing.Assembles image blocks := by
  obtain ⟨parsed, generated, -⟩ := stages_of_ofSource compiled
  exact (wellFormed_of_generate parsed generated latin).exists_assembles

/-- What a compiled program is loaded as is the program that its listing stands for. -/
theorem exists_assembles_of_assembly {image : Image} (compiled : ofSource options source = .ok c)
    (unquoted : ∀ raw ∈ pool c.program.statements, '\x22' ∈ raw.toList →
      '\x85' ∉ raw.toList ∧ '\u2028' ∉ raw.toList ∧ '\u2029' ∉ raw.toList)
    (read : Image.ofText c.assembly = .ok image) : ∃ blocks, c.listing.Assembles image blocks := by
  obtain ⟨image', blocks, read', assembles⟩ :=
    exists_assembles_of_isLatin compiled (isLatin_of_assembly compiled unquoted read)
  obtain rfl : image = image' := Except.ok.inj (read.symm.trans read')
  exact ⟨blocks, assembles⟩

/-- Which compiled programs can be loaded. Take a source text that compiles, with any options, and
in which no string literal with an escaped quote holds U+0085, U+2028 or U+2029. Then its assembly
text is read without fault exactly if all literals consist of characters up to U+00FF other than
U+0085. -/
theorem exists_ofText_iff (compiled : ofSource options source = .ok c)
    (unquoted : ∀ raw ∈ pool c.program.statements, '\x22' ∈ raw.toList →
      '\x85' ∉ raw.toList ∧ '\u2028' ∉ raw.toList ∧ '\u2029' ∉ raw.toList) :
    (∃ image, Image.ofText c.assembly = .ok image) ↔
      ∀ raw ∈ pool c.program.statements, ∀ ch ∈ raw.toList, ch.toNat ≤ 0xFF ∧ ch ≠ '\x85' := by
  have latin {ch : Char} : isLatin ch = true ↔ ch.toNat ≤ 0xFF ∧ ch ≠ '\x85' := by simp [isLatin]
  simp only [← latin]
  constructor
  · intro loaded
    obtain ⟨image, read⟩ := loaded
    exact isLatin_of_assembly compiled unquoted read
  · intro latin
    obtain ⟨image, -, read, -⟩ := exists_assembles_of_isLatin compiled latin
    exact ⟨image, read⟩

end Loaded

/-- A program with an escaped quote in one literal and a Greek letter in another is refused, and one
with the first literal alone is loaded. -/
theorem exists_ofText_iff_of_letter :
    ∃ c c', ofSource ⟨false, none⟩ "f(\"\\\"\", \"λ\");" = .ok c ∧
      ofSource ⟨false, none⟩ "f(\"\\\"\");" = .ok c' ∧
      (¬ ∃ image, Image.ofText c.assembly = .ok image) ∧
      ∃ image, Image.ofText c'.assembly = .ok image := by
  let program : Program :=
    ⟨[.call "f" [.string "\\\"" ⟨2, 6⟩, .string "λ" ⟨8, 11⟩] ⟨0, 12⟩], ⟨[]⟩⟩
  let program' : Program := ⟨[.call "f" [.string "\\\"" ⟨2, 6⟩] ⟨0, 7⟩], ⟨[]⟩⟩
  have parsed : (Parsing.ofSource "f(\"\\\"\", \"λ\");").result = .ok program := by cbv
  have parsed' : (Parsing.ofSource "f(\"\\\"\");").result = .ok program' := by cbv
  have literals : pool program.statements = ["\\\"", "λ"] := by cbv
  have literals' : pool program'.statements = ["\\\""] := by cbv
  obtain ⟨c, compiled, same⟩ := @exists_ofSource ⟨false, none⟩ _ _ parsed (by cbv)
    (Text.isWritable_of_lt (by decide))
  obtain ⟨c', compiled', same'⟩ := @exists_ofSource ⟨false, none⟩ _ _ parsed' (by cbv)
    (Text.isWritable_of_lt (by decide))
  rw [← same] at literals
  rw [← same'] at literals'
  refine ⟨c, c', compiled, compiled', ?_, ?_⟩
  · rw [exists_ofText_iff compiled (by rw [literals]; simp), literals]
    simp
  · rw [exists_ofText_iff compiled' (by rw [literals']; simp), literals']
    simp

/-- A literal with the next-line character compiles, and cannot be loaded. -/
theorem ofText_ne_ok_of_nextLine :
    ∃ c, ofSource ⟨false, none⟩ "f(\"a\x85b\");" = .ok c ∧
      ∀ image, Image.ofText c.assembly ≠ .ok image := by
  let program : Program := ⟨[.call "f" [.string "a\x85b" ⟨2, 7⟩] ⟨0, 8⟩], ⟨[]⟩⟩
  have parsed : (Parsing.ofSource "f(\"a\x85b\");").result = .ok program := by cbv
  have literals : pool program.statements = ["a\x85b"] := by cbv
  obtain ⟨c, compiled, same⟩ := @exists_ofSource ⟨false, none⟩ _ _ parsed (by cbv)
    (Text.isWritable_of_lt (by decide))
  refine ⟨c, compiled, fun image read => ?_⟩
  rw [← same] at literals
  have latin := isLatin_of_assembly compiled (by rw [literals]; simp) read
  rw [literals] at latin
  have next := latin "a\x85b" List.mem_cons_self '\x85' (by simp)
  cases next

end Compilation

end Reckon
