import Reckon.Proofs.Assembly.Loading
import Reckon.Proofs.Machine.LineNumbers

/-!
# Remarks are transparent

Code can be generated with a remark before each statement that shows its printed form. Statements
that come from a source text can all be printed (`Expr.Sourced.printable`), so the remarks cause no
failure, and apart from them the code is the same (`Code.withoutRemarks_lowerStatements`). A remark
stays on its line whatever is in the literals, and its line has no content to a reader
(`Code.Listing.content_text`).

Main statement: compiled with and without remarks, a source text fails with the same error, or comes
to texts that are read alike and run alike (`Compilation.agree_remarks`).
-/

namespace Reckon

/-! ## Printing -/

/-- The expression has a printed form of its own. -/
def Expr.Printable (e : Expr) : Prop :=
  ∃ p, e.print = .ok p ∧ p.text?.isSome = true

theorem Expr.exists_printAll {es : List Expr} (printable : ∀ e ∈ es, e.Printable) :
    ∃ ps, Expr.printAll es = .ok ps ∧ ∀ p ∈ ps, p.text?.isSome = true := by
  induction es with
  | nil => exact ⟨[], rfl, List.forall_mem_nil _⟩
  | cons e es ih =>
    obtain ⟨p, here, shown⟩ := printable e List.mem_cons_self
    obtain ⟨ps, later, allShown⟩ := ih fun e member => printable e (List.mem_cons_of_mem _ member)
    refine ⟨p :: ps, ?_, List.forall_mem_cons.mpr ⟨shown, allShown⟩⟩
    rw [Expr.printAll, here, later]
    rfl

theorem Printed.arguments_of_isSome {ps : List Printed} (shown : ∀ p ∈ ps, p.text?.isSome = true) :
    Printed.arguments ps = .ok (ps.map Printed.shown) := by
  have none : ps.findIdx? (fun p => p.text?.isNone) = none := by
    rw [List.findIdx?_eq_none_iff]
    intro p member
    rw [← Option.not_isSome, shown p member]
    rfl
  rw [Printed.arguments, none]

/-- An expression that comes from a source text has a printed form. -/
theorem Expr.Sourced.printable {size : Nat} {e : Expr} (sourced : e.Sourced size) :
    e.Printable := by
  induction sourced with
  | number => exact ⟨_, by rw [Expr.print], rfl⟩
  | string => exact ⟨_, by rw [Expr.print], rfl⟩
  | var => exact ⟨_, by rw [Expr.print], rfl⟩
  | @binary operator _ _ _ _ _ _ _ ihLeft ihRight =>
    obtain ⟨left, printedLeft, -⟩ := ihLeft
    obtain ⟨right, printedRight, -⟩ := ihRight
    let form := s!"({left.shown} {operator.symbol} {right.shown})"
    refine ⟨⟨left.lines ++ right.lines, some form⟩, ?_, rfl⟩
    rw [Expr.print, printedLeft, printedRight]
    rfl
  | @call name _ _ _ _ ih =>
    obtain ⟨ps, printed, shown⟩ := Expr.exists_printAll ih
    let form := name ++ "(" ++ ", ".intercalate (ps.map Printed.shown) ++ ")"
    refine ⟨⟨ps.flatMap Printed.lines, some form⟩, ?_, rfl⟩
    rw [Expr.print, printed]
    show (Printed.arguments ps >>= _) = _
    rw [Printed.arguments_of_isSome shown]
    rfl

namespace Code

/-! ## Code without remarks -/

/-- The line is a remark. -/
def Line.isRemark : Line → Bool
  | .comment _ => true
  | .directive _ _ | .label _ | .instruction _ => false

/-- The lines that are no remarks. -/
def withoutRemarks (lines : List Line) : List Line :=
  lines.filter fun line => !line.isRemark

/-- The emission without its remarks. -/
def Emission.withoutRemarks (a : Emission) : Emission :=
  { a with lines := Code.withoutRemarks a.lines }

theorem Emission.withoutRemarks_append (a b : Emission) :
    (a ++ b).withoutRemarks = a.withoutRemarks ++ b.withoutRemarks := by
  cases complete : a.failure? with
  | some error =>
    rw [append_of_failure?_eq_some complete]
    exact (append_of_failure?_eq_some (a := a.withoutRemarks) complete).symm
  | none =>
    have complete' : a.withoutRemarks.failure? = none := complete
    rw [append_of_failure?_eq_none complete, append_of_failure?_eq_none complete']
    simp only [withoutRemarks, Code.withoutRemarks, List.filter_append]

theorem withoutRemarks_announce (number : Nat) {statement : Expr}
    (printable : statement.Printable) : (announce number statement).withoutRemarks = .empty := by
  obtain ⟨p, printed, -⟩ := printable
  rw [announce, printed]
  rfl

/-- Apart from the remarks the code of statements is the same with and without them. -/
theorem withoutRemarks_lowerStatements {statements : List Expr}
    (printable : ∀ statement ∈ statements, statement.Printable) (pool : List String)
    (number : Nat) :
    (lowerStatements true pool number statements).withoutRemarks =
      (lowerStatements false pool number statements).withoutRemarks := by
  induction statements generalizing number with
  | nil => rfl
  | cons statement rest ih =>
    have later := ih (fun e member => printable e (List.mem_cons_of_mem _ member)) (number + 1)
    rw [lowerStatements, lowerStatements]
    simp only [Emission.withoutRemarks_append, later, if_true, Bool.false_eq_true, if_false,
      withoutRemarks_announce number (printable statement List.mem_cons_self)]
    rfl

/-- The listing without its remarks. -/
def Listing.withoutRemarks (l : Listing) : Listing :=
  { l with body := Code.withoutRemarks l.body }

section Generated

variable {program : Program} (printable : ∀ e ∈ program.statements, e.Printable)
  (freestanding? : Option Bool)

include printable

theorem externals_generate_remarks :
    (generate ⟨true, freestanding?⟩ program).externals =
      (generate ⟨false, freestanding?⟩ program).externals := by
  rw [externals_generate, externals_generate]
  exact congrArg (fun a => a.calls.eraseDups) (withoutRemarks_lowerStatements printable _ 1)

/-- Apart from the remarks the same listing is generated, or the same error is reported. -/
theorem withoutRemarks_generate :
    (generate ⟨true, freestanding?⟩ program).result.map Listing.withoutRemarks =
      (generate ⟨false, freestanding?⟩ program).result.map Listing.withoutRemarks := by
  have same := withoutRemarks_lowerStatements printable (pool program.statements) 1
  have failure := congrArg Emission.failure? same
  have calls := congrArg Emission.calls same
  have lines := congrArg Emission.lines same
  simp only [Emission.withoutRemarks] at failure calls lines
  rw [generate_eq_lowered, generate_eq_lowered]
  unfold lowered
  dsimp only
  rw [failure, calls]
  cases (lowerStatements false (pool program.statements) 1 program.statements).failure? with
  | some error => rfl
  | none =>
    dsimp only
    split
    · simp only [Except.map, Listing.withoutRemarks, lines]
    · rfl

end Generated

/-! ## Lines of text -/

theorem hasContent_comment (text : String) :
    Assembly.hasContent (Line.comment text).render.toList = false := by
  rw [Assembly.hasContent, Assembly.withoutComment_comment]
  rfl

/-- Remarks have no content. -/
theorem content_withoutRemarks (lines : List Line) :
    ((withoutRemarks lines).map fun line => line.render.toList).filter Assembly.hasContent =
      (lines.map fun line => line.render.toList).filter Assembly.hasContent := by
  rw [withoutRemarks, List.filter_map, List.filter_map, List.filter_filter]
  refine congrArg _ (List.filter_congr fun line _ => ?_)
  cases line with
  | comment text => simp [Line.isRemark, hasContent_comment]
  | directive | label | instruction => simp [Line.isRemark]

theorem lines_flatMap_append {lines : List Line} (readable : ∀ line ∈ lines, line.Readable)
    (rest : List Char) :
    Text.lines ((lines.flatMap fun line => line.render.toList ++ ['\n']) ++ rest) =
      (lines.map fun line => line.render.toList) ++ Text.lines rest := by
  induction lines with
  | nil => rfl
  | cons line lines ih =>
    rw [List.flatMap_cons, List.append_assoc, List.append_assoc, List.singleton_append,
      Text.lines_append (Assembly.isLineBreak_of_render (readable line List.mem_cons_self)) rfl
        (by decide),
      ih fun line member => readable line (List.mem_cons_of_mem _ member)]
    rfl

namespace Listing

/-- The lines of a listing before its epilogue. -/
def opening (l : Listing) : List Line :=
  entry l.freestanding ++ prologue l.slots ++ l.body

/-- The epilogue of a listing and what comes after it. -/
def closing (l : Listing) : List Line :=
  epilogue ++ literalLines l.literals ++
    [.directive ".section" (some ".note.GNU-stack,\"\",@progbits")]

theorem lines_eq (l : Listing) : l.lines = l.opening ++ l.closing := by
  simp only [Listing.lines, opening, closing, List.append_assoc]

variable {listing : Listing} (frame : Text.isWritable (frameSize listing.slots) = true)
  (body : ∀ line ∈ listing.body, line.InBody)

include frame body

theorem readable_of_mem_opening : ∀ line ∈ listing.opening, line.Readable := by
  intro line member
  -- The opening does not depend on the literals, so they are left out.
  have listed : line ∈ ({ listing with literals := [] } : Listing).lines :=
    List.mem_append_left _ (List.mem_append_left _ (List.mem_append_left _ member))
  rcases @of_mem_lines { listing with literals := [] } frame body line listed with
    readable | ⟨raw, none, -⟩
  · exact readable
  · cases none

/-- The text of a listing has the same content with and without its remarks. Its literals may break
lines: what comes of them is the same in both texts. -/
theorem content_text :
    (Text.lines listing.text.toList).filter Assembly.hasContent =
      (Text.lines listing.withoutRemarks.text.toList).filter Assembly.hasContent := by
  have readable := readable_of_mem_opening frame body
  have readable' := @readable_of_mem_opening listing.withoutRemarks frame
    fun line member => body line (List.mem_of_mem_filter member)
  have opened : (listing.opening.map fun line => line.render.toList).filter Assembly.hasContent =
      (listing.withoutRemarks.opening.map fun line => line.render.toList).filter
        Assembly.hasContent := by
    simp only [opening, withoutRemarks, List.map_append, List.filter_append,
      content_withoutRemarks]
  rw [toList_text, toList_text, lines_eq, lines_eq, List.flatMap_append, List.flatMap_append,
    lines_flatMap_append readable, lines_flatMap_append readable', List.filter_append,
    List.filter_append, opened]
  rfl

end Listing

end Code

namespace Compilation

open Assembly Code Machine

/-- The compiled program without its remarks. -/
def withoutRemarks (c : Compilation) : Compilation :=
  { c with listing := c.listing.withoutRemarks }

/-- Compiled programs that are the same but for their remarks, and whose texts are read alike and
run alike, whatever the routines, the world they act on and the budget of steps. -/
structure Alike (c c' : Compilation) : Prop where
  code : c.withoutRemarks = c'.withoutRemarks
  read : Fault.Alike Image.Alike (Image.ofText c.assembly) (Image.ofText c'.assembly)
  run : ∀ (World : Type) (routine? : String → Option (Routine World)) (world : World) (limit : Int),
    (Execution.ofText c.assembly routine? world limit).Alike
      (Execution.ofText c'.assembly routine? world limit)

/-- Results of compiling that agree: the same error, or compiled programs alike. -/
inductive Agree : Except SourceError Compilation → Except SourceError Compilation → Prop
  | error (error : SourceError) : Agree (.error error) (.error error)
  | ok {c c' : Compilation} : c.Alike c' → Agree (.ok c) (.ok c')

/-- The text of a compiled program has the same content without its remarks. -/
theorem content_assembly {options : Options} {source : String} {c : Compilation}
    (compiled : ofSource options source = .ok c) :
    (Text.lines c.assembly.toList).filter hasContent =
      (Text.lines c.withoutRemarks.assembly.toList).filter hasContent := by
  obtain ⟨parsed, generated, -⟩ := stages_of_ofSource compiled
  obtain ⟨-, frame, listing⟩ := generate_eq_ok_iff.mp generated
  have sourced := Program.sourced_of_ofSource parsed
  refine Listing.content_text ?_ ?_
  · rw [← listing]
    exact frame
  · rw [← listing]
    exact inBody_lowerStatements sourced options.comments _ 1

/-- Compiled programs that are the same but for their remarks are read alike and run alike. -/
theorem alike_of_withoutRemarks {options options' : Options} {source : String} {c c' : Compilation}
    (compiled : ofSource options source = .ok c) (compiled' : ofSource options' source = .ok c')
    (code : c.withoutRemarks = c'.withoutRemarks) : c.Alike c' := by
  have read : Fault.Alike Image.Alike (Image.ofText c.assembly) (Image.ofText c'.assembly) := by
    refine Assembly.alike_ofText ?_
    rw [content_assembly compiled, content_assembly compiled', code]
  exact ⟨code, read, fun World => Execution.alike_ofText read⟩

/-- Results with the same image under a map are the same error, or values with the same image. -/
theorem cases_of_map_eq {α β : Type} {x y : Except SourceError α} {f : α → β}
    (same : x.map f = y.map f) :
    (∃ error, x = .error error ∧ y = .error error) ∨
      ∃ a b, x = .ok a ∧ y = .ok b ∧ f a = f b := by
  cases x with
  | error error =>
    cases y with
    | error error' =>
      cases same
      exact .inl ⟨error, rfl, rfl⟩
    | ok => cases same
  | ok a =>
    cases y with
    | error => cases same
    | ok b => exact .inr ⟨a, b, rfl, rfl, Except.ok.inj same⟩

theorem withoutRemarks_ofSource (freestanding? : Option Bool) (source : String) :
    (ofSource ⟨true, freestanding?⟩ source).map withoutRemarks =
      (ofSource ⟨false, freestanding?⟩ source).map withoutRemarks := by
  unfold ofSource ofSourceLogged
  dsimp only
  cases parsed : (Parsing.ofSource source).result with
  | error error => rfl
  | ok program =>
    have printable : ∀ e ∈ program.statements, e.Printable := fun e member =>
      (Program.sourced_of_ofSource parsed e member).printable
    have listing := withoutRemarks_generate printable freestanding?
    dsimp only
    rw [externals_generate_remarks printable]
    rcases cases_of_map_eq listing with ⟨error, failed, failed'⟩ | ⟨l, l', done, done', same⟩
    · rw [failed, failed']
    · rw [done, done']
      simp only [Except.map, withoutRemarks, same]

/-- Remarks are transparent: compiled with and without them, a source text fails with the same error
or comes to compiled programs alike. -/
theorem agree_remarks (freestanding? : Option Bool) (source : String) :
    Agree (ofSource ⟨true, freestanding?⟩ source) (ofSource ⟨false, freestanding?⟩ source) := by
  rcases cases_of_map_eq (withoutRemarks_ofSource freestanding? source) with
    ⟨error, failed, failed'⟩ | ⟨c, c', compiled, compiled', same⟩
  · rw [failed, failed']
    exact .error error
  · rw [compiled, compiled']
    exact .ok (alike_of_withoutRemarks compiled compiled' same)

end Compilation

end Reckon
