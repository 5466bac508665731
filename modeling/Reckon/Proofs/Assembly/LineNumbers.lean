import Reckon.Proofs.Machine.Runs

/-!
# Line numbers do not matter to a reader

The number of a line goes into instructions and faults, where only messages show it. Two results are
alike if they are related values, or faults that are the same but for their lines (`Fault.Alike`);
two programs are alike if they are the same but for the lines of their instructions
(`Assembly.Image.Alike`).

Main statement: texts with the same lines, those without content left out, are read alike
(`Assembly.alike_ofText`).
-/

namespace Reckon

/-- Results that are alike: related values, or faults that differ in their lines only. -/
inductive Fault.Alike {α β : Type} (R : α → β → Prop) : Except Fault α → Except Fault β → Prop
  | ok {a : α} {b : β} : R a b → Alike R (.ok a) (.ok b)
  | error {fault fault' : Fault} : fault.withoutLine = fault'.withoutLine →
    Alike R (.error fault) (.error fault')

namespace Fault.Alike

variable {α β γ δ : Type} {R : α → β → Prop} {S : γ → δ → Prop}

theorem refl (x : Except Fault α) : Alike Eq x x := by
  cases x with
  | ok a => exact .ok rfl
  | error fault => exact .error rfl

theorem symm {x : Except Fault α} {y : Except Fault β} (alike : Alike R x y) :
    Alike (fun b a => R a b) y x := by
  cases alike with
  | ok related => exact .ok related
  | error same => exact .error same.symm

theorem trans {R' : β → γ → Prop} {T : α → γ → Prop} {x : Except Fault α} {y : Except Fault β}
    {z : Except Fault γ} (first : Alike R x y) (second : Alike R' y z)
    (both : ∀ a b c, R a b → R' b c → T a c) : Alike T x z := by
  cases first with
  | ok related =>
    cases second with
    | ok related' => exact .ok (both _ _ _ related related')
  | error same =>
    cases second with
    | error same' => exact .error (same.trans same')

theorem bind {x : Except Fault α} {y : Except Fault β} {f : α → Except Fault γ}
    {g : β → Except Fault δ} (first : Alike R x y) (next : ∀ a b, R a b → Alike S (f a) (g b)) :
    Alike S (x >>= f) (y >>= g) := by
  cases first with
  | ok related => exact next _ _ related
  | error same => exact .error same

theorem bind_same {x y : Except Fault α} {f : α → Except Fault γ} {g : α → Except Fault δ}
    (first : Alike Eq x y) (next : ∀ a, Alike S (f a) (g a)) : Alike S (x >>= f) (y >>= g) := by
  refine first.bind fun a b same => ?_
  rw [same]
  exact next b

theorem map {x : Except Fault α} {y : Except Fault β} {f : α → γ} {g : β → δ} (alike : Alike R x y)
    (values : ∀ a b, R a b → S (f a) (g b)) : Alike S (x.map f) (y.map g) := by
  cases alike with
  | ok related => exact .ok (values _ _ related)
  | error same => exact .error same

/-- Results of the same items, one after the other. -/
theorem mapM {f g : α → Except Fault γ} (alike : ∀ a, Alike Eq (f a) (g a)) (as : List α) :
    Alike Eq (as.mapM f) (as.mapM g) := by
  induction as with
  | nil => exact .refl _
  | cons a as ih =>
    rw [List.mapM_cons, List.mapM_cons]
    exact (alike a).bind_same fun c => ih.bind_same fun cs => .refl _

end Fault.Alike

namespace Assembly

/-! ## Operands -/

theorem alike_readMemory (line line' : Int) (displacement base : List Char) :
    Fault.Alike Eq (readMemory line displacement base) (readMemory line' displacement base) := by
  unfold readMemory
  cases base? (String.ofList base) with
  | none => exact .error rfl
  | some base => exact .refl _

theorem alike_readPlace (line line' : Int) (text cs : List Char) :
    Fault.Alike Eq (readPlace line text cs) (readPlace line' text cs) := by
  unfold readPlace
  cases memoryParts? cs with
  | some parts => exact alike_readMemory line line' parts.1 parts.2
  | none =>
    cases isSymbol cs with
    | true => exact .ok rfl
    | false => exact .error rfl

theorem alike_readOperand (line line' : Int) (text : List Char) :
    Fault.Alike Eq (readOperand line text) (readOperand line' text) := by
  have place := alike_readPlace line line' text (withoutFinalNewline text)
  unfold readOperand
  dsimp only
  split
  · next rest _ =>
    cases signedDigits? rest with
    | some parts => exact .refl _
    | none => exact place
  · next name _ =>
    cases isWordText name with
    | false => exact place
    | true =>
      cases Register.ofName? (String.ofList name) with
      | some found => exact .ok rfl
      | none => exact .error rfl
  · exact place

/-! ## Lines -/

/-- Programs that are the same but for the lines of their instructions. -/
structure Image.Alike (a b : Image) : Prop where
  code : a.instructions.toList.map Instruction.code = b.instructions.toList.map Instruction.code
  codeLabels : a.codeLabels = b.codeLabels
  dataLabels : a.dataLabels = b.dataLabels
  data : a.data = b.data

theorem Image.Alike.size {a b : Image} (alike : a.Alike b) :
    a.instructions.size = b.instructions.size := by
  simpa using congrArg List.length alike.code

namespace ReaderState

/-- Programs read in part that are the same but for the lines of their instructions. -/
structure Alike (s t : ReaderState) : Prop where
  image : s.image.Alike t.image
  sectionName : s.sectionName = t.sectionName

theorem Alike.refl (s : ReaderState) : s.Alike s :=
  ⟨⟨rfl, rfl, rfl, rfl⟩, rfl⟩

variable {s t : ReaderState} (alike : s.Alike t)

include alike

theorem alike_setLabel (name : String) : (s.setLabel name).Alike (t.setLabel name) := by
  obtain ⟨image, sectionName⟩ := alike
  unfold setLabel
  dsimp only
  rw [sectionName]
  split
  · exact ⟨{ image with codeLabels := by rw [image.codeLabels, image.size] }, rfl⟩
  · exact ⟨{ image with dataLabels := by rw [image.dataLabels, image.data] }, rfl⟩

theorem alike_direct (line line' : Nat) (name : String) (rest : List Char) :
    Fault.Alike ReaderState.Alike (s.direct line name rest) (t.direct line' name rest) := by
  unfold direct
  split
  · exact .ok ⟨alike.image, rfl⟩
  · split
    · exact .ok ⟨alike.image, rfl⟩
    · split
      · cases quotedBody? rest with
        | none => exact .error rfl
        | some body =>
          dsimp only
          cases stringBytes body with
          | error error => exact .error rfl
          | ok bytes =>
            exact .ok ⟨{ alike.image with data := by rw [alike.image.data] }, alike.sectionName⟩
      · split
        · exact .ok alike
        · exact .error rfl

theorem alike_instruct (line line' : Nat) (name rest : List Char) :
    Fault.Alike ReaderState.Alike (s.instruct line name rest) (t.instruct line' name rest) := by
  have operands := Fault.Alike.mapM (alike_readOperand line line') (splitOperands rest)
  refine operands.bind_same fun found => ?_
  refine .ok ⟨{ alike.image with code := ?_ }, alike.sectionName⟩
  simp only [Array.toList_push, List.map_append, alike.image.code]
  rfl

/-- A line does the same whatever its number. -/
theorem alike_readLine (line line' : Nat) (cs : List Char) :
    Fault.Alike ReaderState.Alike (s.readLine line cs) (t.readLine line' cs) := by
  unfold readLine
  dsimp only
  split
  · exact .ok alike
  · cases label? (Text.trim (withoutComment cs)) with
    | some name => exact .ok (alike_setLabel alike name)
    | none =>
      dsimp only
      split
      · exact alike_direct alike line line' _ _
      · exact alike_instruct alike line line' _ _

end ReaderState

/-! ## Texts -/

/-- The line has content besides blanks and a remark. -/
def hasContent (line : List Char) : Bool :=
  !(Text.trim (withoutComment line)).isEmpty

theorem readLine_of_hasContent_eq_false {line : List Char} (bare : hasContent line = false)
    (s : ReaderState) (number : Nat) : s.readLine number line = .ok s := by
  rw [hasContent, Bool.not_eq_false'] at bare
  rw [ReaderState.readLine, if_pos bare]

/-- Lines without content can be left out, and lines can be numbered from anywhere. -/
theorem alike_readLines_filter {s t : ReaderState} (alike : s.Alike t) (number number' : Nat)
    (lines : List (List Char)) :
    Fault.Alike ReaderState.Alike (s.readLines number lines)
      (t.readLines number' (lines.filter hasContent)) := by
  induction lines generalizing s t number number' with
  | nil => exact .ok alike
  | cons line lines ih =>
    cases content : hasContent line with
    | false =>
      -- The line counts on the left only: from here on the numbers differ.
      rw [ReaderState.readLines, readLine_of_hasContent_eq_false content,
        List.filter_cons_of_neg (Bool.eq_false_iff.mp content)]
      exact ih alike _ _
    | true =>
      have here := ReaderState.alike_readLine alike number number' line
      rw [List.filter_cons_of_pos content, ReaderState.readLines, ReaderState.readLines]
      generalize s.readLine number line = x at here
      generalize t.readLine number' line = y at here
      cases here with
      | ok alike => exact ih alike _ _
      | error same => exact .error same

/-- Texts with the same lines, those without content left out, are read alike. -/
theorem alike_ofText {text text' : String}
    (same : (Text.lines text.toList).filter hasContent =
      (Text.lines text'.toList).filter hasContent) :
    Fault.Alike Image.Alike (Image.ofText text) (Image.ofText text') := by
  have first := alike_readLines_filter (.refl .initial) 1 1 (Text.lines text.toList)
  have second := alike_readLines_filter (.refl .initial) 1 1 (Text.lines text'.toList)
  rw [same] at first
  refine (first.trans second.symm fun s t s' before after => ?_).map fun s t alike => alike
  exact
    { code := before.image.code.trans after.image.code.symm
      codeLabels := before.image.codeLabels.trans after.image.codeLabels.symm
      dataLabels := before.image.dataLabels.trans after.image.dataLabels.symm
      data := before.image.data.trans after.image.data.symm }

end Assembly

end Reckon
