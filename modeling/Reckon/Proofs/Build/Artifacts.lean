import Reckon.Proofs.Build.Commands
import Reckon.Proofs.Printing

/-!
# The names of the files of a build

The names that a toolchain draws have three parts with hyphens between them: a stem, the number of
the process and the count of names drawn before. A hyphen may also be the sign of the process, so a
name is taken apart from its end, where the count has no hyphen in it.

Main statements: a name tells the process and the count (`Build.Toolchain.nameOf_inj`), and the
files that belong to it lie in the directory of the toolchain, under that name with a suffix
(`Build.Toolchain.sourcePath_eq`, `Build.Toolchain.objectPath_eq`).
-/

namespace Reckon

/-- A number is known by how it is written. -/
theorem Text.Decimal.toString_inj {d d' : Text.Decimal} (same : toString d = toString d') :
    d = d' := by
  obtain ⟨value, _⟩ := d
  obtain ⟨value', _⟩ := d'
  have same : toString value = toString value' := same
  rw [Int.toString_eq_repr, Int.toString_eq_repr] at same
  cases Int.repr_inj.mp same
  rfl

namespace Build

/-! ## Paths of one component -/

namespace Path

theorem componentsFrom_of_not_mem {cs : List Char} (plain : '/' ∉ cs) (current : List Char) :
    componentsFrom current cs = [String.ofList (current.reverse ++ cs)] := by
  induction cs generalizing current with
  | nil => rw [componentsFrom, List.append_nil]
  | cons c cs ih =>
    rw [componentsFrom, ih (List.not_mem_of_not_mem_cons plain), List.reverse_cons,
      List.append_assoc, List.singleton_append]
    exact fun same => List.ne_of_not_mem_cons plain same.symm

/-- A text without slashes, neither empty nor a single point, is the path of one component. -/
theorem ofString_of_not_mem {name : String} (plain : '/' ∉ name.toList) (filled : name ≠ "")
    (pointed : name ≠ ".") : ofString name = ⟨"", [name]⟩ := by
  have root : name.toList.takeWhile (· == '/') = [] := by
    cases chars : name.toList with
    | nil => rfl
    | cons c cs =>
      rw [chars] at plain
      have other : c ≠ '/' := fun same => List.ne_of_not_mem_cons plain same.symm
      exact List.takeWhile_cons_of_neg (by simpa using other)
  unfold ofString
  dsimp only
  rw [root, componentsFrom_of_not_mem plain]
  simp [filled, pointed]

/-- The suffix of a name is what stands from its last point on, if something stands before. -/
theorem renameSuffix_append {name : String} (filled : name ≠ "") {c : Char} (letter : c ≠ '.')
    (suffix : String) : renameSuffix suffix (name ++ String.ofList ['.', c]) = name ++ suffix := by
  have chars : (name ++ String.ofList ['.', c]).toList = name.toList ++ ['.', c] := by
    rw [String.toList_append, String.toList_ofList]
  have extension : ((name.toList ++ ['.', c]).reverse.takeWhile (· != '.')).reverse = [c] := by
    simp [letter]
  have stem : name.toList ≠ [] := fun none => filled (String.toList_eq_nil_iff.mp none)
  unfold renameSuffix
  dsimp only
  rw [chars, extension]
  simp [stem]

end Path

namespace Toolchain

/-! ## Names -/

variable {tc tc' : Toolchain}

theorem toList_nameOf (tc : Toolchain) (number : Nat) :
    (tc.nameOf number).toList =
      (tc.stem.toList ++ '-' :: (toString tc.process).toList) ++ '-' :: Nat.toDigits 10 number := by
  simp [nameOf, Nat.toList_repr]
  rfl

/-- A name tells the count, and the process if the stem is known. -/
theorem nameOf_inj {number number' : Nat} (stem : tc.stem = tc'.stem)
    (same : tc.nameOf number = tc'.nameOf number') :
    tc.process = tc'.process ∧ number = number' := by
  have backwards : (Nat.toDigits 10 number).reverse ++
        '-' :: (tc.stem.toList ++ '-' :: (toString tc.process).toList).reverse =
      (Nat.toDigits 10 number').reverse ++
        '-' :: (tc'.stem.toList ++ '-' :: (toString tc'.process).toList).reverse := by
    have texts := congrArg (fun name => name.toList.reverse) same
    simpa only [toList_nameOf, List.reverse_append, List.reverse_cons, List.append_assoc,
      List.cons_append, List.nil_append] using texts
  have digits (n : Nat) : ∀ c ∈ (Nat.toDigits 10 n).reverse, c.isDigit = true := fun c member =>
    Assembly.isDigit_of_mem_toDigits (List.mem_reverse.mp member)
  have stops (text : List Char) : ∀ c ∈ ('-' :: text).head?, c.isDigit = false := by
    intro c head
    cases head
    rfl
  obtain ⟨counts, rest⟩ := append_inj_of_class (digits number) (digits number') (stops _) (stops _)
    backwards
  constructor
  · have front := List.reverse_injective (List.cons.inj rest).2
    rw [stem] at front
    have process := (List.cons.inj (List.append_cancel_left front)).2
    exact Text.Decimal.toString_inj (String.toList_inj.mp process)
  · have counts := List.reverse_injective counts
    rw [← @Nat.ofDigitChars_ten_toDigits number, counts, Nat.ofDigitChars_ten_toDigits]

/-! ## Files -/

/-- The stem of the names has no slash in it. -/
def Plain (tc : Toolchain) : Prop := '/' ∉ tc.stem.toList

instance (tc : Toolchain) : Decidable tc.Plain :=
  inferInstanceAs (Decidable ('/' ∉ tc.stem.toList))

theorem not_mem_nameOf (plain : tc.Plain) (number : Nat) : '/' ∉ (tc.nameOf number).toList := by
  have digits (n : Nat) : '/' ∉ Nat.toDigits 10 n := fun member => by
    cases Assembly.isDigit_of_mem_toDigits member
  have process : '/' ∉ (toString tc.process).toList := fun member => by
    rcases Assembly.isDigit_or_eq_of_mem_toString member with digit | sign
    · cases digit
    · cases sign
  rw [toList_nameOf]
  simpa [Plain] using ⟨plain, process, digits number⟩

theorem nameOf_ne_empty (tc : Toolchain) (number : Nat) : tc.nameOf number ≠ "" := by
  intro empty
  have chars := toList_nameOf tc number
  rw [empty] at chars
  simp at chars

/-- The file of an assembly text lies in the directory of the toolchain. -/
theorem sourcePath_eq (plain : tc.Plain) (number : Nat) :
    tc.sourcePath number = ⟨tc.settings.targetDir.root, tc.settings.targetDir.parts ++
      [tc.nameOf number ++ ".s"]⟩ := by
  have chars : (tc.nameOf number ++ ".s").toList = (tc.nameOf number).toList ++ ['.', 's'] :=
    String.toList_append
  have slashless : '/' ∉ (tc.nameOf number ++ ".s").toList := by
    rw [chars]
    simpa using not_mem_nameOf plain number
  have long : 2 ≤ (tc.nameOf number ++ ".s").toList.length := by
    rw [chars, List.length_append]
    exact Nat.le_add_left 2 _
  have filled : tc.nameOf number ++ ".s" ≠ "" := fun same => by
    rw [same] at long
    cases long
  have pointed : tc.nameOf number ++ ".s" ≠ "." := fun same => by
    rw [same] at long
    cases long with
    | step less => cases less
  rw [sourcePath, Path.ofString_of_not_mem slashless filled pointed, Path.join, if_pos rfl]

/-- The object file lies beside it. -/
theorem objectPath_eq (plain : tc.Plain) (number : Nat) :
    tc.objectPath number = ⟨tc.settings.targetDir.root, tc.settings.targetDir.parts ++
      [tc.nameOf number ++ ".o"]⟩ := by
  have renamed : Path.renameSuffix ".o" (tc.nameOf number ++ ".s") = tc.nameOf number ++ ".o" :=
    Path.renameSuffix_append (tc.nameOf_ne_empty number) (c := 's') (by decide) ".o"
  rw [objectPath, sourcePath_eq plain, Path.withSuffix]
  simp [renamed]

/-- Toolchains with one stem and one directory write to the same file only if they are of the same
process and have drawn as many names. -/
theorem sourcePath_inj (plain : tc.Plain) (stem : tc.stem = tc'.stem)
    (dir : tc.settings.targetDir = tc'.settings.targetDir) {number number' : Nat}
    (same : tc.sourcePath number = tc'.sourcePath number') :
    tc.process = tc'.process ∧ number = number' := by
  have plain' : tc'.Plain := by
    rw [Plain, ← stem]
    exact plain
  rw [sourcePath_eq plain, sourcePath_eq plain', dir] at same
  have last := List.append_cancel_left (congrArg Path.parts same)
  exact nameOf_inj stem (String.append_left_inj ".s" |>.mp (List.cons.inj last).1)

end Toolchain

end Build

end Reckon
