import Mathlib.Data.List.Basic
import Reckon.Build.FileTree

/-!
# Changes of a file tree

What is said here of directories and files holds in every tree, whatever else is in it. A path that
leads somewhere leads to a location that the path alone determines (`FileTree.locate_eq`), and goes
on doing so when directories are added. Making directories adds no files, and succeeds without any
change where the directory is there already; writing a file replaces one text and no other
(`FileTree.Writable.writeFile_eq`, `FileTree.textAt?_replace`).
-/

namespace Reckon.Build.FileTree

variable {t t' : FileTree} {p : Path} {l : Location}

/-! ## Where paths lead -/

/-- Where a path leads, if it leads anywhere. -/
def destination (p : Path) : Location :=
  p.parts.foldl follow (if p.root = "" then [] else rootLocation)

/-- The text of the file that a path leads to. -/
def textOf? (t : FileTree) (p : Path) : Option String :=
  match t.locate p with
  | .ok l => t.textAt? l
  | .error _ => none

theorem locateFrom_eq {here : Location} {parts : List String}
    (found : t.locateFrom here parts = .ok l) : l = parts.foldl follow here := by
  induction parts generalizing here with
  | nil =>
    cases found
    rfl
  | cons part rest ih =>
    rw [locateFrom] at found
    split at found
    · cases found
    · split at found
      · next last =>
        cases found
        rw [List.isEmpty_iff.mp last]
        rfl
      · split at found
        · exact ih found
        · split at found
          · cases found
          · cases found

/-- A path goes on leading to its location when directories are added. -/
theorem locateFrom_mono (grows : ∀ l, t.isDirectory l = true → t'.isDirectory l = true)
    {here : Location} {parts : List String} (found : t.locateFrom here parts = .ok l) :
    t'.locateFrom here parts = .ok l := by
  induction parts generalizing here with
  | nil => exact found
  | cons part rest ih =>
    rw [locateFrom] at found ⊢
    split at found
    · cases found
    · next short =>
      rw [if_neg short]
      split at found
      · next last =>
        rw [if_pos last]
        exact found
      · next more =>
        rw [if_neg more]
        split at found
        · next directory =>
          rw [if_pos (grows _ directory)]
          exact ih found
        · split at found
          · cases found
          · cases found

theorem locate_eq_ok_iff : t.locate p = .ok l ↔ t.locateText p.render p = .ok l := by
  unfold locate
  cases t.locateText p.render p with
  | ok l' => simp
  | error obstacle => simp

theorem locate_eq (found : t.locate p = .ok l) : l = destination p := by
  rw [locate_eq_ok_iff, locateText] at found
  split at found
  · cases found
  · split at found
    · cases found
    · exact locateFrom_eq found

theorem locate_mono (grows : ∀ l, t.isDirectory l = true → t'.isDirectory l = true)
    (found : t.locate p = .ok l) : t'.locate p = .ok l := by
  rw [locate_eq_ok_iff, locateText] at found ⊢
  split at found
  · cases found
  · next whole =>
    rw [if_neg whole]
    split at found
    · cases found
    · next short =>
      rw [if_neg short]
      exact locateFrom_mono grows found

theorem hasDirectory_iff : t.hasDirectory p = true ↔
    ∃ l, t.locate p = .ok l ∧ t.isDirectory l = true := by
  unfold hasDirectory
  cases t.locate p with
  | ok l => simp
  | error e => simp

/-! ## Making directories -/

theorem isDirectory_of_append (grown : t'.directories = t.directories ++ [l]) {l' : Location}
    (directory : t.isDirectory l' = true) : t'.isDirectory l' = true := by
  unfold isDirectory at directory ⊢
  rw [grown]
  simp only [Bool.or_eq_true, List.contains_iff_mem, List.mem_append] at directory ⊢
  rcases directory with above | listed
  · exact .inl above
  · exact .inr (.inl listed)

/-- When a directory can be made, and what that changes. -/
theorem makeDirectory_of_locate (found : t.locate p = .ok l) :
    t.makeDirectory p =
      if t.isDirectory l || t.isFile l then .error ⟨.alreadyExists, p⟩
      else if t.mayChange l then .ok { t with directories := t.directories ++ [l] }
      else .error ⟨.permissionDenied, p⟩ := by
  unfold makeDirectory
  rw [found]
  dsimp only [bind, Except.bind]
  cases t.isDirectory l || t.isFile l with
  | true => rfl
  | false =>
    cases t.mayChange l with
    | true => rfl
    | false => rfl

/-- A directory that is there already stays as it is. -/
theorem ensureDirectory_of_hasDirectory (there : t.hasDirectory p = true) :
    t.ensureDirectory p = .ok t := by
  obtain ⟨l, found, directory⟩ := hasDirectory_iff.mp there
  rw [ensureDirectory, makeDirectory_of_locate found, directory, Bool.true_or, if_pos rfl]
  exact if_pos there

/-- A directory is there already, or it is added at the location that its path leads to. -/
theorem ensureDirectory_cases (ensured : t.ensureDirectory p = .ok t') :
    t.hasDirectory p = true ∧ t' = t ∨
      ∃ l, t.locate p = .ok l ∧ t' = { t with directories := t.directories ++ [l] } := by
  unfold ensureDirectory at ensured
  cases found : t.locate p with
  | error e =>
    have failed : t.makeDirectory p = .error e := by
      unfold makeDirectory
      rw [found]
      rfl
    have absent : t.hasDirectory p = false := by rw [hasDirectory, found]
    rw [failed, absent] at ensured
    cases ensured
  | ok l =>
    rw [makeDirectory_of_locate found] at ensured
    cases made : (if t.isDirectory l || t.isFile l then .error ⟨.alreadyExists, p⟩
      else if t.mayChange l then .ok { t with directories := t.directories ++ [l] }
      else .error ⟨.permissionDenied, p⟩ : Except FileError FileTree) with
    | error e =>
      rw [made] at ensured
      dsimp only at ensured
      split at ensured
      · next there =>
        cases ensured
        exact .inl ⟨there, rfl⟩
      · cases ensured
    | ok grown =>
      rw [made] at ensured
      cases ensured
      split at made
      · cases made
      · split at made
        · cases made
          exact .inr ⟨l, rfl, rfl⟩
        · cases made

/-- A directory that could be made is there. -/
theorem hasDirectory_of_ensureDirectory (ensured : t.ensureDirectory p = .ok t') :
    t'.hasDirectory p = true := by
  rcases ensureDirectory_cases ensured with ⟨there, rfl⟩ | ⟨l, found, rfl⟩
  · exact there
  · have kept := @locate_mono t { t with directories := t.directories ++ [l] } p l
      (fun _ => isDirectory_of_append rfl) found
    refine hasDirectory_iff.mpr ⟨l, kept, ?_⟩
    simp [isDirectory]

/-- Making a directory adds no file. -/
theorem files_of_ensureDirectory (ensured : t.ensureDirectory p = .ok t') : t'.files = t.files := by
  rcases ensureDirectory_cases ensured with ⟨-, rfl⟩ | ⟨l, -, rfl⟩
  · rfl
  · rfl

theorem eq_ok_of_orUnchanged {ensured : Except FileError FileTree}
    (done : (t.orUnchanged ensured).2 = none) : ensured = .ok (t.orUnchanged ensured).1 := by
  cases ensured with
  | ok t' => rfl
  | error e => cases done

theorem files_orUnchanged_ensureDirectory (t : FileTree) (p : Path) :
    (t.orUnchanged (t.ensureDirectory p)).1.files = t.files := by
  cases ensured : t.ensureDirectory p with
  | ok t' => exact files_of_ensureDirectory ensured
  | error e => rfl

/-- Making directories adds no file, also where it fails. -/
theorem files_makeDirectoriesUp (t : FileTree) (root : String) (parts : List String) :
    (t.makeDirectoriesUp root parts).1.files = t.files := by
  induction parts with
  | nil => exact files_orUnchanged_ensureDirectory t _
  | cons last above ih =>
    rw [makeDirectoriesUp]
    split
    · next ensured => exact files_of_ensureDirectory ensured
    · split
      · split
        · next t' made =>
          rw [files_orUnchanged_ensureDirectory]
          rwa [made] at ih
        · exact ih
      · rfl

theorem hasDirectory_of_makeDirectoriesUp {root : String} {parts : List String}
    (made : (t.makeDirectoriesUp root parts).2 = none) :
    (t.makeDirectoriesUp root parts).1.hasDirectory ⟨root, parts.reverse⟩ = true := by
  cases parts with
  | nil => exact hasDirectory_of_ensureDirectory (eq_ok_of_orUnchanged made)
  | cons last above =>
    rw [makeDirectoriesUp] at made ⊢
    split at made
    · next ensured => exact hasDirectory_of_ensureDirectory ensured
    · split at made
      · next absent =>
        rw [if_pos absent]
        split at made
        · exact hasDirectory_of_ensureDirectory (eq_ok_of_orUnchanged made)
        · next failed => exact (failed _ (Prod.ext rfl made)).elim
      · cases made

theorem textAt?_makeDirectories (t : FileTree) (p : Path) (l : Location) :
    (t.makeDirectories p).1.textAt? l = t.textAt? l := by
  rw [textAt?, makeDirectories, files_makeDirectoriesUp, textAt?]

/-- A directory that could be made, with those on the way to it, is there. -/
theorem hasDirectory_of_makeDirectories (made : (t.makeDirectories p).2 = none) :
    (t.makeDirectories p).1.hasDirectory p = true := by
  have there := hasDirectory_of_makeDirectoriesUp made
  rwa [List.reverse_reverse] at there

/-- A directory that is there already is made without any change. -/
theorem makeDirectories_of_hasDirectory (there : t.hasDirectory p = true) :
    t.makeDirectories p = (t, none) := by
  obtain ⟨root, parts⟩ := p
  unfold makeDirectories
  dsimp only
  cases reversed : parts.reverse with
  | nil =>
    rw [List.reverse_eq_nil_iff.mp reversed] at there
    rw [makeDirectoriesUp, ensureDirectory_of_hasDirectory there]
    rfl
  | cons last above =>
    have whole : (last :: above).reverse = parts := by rw [← reversed, List.reverse_reverse]
    rw [makeDirectoriesUp, whole, ensureDirectory_of_hasDirectory there]

/-! ## Writing files -/

theorem lookup_filter_of_ne (files : List (Location × String)) {l l' : Location} (other : l' ≠ l) :
    (files.filter fun entry => entry.1 != l).lookup l' = files.lookup l' := by
  induction files with
  | nil => rfl
  | cons entry files ih =>
    by_cases dropped : entry.1 = l
    · have skipped : (l' == entry.1) = false := beq_eq_false_iff_ne.mpr (dropped ▸ other)
      rw [List.filter_cons_of_neg (by simpa using dropped), ih, List.lookup_cons, skipped]
    · rw [List.filter_cons_of_pos (by simpa using dropped), List.lookup_cons, List.lookup_cons, ih]

/-- Replacing the text of a location sets that text and no other. -/
theorem lookup_filter_append (files : List (Location × String)) (l : Location) (text : String)
    (l' : Location) :
    (files.filter (fun entry => entry.1 != l) ++ [(l, text)]).lookup l' =
      if l' = l then some text else files.lookup l' := by
  by_cases here : l' = l
  · subst here
    have absent : (files.filter fun entry => entry.1 != l').lookup l' = none := by
      rw [List.lookup_eq_none_iff]
      intro entry member
      have other := (List.mem_filter.mp member).2
      rw [bne_iff_ne] at other
      exact bne_iff_ne.mpr other.symm
    rw [List.lookup_append, absent, if_pos rfl, List.lookup_cons_self]
    rfl
  · have missed : List.lookup l' [(l, text)] = none := by
      rw [List.lookup_cons, beq_eq_false_iff_ne.mpr here]
      rfl
    rw [List.lookup_append, lookup_filter_of_ne files here, missed, if_neg here, Option.or_none]

/-- The tree with another text at a location. -/
def replace (t : FileTree) (l : Location) (text : String) : FileTree :=
  { t with files := t.files.filter (fun entry => entry.1 != l) ++ [(l, text)] }

theorem textAt?_replace (t : FileTree) (l : Location) (text : String) (l' : Location) :
    (t.replace l text).textAt? l' = if l' = l then some text else t.textAt? l' :=
  lookup_filter_append t.files l text l'

theorem locate_replace (l : Location) (text : String) {l' : Location}
    (found : t.locate p = .ok l') : (t.replace l text).locate p = .ok l' :=
  @locate_mono t (t.replace l text) p l' (fun _ directory => directory) found

/-- The text of a file stays when another is replaced. -/
theorem textOf?_replace {text : String} (held : t.textOf? p = some text) (other : destination p ≠ l)
    (another : String) : (t.replace l another).textOf? p = some text := by
  unfold textOf? at held ⊢
  cases found : t.locate p with
  | error e =>
    rw [found] at held
    cases held
  | ok l' =>
    rw [found] at held
    have here : l' = destination p := locate_eq found
    rw [locate_replace l another found]
    dsimp only
    rw [textAt?_replace, if_neg (here ▸ other)]
    exact held

theorem hasDirectory_replace (l : Location) (text : String) (there : t.hasDirectory p = true) :
    (t.replace l text).hasDirectory p = true := by
  obtain ⟨l', found, directory⟩ := hasDirectory_iff.mp there
  exact hasDirectory_iff.mpr ⟨l', locate_replace l text found, directory⟩

/-- A file may be written at a path. -/
structure Writable (t : FileTree) (p : Path) : Prop where
  found : t.locate p = .ok (destination p)
  vacant : t.isDirectory (destination p) = false
  allowed : t.mayChange (destination p) = true

namespace Writable

/-- Writing a file replaces the text at the location that its path leads to. -/
theorem writeFile_eq (writable : t.Writable p) (text : String) :
    t.writeFile p text = (t.replace (destination p) text, none) := by
  unfold writeFile
  rw [writable.found]
  dsimp only [bind, Except.bind]
  rw [writable.vacant, writable.allowed]
  rfl

/-- A file that could be written may be written. -/
theorem of_writeFile {text : String} (wrote : (t.writeFile p text).2 = none) : t.Writable p := by
  unfold writeFile at wrote
  cases found : t.locate p with
  | error e =>
    rw [found] at wrote
    cases wrote
  | ok l =>
    rw [found] at wrote
    dsimp only [bind, Except.bind] at wrote
    have here : l = destination p := locate_eq found
    subst here
    cases directory : t.isDirectory (destination p) with
    | true =>
      rw [directory] at wrote
      cases wrote
    | false =>
      cases may : t.mayChange (destination p) with
      | false =>
        rw [directory, may] at wrote
        cases wrote
      | true => exact ⟨found, directory, may⟩

/-- Another text somewhere else does not matter. -/
theorem replace (writable : t.Writable p) {l : Location} (other : destination p ≠ l)
    (text : String) : (t.replace l text).Writable p where
  found := locate_replace l text writable.found
  vacant := writable.vacant
  allowed := by
    have kept : (t.replace l text).isFile (destination p) = t.isFile (destination p) := by
      rw [isFile, textAt?_replace, if_neg other, isFile]
    rw [mayChange, kept]
    exact writable.allowed

theorem textOf?_replace_self (writable : t.Writable p) (text : String) :
    (t.replace (destination p) text).textOf? p = some text := by
  rw [textOf?, locate_replace _ text writable.found]
  dsimp only
  rw [textAt?_replace, if_pos rfl]

end Writable

end Reckon.Build.FileTree
