import Reckon.Proofs.Build.Artifacts
import Reckon.Proofs.Build.Files

/-!
# Builds one after another

Builds of one toolchain share its count of names, whatever each of them comes to: the count goes up
also when a tool fails. So each build has files of its own, also beside the builds of other
processes in the same directory, and the commands that it runs are about these files.

`Toolchain.Conducts` says what one build does and comes to, given how the tools answer it, and
`Toolchain.buildAll` runs builds in a row.

Main statement: in a row of builds in a directory that can be made and written to, the build with a
number writes its text to the file with that number, has that file assembled and only then linked,
and leaves the files of earlier builds alone (`Toolchain.builds_apart`).
-/

namespace Reckon.Build

theorem Work.run_onFiles {change : FileTree → FileTree.Change} {w : Workshop}
    (done : (change w.files).2 = none) :
    (Work.onFiles change).run w = .ok () { w with files := (change w.files).1 } := by
  unfold Work.onFiles
  simp only [EStateM.run_bind, EStateM.run_get, EStateM.run_modify]
  rw [done]
  rfl

namespace Toolchain

variable {tc : Toolchain}

/-! ## The file of a build -/

/-- The directory of the toolchain can be made, and files with numbers from `first` on, up to
`last`, can be written in it. -/
def CanWrite (tc : Toolchain) (t : FileTree) (first last : Nat) : Prop :=
  (t.makeDirectories tc.settings.targetDir).2 = none ∧
    ∀ number, first ≤ number → number < last →
      ((t.makeDirectories tc.settings.targetDir).1.writeFile (tc.sourcePath number) "").2 = none

/-- The files after an assembly text was written to the file with a number. -/
def filesWith (tc : Toolchain) (t : FileTree) (number : Nat) (assembly : String) : FileTree :=
  (t.makeDirectories tc.settings.targetDir).1.replace
    (FileTree.destination (tc.sourcePath number)) assembly

theorem CanWrite.writable {t : FileTree} {first last number : Nat}
    (canWrite : tc.CanWrite t first last) (low : first ≤ number) (high : number < last) :
    (t.makeDirectories tc.settings.targetDir).1.Writable (tc.sourcePath number) :=
  .of_writeFile (canWrite.2 number low high)

/-- The file with a number is the entry of the directory with the name that has the number. -/
theorem destination_sourcePath (plain : tc.Plain) (number : Nat) :
    FileTree.destination (tc.sourcePath number) =
      FileTree.destination tc.settings.targetDir ++ [tc.nameOf number ++ ".s"] := by
  have notUp : (tc.nameOf number ++ ".s" != "..") = true := by
    rw [bne_iff_ne]
    intro same
    have last := congrArg (fun name : String => name.toList.getLast?) same
    simp at last
  rw [sourcePath_eq plain, FileTree.destination, FileTree.destination]
  dsimp only
  rw [List.foldl_append, List.foldl_cons, List.foldl_nil, FileTree.follow, notUp, Bool.true_or,
    if_pos rfl]

theorem destination_sourcePath_inj (plain : tc.Plain) {number number' : Nat}
    (same : FileTree.destination (tc.sourcePath number) =
      FileTree.destination (tc.sourcePath number')) : number = number' := by
  rw [destination_sourcePath plain, destination_sourcePath plain] at same
  have names := (List.cons.inj (List.append_cancel_left same)).1
  exact (nameOf_inj rfl (String.append_left_inj ".s" |>.mp names)).2

/-- The directory is there after the first build, and what later builds need stays as it was. -/
theorem CanWrite.next (plain : tc.Plain) {t : FileTree} {first last : Nat}
    (canWrite : tc.CanWrite t first last) (assembly : String) :
    tc.CanWrite (tc.filesWith t first assembly) (first + 1) last := by
  have there : (tc.filesWith t first assembly).hasDirectory tc.settings.targetDir = true :=
    FileTree.hasDirectory_replace _ _ (FileTree.hasDirectory_of_makeDirectories canWrite.1)
  have made := FileTree.makeDirectories_of_hasDirectory there
  refine ⟨by rw [made], fun number low high => ?_⟩
  have other : FileTree.destination (tc.sourcePath number) ≠
      FileTree.destination (tc.sourcePath first) := fun same => by
    have same := destination_sourcePath_inj plain same
    omega
  have writable := (canWrite.writable (by omega) high).replace other assembly
  rw [made]
  exact congrArg Prod.snd (writable.writeFile_eq "")

/-- An assembly text is written to the file with the next number. -/
theorem run_writeAssembly {w : Workshop} {last : Nat} (canWrite : tc.CanWrite w.files w.drawn last)
    (more : w.drawn < last) (assembly : String) :
    ∃ log, (tc.writeAssembly assembly).run w = .ok (tc.sourcePath w.drawn)
      ⟨tc.filesWith w.files w.drawn assembly, w.answers, w.commands, w.drawn + 1, log⟩ := by
  let made : Workshop :=
    { w with files := (w.files.makeDirectories tc.settings.targetDir).1, drawn := w.drawn + 1 }
  have wrote : made.files.writeFile (tc.sourcePath w.drawn) assembly =
      (tc.filesWith w.files w.drawn assembly, none) :=
    (canWrite.writable (Nat.le_refl _) more).writeFile_eq assembly
  have written : (Work.onFiles fun files => files.writeFile (tc.sourcePath w.drawn) assembly).run
      made = .ok () { made with files := tc.filesWith w.files w.drawn assembly } := by
    rw [Work.run_onFiles (by rw [wrote]), wrote]
  unfold writeAssembly nextName
  dsimp only
  rw [EStateM.run_bind, Work.run_onFiles canWrite.1]
  simp only [EStateM.run_bind, EStateM.run_get, EStateM.run_modify, EStateM.run_pure]
  unfold sourcePath at written ⊢
  rw [written]
  exact ⟨_, rfl⟩

/-! ## One build -/

/-- A program to be built, and where its executable is to go. -/
structure Job where
  compilation : Compilation
  output : Path

/-- The state in which a build leaves a workshop after it ran some commands. -/
structure Leaves (tc : Toolchain) (w : Workshop) (assembly : String) (commands : List Command)
    (w' : Workshop) : Prop where
  files : w'.files = tc.filesWith w.files w.drawn assembly
  answers : w'.answers = w.answers.drop commands.length
  commands : w'.commands.toList = w.commands.toList ++ commands
  drawn : w'.drawn = w.drawn + 1

theorem Leaves.answer {w w' : Workshop} {assembly : String} {commands : List Command}
    (leaves : tc.Leaves w assembly commands w') (n : Nat) :
    w'.answer n = w.answer (commands.length + n) := by
  rw [Workshop.answer, leaves.answers, List.drop_drop, Workshop.answer]

theorem Leaves.ran {w w₁ w₂ : Workshop} {assembly : String} {commands : List Command}
    {command : Command} (leaves : tc.Leaves w assembly commands w₁) (ran : w₁.Ran command w₂) :
    tc.Leaves w assembly (commands ++ [command]) w₂ where
  files := ran.files.trans leaves.files
  answers := by rw [ran.answers, leaves.answers, List.drop_drop, List.length_append]; rfl
  commands := by rw [ran.commands, leaves.commands, List.append_assoc]
  drawn := ran.drawn.trans leaves.drawn

/-- The command that links the program of a job. -/
def jobCommand (tc : Toolchain) (number : Nat) (job : Job) : Command :=
  tc.linkCommand number job.output
    (if job.compilation.needsLibrary then tc.settings.libraries else [])

/-- What a build comes to: a tool that fails is the last one. -/
inductive Builds (tc : Toolchain) (w : Workshop) (job : Job) :
    EStateM.Result BuildError Workshop Path → Prop
  | built {w' : Workshop} :
    (w.answer 0).succeeded = true → (w.answer 1).succeeded = true →
    tc.Leaves w job.compilation.assembly
      [tc.assembleCommand w.drawn, tc.jobCommand w.drawn job] w' →
    Builds tc w job (.ok job.output w')
  | unassembled {error : BuildError} {w' : Workshop} :
    (w.answer 0).succeeded = false →
    (w.answer 0).Reported (tc.assembleCommand w.drawn).words error →
    tc.Leaves w job.compilation.assembly [tc.assembleCommand w.drawn] w' →
    Builds tc w job (.error error w')
  | unlinked {error : BuildError} {w' : Workshop} :
    (w.answer 0).succeeded = true → (w.answer 1).succeeded = false →
    (w.answer 1).Reported (tc.jobCommand w.drawn job).words error →
    tc.Leaves w job.compilation.assembly
      [tc.assembleCommand w.drawn, tc.jobCommand w.drawn job] w' →
    Builds tc w job (.error error w')

theorem builds_build {w : Workshop} {last : Nat} (canWrite : tc.CanWrite w.files w.drawn last)
    (more : w.drawn < last) (job : Job) :
    tc.Builds w job ((tc.build job.compilation job.output).run w) := by
  obtain ⟨log, wrote⟩ := run_writeAssembly canWrite more job.compilation.assembly
  have start : tc.Leaves w job.compilation.assembly [] ⟨tc.filesWith w.files w.drawn
      job.compilation.assembly, w.answers, w.commands, w.drawn + 1, log⟩ :=
    ⟨rfl, rfl, (List.append_nil _).symm, rfl⟩
  generalize (⟨tc.filesWith w.files w.drawn job.compilation.assembly, w.answers, w.commands,
    w.drawn + 1, log⟩ : Workshop) = w₁ at wrote start
  have first := tc.runs_run .assembler (tc.assembleWords (tc.sourcePath w.drawn)
    ((tc.sourcePath w.drawn).withSuffix ".o")) w₁
  unfold build assemble link
  rw [EStateM.run_bind, EStateM.run_bind, wrote]
  dsimp only
  rw [EStateM.run_bind]
  generalize (tc.run .assembler _).run w₁ = result at first
  cases first with
  | failed failed reported ran =>
    rw [start.answer] at failed reported
    exact .unassembled failed reported (start.ran ran)
  | @done w₂ succeeded ran =>
    rw [start.answer] at succeeded
    have assembled : tc.Leaves w job.compilation.assembly [tc.assembleCommand w.drawn] w₂ :=
      start.ran ran
    have second := tc.runs_run .linker (tc.linkWords [(tc.sourcePath w.drawn).withSuffix ".o"]
      job.output (if job.compilation.needsLibrary then tc.settings.libraries else [])) w₂
    dsimp only [EStateM.run_pure]
    rw [EStateM.run_bind, EStateM.run_bind]
    generalize (tc.run .linker _).run w₂ = result at second
    cases second with
    | failed failed reported ran =>
      rw [assembled.answer] at failed reported
      exact .unlinked succeeded failed reported (assembled.ran ran)
    | @done w₃ succeeded' ran =>
      rw [assembled.answer] at succeeded'
      have linked := assembled.ran ran
      exact .built succeeded succeeded'
        ⟨linked.files, linked.answers, linked.commands, linked.drawn⟩

/-- One build. The workshop is kept also when it fails. -/
def buildOne (tc : Toolchain) (job : Job) (w : Workshop) : Except BuildError Path × Workshop :=
  match (tc.build job.compilation job.output).run w with
  | .ok path w' => (.ok path, w')
  | .error error w' => (.error error, w')

/-- The words that ask for libraries: none unless the program needs them and there are some. -/
def libraryWords (tc : Toolchain) (c : Compilation) : List String :=
  if c.needsLibrary = true ∧ tc.settings.libraries ≠ [] then
    "-dynamic-linker" :: tc.settings.dynamicLinker :: tc.settings.libraries.map ("-l" ++ ·)
  else []

theorem jobCommand_eq (tc : Toolchain) (number : Nat) (job : Job) :
    tc.jobCommand number job = ⟨[tc.settings.linker, "-o", job.output.render,
      (tc.objectPath number).render] ++ tc.libraryWords job.compilation, tc.settings.timeout⟩ := by
  unfold jobCommand linkCommand linkWords libraryWords
  cases job.compilation.needsLibrary with
  | false => simp
  | true =>
    cases tc.settings.libraries with
    | nil => simp
    | cons library libraries => simp

/-- What the build of a job with a number does between two states of a workshop, and what it comes
to. The first of the tools to answer is the assembler, the second the linker. -/
structure Conducts (tc : Toolchain) (number : Nat) (job : Job) (before : Workshop)
    (result : Except BuildError Path) (after : Workshop) : Prop where
  /-- The assembly text is in the file with the number. -/
  written : after.files.textOf? (tc.sourcePath number) = some job.compilation.assembly
  /-- No other text has changed. -/
  kept : ∀ l, l ≠ FileTree.destination (tc.sourcePath number) →
    after.files.textAt? l = before.files.textAt? l
  /-- The file is assembled, and linked exactly if that succeeds. -/
  ran : after.commands.toList = before.commands.toList ++
    ⟨tc.settings.assembler :: tc.settings.assemblerFlags ++
        ["-o", (tc.objectPath number).render, (tc.sourcePath number).render],
      tc.settings.timeout⟩ ::
      if (before.answer 0).succeeded then
        [⟨[tc.settings.linker, "-o", job.output.render, (tc.objectPath number).render] ++
          tc.libraryWords job.compilation, tc.settings.timeout⟩]
      else []
  answers : after.answers = before.answers.drop (if (before.answer 0).succeeded then 2 else 1)
  returned : result = .ok job.output ↔
    (before.answer 0).succeeded = true ∧ (before.answer 1).succeeded = true
  unassembled : (before.answer 0).succeeded = false → ∃ error, result = .error error ∧
    (before.answer 0).Reported (tc.assembleCommand number).words error
  unlinked : (before.answer 0).succeeded = true → (before.answer 1).succeeded = false →
    ∃ error, result = .error error ∧
      (before.answer 1).Reported (tc.jobCommand number job).words error

theorem conducts_buildOne {w : Workshop} {last : Nat} (canWrite : tc.CanWrite w.files w.drawn last)
    (more : w.drawn < last) (job : Job) :
    tc.Conducts w.drawn job w (tc.buildOne job w).1 (tc.buildOne job w).2 := by
  have written := (canWrite.writable (Nat.le_refl _) more).textOf?_replace_self
    job.compilation.assembly
  have kept : ∀ l, l ≠ FileTree.destination (tc.sourcePath w.drawn) →
      (tc.filesWith w.files w.drawn job.compilation.assembly).textAt? l = w.files.textAt? l :=
    fun l other => by
      rw [filesWith, FileTree.textAt?_replace, if_neg other, FileTree.textAt?_makeDirectories]
  have builds := builds_build canWrite more job
  unfold buildOne
  generalize (tc.build job.compilation job.output).run w = result at builds
  cases builds with
  | built assembled linked leaves =>
    refine ⟨leaves.files ▸ written, leaves.files ▸ kept, ?_, ?_, ?_, ?_, ?_⟩
    · rw [leaves.commands, assembled, jobCommand_eq]
      rfl
    · rw [leaves.answers, assembled]
      rfl
    · exact iff_of_true rfl ⟨assembled, linked⟩
    · intro failed
      rw [assembled] at failed
      cases failed
    · intro _ failed
      rw [linked] at failed
      cases failed
  | unassembled failed reported leaves =>
    refine ⟨leaves.files ▸ written, leaves.files ▸ kept, ?_, ?_, ?_, ?_, ?_⟩
    · rw [leaves.commands, failed]
      rfl
    · rw [leaves.answers, failed]
      rfl
    · simp [failed]
    · exact fun _ => ⟨_, rfl, reported⟩
    · intro assembled
      rw [failed] at assembled
      cases assembled
  | unlinked assembled failed reported leaves =>
    refine ⟨leaves.files ▸ written, leaves.files ▸ kept, ?_, ?_, ?_, ?_, ?_⟩
    · rw [leaves.commands, assembled, jobCommand_eq]
      rfl
    · rw [leaves.answers, assembled]
      rfl
    · simp [failed]
    · intro failed
      rw [assembled] at failed
      cases failed
    · exact fun _ _ => ⟨_, rfl, reported⟩

theorem exists_leaves_buildOne {w : Workshop} {last : Nat}
    (canWrite : tc.CanWrite w.files w.drawn last) (more : w.drawn < last) (job : Job) :
    ∃ commands, tc.Leaves w job.compilation.assembly commands (tc.buildOne job w).2 := by
  have builds := builds_build canWrite more job
  unfold buildOne
  generalize (tc.build job.compilation job.output).run w = result at builds
  cases builds with
  | built _ _ leaves => exact ⟨_, leaves⟩
  | unassembled _ _ leaves => exact ⟨_, leaves⟩
  | unlinked _ _ _ leaves => exact ⟨_, leaves⟩

/-! ## Builds in a row -/

/-- Builds in a row, each in the workshop that the one before left behind. -/
def buildAll (tc : Toolchain) : List Job → Workshop → List (Except BuildError Path) × Workshop
  | [], w => ([], w)
  | job :: jobs, w =>
    let first := tc.buildOne job w
    let rest := tc.buildAll jobs first.2
    (first.1 :: rest.1, rest.2)

theorem buildAll_append (tc : Toolchain) (first later : List Job) (w : Workshop) :
    tc.buildAll (first ++ later) w =
      ((tc.buildAll first w).1 ++ (tc.buildAll later (tc.buildAll first w).2).1,
        (tc.buildAll later (tc.buildAll first w).2).2) := by
  induction first generalizing w with
  | nil => rfl
  | cons job first ih =>
    rw [List.cons_append, buildAll, ih]
    rfl

theorem length_buildAll (tc : Toolchain) (jobs : List Job) (w : Workshop) :
    (tc.buildAll jobs w).1.length = jobs.length := by
  induction jobs generalizing w with
  | nil => rfl
  | cons job jobs ih => exact congrArg (· + 1) (ih _)

/-- The workshop before a build in a row. -/
def workshopBefore (tc : Toolchain) (jobs : List Job) (w : Workshop) (k : Nat) : Workshop :=
  (tc.buildAll (jobs.take k) w).2

theorem workshopBefore_succ {jobs : List Job} {k : Nat} {job : Job} (asked : jobs[k]? = some job)
    (w : Workshop) :
    tc.workshopBefore jobs w (k + 1) = (tc.buildOne job (tc.workshopBefore jobs w k)).2 := by
  rw [workshopBefore, List.take_add_one, asked, Option.toList_some, buildAll_append]
  rfl

theorem getElem?_buildAll {jobs : List Job} {k : Nat} {job : Job} (asked : jobs[k]? = some job)
    (w : Workshop) :
    (tc.buildAll jobs w).1[k]? = some (tc.buildOne job (tc.workshopBefore jobs w k)).1 := by
  obtain ⟨less, here⟩ := List.getElem?_eq_some_iff.mp asked
  have whole : jobs = jobs.take k ++ job :: jobs.drop (k + 1) := by
    rw [← here, ← List.drop_eq_getElem_cons less, List.take_append_drop]
  have before : (tc.buildAll (jobs.take k) w).1.length = k := by
    rw [length_buildAll, List.length_take, Nat.min_eq_left (Nat.le_of_lt less)]
  rw [congrArg (tc.buildAll · w) whole, buildAll_append]
  dsimp only
  rw [List.getElem?_append_right (Nat.le_of_eq before), before, Nat.sub_self]
  rfl

/-- What holds in a row of builds when some of them are done: each has drawn one name and left its
text behind, and there is room for the others. -/
structure Underway (tc : Toolchain) (jobs : List Job) (w : Workshop) (k : Nat) (w' : Workshop) :
    Prop where
  drawn : w'.drawn = w.drawn + k
  canWrite : tc.CanWrite w'.files w'.drawn (w.drawn + jobs.length)
  there : 0 < k → w'.files.hasDirectory tc.settings.targetDir = true
  written : ∀ i job, i < k → jobs[i]? = some job →
    w'.files.textOf? (tc.sourcePath (w.drawn + i)) = some job.compilation.assembly

theorem Underway.step (plain : tc.Plain) {jobs : List Job} {w w' : Workshop} {k : Nat} {job : Job}
    (asked : jobs[k]? = some job) (underway : tc.Underway jobs w k w') :
    tc.Underway jobs w (k + 1) (tc.buildOne job w').2 := by
  have less : k < jobs.length := (List.getElem?_eq_some_iff.mp asked).1
  have more : w'.drawn < w.drawn + jobs.length := by
    rw [underway.drawn]
    omega
  obtain ⟨commands, leaves⟩ := exists_leaves_buildOne underway.canWrite more job
  refine ⟨?_, ?_, fun _ => ?_, fun i other earlier asked' => ?_⟩
  · rw [leaves.drawn, underway.drawn, Nat.add_assoc]
  · rw [leaves.files, leaves.drawn]
    exact underway.canWrite.next plain _
  · rw [leaves.files]
    exact FileTree.hasDirectory_replace _ _
      (FileTree.hasDirectory_of_makeDirectories underway.canWrite.1)
  · rcases Nat.lt_succ_iff_lt_or_eq.mp earlier with before | rfl
    · -- The directory is there, so the build changes nothing but the file of its own number.
      have apart : FileTree.destination (tc.sourcePath (w.drawn + i)) ≠
          FileTree.destination (tc.sourcePath w'.drawn) := fun same => by
        have same := destination_sourcePath_inj plain same
        rw [underway.drawn] at same
        omega
      rw [leaves.files, filesWith,
        FileTree.makeDirectories_of_hasDirectory (underway.there (by omega))]
      exact FileTree.textOf?_replace (underway.written i other before asked') apart _
    · rw [asked] at asked'
      cases asked'
      rw [← underway.drawn]
      exact (conducts_buildOne underway.canWrite more job).written

theorem underway_workshopBefore (plain : tc.Plain) {jobs : List Job} {w : Workshop}
    (canWrite : tc.CanWrite w.files w.drawn (w.drawn + jobs.length)) {k : Nat}
    (within : k ≤ jobs.length) : tc.Underway jobs w k (tc.workshopBefore jobs w k) := by
  induction k with
  | zero => exact ⟨rfl, canWrite, fun none => absurd none (Nat.lt_irrefl 0), fun i _ none =>
      absurd none (Nat.not_lt_zero i)⟩
  | succ k ih =>
    have asked : jobs[k]? = some (jobs.get ⟨k, within⟩) := List.getElem?_eq_getElem within
    rw [workshopBefore_succ asked]
    exact (ih (Nat.le_of_succ_le within)).step plain asked

/-- Builds in a row, in a directory that can be made and written to, each have a file of their own:
the one with index `k` has number `k` if no names were drawn before. Its name has the stem, the
process and the number in it, so it is also no file of another process with the same directory. The
text written there is assembled, linked exactly if that succeeds, and not changed by later builds.
-/
theorem builds_apart (plain : tc.Plain) (w : Workshop) (jobs : List Job)
    (canWrite : tc.CanWrite w.files w.drawn (w.drawn + jobs.length)) :
    (tc.buildAll jobs w).1.length = jobs.length ∧
    ∀ k job, jobs[k]? = some job →
      (∃ result, (tc.buildAll jobs w).1[k]? = some result ∧
        tc.Conducts (w.drawn + k) job (tc.workshopBefore jobs w k) result
          (tc.workshopBefore jobs w (k + 1))) ∧
      tc.sourcePath (w.drawn + k) = ⟨tc.settings.targetDir.root, tc.settings.targetDir.parts ++
        [s!"{tc.stem}-{tc.process}-{w.drawn + k}.s"]⟩ ∧
      tc.objectPath (w.drawn + k) = ⟨tc.settings.targetDir.root, tc.settings.targetDir.parts ++
        [s!"{tc.stem}-{tc.process}-{w.drawn + k}.o"]⟩ ∧
      (∀ n, k < n → n ≤ jobs.length →
        (tc.workshopBefore jobs w n).files.textOf? (tc.sourcePath (w.drawn + k)) =
          some job.compilation.assembly) ∧
      (∀ i, i < k → tc.sourcePath (w.drawn + i) ≠ tc.sourcePath (w.drawn + k)) ∧
      ∀ (tc' : Toolchain) (number : Nat), tc'.stem = tc.stem →
        tc'.settings.targetDir = tc.settings.targetDir → tc'.process ≠ tc.process →
        tc'.sourcePath number ≠ tc.sourcePath (w.drawn + k) := by
  refine ⟨tc.length_buildAll jobs w, fun k job asked => ?_⟩
  have less : k < jobs.length := (List.getElem?_eq_some_iff.mp asked).1
  have underway := underway_workshopBefore plain canWrite (Nat.le_of_lt less)
  refine ⟨⟨_, getElem?_buildAll asked w, ?_⟩, ?_, ?_, fun n later within => ?_, fun i earlier => ?_,
    fun tc' number stem dir process => ?_⟩
  · have conducts := conducts_buildOne underway.canWrite (by rw [underway.drawn]; omega) job
    rw [underway.drawn] at conducts
    rw [workshopBefore_succ asked]
    exact conducts
  · rw [sourcePath_eq plain]
    rfl
  · rw [objectPath_eq plain]
    rfl
  · exact (underway_workshopBefore plain canWrite within).written k job later asked
  · intro same
    have same := (sourcePath_inj plain rfl rfl same).2
    omega
  · intro same
    exact process (sourcePath_inj plain stem.symm dir.symm same.symm).1.symm

/-- A toolchain of some process, with the standard settings. -/
def sampleTools : Toolchain := ⟨.standard, "exprc", .ofInt (.ofNat 7)⟩

/-- A program without calls and one with a call, the latter twice. -/
def sampleJobs : List Job :=
  let still : Compilation := ⟨"1;", ⟨[], ⟨[]⟩⟩, 2, ⟨true, 0, [], []⟩, []⟩
  let calling : Compilation := ⟨"f();", ⟨[], ⟨[]⟩⟩, 4, ⟨true, 1, [], ["a"]⟩, ["f"]⟩
  [⟨still, ⟨"", ["a"]⟩⟩, ⟨calling, ⟨"", ["b"]⟩⟩, ⟨calling, ⟨"/", ["c"]⟩⟩]

/-- The assembler fails at the first of three builds and the linker is missing at the second. -/
def sampleWorkshop : Workshop :=
  .opening default [.finished (.ofInt 1) "bad", .success, .missing]

theorem canWrite_sampleTools : sampleTools.CanWrite sampleWorkshop.files 0 3 := by
  refine ⟨by decide, fun number _ less => ?_⟩
  obtain rfl | rfl | rfl : number = 0 ∨ number = 1 ∨ number = 2 := by omega
  · decide
  · decide
  · decide

theorem builds_apart_of_failures :
    sampleTools.Plain ∧ sampleTools.CanWrite sampleWorkshop.files 0 3 ∧
    (∃ error, (sampleTools.buildAll sampleJobs sampleWorkshop).1[0]? = some (.error (.tool error)) ∧
      error.command = ["as", "-g", "-o", "exprc-target/exprc-7-0.o", "exprc-target/exprc-7-0.s"] ∧
      error.status? = some 1) ∧
    (∃ error, (sampleTools.buildAll sampleJobs sampleWorkshop).1[1]? = some (.error (.tool error)) ∧
      error.command = ["ld", "-o", "b", "exprc-target/exprc-7-1.o", "-dynamic-linker",
        "/lib64/ld-linux-x86-64.so.2", "-lc"] ∧
      error.status? = none) ∧
    (sampleTools.buildAll sampleJobs sampleWorkshop).1[2]? = some (.ok ⟨"/", ["c"]⟩) := by
  have plain : sampleTools.Plain := by decide
  obtain ⟨-, builds⟩ := builds_apart plain sampleWorkshop sampleJobs canWrite_sampleTools
  obtain ⟨⟨result₀, listed₀, conducts₀⟩, -⟩ := builds 0 _ rfl
  obtain ⟨⟨result₁, listed₁, conducts₁⟩, -⟩ := builds 1 _ rfl
  obtain ⟨⟨result₂, listed₂, conducts₂⟩, -⟩ := builds 2 _ rfl
  have answers₁ : (sampleTools.workshopBefore sampleJobs sampleWorkshop 1).answers =
      [.success, .missing] := conducts₀.answers
  have first : (sampleTools.workshopBefore sampleJobs sampleWorkshop 1).answer 0 = .success := by
    rw [Workshop.answer, answers₁]
    rfl
  have second : (sampleTools.workshopBefore sampleJobs sampleWorkshop 1).answer 1 = .missing := by
    rw [Workshop.answer, answers₁]
    rfl
  have answers₂ : (sampleTools.workshopBefore sampleJobs sampleWorkshop 2).answers = [] := by
    rw [conducts₁.answers, first, answers₁]
    rfl
  have later (n : Nat) :
      (sampleTools.workshopBefore sampleJobs sampleWorkshop 2).answer n = .success := by
    rw [Workshop.answer, answers₂, List.drop_nil]
    rfl
  refine ⟨plain, canWrite_sampleTools, ?_, ?_, ?_⟩
  · obtain ⟨error, rfl, reported⟩ := conducts₀.unassembled rfl
    cases reported with
    | failed _ command status => exact ⟨_, listed₀, command.trans (by decide), status⟩
  · obtain ⟨error, rfl, reported⟩ := conducts₁.unlinked (by rw [first]; rfl) (by rw [second]; rfl)
    rw [second] at reported
    cases reported with
    | missing command status => exact ⟨_, listed₁, command.trans (by decide), status⟩
  · rw [listed₂, conducts₂.returned.mpr ⟨by rw [later]; rfl, by rw [later]; rfl⟩]

end Toolchain

end Reckon.Build
