import Reckon.Build.Toolchain

/-!
# The commands of a build

A build runs the assembler on the file that it wrote and the linker on the object file that belongs
to it, in this order, and stops at the first failure. `Toolchain.Runs` says what running one tool
comes to, given how it answers. Main statement: the commands that a build adds to those of its
workshop are the first of these two (`Build.Toolchain.ran_build`).
-/

namespace Reckon.Build

/-! ## One tool -/

/-- The tool did its work. -/
def ToolAnswer.succeeded : ToolAnswer → Bool
  | .finished status _ => status.value == 0
  | .missing | .timedOut | .broken _ => false

/-- An error that reports an answer to a command line: the command line, and the status if the tool
ended with one. Whatever else kept a tool from running is reported as it is. -/
inductive ToolAnswer.Reported (words : List String) : ToolAnswer → BuildError → Prop
  | failed {status : Text.Decimal} {stderr : String} {error : ToolError} : status.value ≠ 0 →
    error.command = words → error.status? = some status.value → error.stderr = stderr →
    Reported words (.finished status stderr) (.tool error)
  | missing {error : ToolError} : error.command = words → error.status? = none →
    Reported words .missing (.tool error)
  | timedOut {error : ToolError} : error.command = words → error.status? = none →
    Reported words .timedOut (.tool error)
  | broken (mishap : Mishap) : Reported words (.broken mishap) (.mishap mishap)

namespace Workshop

/-- How a tool will answer before which so many others are run. -/
def answer (w : Workshop) (n : Nat) : ToolAnswer :=
  (w.answers.drop n).headD .success

/-- A command was run between two states of a workshop, and its answer taken. -/
structure Ran (w : Workshop) (command : Command) (w' : Workshop) : Prop where
  files : w'.files = w.files
  answers : w'.answers = w.answers.drop 1
  commands : w'.commands.toList = w.commands.toList ++ [command]
  drawn : w'.drawn = w.drawn

end Workshop

namespace Toolchain

/-- What running a tool comes to. -/
inductive Runs (w : Workshop) (command : Command) :
    EStateM.Result BuildError Workshop Unit → Prop
  | done {w' : Workshop} : (w.answer 0).succeeded = true → w.Ran command w' →
    Runs w command (.ok () w')
  | failed {error : BuildError} {w' : Workshop} : (w.answer 0).succeeded = false →
    (w.answer 0).Reported command.words error → w.Ran command w' →
    Runs w command (.error error w')

theorem runs_run (tc : Toolchain) (tool : Tool) (words : List String) (w : Workshop) :
    Runs w ⟨words, tc.settings.timeout⟩ ((tc.run tool words).run w) := by
  have ran (log : Array LogRecord) : w.Ran ⟨words, tc.settings.timeout⟩ ⟨w.files,
      w.answers.drop 1, w.commands.push ⟨words, tc.settings.timeout⟩, w.drawn, log⟩ :=
    ⟨rfl, rfl, Array.toList_push, rfl⟩
  simp only [run, Work.report, Work.takeAnswer, EStateM.run_bind, EStateM.run_modify,
    EStateM.run_get, EStateM.run_set, EStateM.run_pure]
  cases given : w.answers.headD .success with
  | missing =>
    have answer : w.answer 0 = .missing := given
    refine .failed (by rw [answer]; rfl) ?_ (ran _)
    rw [answer]
    exact .missing rfl rfl
  | timedOut =>
    have answer : w.answer 0 = .timedOut := given
    refine .failed (by rw [answer]; rfl) ?_ (ran _)
    rw [answer]
    exact .timedOut rfl rfl
  | broken mishap =>
    have answer : w.answer 0 = .broken mishap := given
    refine .failed (by rw [answer]; rfl) ?_ (ran _)
    rw [answer]
    exact .broken mishap
  | finished status stderr =>
    have answer : w.answer 0 = .finished status stderr := given
    by_cases zero : status.value = 0
    · simp only [zero, if_true]
      refine .done ?_ (ran _)
      rw [answer]
      exact beq_iff_eq.mpr zero
    · simp only [zero, if_false]
      refine .failed ?_ ?_ (ran _)
      · rw [answer]
        exact beq_eq_false_iff_ne.mpr zero
      · rw [answer]
        exact .failed zero rfl rfl rfl

end Toolchain

/-! ## The commands of work -/

/-- What work in a workshop came to, seen by its commands: it returned the value, drew so many names
and ran all of the commands, or it failed and ran some of them, from the first on. -/
inductive Work.Ran {α : Type} (w : Workshop) (names : Nat) (commands : List Command) (value : α) :
    EStateM.Result BuildError Workshop α → Prop
  | done {w' : Workshop} : w'.drawn = w.drawn + names →
    w'.commands.toList = w.commands.toList ++ commands → Ran w names commands value (.ok value w')
  | failed {error : BuildError} {w' : Workshop} {some : List Command} : some <+: commands →
    w'.commands.toList = w.commands.toList ++ some → Ran w names commands value (.error error w')

namespace Work

theorem Ran.pure {α : Type} (a : α) (w : Workshop) : Ran w 0 [] a ((pure a : Work α).run w) :=
  .done rfl (List.append_nil _).symm

/-- One piece of work after another. -/
theorem Ran.bind {α β : Type} {w : Workshop} {m n : Nat} {c d : List Command} {a : α} {b : β}
    {first : Work α} {next : α → Work β} (ran : Ran w m c a (first.run w))
    (later : ∀ w', w'.drawn = w.drawn + m → Ran w' n d b ((next a).run w')) :
    Ran w (m + n) (c ++ d) b ((first >>= next).run w) := by
  rw [EStateM.run_bind]
  generalize first.run w = result at ran
  cases ran with
  | failed part added => exact .failed (part.trans (List.prefix_append _ _)) added
  | @done w' drawn added =>
    have ran := later w' drawn
    dsimp only
    generalize (next a).run w' = result at ran
    cases ran with
    | done drawn' added' =>
      exact .done (by rw [drawn', drawn, Nat.add_assoc])
        (by rw [added', added, List.append_assoc])
    | failed part added' =>
      exact .failed ((List.prefix_append_right_inj c).mpr part)
        (by rw [added', added, List.append_assoc])

theorem ran_report (level : LogLevel) (message : String) (w : Workshop) :
    Ran w 0 [] () ((report level message).run w) :=
  .done rfl (List.append_nil _).symm

theorem ran_onFiles (change : FileTree → FileTree.Change) (w : Workshop) :
    Ran w 0 [] () ((onFiles change).run w) := by
  simp only [onFiles, EStateM.run_bind, EStateM.run_modify, EStateM.run_get]
  cases (change w.files).2 with
  | none => exact .done rfl (List.append_nil _).symm
  | some error => exact .failed (List.prefix_refl _) (List.append_nil _).symm

end Work

namespace Toolchain

open Work

variable (tc : Toolchain)

theorem ran_run (tool : Tool) (words : List String) (w : Workshop) :
    Ran w 0 [⟨words, tc.settings.timeout⟩] () ((tc.run tool words).run w) := by
  have runs := tc.runs_run tool words w
  generalize (tc.run tool words).run w = result at runs
  cases runs with
  | done _ ran => exact .done ran.drawn ran.commands
  | failed _ _ ran => exact .failed (List.prefix_refl _) ran.commands

/-- The file to which the text with a number is written. -/
def sourcePath (number : Nat) : Path :=
  tc.settings.targetDir.join (.ofString (tc.nameOf number ++ ".s"))

/-- The object file that belongs to it. -/
def objectPath (number : Nat) : Path :=
  (tc.sourcePath number).withSuffix ".o"

/-- The command that assembles the text with a number. -/
def assembleCommand (number : Nat) : Command :=
  ⟨tc.assembleWords (tc.sourcePath number) (tc.objectPath number), tc.settings.timeout⟩

/-- The command that links the object file with a number. -/
def linkCommand (number : Nat) (output : Path) (libraries : List String) : Command :=
  ⟨tc.linkWords [tc.objectPath number] output libraries, tc.settings.timeout⟩

theorem ran_nextName (w : Workshop) : Ran w 1 [] (tc.nameOf w.drawn) (tc.nextName.run w) :=
  .done rfl (List.append_nil _).symm

theorem ran_writeAssembly (assembly : String) (w : Workshop) :
    Ran w 1 [] (tc.sourcePath w.drawn) ((tc.writeAssembly assembly).run w) := by
  refine (ran_onFiles _ w).bind (n := 1) (d := []) fun w₁ (drawn : w₁.drawn = w.drawn) => ?_
  rw [← drawn]
  refine (tc.ran_nextName w₁).bind (n := 0) (d := []) fun w₂ _ => ?_
  refine (ran_onFiles _ w₂).bind (n := 0) (d := []) fun w₃ _ => ?_
  exact (ran_report _ _ w₃).bind (n := 0) (d := []) fun w₄ _ => .pure _ w₄

theorem ran_assemble (assembly : String) (w : Workshop) :
    Ran w 1 [tc.assembleCommand w.drawn] (tc.objectPath w.drawn)
      ((tc.assemble assembly).run w) := by
  refine (tc.ran_writeAssembly assembly w).bind (n := 0) (d := [_]) fun w₁ _ => ?_
  exact (tc.ran_run .assembler _ w₁).bind (n := 0) (d := []) fun w₂ _ => .pure _ w₂

theorem ran_link (number : Nat) (output : Path) (libraries : List String) (w : Workshop) :
    Ran w 0 [tc.linkCommand number output libraries] output
      ((tc.link [tc.objectPath number] output libraries).run w) :=
  (tc.ran_run .linker _ w).bind (n := 0) (d := []) fun w₁ _ => .pure output w₁

/-- A build assembles the text of the program and links what came of it, with the libraries if the
program needs them. -/
theorem ran_build (c : Compilation) (output : Path) (w : Workshop) :
    Ran w 1 [tc.assembleCommand w.drawn, tc.linkCommand w.drawn output
        (if c.needsLibrary then tc.settings.libraries else [])] output
      ((tc.build c output).run w) := by
  refine (tc.ran_assemble c.assembly w).bind (n := 0) (d := [_]) fun w₁ _ => ?_
  refine (tc.ran_link w.drawn output _ w₁).bind (n := 0) (d := []) fun w₂ _ => ?_
  exact (ran_report _ _ w₂).bind (n := 0) (d := []) fun w₃ _ => .pure _ w₃

/-- The linker is given each of the libraries. -/
theorem mem_linkWords {objects : List Path} {output : Path} {libraries : List String}
    {library : String} (listed : library ∈ libraries) :
    "-l" ++ library ∈ tc.linkWords objects output libraries := by
  have some : libraries.isEmpty = false := by
    cases libraries with
    | nil => cases listed
    | cons => rfl
  rw [linkWords, some]
  exact List.mem_append_right _ (List.mem_append_right _ (List.mem_map_of_mem listed))

end Toolchain

end Reckon.Build
