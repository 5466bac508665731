import Reckon.Command
import Reckon.Proofs.Emission
import Reckon.Proofs.Machine.Consoles
import Reckon.Proofs.Remarks

/-!
# What a command comes to

The stages of a command decide how it ends. An error in the program ends it before any action; of
the actions asked for one is taken, and what becomes of it is the exit code. What a text is on its
stream is up to the place of the command, which may take terminal styling out of it. A diagnostic is
therefore not always on the error stream letter for letter (`Command.perform_styled_literal`).

`Command.Acted` says what each action comes to. A program that is run prints what its routines
print, call by call, and its value behind that if it has one.

Main statement: `Command.perform_by_stages`.
-/

namespace Reckon.Command

open Machine (Execution Exit Moment console? noting?)

/-! ## Without details nothing is reported about the work -/

theorem Outcome.log_of_debug {records : List LogRecord}
    (debug : ∀ record ∈ records, record.level = .debug) (o : Outcome) :
    o.log false records = o := by
  have silent : records.map (logLine false) = List.replicate records.length "" := by
    refine List.eq_replicate_iff.mpr ⟨List.length_map _, fun line member => ?_⟩
    obtain ⟨record, listed, rfl⟩ := List.mem_map.mp member
    rw [logLine, debug record listed]
    rfl
  have empty (n : Nat) : String.join (List.replicate n "") = "" := by
    induction n with
    | zero => rfl
    | succ n ih => exact ih
  rw [log, silent, empty, String.append_empty]

theorem level_ofSourceLogged {options : Code.Options} {source : String} {record : LogRecord}
    (member : record ∈ (Compilation.ofSourceLogged options source).2) : record.level = .debug := by
  have ofParsing (parsing : Parsing) : ∀ record ∈ parsing.log, record.level = .debug := by
    intro record member
    unfold Parsing.log at member
    split at member
    · exact List.mem_singleton.mp member ▸ rfl
    · cases member
  have ofGeneration (generation : Code.Generation) (program : Program) :
      ∀ record ∈ generation.log program, record.level = .debug := by
    intro record member
    unfold Code.Generation.log at member
    split at member
    · exact List.mem_singleton.mp member ▸ rfl
    · cases member
  unfold Compilation.ofSourceLogged at member
  dsimp only at member
  split at member
  · cases member
  · split at member
    · exact ofParsing _ record member
    · rcases List.mem_append.mp member with member | last
      · rcases List.mem_append.mp member with member | member
        · exact ofParsing _ record member
        · exact ofGeneration _ _ record member
      · exact List.mem_singleton.mp last ▸ rfl

theorem level_ofText {World : Type} {text : String}
    {routine? : String → Option (Machine.Routine World)} {world : World} {limit : Int}
    {record : LogRecord} (member : record ∈ (Execution.ofText text routine? world limit).log) :
    record.level = .debug := by
  unfold Execution.ofText at member
  split at member
  · cases member
  · unfold Machine.runLog at member
    rcases List.mem_append.mp member with made | last
    · obtain ⟨call, -, rfl⟩ := List.mem_map.mp made
      rfl
    · split at last
      · exact List.mem_singleton.mp last ▸ rfl
      · cases last

/-! ## The run of a program -/

/-- The run of a compiled program on a console, however that writes: how it ends, and the calls it
makes, each with the machine that made it. -/
structure Emulates (c : Compilation) (result : Except Fault Exit) (moments : List Moment) :
    Prop where
  result : ∀ {World : Type} (write : World → String → World) (world : World),
    (Execution.ofText c.assembly (console? write) world Request.stepLimit).result = result
  calls : ∀ {World : Type} (write : World → String → World) (world : World),
    (Execution.ofText c.assembly (console? write) world Request.stepLimit).calls.toList =
      moments.map Moment.call
  noted : (Execution.ofText c.assembly noting? [] Request.stepLimit).world = moments

theorem emulates_ofText (c : Compilation) :
    Emulates c (Execution.ofText c.assembly noting? [] Request.stepLimit).result
      (Execution.ofText c.assembly noting? [] Request.stepLimit).world where
  result write world := by rw [Execution.ofText_console, Execution.result_through]
  calls write world := by
    rw [Execution.ofText_console, Execution.calls_through, Execution.calls_noting]
  noted := rfl

/-! ## Streams -/

/-- The streams of a place leave a text as it is if it has no escape character. All sequences that
style a terminal begin with one. -/
def Place.Faithful (place : Place) : Prop :=
  ∀ stream text, '\x1b' ∉ text.toList → place.echo stream text = text

/-- A number is written as it is. -/
theorem Place.Faithful.echo_int {place : Place} (faithful : place.Faithful) (stream : Stream)
    (n : Int) : place.echo stream s!"{n}\n" = s!"{n}\n" := by
  refine faithful stream _ fun member => ?_
  have chars : (s!"{n}\n").toList = (toString n).toList ++ ['\n'] := String.toList_append
  rw [chars] at member
  rcases List.mem_append.mp member with written | last
  · rcases Assembly.isDigit_or_eq_of_mem_toString written with digit | sign
    · cases digit
    · cases sign
  · cases List.mem_singleton.mp last

/-- What the routines print in some calls, as it is on the stream. -/
def Place.displayed (place : Place) (moments : List Moment) : String :=
  String.join ((moments.filterMap Moment.text?).map (place.echo .stdout))

/-! ## Actions -/

/-- The tools that a command builds with. -/
def Place.toolchain (place : Place) : Build.Toolchain :=
  ⟨(Build.Settings.ofEnvironment place.environment).1, "exprc", place.process⟩

/-- The number that a command ends with if its build fails. -/
inductive Unbuilt : Build.BuildError → Nat → Prop
  | tool (error : Build.ToolError) : Unbuilt (.tool error) 1
  | forbidden {error : Build.FileError} : error.obstacle = .permissionDenied →
    Unbuilt (.file error) 2
  | obstructed {error : Build.FileError} : error.obstacle ≠ .permissionDenied →
    Unbuilt (.file error) 3
  | barred {mishap : Build.Mishap} : mishap.denied = true → Unbuilt (.mishap mishap) 2
  | broken {mishap : Build.Mishap} : mishap.denied = false → Unbuilt (.mishap mishap) 3

/-- A failed build is a problem with that number. -/
theorem unbuilt_ofBuildError (error : Build.BuildError) :
    Unbuilt error (Problem.ofBuildError error).exitCode.number := by
  cases error with
  | tool error => exact .tool error
  | file error =>
    by_cases denied : error.obstacle = .permissionDenied
    · simp only [Problem.ofBuildError, if_pos denied]
      exact .forbidden denied
    · simp only [Problem.ofBuildError, if_neg denied]
      exact .obstructed denied
  | mishap mishap =>
    cases denied : mishap.denied with
    | true =>
      simp only [Problem.ofBuildError, denied, if_true]
      exact .barred denied
    | false =>
      simp only [Problem.ofBuildError, denied, Bool.false_eq_true, if_false]
      exact .broken denied

/-- What the action on a compiled program comes to: the number that the command ends with, what it
prints, the commands it runs and the files it leaves. -/
inductive Acted (r : Request) (place : Place) (c : Compilation) :
    Nat → String → List Build.Command → Build.FileTree → Prop
  | tree {text : String} : r.tree = true → place.accident? .printing = none →
    c.program.print = .ok text →
    Acted r place c 0 (place.echo .stdout (text ++ "\n")) [] place.files
  | interrupted {message : String} : r.tree = true → place.accident? .printing = some message →
    Acted r place c 3 "" [] place.files
  | assembly : r.tree = false → r.assembly = true →
    Acted r place c 0 (place.echo .stdout c.assembly) [] place.files
  | ended {exit : Exit} {moments : List Moment} :
    r.tree = false → r.assembly = false → r.run = true → Emulates c (.ok exit) moments →
    Acted r place c 0 (place.displayed moments ++ s!"{exit.value}\n") [] place.files
  | faulted {cause : Fault.Cause} {line? : Option Int} {moments : List Moment} :
    r.tree = false → r.assembly = false → r.run = true →
    Emulates c (.error (.raised cause line?)) moments →
    Acted r place c 1 (place.displayed moments) [] place.files
  | crashed {fault : Fault} {moments : List Moment} :
    r.tree = false → r.assembly = false → r.run = true →
    (∀ cause line?, fault ≠ .raised cause line?) → Emulates c (.error fault) moments →
    Acted r place c 3 (place.displayed moments) [] place.files
  | built {path : Build.Path} {w : Build.Workshop} :
    r.tree = false → r.assembly = false → r.run = false →
    (place.toolchain.build c (.ofString r.output)).run (.opening place.files place.answers) =
      .ok path w →
    Acted r place c 0 (place.echo .stdout s!"Compiled -> {path.render}\n") w.commands.toList
      w.files
  | unbuilt {error : Build.BuildError} {w : Build.Workshop} {number : Nat} :
    r.tree = false → r.assembly = false → r.run = false →
    (place.toolchain.build c (.ofString r.output)).run (.opening place.files place.answers) =
      .error error w →
    Unbuilt error number → Acted r place c number "" w.commands.toList w.files

/-- Whatever else is asked for, a tree that is asked for is printed, and nothing else is done. -/
theorem Acted.of_tree {r : Request} {place : Place} {c : Compilation} {number : Nat}
    {stdout : String} {commands : List Build.Command} {files : Build.FileTree}
    (acted : Acted r place c number stdout commands files) (first : r.tree = true)
    (undisturbed : place.accident? .printing = none) {text : String}
    (printed : c.program.print = .ok text) :
    number = 0 ∧ stdout = place.echo .stdout (text ++ "\n") ∧ commands = [] ∧
      files = place.files := by
  cases acted with
  | tree _ _ printed' =>
    rw [printed] at printed'
    cases printed'
    exact ⟨rfl, rfl, rfl, rfl⟩
  | interrupted _ disturbed =>
    rw [undisturbed] at disturbed
    cases disturbed
  | assembly other | ended other | faulted other | crashed other | built other | unbuilt other =>
    rw [first] at other
    cases other

/-- A compiled program can be printed. -/
theorem exists_print {options : Code.Options} {source : String} {c : Compilation}
    (compiled : Compilation.ofSource options source = .ok c) :
    ∃ text, c.program.print = .ok text := by
  unfold Compilation.ofSource Compilation.ofSourceLogged at compiled
  dsimp only at compiled
  split at compiled
  · cases compiled
  · next program parsed =>
    split at compiled
    · cases compiled
    · cases compiled
      obtain ⟨printed, all, -⟩ := Expr.exists_printAll fun e member =>
        (Program.sourced_of_ofSource parsed e member).printable
      rw [Program.print, all]
      exact ⟨_, rfl⟩

variable {r : Request} {place : Place} {c : Compilation}

/-- An outcome of the action on a compiled program. -/
def Outcome.Acts (r : Request) (place : Place) (c : Compilation) (o : Outcome) : Prop :=
  Acted r place c o.exitCode.number o.stdout o.commands o.files

theorem acts_printTree {text : String} (first : r.tree = true)
    (printed : c.program.print = .ok text) :
    (r.printTree place c (.start place.files)).Acts r place c := by
  unfold Request.printTree
  cases disturbed : place.accident? .printing with
  | some message => exact .interrupted first disturbed
  | none =>
    dsimp only
    rw [printed]
    simp only [Outcome.Acts, Outcome.print, Outcome.start, String.empty_append]
    exact .tree first disturbed printed

theorem acts_runProgram (quiet : r.verbose = false) (faithful : place.Faithful)
    (first : r.tree = false) (second : r.assembly = false) (third : r.run = true) :
    (r.runProgram place c (.start place.files)).Acts r place c := by
  have emulates := emulates_ofText c
  generalize (Execution.ofText c.assembly noting? [] Request.stepLimit).result = result,
    (Execution.ofText c.assembly noting? [] Request.stepLimit).world = moments at emulates
  let write (stdout text : String) : String := stdout ++ place.echo .stdout text
  have printed : (Execution.ofText c.assembly (console? write) "" Request.stepLimit).world =
      place.displayed moments := by
    rw [Execution.ofText_console, Execution.world_through, emulates.noted, Machine.written,
      Place.displayed, String.join, List.foldl_map]
  have ends := emulates.result write ""
  unfold Request.runProgram
  dsimp only [Outcome.start]
  rw [quiet, Outcome.log_of_debug (fun _ => level_ofText), ends, printed]
  cases result with
  | ok exit =>
    simp only [Bool.false_eq_true, if_false, Outcome.Acts, Outcome.print, faithful.echo_int]
    exact .ended first second third emulates
  | error fault =>
    cases fault with
    | raised cause line? => exact .faulted first second third emulates
    | numeral | encoding | endlessText | unwritable | shift =>
      exact .crashed first second third (fun _ _ same => by cases same) emulates

theorem acts_buildProgram (quiet : r.verbose = false) (first : r.tree = false)
    (second : r.assembly = false) (third : r.run = false) :
    (r.buildProgram place c (.start place.files)).Acts r place c := by
  have came : ∃ result, (place.toolchain.build c (.ofString r.output)).run
      (.opening place.files place.answers) = result := ⟨_, rfl⟩
  obtain ⟨result, came⟩ := came
  have came' := came
  unfold Place.toolchain at came'
  unfold Request.buildProgram
  dsimp only [Outcome.start]
  rw [quiet, came']
  cases result with
  | ok path w =>
    simp only [Bool.false_eq_true, if_false, List.nil_append, List.foldl_cons, List.foldl_nil,
      Outcome.Acts, Outcome.print, Outcome.log, String.empty_append]
    exact .built first second third came
  | error error w => exact .unbuilt first second third came (unbuilt_ofBuildError error)

/-- One action is taken, the first that is asked for. -/
theorem acts_act (quiet : r.verbose = false) (faithful : place.Faithful) {text : String}
    (printed : c.program.print = .ok text) :
    (r.act place c (.start place.files)).Acts r place c := by
  unfold Request.act
  cases first : r.tree with
  | true =>
    have action : r.action = .tree := by simp [Request.action, first]
    rw [action]
    exact acts_printTree first printed
  | false =>
    cases second : r.assembly with
    | true =>
      have action : r.action = .assembly := by simp [Request.action, first, second]
      rw [action]
      simp only [Outcome.Acts, Outcome.print, Outcome.start, String.empty_append]
      exact .assembly first second
    | false =>
      cases third : r.run with
      | true =>
        have action : r.action = .run := by simp [Request.action, first, second, third]
        rw [action]
        exact acts_runProgram quiet faithful first second third
      | false =>
        have action : r.action = .build := by simp [Request.action, first, second, third]
        rw [action]
        exact acts_buildProgram quiet first second third

/-! ## Commands -/

/-- The command ended with a number, and did nothing before that: nothing was printed, no tool ran
and no file changed. -/
structure Outcome.Idle (place : Place) (number : Nat) (o : Outcome) : Prop where
  number : o.exitCode.number = number
  stdout : o.stdout = ""
  commands : o.commands = []
  files : o.files = place.files

theorem idle_fail {p : Problem} {number : Nat} (code : p.exitCode.number = number) :
    ((Outcome.start place.files).fail place r p).Idle place number :=
  ⟨code, rfl, rfl, rfl⟩

theorem perform_of_accident {message : String}
    (disturbed : place.accident? .compilation = some message) :
    r.perform place = (Outcome.start place.files).fail place r (.internal message) := by
  unfold Request.perform
  rw [disturbed]

theorem perform_of_error (quiet : r.verbose = false)
    (undisturbed : place.accident? .compilation = none) {e : SourceError}
    (failed : Compilation.ofSource ⟨r.comments, none⟩ r.source = .error e) :
    r.perform place = (Outcome.start place.files).fail place r (.ofSourceError e) := by
  unfold Compilation.ofSource at failed
  unfold Request.perform
  rw [undisturbed]
  dsimp only
  rw [quiet, Outcome.log_of_debug (fun _ => level_ofSourceLogged), failed]

theorem perform_of_ok (quiet : r.verbose = false)
    (undisturbed : place.accident? .compilation = none)
    (compiled : Compilation.ofSource ⟨r.comments, none⟩ r.source = .ok c) :
    r.perform place = r.act place c (.start place.files) := by
  unfold Compilation.ofSource at compiled
  unfold Request.perform
  rw [undisturbed]
  dsimp only
  rw [quiet, Outcome.log_of_debug (fun _ => level_ofSourceLogged), compiled]

/-- The stages of a command without details decide its outcome, whatever it is asked for. An error
in the program ends it with the diagnostic, as the error stream has it, which is the diagnostic
itself if no escape character is in it. Any other error of the compilation, or an accident that cuts
it short, ends the command as an internal error. Nothing is printed in these cases, no tool runs and
no file changes. A compiled program is acted on, once. -/
theorem perform_by_stages (quiet : r.verbose = false) (faithful : place.Faithful) :
    (∀ message, place.accident? .compilation = some message →
      (r.perform place).Idle place 3) ∧
    (place.accident? .compilation = none →
      (∀ e, Compilation.ofSource ⟨r.comments, none⟩ r.source = .error (.compile e) →
        (r.perform place).Idle place 1 ∧
          (r.perform place).stderr = place.echo .stderr (Diagnostic.render r.source e) ∧
          ('\x1b' ∉ (Diagnostic.render r.source e).toList →
            (r.perform place).stderr = Diagnostic.render r.source e)) ∧
      (∀ e, Compilation.ofSource ⟨r.comments, none⟩ r.source = .error e →
        (∀ e', e ≠ .compile e') → (r.perform place).Idle place 3) ∧
      ∀ c, Compilation.ofSource ⟨r.comments, none⟩ r.source = .ok c →
        Acted r place c (r.perform place).exitCode.number (r.perform place).stdout
          (r.perform place).commands (r.perform place).files) := by
  refine ⟨fun message disturbed => ?_, fun undisturbed =>
    ⟨fun e failed => ?_, fun e failed other => ?_, fun c compiled => ?_⟩⟩
  · rw [perform_of_accident disturbed]
    exact idle_fail rfl
  · have reported : (r.perform place).stderr =
        place.echo .stderr (Diagnostic.render r.source e) := by
      rw [perform_of_error quiet undisturbed failed]
      exact String.empty_append
    refine ⟨?_, reported, fun clean => reported.trans (faithful .stderr _ clean)⟩
    rw [perform_of_error quiet undisturbed failed]
    exact idle_fail rfl
  · rw [perform_of_error quiet undisturbed failed]
    cases e with
    | compile error => exact absurd rfl (other error)
    | numeral | unprintable | unwritable | unplaced => exact idle_fail rfl
  · obtain ⟨text, printed⟩ := exists_print compiled
    rw [perform_of_ok quiet undisturbed compiled]
    exact acts_act quiet faithful printed

/-- A text without the sequence that makes a terminal write in red. -/
def withoutRed : List Char → List Char
  | '\x1b' :: '[' :: '3' :: '1' :: 'm' :: rest => withoutRed rest
  | ch :: rest => ch :: withoutRed rest
  | [] => []

theorem withoutRed_of_not_mem {chars : List Char} (clean : '\x1b' ∉ chars) :
    withoutRed chars = chars := by
  fun_induction withoutRed chars with
  | case1 rest ih => exact absurd List.mem_cons_self clean
  | case2 ch rest _ ih => rw [ih fun inside => clean (List.mem_cons_of_mem _ inside)]
  | case3 => rfl

/-- A place without files, whose streams are not in colour. -/
def pipe : Place :=
  ⟨[], default, [], .ofInt 7, fun _ text => .ofList (withoutRed text.toList), fun _ => none⟩

theorem faithful_pipe : pipe.Faithful := by
  intro stream text clean
  change String.ofList (withoutRed text.toList) = text
  rw [withoutRed_of_not_mem clean, String.ofList_toList]

/-- Two actions asked for, and an error in the program whatever is asked for. -/
theorem perform_by_stages_of_flags :
    let printing : Request := ⟨"1;", "out", true, false, true, false, false⟩
    let wrong : Request := ⟨"f(1,", "out", false, true, true, true, false⟩
    pipe.Faithful ∧ printing.verbose = false ∧ wrong.verbose = false ∧
    ((printing.perform pipe).exitCode.number = 0 ∧
      (printing.perform pipe).stdout = "Program []\n  Expr: 1\n" ∧
      (printing.perform pipe).commands = []) ∧
    (wrong.perform pipe).Idle pipe 1 ∧
      (wrong.perform pipe).stderr =
        "[error]: expected expression, found end of input\nf(1,\n   ^\n" := by
  intro printing wrong
  refine ⟨faithful_pipe, rfl, rfl, ?_, ?_⟩
  · obtain ⟨c, compiled, same⟩ := Compilation.exists_ofSource_one none
    have printed : c.program.print = .ok "Program []\n  Expr: 1" := by
      rw [same]
      cbv
    obtain ⟨-, acts⟩ := @perform_by_stages printing pipe rfl faithful_pipe
    obtain ⟨number, stdout, commands, -⟩ := ((acts rfl).2.2 c compiled).of_tree rfl rfl printed
    exact ⟨number, stdout.trans (by cbv), commands⟩
  · have failed : Compilation.ofSource ⟨true, none⟩ "f(1," =
        .error (.compile ⟨.missingOperand "expression", .eof⟩) := by cbv
    have rendered : Diagnostic.render "f(1," ⟨.missingOperand "expression", .eof⟩ =
        "[error]: expected expression, found end of input\nf(1,\n   ^\n" := by rfl
    obtain ⟨-, acts⟩ := @perform_by_stages wrong pipe rfl faithful_pipe
    obtain ⟨idle, -, exactly⟩ := (acts rfl).1 _ failed
    refine ⟨idle, (exactly ?_).trans rendered⟩
    rw [rendered]
    decide

/-- The diagnostic of an error in a literal with a styling sequence is not written as it is. -/
theorem perform_styled_literal :
    let styled : Request := ⟨"\"\x1b[31m\";", "out", false, false, false, false, false⟩
    let error : CompileError := ⟨.expectedInteger, ⟨0, 7⟩⟩
    Compilation.ofSource ⟨styled.comments, none⟩ styled.source = .error (.compile error) ∧
      (styled.perform pipe).stderr = "[error]: expected integer expression\n\"\";\n^\n" ∧
      (styled.perform pipe).stderr ≠ Diagnostic.render styled.source error := by
  intro styled error
  have failed : Compilation.ofSource ⟨styled.comments, none⟩ styled.source =
      .error (.compile error) := by cbv
  have rendered : Diagnostic.render styled.source error =
      "[error]: expected integer expression\n\"\x1b[31m\";\n^\n" := rfl
  have stripped : (styled.perform pipe).stderr =
      "[error]: expected integer expression\n\"\";\n^\n" := by
    rw [perform_of_error rfl rfl failed]
    change "" ++ pipe.echo .stderr (Diagnostic.render styled.source error) = _
    rw [rendered, String.empty_append]
    cbv
  refine ⟨failed, stripped, ?_⟩
  rw [stripped, rendered]
  decide

end Reckon.Command
