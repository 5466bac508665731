import Reckon.Proofs.Expressions

/-!
# Runs of whole programs

The entry calls `main`, whose prologue sets up the frame (`Machine.simulates_prologue`); the body
follows the evaluation of the statements (`Machine.simulates_lowerStatements`); the epilogue returns
to the entry, which leaves the program with what the accumulator holds (`Machine.stops_leave`). So a
program that starts at its entry is stopped as the evaluation of its statements says
(`Machine.stops_program`): after one step for each instruction, unless the evaluation is stopped.
-/

namespace Reckon

open Code

namespace Machine

open Evaluation

variable {World : Type} {setup : Setup World} {layout : Layout} {env : Environment World}
  {pool : List String}

/-! ## Statements -/

/-- Lines without instructions do nothing. -/
theorem simulates_remarks {lines : List Line} {pre : Assertion World} (empty : codeOf lines = []) :
    Simulates setup lines pre (pure ()) fun _ => pre := by
  intro store s _ linked holds
  rw [empty]
  exact ⟨s, .refl s, rfl, linked, holds⟩

theorem simulates_lowerStatements (hosts : Hosts setup env layout pool) {statements : List Expr}
    (sourced : ∀ e ∈ statements, e.Sourced layout.count) {comments : Bool} {number : Nat}
    (usable : (lowerStatements comments pool number statements).Usable)
    (pooled : ∀ raw ∈ statements.flatMap literals, raw ∈ pool)
    (room : ∀ e ∈ statements, layout.Room (deepest 0 e)) (last : Word) :
    Simulates setup (lowerStatements comments pool number statements).lines (Holding layout [] last)
      (ofStatements env last statements) (Holding layout []) := by
  induction statements generalizing number last with
  | nil =>
    rw [ofStatements, lowerStatements]
    exact .quiet fun store rs mem holding => ⟨last, store, rfl, rfl, rfl, holding⟩
  | cons statement statements ih =>
    rw [List.flatMap_cons, List.forall_mem_append] at pooled
    rw [lowerStatements] at usable ⊢
    obtain ⟨usableFirst, usableRest, lines⟩ := usable.of_append
    obtain ⟨-, usableStatement, linesFirst⟩ := usableFirst.of_append
    have announced : Simulates setup (if comments then announce number statement else .empty).lines
        (Holding layout [] last) (pure ()) fun _ => At layout [] := by
      refine (simulates_remarks ?_).mono (fun _ _ _ holding => holding.1)
        fun _ _ _ _ framed => framed
      split
      · exact codeOf_announce
      · rfl
    have value := simulates_lower hosts (sourced statement List.mem_cons_self) [] usableStatement
      pooled.1 (room statement List.mem_cons_self)
    rw [lines, linesFirst, ofStatements]
    exact (announced.after value).bind fun word =>
      ih (fun e member => sourced e (List.mem_cons_of_mem _ member)) usableRest pooled.2
        (fun e member => room e (List.mem_cons_of_mem _ member)) word

/-! ## The frame of `main` -/

/-- `main` has been called, and nothing else was done to a machine that was just set up. -/
def Called (layout : Layout) : Assertion World := fun store rs mem =>
  (store.slots = fun _ => 0) ∧ store.registers = List.replicate 6 0 ∧
    rs = Registers.zero.set .rsp (frameBase + 8 : Nat) ∧
    mem = (Memory.ofData layout.data).setWord (frameBase + 8) returnPlace.toNat 8

/-- The memory of a machine that was just set up, once `main` has its frame. -/
theorem framed_of_called {mem : Memory} {rs : Registers}
    (memory : mem = ((Memory.ofData layout.data).setWord (frameBase + 8)
      returnPlace.toNat 8).setWord frameBase 0 8)
    (base : rs.get .rbp = frameBase) (pointer : rs.get .rsp = layout.floor)
    (arguments : rs.arguments = List.replicate 6 0) :
    Framed layout (fun _ => 0) (List.replicate 6 0) [] rs mem := by
  have fits := layout.fits
  have whole := layout.floor_add
  subst memory
  refine ⟨by unfold Layout.Room; simp; omega, base, pointer, arguments, trivial,
    fun index inside => ?_, ⟨?_, ?_, trivial⟩, ?_⟩
  · have place := Layout.floor_le_slot inside
    rw [Memory.word_setWord_of_disjoint _ (.inr (by omega)),
      Memory.word_setWord_of_disjoint _ (.inr (by omega)), Memory.word_ofData_of_le (by omega)]
    rfl
  · rw [Memory.word_setWord_self]
    rfl
  · rw [Memory.word_setWord_of_disjoint _ (.inl (by omega)), Memory.word_setWord_self]
    rfl
  · exact ((Memory.holdsData_ofData layout.data).setWord (by omega) _ 8).setWord (by omega) _ 8

theorem simulates_prologue :
    Simulates setup (prologueCode layout.count) (Called layout) (pure ())
      fun _ => Holding layout [] 0 := by
  let called : Registers := Registers.zero.set .rsp (frameBase + 8 : Nat)
  let pushed : Memory :=
    ((Memory.ofData layout.data).setWord (frameBase + 8) returnPlace.toNat 8).setWord frameBase 0 8
  let based : Registers := (called.set .rsp frameBase).set .rbp frameBase
  have inside : frameBase + 8 + 8 ≤ memorySize := by decide
  let fresh (rs : Registers) (mem : Memory) : Assertion World := fun store rs' mem' =>
    (store.slots = fun _ => 0) ∧ store.registers = List.replicate 6 0 ∧ rs' = rs ∧ mem' = mem
  have push : Simulates setup [one .push rbp] (Called layout) (pure ())
      fun _ => fresh (called.set .rsp frameBase) pushed := by
    refine .silent rfl ?_
    rintro store rs mem ⟨slots, registers, rfl, rfl⟩
    have source : called.get .rbp = (0 : Word).toNat := rfl
    exact ⟨_, _, acts_push source rfl (by omega), slots, registers, rfl, rfl⟩
  have move : Simulates setup [two .mov rsp rbp] (fresh (called.set .rsp frameBase) pushed)
      (pure ())
      fun _ => fresh based pushed := by
    refine .silent rfl ?_
    rintro store rs mem ⟨slots, registers, rfl, rfl⟩
    have source : (called.set .rsp frameBase).get .rsp = (BitVec.ofNat 64 frameBase).toNat := rfl
    exact ⟨_, _, acts_mov_whole source, slots, registers, rfl, rfl⟩
  have framed : ∀ store rs mem, fresh (based.set .rsp layout.floor) pushed store rs mem →
      Holding layout [] 0 store rs mem := by
    rintro store rs mem ⟨slots, registers, rfl, rfl⟩
    refine ⟨?_, rfl⟩
    rw [At, slots, registers]
    exact framed_of_called rfl rfl rfl rfl
  have whole := layout.floor_add
  unfold prologueCode
  split
  -- Without variables the frame is empty, and no instruction makes room for it.
  · next empty =>
    have same : layout.floor = frameBase := by omega
    rw [same] at framed
    have both := push.after move
    rw [List.append_nil]
    exact both.mono (fun _ _ _ holds => holds) fun _ store rs mem holds => framed store rs mem holds
  · have lower : Simulates setup [two .sub (.immediate (frameSize layout.count)) rsp]
        (fresh based pushed) (pure ()) fun _ => Holding layout [] 0 := by
      refine .silent rfl ?_
      rintro store rs mem ⟨slots, registers, rfl, rfl⟩
      have pointer : based.get .rsp = (layout.floor + frameSize layout.count : Nat) := by
        rw [whole]
        rfl
      exact ⟨_, _, acts_lower pointer (by omega), framed _ _ _ ⟨slots, registers, rfl, rfl⟩⟩
    exact (push.after move).after lower

/-- `main` is about to return, with a value in the accumulator. -/
def Returning (word : Word) : Assertion World := fun _ rs mem =>
  rs.get .rsp = (frameBase + 8 : Nat) ∧ mem.word (frameBase + 8) 8 = returnPlace.toNat ∧
    rs.get .rax = word.toNat

theorem simulates_epilogue {word : Word} :
    Simulates setup [two .mov rbp rsp, one .pop rbp] (Holding layout [] word) (pure ())
      fun _ => Returning word := by
  have moved : Simulates setup [two .mov rbp rsp] (Holding layout [] word) (pure ())
      fun _ _ rs mem => rs.get .rsp = frameBase ∧
        mem.word (frameBase + 8) 8 = returnPlace.toNat ∧ rs.get .rax = word.toNat := by
    refine .silent rfl ?_
    rintro store rs mem ⟨framed, value⟩
    have source : rs.get .rbp = (BitVec.ofNat 64 frameBase).toNat := framed.base
    exact ⟨_, _, acts_mov_whole source, rfl, framed.link.2.1, value⟩
  refine moved.after (.silent rfl ?_)
  rintro store rs mem ⟨pointer, link, value⟩
  exact ⟨_, _, acts_pop pointer (by decide), rfl, link, value⟩

/-! ## Entry and end -/

/-- The end of the entry point, which leaves with what `main` returned. -/
def leaveCode (freestanding : Bool) : List Line :=
  [two .mov eax (.register .rdi .double)] ++
    if freestanding then [two .mov (.immediate exitSystemCall) eax, .instruction ⟨.syscall, []⟩]
    else [one .call (.symbol "exit")]

theorem entryCode_eq (freestanding : Bool) :
    entryCode freestanding = [two .xor (.register .rbp .double) (.register .rbp .double)] ++
      [one .call (.symbol "main")] ++ leaveCode freestanding :=
  rfl

/-- A session that has not ended, seen as one that follows an evaluation. -/
theorem linked_of_running {s : Session World} (running : s.machine.exit? = none) :
    Linked ⟨fun _ => 0, [], s.world, s.calls⟩ s :=
  ⟨running, rfl, rfl⟩

theorem step_syscall {s : Session World} {i : Assembly.Instruction}
    (code : (Line.instruction ⟨.syscall, []⟩).code? = some i.code)
    (number : s.machine.get .rax = 60) :
    s.step setup i = (s.moved.attempt (s.moved.machine.exit, none)) := by
  obtain ⟨_, _, line⟩ := i
  cases code
  have asked : s.moved.machine.systemCall ⟨"syscall", [], line⟩ = .ok s.moved.machine.exit := by
    rw [systemCall, show s.moved.machine.get .rax = exitNumber from number, if_pos rfl]
  show s.moved.attempt (s.moved.machine.orUnchanged (s.moved.machine.systemCall _)) = _
  rw [asked]
  rfl

/-- The entry point leaves with the low half of the accumulator. -/
theorem stops_leave {s : Session World} {word : Word} {freestanding : Bool}
    (leaves : setup.image.codeLabels.get? "exit" = none)
    (located : CodeAt setup.image s.machine.counter (leaveCode freestanding))
    (running : s.machine.exit? = none) (value : s.machine.get .rax = word.toNat) :
    ∃ s', Session.Stops setup (codeOf (leaveCode freestanding)).length s s'
        (.exit ((word.setWidth 32).setWidth 64)) ∧
      s'.world = s.world ∧ s'.calls = s.calls := by
  let result : Word := (word.setWidth 32).setWidth 64
  have moved : Simulates setup [two .mov eax (.register .rdi .double)]
      (fun _ rs _ => rs.get .rax = word.toNat) (pure ())
      fun _ _ rs _ => rs.get .rdi = result.toNat := by
    refine .silent rfl fun store rs mem value => ⟨_, _, acts_mov_low value, ?_⟩
    exact congrArg Nat.cast (toNat_setWidth _).symm
  cases freestanding with
  | false =>
    obtain ⟨s₁, steps, counter, linked, first⟩ :=
      moved _ s located.left (linked_of_running running) value
    have next := located.right
    rw [← counter] at next
    obtain ⟨i, fetched, same⟩ := next.exists_fetch rfl
    have stepped := step_call same leaves s₁
    rw [if_pos rfl] at stepped
    exact ⟨_, .exit (steps.trans (.head linked.running fetched stepped (.refl _)))
      (congrArg some first), linked.world, linked.calls⟩
  | true =>
    have numbered : Simulates setup [two .mov (.immediate exitSystemCall) eax]
        (fun _ rs _ => rs.get .rdi = result.toNat) (pure ())
        fun _ _ rs _ => rs.get .rax = 60 ∧ rs.get .rdi = result.toNat :=
      .silent rfl fun store rs mem first => ⟨_, _, acts_mov_immediate _ _, rfl, first⟩
    have located : CodeAt setup.image s.machine.counter ([two .mov eax (.register .rdi .double)] ++
      [two .mov (.immediate exitSystemCall) eax] ++ [.instruction ⟨.syscall, []⟩]) := located
    obtain ⟨s₁, steps, counter, linked, number, first⟩ :=
      moved.after numbered _ s located.left (linked_of_running running) value
    have next := located.right
    rw [← counter] at next
    obtain ⟨i, fetched, same⟩ := next.exists_fetch rfl
    have stepped : s₁.step setup i = _ := step_syscall same number
    exact ⟨_, .exit (steps.trans (.head linked.running fetched stepped (.refl _)))
      (congrArg some first), linked.world, linked.calls⟩

/-- `main` returns behind its call. -/
theorem step_ret {s : Session World} {i : Assembly.Instruction} {store : Store World} {word : Word}
    (code : (Line.instruction ⟨.ret, []⟩).code? = some i.code)
    (returning : Returning word store s.machine.registers s.machine.memory) :
    ∃ s', s.step setup i = (s', none) ∧ s'.machine.counter = 2 ∧
      s'.machine.exit? = s.machine.exit? ∧ s'.machine.get .rax = word.toNat ∧
      s'.world = s.world ∧ s'.calls = s.calls := by
  obtain ⟨_, _, line⟩ := i
  cases code
  obtain ⟨pointer, link, value⟩ := returning
  have pointer : s.moved.machine.get .rsp = (frameBase + 8 : Nat) := pointer
  have place : s.moved.machine.memory.word (frameBase + 8) 8 = 2 := link
  have popped : s.moved.machine.pop =
      .ok (2, s.moved.machine.set .rsp (frameBase + 8 + 8 : Nat)) := by
    rw [pop_of_le pointer (by decide), place]
  have returned : s.moved.machine.returnToCaller ⟨"ret", [], line⟩ =
      .ok { s.moved.machine.set .rsp (frameBase + 8 + 8 : Nat) with counter := 2 } := by
    rw [returnToCaller]
    dsimp only
    rw [popped, ok_bind]
    rfl
  refine ⟨{ s.moved with
    machine := { s.moved.machine.set .rsp (frameBase + 8 + 8 : Nat) with counter := 2 } },
    ?_, rfl, rfl, value, rfl, rfl⟩
  show s.moved.attempt (s.moved.machine.orUnchanged (s.moved.machine.returnToCaller _)) = _
  rw [returned]
  rfl

/-- `main` is called by the second instruction of the entry point. -/
theorem step_callMain {s : Session World} {i : Assembly.Instruction} {main : Nat}
    (code : (one .call (.symbol "main")).code? = some i.code)
    (labelled : setup.image.codeLabels.get? "main" = some main) (second : s.machine.counter = 1)
    (registers : s.machine.registers = Registers.zero.set .rsp memorySize)
    (memory : s.machine.memory = .ofData layout.data) :
    ∃ s', s.step setup i = (s', none) ∧ s'.machine.counter = main ∧
      s'.machine.exit? = s.machine.exit? ∧ s'.world = s.world ∧ s'.calls = s.calls ∧
      Called layout (Store.initial s.world) s'.machine.registers s'.machine.memory := by
  obtain ⟨_, _, line⟩ := i
  cases code
  have pointer : s.moved.machine.get .rsp = (frameBase + 8 + 8 : Nat) := by
    show s.machine.registers.get .rsp = _
    rw [registers]
    rfl
  have counter : (s.moved.machine.counter : Int) = returnPlace.toNat := by
    show ((s.machine.counter + 1 : Nat) : Int) = _
    rw [second]
    rfl
  have called : s.moved.machine.callLabel main =
      ({ s.moved.machine.set .rsp (frameBase + 8 : Nat) with
      memory := s.moved.machine.memory.setWord (frameBase + 8) returnPlace.toNat 8,
      counter := main }, none) := by
    rw [callLabel, counter, push_of_le pointer (by decide)]
  refine ⟨{ s.moved with machine := { s.moved.machine.set .rsp (frameBase + 8 : Nat) with
    memory := s.moved.machine.memory.setWord (frameBase + 8) returnPlace.toNat 8,
    counter := main } }, ?_, rfl, rfl, rfl, rfl, rfl, rfl, ?_, ?_⟩
  · show s.moved.call setup ⟨"call", [.symbol "main"], line⟩ = _
    rw [Session.call]
    dsimp only
    rw [labelled]
    show s.moved.attempt (s.moved.machine.callLabel main) = _
    rw [called]
    rfl
  · show s.machine.registers.set .rsp (frameBase + 8 : Nat) = _
    rw [registers]
    rfl
  · show s.machine.memory.setWord (frameBase + 8) returnPlace.toNat 8 = _
    rw [memory]

/-! ## From the entry to the end -/

theorem append_epilogue (lines : List Line) :
    lines ++ epilogue =
      lines ++ [two .mov rbp rsp, one .pop rbp] ++ [.instruction ⟨.ret, []⟩] := by
  rw [List.append_assoc]
  rfl

/-- The session at the first instruction of a program, with data in memory. -/
def Session.fresh (data : List UInt8) (world : World) : Session World :=
  ⟨⟨Registers.zero.set .rsp memorySize, .ofData data, 0, none⟩, 0, world, #[]⟩

theorem exists_steps_main {freestanding : Bool} {main : Nat}
    (located : CodeAt setup.image 0 (entryCode freestanding))
    (labelled : setup.image.codeLabels.get? "main" = some main) (world : World) :
    ∃ s', Session.Steps setup 2 (.fresh layout.data world) s' ∧ s'.machine.counter = main ∧
      Linked (.initial world) s' ∧
      Called layout (.initial world) s'.machine.registers s'.machine.memory := by
  have cleared : Simulates setup [two .xor (.register .rbp .double) (.register .rbp .double)]
      (fun _ rs mem => rs = Registers.zero.set .rsp memorySize ∧ mem = .ofData layout.data)
      (pure ())
      fun _ _ rs mem => rs = Registers.zero.set .rsp memorySize ∧ mem = .ofData layout.data := by
    refine .silent rfl ?_
    rintro store rs mem ⟨rfl, rfl⟩
    have zero : (Registers.zero.set .rsp memorySize).get .rbp = (0 : Word).toNat := rfl
    exact ⟨_, _, acts_clear zero, rfl, rfl⟩
  let s : Session World := .fresh layout.data world
  rw [entryCode_eq] at located
  obtain ⟨s₁, toCall, counter, linked, registers, memory⟩ :=
    cleared _ s located.left.left (linked_of_running rfl) ⟨rfl, rfl⟩
  rw [show s.machine.counter = 0 from rfl] at counter
  have atCall := located.left.right
  rw [← counter] at atCall
  obtain ⟨i, fetched, same⟩ := atCall.exists_fetch rfl
  obtain ⟨s', stepped, counter', exit', world', calls', called⟩ :=
    step_callMain same labelled counter registers memory
  rw [linked.world] at called
  exact ⟨s', toCall.trans (.head linked.running fetched stepped (.refl s')), counter',
    ⟨exit'.trans linked.running, world'.trans linked.world, calls'.trans linked.calls⟩, called⟩

/-- What comes after `main` is done: its return, and the end of the entry point. -/
theorem exists_stops_return {s : Session World} {store : Store World} {word : Word}
    {freestanding : Bool} (leaves : setup.image.codeLabels.get? "exit" = none)
    (located : CodeAt setup.image 0 (entryCode freestanding))
    (atReturn : CodeAt setup.image s.machine.counter [.instruction ⟨.ret, []⟩])
    (linked : Linked store s)
    (returning : Returning word store s.machine.registers s.machine.memory) :
    ∃ s', Session.Stops setup (1 + (codeOf (leaveCode freestanding)).length) s s'
        (.exit ((word.setWidth 32).setWidth 64)) ∧
      s'.world = store.world ∧ s'.calls = store.calls := by
  obtain ⟨i, fetched, same⟩ := atReturn.exists_fetch rfl
  obtain ⟨s₁, stepped, counter, exit, value, world, calls⟩ := step_ret same returning
  rw [entryCode_eq] at located
  have atLeave : CodeAt setup.image s₁.machine.counter (leaveCode freestanding) := by
    rw [counter]
    exact located.right
  obtain ⟨s', stops, world', calls'⟩ :=
    stops_leave leaves atLeave (exit.trans linked.running) value
  have back : Session.Steps setup 1 s s₁ := .head linked.running fetched stepped (.refl s₁)
  exact ⟨s', back.stops stops, world'.trans (world.trans linked.world),
    calls'.trans (calls.trans linked.calls)⟩

/-- How a run of a program ends when its evaluation comes out in a way: where the evaluation gives a
word, its low half is the exit value. -/
def stopOf : Except Stop Word → Stop
  | .ok word => .exit ((word.setWidth 32).setWidth 64)
  | .error stop => stop

/-- A whole program follows the evaluation that its body follows, if that leaves no answer open. -/
theorem stops_program {freestanding : Bool} {body : List Line}
    {evaluation : Evaluation World Word} (hosts : Hosts setup env layout pool)
    (located : CodeAt setup.image 0
      (entryCode freestanding ++ (prologueCode layout.count ++ body ++ epilogue)))
    (labelled : setup.image.codeLabels.get? "main" = some (codeOf (entryCode freestanding)).length)
    (follows : Simulates setup body (Holding layout [] 0) evaluation (Holding layout []))
    (world : World) :
    let outcome := evaluation.run (.initial world)
    let total := (codeOf (entryCode freestanding ++
      (prologueCode layout.count ++ body ++ epilogue))).length
    outcome.1 ≠ .error .unanswered →
    ∃ n s', n ≤ total ∧ (∀ word, outcome.1 = .ok word → n = total) ∧
      Session.Stops setup n (.fresh layout.data world) s' (stopOf outcome.1) ∧
      s'.world = outcome.2.world ∧ s'.calls = outcome.2.calls := by
  intro outcome total known
  let upToReturn := prologueCode layout.count ++ body ++ [two .mov rbp rsp, one .pop rbp]
  have whole : Simulates setup upToReturn (Called layout) evaluation Returning :=
    (simulates_prologue.after follows).before fun word => simulates_epilogue
  have epilogueCode : prologueCode layout.count ++ body ++ epilogue =
      upToReturn ++ [.instruction ⟨.ret, []⟩] := append_epilogue _
  have entryLength : (codeOf (entryCode freestanding)).length =
      2 + (codeOf (leaveCode freestanding)).length := by
    rw [entryCode_eq, codeOf_append, List.length_append]
    rfl
  have count : total =
      2 + (codeOf upToReturn).length + (1 + (codeOf (leaveCode freestanding)).length) := by
    show (codeOf _).length = _
    rw [epilogueCode, codeOf_append, codeOf_append, List.length_append, List.length_append,
      entryLength, show (codeOf [Line.instruction ⟨.ret, []⟩]).length = 1 from rfl]
    omega
  obtain ⟨s, toMain, counter, linked, called⟩ := exists_steps_main located.left labelled world
  have inMain := located.right
  rw [epilogueCode, Nat.zero_add, ← counter] at inMain
  have arrived : Reaches setup s _ Returning outcome := whole _ s inMain.left linked called
  -- A stop inside the body is that of the program; otherwise `main` returns and the entry leaves.
  rcases outcome with ⟨stop | word, store⟩
  · obtain ⟨k, s', short, stops, world, calls⟩ := arrived fun same => known (congrArg _ same)
    exact ⟨2 + k, s', by omega, fun word same => (by cases same), toMain.stops stops, world, calls⟩
  · obtain ⟨s₁, toReturn, counter, linked, returning⟩ := arrived
    have atReturn := inMain.right
    rw [← counter] at atReturn
    obtain ⟨s', stops, world, calls⟩ := exists_stops_return
      (hosts.leaves "exit" (by decide) (by decide)) located.left atReturn linked returning
    exact ⟨_, s', Nat.le_of_eq count.symm, fun _ _ => count.symm,
      (toMain.trans toReturn).stops stops, world, calls⟩

end Machine

end Reckon
