import Reckon.Proofs.Machine.Operations

/-!
# Code for calls

A call pops its arguments into their registers, evens out the stack, calls by name, and puts back
the registers it saved. `Machine.simulates_invoke` says that this is what the evaluation of a call
does once the arguments are evaluated, when routines do what the evaluation takes them to do
(`Machine.Hosts`).
-/

namespace Reckon.Machine

open Code

variable {World : Type} {setup : Setup World} {layout : Layout} {stack : List Word}

/-! ## Argument registers -/

section Registers

variable {arguments words : List Word}

theorem Framed.length_arguments {slots : Nat → BitVec 32} {rs : Registers} {mem : Memory}
    (framed : Framed layout slots arguments stack rs mem) : arguments.length = 6 := by
  have lengths := congrArg List.length framed.arguments
  rw [List.length_map] at lengths
  exact lengths.symm

/-- Registers that hold words are pushed, so that the last one is on top. -/
theorem simulates_pushes {registers : List Register}
    (hold : List.Forall₂ (fun r (word : Word) => ∀ rs : Registers,
      rs.arguments = arguments.map (fun word => (word.toNat : Int)) → rs.get r = word.toNat)
      registers words) (room : layout.Room (stack.length + words.length)) :
    Simulates setup (registers.map fun r => one .push (whole r)) (Within layout arguments stack)
      (pure ()) fun _ => Within layout arguments (words.reverse ++ stack) := by
  induction hold generalizing stack with
  | nil => exact .quiet fun store rs mem framed => ⟨(), store, rfl, rfl, rfl, framed⟩
  | @cons r word registers words holds _ ih =>
    rw [List.length_cons] at room
    have first : Simulates setup [one .push (whole r)] (Within layout arguments stack) (pure ())
        fun _ => Within layout arguments (word :: stack) := by
      refine .silent rfl fun store rs mem framed => ?_
      have room : layout.Room (stack.length + 1) := room.mono (by omega)
      exact ⟨_, _, framed.acts_push room (holds rs framed.arguments), framed.push room word⟩
    have more : layout.Room ((word :: stack).length + words.length) :=
      room.mono (by rw [List.length_cons]; omega)
    rw [List.reverse_cons, List.append_assoc, List.map_cons]
    exact first.after (ih more)

theorem forall₂_arguments (six : arguments.length = 6) :
    List.Forall₂ (fun r (word : Word) => ∀ rs : Registers,
      rs.arguments = arguments.map (fun word => (word.toNat : Int)) → rs.get r = word.toNat)
      Register.arguments arguments := by
  refine List.forall₂_iff_get.mpr ⟨six.symm, fun k inside within rs holds => ?_⟩
  have here := congrArg (fun values => values[k]?) holds
  simpa [Registers.arguments, inside, within] using here

theorem rax_put_argument {k : Nat} {r : Register} (isArgument : Register.arguments[k]? = some r)
    (rs : Registers) (word : Word) : (rs.put r word).get .rax = rs.get .rax := by
  match k, isArgument with
  | 0, rfl | 1, rfl | 2, rfl | 3, rfl | 4, rfl | 5, rfl => rfl

/-- Registers are popped in reverse order, so that the top word goes to the last one. -/
theorem simulates_pops (keep : Int → Prop) {k n : Nat} (first : k ≤ n) (last : n ≤ 6)
    (six : arguments.length = 6) (count : words.length = n - k) :
    Simulates setup (((Register.arguments.take n).drop k).reverse.map fun r => one .pop (whole r))
      (fun store rs mem => Within layout arguments (words.reverse ++ stack) store rs mem ∧
        keep (rs.get .rax)) (pure ())
      fun _ store rs mem =>
        Within layout (arguments.take k ++ words ++ arguments.drop n) stack store rs mem ∧
          keep (rs.get .rax) := by
  -- The induction is on the last register: the word on top of the stack goes there, and the words
  -- below it to the registers before.
  induction n, first using Nat.le_induction generalizing arguments words with
  | base =>
    obtain rfl : words = [] := List.length_eq_zero_iff.mp (by omega)
    have none : ((Register.arguments.take k).drop k).reverse = [] := by simp
    rw [none, List.append_nil, List.take_append_drop]
    exact .quiet fun store rs mem framed => ⟨(), store, rfl, rfl, rfl, framed⟩
  | succ n first ih =>
    rcases List.eq_nil_or_concat words with rfl | ⟨init, word, rfl⟩
    · rw [List.length_nil] at count
      omega
    rw [List.concat_eq_append, List.length_append, List.length_singleton] at count
    obtain ⟨r, isArgument⟩ : ∃ r, Register.arguments[n]? = some r :=
      ⟨_, List.getElem?_eq_getElem (Nat.lt_of_succ_le last)⟩
    have lastFirst : ((Register.arguments.take (n + 1)).drop k).reverse =
        r :: ((Register.arguments.take n).drop k).reverse := by
      have within : k ≤ (Register.arguments.take n).length := by
        rw [List.length_take]
        exact Nat.le_min.mpr ⟨first, Nat.le_trans first (Nat.le_of_succ_le last)⟩
      rw [List.take_add_one, isArgument, List.drop_append_of_le_length within, List.reverse_append]
      rfl
    have popped : Simulates setup [one .pop (whole r)] (fun store rs mem =>
        Within layout arguments (word :: (init.reverse ++ stack)) store rs mem ∧ keep (rs.get .rax))
      (pure ()) fun _ store rs mem => Within layout (arguments.set n word) (init.reverse ++ stack)
          store rs mem ∧ keep (rs.get .rax) := by
      refine .silent rfl ?_
      rintro store rs mem ⟨framed, kept⟩
      refine ⟨_, _, framed.acts_pop, framed.pop.setArgument isArgument word, ?_⟩
      rwa [rax_put_argument isArgument]
    have sixAgain : (arguments.set n word).length = 6 := by rw [List.length_set, six]
    have later := ih (Nat.le_of_succ_le last) sixAgain (by omega : init.length = n - k)
    have cut : (arguments.set n word).take k = arguments.take k ∧
        (arguments.set n word).drop n = word :: arguments.drop (n + 1) := by
      rw [List.set_eq_take_append_cons_drop, if_pos (by omega)]
      constructor
      · rw [List.take_append_of_le_length (by rw [List.length_take]; omega), List.take_take,
          Nat.min_eq_left first]
      · rw [List.drop_left' (by rw [List.length_take]; omega)]
    rw [cut.1, cut.2] at later
    rw [lastFirst, List.concat_eq_append, List.reverse_append, List.append_assoc, List.append_assoc,
      List.append_assoc]
    rw [List.append_assoc] at later
    exact popped.after later

/-! ## Alignment -/

/-- The operand stack with what makes the number of its words even. -/
def Aligned (layout : Layout) (arguments stack : List Word) : Assertion World := fun store rs mem =>
  ∃ padding : List Word, padding.length = stack.length % 2 ∧
    Within layout arguments (padding ++ stack) store rs mem

theorem simulates_padding (room : layout.Room (stack.length + stack.length % 2)) :
    Simulates setup (if stack.length % 2 == 1 then [two .sub (.immediate 8) rsp] else [])
      (Within layout arguments stack) (pure ()) fun _ => Aligned layout arguments stack := by
  by_cases odd : stack.length % 2 = 1
  · rw [odd] at room
    rw [if_pos (beq_iff_eq.mpr odd)]
    refine .silent rfl fun store rs mem framed => ?_
    obtain ⟨word, padded⟩ := framed.pad room
    have pointer := framed.pointer
    have next := room.top_succ
    have inside := layout.top_le stack.length
    rw [next] at pointer
    have lowered : Acts setup (two .sub (.immediate (8 : Nat)) rsp) rs mem _ mem :=
      acts_lower pointer (by omega)
    exact ⟨_, _, lowered, [word], odd.symm, padded⟩
  · rw [if_neg (by simpa using odd)]
    refine .quiet fun store rs mem framed => ⟨(), store, rfl, rfl, rfl, [], ?_, framed⟩
    rw [List.length_nil]
    omega

theorem simulates_unpadding (keep : Int → Prop) :
    Simulates setup (if stack.length % 2 == 1 then [two .add (.immediate 8) rsp] else [])
      (fun store rs mem => Aligned layout arguments stack store rs mem ∧ keep (rs.get .rax))
      (pure ())
      fun _ store rs mem => Within layout arguments stack store rs mem ∧ keep (rs.get .rax) := by
  by_cases odd : stack.length % 2 = 1
  · rw [if_pos (beq_iff_eq.mpr odd)]
    refine .silent rfl ?_
    rintro store rs mem ⟨⟨padding, length, framed⟩, kept⟩
    obtain ⟨word, rfl⟩ := List.length_eq_one_iff.mp (length.trans odd)
    have framed : Framed layout store.slots arguments (word :: stack) rs mem := framed
    have room : layout.Room (stack.length + 1) := framed.room
    have pointer : rs.get .rsp = layout.top (stack.length + 1) := framed.pointer
    have next := room.top_succ
    have inside := layout.top_le stack.length
    have raised : Acts setup (two .add (.immediate (8 : Nat)) rsp) rs mem _ mem :=
      acts_raise pointer (by omega)
    rw [← next] at raised
    exact ⟨_, _, raised, framed.pop, kept⟩
  · rw [if_neg (by simpa using odd)]
    refine .quiet ?_
    rintro store rs mem ⟨⟨padding, length, framed⟩, kept⟩
    obtain rfl := List.length_eq_zero_iff.mp (by omega : padding.length = 0)
    exact ⟨(), store, rfl, rfl, rfl, framed, kept⟩

end Registers

/-! ## Routines -/

/-- A routine does what an answer says, as far as it says anything, on every machine that holds the
data, and leaves the machine as it is. -/
def Serves (data : List UInt8) : Option (Answer World) → Option (Routine World) → Prop
  | none, none => True
  | some answer, some routine => ∀ (world : World) (m : Machine) (words : List Word)
      (answered : World × Except Fault (Option Int)), answer world words = some answered →
      m.memory.HoldsData data → words.length = 6 →
      routine world m (words.map fun word => (word.toNat : Int)) = (answered.1, m, answered.2)
  | _, _ => False

/-- A program of the machine with routines gives an environment its meaning: calls of other names
than `main` and `_start` leave the program, the string literals of a pool are at their addresses,
and routines do what answers say. -/
structure Hosts (setup : Setup World) (env : Environment World) (layout : Layout)
    (pool : List String) : Prop where
  leaves : ∀ name, name ≠ "main" → name ≠ "_start" → setup.image.codeLabels.get? name = none
  labelled : ∀ raw ∈ pool, ∃ address, env.address raw = BitVec.ofNat 64 address ∧
    setup.image.dataLabels.get? (literalLabel (pool.idxOf raw)) = some address
  serves : ∀ name, Serves layout.data (env.answer? name) (setup.routine? name)

section Perform

variable {env : Environment World} {pool : List String} {passed : List Word} {name : String}

/-- The session that has moved past an instruction. -/
def Session.moved (s : Session World) : Session World :=
  { s with machine := { s.machine with counter := s.machine.counter + 1 }, steps := s.steps + 1 }

theorem step_call {i : Assembly.Instruction}
    (code : (one .call (.symbol name)).code? = some i.code)
    (leaves : setup.image.codeLabels.get? name = none) (s : Session World) :
    s.step setup i =
      if name = "exit" then s.moved.attempt (s.moved.machine.exit, none)
      else
        match setup.routine? name with
        | some routine => s.moved.callRoutine i name routine
        | none => (s.moved, some (.onLine i.line (.undefinedSymbol name))) := by
  obtain ⟨_, _, line⟩ := i
  cases code
  show s.moved.call setup ⟨"call", [.symbol name], line⟩ = _
  rw [Session.call]
  dsimp only
  rw [leaves]
  rfl

/-- A routine is called with the words in the places for arguments, if the stack is even. -/
theorem callRoutine_eq {s : Session World} {slots : Nat → BitVec 32}
    (framed : Framed layout slots passed stack s.machine.registers s.machine.memory)
    (even : stack.length % 2 = 0) (i : Assembly.Instruction) (routine : Routine World)
    {answer : Answer World} (serves : Serves layout.data (some answer) (some routine))
    {answered : World × Except Fault (Option Int)} (known : answer s.world passed = some answered) :
    s.callRoutine i name routine =
      let call : Call := ⟨name, passed.map fun word => (word.toNat : Int)⟩
      let s' := { s with world := answered.1, calls := s.calls.push call }
      match answered.2 with
      | .ok returned =>
        let word : Word := BitVec.ofInt 64 (returned.getD 0)
        ({ s' with machine := s.machine.set .rax word.toNat }, none)
      | .error fault => (s', some fault) := by
  have pointer : s.machine.get .rsp % 16 = 0 := by
    have aligned := layout.floor_mod
    have below := framed.room.top_add
    rw [Machine.get, framed.pointer]
    omega
  have writable : s.machine.registers.arguments.all Text.isWritable = true := by
    rw [framed.arguments, List.all_map, List.all_eq_true]
    intro word _
    rw [Function.comp_apply]
    exact Text.isWritable_of_lt (by rw [Int.natAbs_natCast]; exact word.isLt)
  have answers := serves s.world s.machine passed answered known framed.data framed.length_arguments
  rw [Session.callRoutine, if_neg (by rw [pointer]; decide)]
  dsimp only
  rw [writable, framed.arguments, answers, if_neg (by decide)]
  dsimp only
  cases answered.2 with
  | error => rfl
  | ok returned => simp only [wrap_eq]

/-- A call comes to what the answer says. -/
theorem run_perform {answer : Answer World} (stays : name ≠ "exit")
    (named : env.answer? name = some answer) (store : Store World) :
    (Evaluation.perform env name passed).run store =
      match answer store.world passed with
      | none => (.error .unanswered, store)
      | some (world, result) =>
        let call : Call := ⟨name, passed.map fun word => (word.toNat : Int)⟩
        let store' := { store with world, calls := store.calls.push call }
        match result with
        | .ok returned => (.ok (BitVec.ofInt 64 (returned.getD 0)), store')
        | .error fault => (.error (.fault fault), store') := by
  have got : (MonadState.get : Evaluation World (Store World)).run store = (.ok store, store) := rfl
  rw [Evaluation.perform, if_neg stays, named, run_bind, got]
  dsimp only
  rcases answer store.world passed with _ | ⟨world, _ | _⟩
  · rfl
  · rfl
  · rfl

/-- A call at the machine does what the evaluation of a call does with the words passed. -/
theorem simulates_perform (hosts : Hosts setup env layout pool)
    (outside : name ≠ "main" ∧ name ≠ "_start") :
    Simulates setup [one .call (.symbol name)] (Aligned layout passed stack)
      (Evaluation.perform env name passed)
      fun word store rs mem =>
        Aligned layout passed stack store rs mem ∧ rs.get .rax = word.toNat := by
  rintro store s located linked ⟨padding, even, framed⟩
  obtain ⟨i, fetched, same⟩ := located.exists_fetch rfl
  have stepped := step_call same (hosts.leaves name outside.1 outside.2) s
  have framed : Framed layout store.slots passed (padding ++ stack) s.moved.machine.registers
      s.moved.machine.memory := framed
  by_cases exits : name = "exit"
  · rw [if_pos exits] at stepped
    rw [Evaluation.perform, if_pos exits]
    have first : s.machine.get .rdi = (passed.headD 0).toNat := by
      have listed := framed.arguments
      cases passed with
      | nil => cases listed
      | cons word words => exact (List.cons.inj listed).1
    exact fun _ => ⟨1, _, Nat.le_refl 1, .exit (.head linked.running fetched stepped (.refl _))
      (congrArg some first), linked.world, linked.calls⟩
  rw [if_neg exits] at stepped
  have serves := hosts.serves name
  cases answered : env.answer? name with
  | none =>
    cases routed : setup.routine? name with
    | some routine => rw [answered, routed] at serves; cases serves
    | none =>
      rw [routed] at stepped
      rw [Evaluation.perform, if_neg exits, answered]
      exact fun _ => ⟨1, _, Nat.le_refl 1, .fault (.refl s) linked.running fetched stepped rfl,
        linked.world, linked.calls⟩
  | some answer =>
    cases routed : setup.routine? name with
    | none => rw [answered, routed] at serves; cases serves
    | some routine =>
      rw [answered, routed] at serves
      rw [routed] at stepped
      dsimp only at stepped
      have sameWorld : s.moved.world = store.world := linked.world
      rw [run_perform exits answered]
      cases known : answer store.world passed with
      | none => exact fun known => absurd rfl known
      | some answered =>
        rw [callRoutine_eq framed (by rw [List.length_append]; omega) i routine serves
          (sameWorld ▸ known)] at stepped
        have recorded : s.calls.push ⟨name, passed.map fun word => (word.toNat : Int)⟩ =
            store.calls.push ⟨name, passed.map fun word => (word.toNat : Int)⟩ := by
          rw [linked.calls]
        rcases answered with ⟨world, fault | returned⟩
        · exact fun _ => ⟨1, _, Nat.le_refl 1, .fault (.refl s) linked.running fetched stepped rfl,
            rfl, recorded⟩
        · exact ⟨_, .head linked.running fetched stepped (.refl _), rfl,
            ⟨linked.running, rfl, recorded⟩,
            ⟨padding, even, framed.scratch (.inl rfl) _⟩, rfl⟩

/-! ## A call as a whole -/

theorem savedRegisters_eq (count : Nat) :
    savedRegisters count = (Register.arguments.take (max 1 count)).drop 1 := by
  cases count with
  | zero => rfl
  | succ count => rw [savedRegisters, Nat.max_eq_right (Nat.le_add_left 1 count)]

/-- The words of the registers that are saved around a call. -/
def savedWords (count : Nat) (before : List Word) : List Word :=
  (before.take count).drop 1

theorem length_savedWords {count : Nat} {before : List Word} (six : before.length = 6)
    (few : count ≤ 6) : (savedWords count before).length = max 1 count - 1 := by
  rw [savedWords, List.length_drop, List.length_take]
  omega

theorem length_savedRegisters (count : Nat) {before : List Word} (six : before.length = 6) :
    (savedRegisters count).length = (savedWords count before).length :=
  (List.forall₂_drop 1 (List.forall₂_take count (forall₂_arguments six))).length_eq

/-- Before the arguments of a call are evaluated, the registers for them are saved. -/
theorem simulates_save (count : Nat) {before : List Word} (six : before.length = 6)
    (room : layout.Room (stack.length + (savedWords count before).length)) :
    Simulates setup ((savedRegisters count).map fun r => one .push (whole r))
      (fun store rs mem => Within layout before stack store rs mem ∧ store.registers = before)
      (pure ()) fun _ => At layout ((savedWords count before).reverse ++ stack) := by
  have hold := List.forall₂_drop 1 (List.forall₂_take count (forall₂_arguments six))
  refine ((simulates_pushes hold room).keep fun store => store.registers = before).mono
    (fun _ _ _ both => both) ?_
  rintro _ store rs mem ⟨framed, same⟩
  rw [At, same]
  exact framed

theorem simulates_popArguments {arguments words : List Word}
    (six : arguments.length = 6) (few : words.length ≤ 6) :
    Simulates setup ((Register.arguments.take words.length).reverse.map fun r => one .pop (whole r))
      (Within layout arguments (words.reverse ++ stack)) (pure ())
      fun _ => Within layout (words ++ arguments.drop words.length) stack := by
  have popped : Simulates setup _ (fun store rs mem =>
      Within layout arguments (words.reverse ++ stack) store rs mem ∧ True) (pure ())
      fun _ store rs mem => Within layout (arguments.take 0 ++ words ++ arguments.drop words.length)
        stack store rs mem ∧ True :=
    simulates_pops (fun _ => True) (Nat.zero_le words.length) few six
      (Nat.sub_zero words.length).symm
  exact popped.mono (fun store rs mem framed => ⟨framed, trivial⟩) fun _ store rs mem both => both.1

theorem simulates_popSaved (keep : Int → Prop) {before : List Word} {count : Nat}
    (six : before.length = 6) (few : count ≤ 6) :
    Simulates setup ((savedRegisters count).reverse.map fun r => one .pop (whole r))
      (fun store rs mem =>
        Within layout passed ((savedWords count before).reverse ++ stack) store rs mem ∧
          keep (rs.get .rax)) (pure ())
      fun _ store rs mem => Within layout (Evaluation.restored count before passed) stack store rs
        mem ∧ keep (rs.get .rax) := by
  refine .assuming (fun store rs mem both => both.1.length_arguments) fun sixPassed => ?_
  rw [savedRegisters_eq]
  exact simulates_pops keep (Nat.le_max_left 1 count) (Nat.max_le.mpr ⟨by decide, few⟩) sixPassed
    (length_savedWords six few)

/-- Once its arguments are on the stack, above the saved words, a call is performed and everything
is put back but the first place for arguments. -/
theorem simulates_invoke (hosts : Hosts setup env layout pool)
    (outside : name ≠ "main" ∧ name ≠ "_start") {before words : List Word} {outstanding : Nat}
    (six : before.length = 6) (few : words.length ≤ 6)
    (length : ((savedWords words.length before).reverse ++ stack).length = outstanding)
    (room : layout.Room (outstanding + outstanding % 2)) :
    Simulates setup (invoke name words.length outstanding)
      (At layout (words.reverse ++ ((savedWords words.length before).reverse ++ stack)))
      (do
        let passed := words ++ (← MonadState.get).registers.drop words.length
        let word ← Evaluation.perform env name passed
        modify fun store =>
          { store with registers := Evaluation.restored words.length before passed }
        pure word)
      (Holding layout stack) := by
  have read : Simulates setup [] (At layout (words.reverse ++
      ((savedWords words.length before).reverse ++ stack))) (MonadState.get : Evaluation World _)
      fun seen => Within layout seen.registers (words.reverse ++
        ((savedWords words.length before).reverse ++ stack)) :=
    .quiet fun store rs mem framed => ⟨store, store, rfl, rfl, rfl, framed⟩
  refine read.bind fun seen => .assuming (fun store rs mem framed => framed.length_arguments)
    fun sixSeen => ?_
  subst length
  let passed := words ++ seen.registers.drop words.length
  let below := (savedWords words.length before).reverse ++ stack
  have aligned : Simulates setup _ (Within layout seen.registers (words.reverse ++ below)) (pure ())
      fun _ => Aligned layout passed below :=
    (simulates_popArguments sixSeen few).after (simulates_padding room)
  have cleared : Simulates setup [two .mov (.immediate 0) eax] (Aligned layout passed below)
      (pure ()) fun _ => Aligned layout passed below := by
    refine .silent rfl ?_
    rintro store rs mem ⟨padding, even, framed⟩
    exact ⟨_, _, acts_mov_immediate _ _, padding, even, framed.scratch (.inl rfl) _⟩
  -- What was pushed last is taken off first: the padding after the call, then the saved words.
  have performed := aligned.after (cleared.after (simulates_perform hosts outside))
  have returned := performed.before fun word => simulates_unpadding fun value => value = word.toNat
  have restored := returned.before fun word =>
    simulates_popSaved (fun value => value = word.toNat) six few
  have stored : ∀ word : Word, Simulates setup []
      (fun store rs mem =>
        Within layout (Evaluation.restored words.length before passed) stack store rs mem ∧
          rs.get .rax = word.toNat)
      (do
        modify fun store =>
          { store with registers := Evaluation.restored words.length before passed }
        pure word)
      (Holding layout stack) := by
    intro word
    refine .quiet ?_
    rintro store rs mem ⟨framed, value⟩
    exact ⟨word, _, rfl, rfl, rfl, framed, value⟩
  have all := restored.bind stored
  rw [List.append_nil] at all
  exact all

end Perform

end Reckon.Machine
