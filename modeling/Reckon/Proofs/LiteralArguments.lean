import Reckon.Proofs.RoutineCalls

/-!
# String literals reach the routines they are passed to

The literals of a program lie in memory one after the other, each with a zero after it, in the order
of the pool: the same address for the same text, and ranges that do not meet for different texts
(`Program.address_add_le`). A call that passes a literal passes this address, and at the time of the
call the bytes are there (`Compilation.literals_reach_routines`), whatever was pushed and stored in
between.
-/

namespace Reckon

/-! ## Where literals lie -/

/-- Bytes are in memory from an address on. -/
def Machine.Memory.Holds (m : Memory) (address : Nat) (bytes : List UInt8) : Prop :=
  ∀ (k : Nat) (byte : UInt8), bytes[k]? = some byte →
    m.read ((address + k : Nat) : Int) 1 = .ok byte.toNat

namespace Machine.Memory

variable {m : Memory}

theorem word_one (m : Memory) (address : Nat) : m.word address 1 = (m.byte address).toNat := by
  rw [word, word, Nat.mul_zero, Nat.add_zero]

/-- A part of the data that a memory holds. -/
theorem HoldsData.holds {before bytes after : List UInt8}
    (holds : m.HoldsData (before ++ bytes ++ after))
    (inside : Assembly.dataBase + (before ++ bytes ++ after).length ≤ memorySize) :
    m.Holds (Assembly.dataBase + before.length) bytes := by
  intro k byte found
  obtain ⟨within, same⟩ := List.getElem?_eq_some_iff.mp found
  have reach : before.length + k < (before ++ bytes ++ after).length := by
    simp only [List.length_append]
    omega
  have here := holds.byte (before.length + k) reach
  rw [List.getElem_append_left (by simp; omega), List.getElem_append_right (by omega)] at here
  simp only [Nat.add_sub_cancel_left, same] at here
  rw [Nat.add_assoc, read_of_le (by omega), word_one, here]

end Machine.Memory

namespace Program

open Code

variable {program : Program} {raw raw' : String}

theorem literalData_append (literals literals' : List String) :
    literalData (literals ++ literals') = literalData literals ++ literalData literals' :=
  List.flatMap_append

theorem take_idxOf_succ {literals : List String} (member : raw ∈ literals) :
    literals.take (literals.idxOf raw + 1) = literals.take (literals.idxOf raw) ++ [raw] := by
  have place := List.idxOf_lt_length_of_mem member
  rw [← List.take_append_getElem place, List.getElem_idxOf place]

theorem length_literalData_singleton (raw : String) :
    (literalData [raw]).length = (literalBytes raw).length + 1 := by
  rw [literalData, List.flatMap_cons, List.flatMap_nil, List.append_nil, List.length_append]
  rfl

/-- The data of a program has the bytes of each literal, and a zero after them. -/
theorem exists_data_eq (member : raw ∈ pool program.statements) :
    ∃ before after, program.data = before ++ (literalBytes raw ++ [0]) ++ after ∧
      program.address raw = Assembly.dataBase + before.length := by
  refine ⟨literalData ((pool program.statements).take ((pool program.statements).idxOf raw)),
    literalData ((pool program.statements).drop ((pool program.statements).idxOf raw + 1)), ?_, rfl⟩
  have single : literalData [raw] = literalBytes raw ++ [0] := List.append_nil _
  rw [← single, ← literalData_append, ← literalData_append, ← take_idxOf_succ member,
    List.take_append_drop]
  rfl

theorem address_le (program : Program) (raw : String) :
    program.address raw ≤ Assembly.dataBase + program.data.length := by
  have parts :=
    List.take_append_drop ((pool program.statements).idxOf raw) (pool program.statements)
  have lengths := congrArg (fun literals => (literalData literals).length) parts
  simp only [literalData_append, List.length_append] at lengths
  unfold address data
  dsimp only
  omega

/-- A literal and its zero end where the next literal begins, or before. -/
theorem address_add_le (member : raw ∈ pool program.statements)
    (earlier : (pool program.statements).idxOf raw < (pool program.statements).idxOf raw') :
    program.address raw + ((literalBytes raw).length + 1) ≤ program.address raw' := by
  generalize same : pool program.statements = literals at member earlier
  have parts : literals.take (literals.idxOf raw') = literals.take (literals.idxOf raw) ++ [raw] ++
      (literals.take (literals.idxOf raw')).drop (literals.idxOf raw + 1) := by
    have cut : (literals.take (literals.idxOf raw')).take (literals.idxOf raw + 1) =
        literals.take (literals.idxOf raw + 1) := by
      rw [List.take_take, Nat.min_eq_left earlier]
    rw [← take_idxOf_succ member, ← cut, List.take_append_drop]
  have lengths := congrArg (fun literals => (literalData literals).length) parts
  simp only [literalData_append, List.length_append, length_literalData_singleton] at lengths
  unfold address
  dsimp only
  rw [same]
  omega

end Program

/-! ## Where calls are made -/

namespace Machine.Session

open Assembly (Instruction)

variable {World : Type} {setup : Setup World} {s s₁ : Session World} {i : Instruction} {n k : Nat}
  {limit : Int} {call : Call}

theorem getElem?_of_step (found : (s.step setup i).1.calls[k]? = some call) :
    s.calls[k]? = some call ∨
      s.calls.size = k ∧ (s.step setup i).1.calls = s.calls.push call := by
  rcases @calls_step _ setup s i with same | ⟨made, pushed⟩
  · rw [same] at found
    exact .inl found
  · rw [pushed, Array.getElem?_push] at found
    split at found
    · next last =>
      cases found
      exact .inr ⟨last.symm, pushed⟩
    · exact .inl found

/-- A call of a run was made before, or by one of the steps of the run. -/
theorem exists_step_of_call {allowed : Nat}
    (found : (runFor setup unobserved limit allowed s).1.calls[k]? = some call) :
    s.calls[k]? = some call ∨
      ∃ n s₁ i, n < allowed ∧ Steps setup n s s₁ ∧ s₁.machine.exit? = none ∧
        s₁.fetch setup = .ok i ∧ s₁.calls.size = k ∧
        (s₁.step setup i).1.calls = s₁.calls.push call := by
  fun_induction runFor setup unobserved limit allowed s with
  | case1 s allowed value ended => exact .inl found
  | case2 s running => exact .inl found
  | case3 s running allowed fault fetched => exact .inl found
  | case4 s running allowed i fetched stopped => cases stopped
  | case5 s running allowed i fetched _ s' stepped ih =>
    rcases ih found with made | ⟨n, s₁, j, within, steps, last⟩
    · have here : (s.step setup i).1.calls[k]? = some call := by rwa [stepped]
      rcases getElem?_of_step here with before | ⟨size, pushed⟩
      · exact .inl before
      · exact .inr ⟨0, s, i, Nat.succ_pos _, .refl s, running, fetched, size, pushed⟩
    · exact .inr ⟨n + 1, s₁, j, Nat.succ_lt_succ within, .head running fetched stepped steps, last⟩
  | case6 s running allowed i fetched _ s' fault stepped =>
    have here : (s.step setup i).1.calls[k]? = some call := by rwa [stepped]
    rcases getElem?_of_step here with before | ⟨size, pushed⟩
    · exact .inl before
    · exact .inr ⟨0, s, i, Nat.succ_pos _, .refl s, running, fetched, size, pushed⟩

theorem Steps.run_fst (steps : Steps setup n s s₁) (start : s.steps = 0) :
    (s.run setup unobserved n).1 = s₁ := by
  have allowed : s.allowance n = n + 0 := by
    unfold allowance
    omega
  show (Session.runFor setup unobserved n (s.allowance n) s).1 = s₁
  rw [allowed, steps.runFor]
  unfold Session.runFor
  split
  · rfl
  · rfl

/-- The session after one more step, whether or not it raises a fault. -/
theorem Steps.run_succ_fst (steps : Steps setup n s s₁) (start : s.steps = 0)
    (running : s₁.machine.exit? = none) (fetched : s₁.fetch setup = .ok i) :
    (s.run setup unobserved (n + 1 : Nat)).1 = (s₁.step setup i).1 := by
  cases stepped : s₁.step setup i with
  | mk s' fault? =>
    cases fault? with
    | none =>
      exact (steps.trans (.head running fetched stepped (.refl s'))).run_fst start
    | some fault =>
      have ends : Ends setup (n + 1) s s' (.error fault) := .fault steps running fetched stepped
      rw [ends.run start (Int.le_refl _)]

end Machine.Session

/-! ## Calls of compiled programs -/

namespace CallSite

variable {address : String → Word} {sites : List CallSite} {calls : List Machine.Call}

theorem exists_made {k : Nat} {call : Machine.Call}
    (made : List.Forall₂ (CallSite.Made address) sites calls) (found : calls[k]? = some call) :
    ∃ site, sites[k]? = some site ∧ site.Made address call := by
  induction made generalizing k with
  | nil => cases found
  | cons first _ ih =>
    cases k with
    | zero =>
      cases found
      exact ⟨_, rfl, first⟩
    | succ k => exact ih found

end CallSite

namespace Compilation

open Code Machine

variable {World : Type} {routine? : String → Option (Routine World)} {options : Options}
  {source : String} {c : Compilation}

theorem toNat_addressOf (fits : c.program.footprint ≤ memorySize) (raw : String) :
    (c.addressOf raw).toNat = c.program.address raw := by
  have small := c.program.address_le raw
  have size : memorySize = 1048576 := rfl
  unfold Program.footprint at fits
  rw [addressOf, BitVec.toNat_ofNat, Nat.mod_eq_of_lt (by omega)]

/-- A literal among the arguments of a call is in the pool. -/
theorem mem_pool_of_site {site : CallSite} {k j : Nat} {raw : String} {span : Span}
    (found : (c.program.statements.flatMap callSites)[k]? = some site)
    (written : site.arguments[j]? = some (.string raw span)) :
    raw ∈ pool c.program.statements := by
  obtain ⟨statement, member, inside⟩ := List.mem_flatMap.mp (List.mem_of_getElem? found)
  have literal := mem_literals_of_callSites (List.mem_of_getElem? written) statement inside
  exact List.mem_eraseDups.mpr (List.mem_flatMap.mpr ⟨statement, member, literal⟩)

/-- The bytes of a literal are in a memory that holds the data of the program. -/
theorem exists_bytes {m : Memory} {raw : String}
    (latin : ∀ raw ∈ pool c.program.statements, ∀ ch ∈ raw.toList, isLatin ch = true)
    (fits : c.program.footprint ≤ memorySize) (holds : m.HoldsData c.program.data)
    (member : raw ∈ pool c.program.statements) :
    ∃ bytes, Assembly.stringBytes (escapeControls raw.toList) = .ok bytes ∧
      m.Holds (c.program.address raw) (bytes ++ [0]) := by
  obtain ⟨_, isBlock⟩ := exists_blocks (List.forall_mem_singleton.mpr (latin raw member))
  cases isBlock with
  | @cons _ bytes _ _ decoded _ =>
    have same : literalBytes raw = bytes := by
      rw [literalBytes, show Assembly.stringBytes _ = _ from decoded]
    obtain ⟨before, after, data, address⟩ := Program.exists_data_eq member
    unfold Program.footprint at fits
    rw [data] at holds fits
    rw [same] at holds fits
    rw [address]
    exact ⟨bytes, decoded, holds.holds (by omega)⟩

namespace Loads

variable {image : Assembly.Image} {world : World} {n : Nat} {s : Session World}

/-- A call that a run makes is made at the site whose turn it is, and the data is in memory. -/
theorem exists_site_of_call (loads : Loads options source c image)
    (readOnly : ∀ name routine, routine? name = some routine → routine.ReadOnly)
    {i : Assembly.Instruction} {call : Call}
    (steps : Session.Steps ⟨image, routine?⟩ n (.fresh image.data.toList world) s)
    (running : s.machine.exit? = none) (fetched : s.fetch ⟨image, routine?⟩ = .ok i)
    (called : (s.step ⟨image, routine?⟩ i).1.calls = s.calls.push call) :
    call.arguments = s.machine.registers.arguments ∧ s.machine.memory.HoldsData c.program.data ∧
      ∃ site, (c.program.statements.flatMap callSites)[s.calls.size]? = some site ∧
        site.Made c.addressOf call := by
  obtain ⟨answers, t, fault, ends, calls, words, tested⟩ := Session.exists_recording_of_call
    readOnly steps running fetched called (·.HoldsData c.program.data)
  obtain ⟨passed, outcome, progress, -⟩ := loads.exists_progress ends
  -- The record ends at this call, and so it is the last call of the evaluation.
  have found : t.calls.toList[s.calls.size]? = some call := by
    rw [calls, Array.getElem?_toList, Array.getElem?_push_size]
  refine ⟨words, tested passed, ?_⟩
  cases progress with
  | complete _ made => exact CallSite.exists_made made found
  | stopped split made _ =>
    obtain ⟨site, here, madeHere⟩ := CallSite.exists_made made found
    refine ⟨site, ?_, madeHere⟩
    rw [split, List.getElem?_append_left (List.getElem?_eq_some_iff.mp here).1, here]

/-- A run that comes to its end before a call that is written has come to a call of `exit`. -/
theorem left_of_exit (loads : Loads options source c image)
    (readOnly : ∀ name routine, routine? name = some routine → routine.ReadOnly)
    {site : CallSite} {value : Int}
    (steps : Session.Steps ⟨image, routine?⟩ n (.fresh image.data.toList world) s)
    (ended : s.machine.exit? = some value)
    (next : (c.program.statements.flatMap callSites)[s.calls.size]? = some site) :
    ∃ word, site.Left c.addressOf word ∧ value = (word.toNat : Int) := by
  obtain ⟨answers, t, ends, calls⟩ :=
    Session.exists_recording_of_exit readOnly steps ended (·.HoldsData c.program.data)
  obtain ⟨-, outcome, progress, exits⟩ := loads.exists_progress ends
  obtain ⟨word, left, same⟩ := exits value rfl
  rw [← calls, ← Array.length_toList] at next
  cases progress with
  | complete _ made =>
    -- All calls that are written have been made.
    rw [← made.length_eq, List.getElem?_eq_none (Nat.le_refl _)] at next
    cases next
  | stopped split made leaves =>
    obtain ⟨site', rest, begins, departs⟩ := leaves word left
    rw [← made.length_eq, split, List.getElem?_append_right (Nat.le_refl _), Nat.sub_self,
      begins] at next
    cases next
    exact ⟨word, departs, same⟩

end Loads

/-- Different literals lie apart. -/
theorem disjoint_literals {raw raw' : String} {bytes bytes' : List UInt8}
    (member : raw ∈ pool c.program.statements) (member' : raw' ∈ pool c.program.statements)
    (differ : raw ≠ raw') (decoded : Assembly.stringBytes (escapeControls raw.toList) = .ok bytes)
    (decoded' : Assembly.stringBytes (escapeControls raw'.toList) = .ok bytes') :
    Disjoint
      (Set.Ico (c.program.address raw) (c.program.address raw + (bytes.length + 1)))
      (Set.Ico (c.program.address raw') (c.program.address raw' + (bytes'.length + 1))) := by
  have same : literalBytes raw = bytes := by rw [literalBytes, decoded]
  have same' : literalBytes raw' = bytes' := by rw [literalBytes, decoded']
  rw [Set.Ico_disjoint_Ico]
  rcases Nat.lt_trichotomy ((pool c.program.statements).idxOf raw)
    ((pool c.program.statements).idxOf raw') with earlier | equal | later
  · have apart := Program.address_add_le member earlier
    rw [same] at apart
    omega
  · exact absurd (List.idxOf_inj member |>.mp equal) differ
  · have apart := Program.address_add_le member' later
    rw [same'] at apart
    omega

/-- String literals reach the routines they are passed to. Take a source text that compiles, with
any options, into a program

* whose string literals consist of characters up to U+00FF other than U+0085,
* that calls neither `main` nor `_start`, and
* whose data, variables and operands fit into memory,

and routines that leave the machine alone, whatever they look at and whether or not they fail. Run
its assembly text with any budget of steps.

* Each call in the run is made by a step, from the session after some number `n` of them; it is the
  call that is written at its place in the order of evaluation, and its arguments are what the
  registers hold. Where a literal is written, the register of its position holds the address of the
  literal, and from there on the memory has the bytes that the text of the literal stands for, and a
  zero after them.
* If the run comes to its end before a call that is written, this is a call of `exit`, which is no
  routine. If its first argument is a literal, the program exits with the address of the literal.
* The address depends on the text of a literal alone, and different literals lie apart. -/
theorem literals_reach_routines (compiled : ofSource options source = .ok c)
    (latin : ∀ raw ∈ pool c.program.statements, ∀ ch ∈ raw.toList, ch.toNat ≤ 0xFF ∧ ch ≠ '\x85')
    (outside : ∀ name ∈ c.externals, name ≠ "main" ∧ name ≠ "_start")
    (fits : c.program.footprint ≤ memorySize)
    (readOnly : ∀ name routine, routine? name = some routine → routine.ReadOnly) (world : World) :
    ∃ setup start, load c.assembly routine? world = .ok (setup, start) ∧
      let after := fun n : Nat => (start.run setup Session.unobserved n).1
      let sites := c.program.statements.flatMap callSites
      (∀ (limit : Int) (k : Nat) (call : Call),
        (Execution.ofText c.assembly routine? world limit).calls[k]? = some call →
        ∃ (n : Nat) (site : CallSite), n < limit ∧ (after n).calls.size = k ∧
          (after (n + 1)).calls = (after n).calls.push call ∧
          call.arguments = (after n).machine.registers.arguments ∧
          sites[k]? = some site ∧ call.name = site.name ∧
          ∀ (j : Nat) (raw : String) (span : Span), site.arguments[j]? = some (.string raw span) →
            call.arguments[j]? = some (c.program.address raw : Int) ∧
            ∃ bytes, Assembly.stringBytes (escapeControls raw.toList) = .ok bytes ∧
              (after n).machine.memory.Holds (c.program.address raw) (bytes ++ [0])) ∧
      (∀ limit exit, (Execution.ofText c.assembly routine? world limit).result = .ok exit →
        ∀ site, sites[(Execution.ofText c.assembly routine? world limit).calls.size]? = some site →
          site.name = "exit" ∧ ∀ (raw : String) (span : Span),
            site.arguments[0]? = some (.string raw span) → exit.value = c.program.address raw) ∧
      ∀ raw ∈ pool c.program.statements, ∀ raw' ∈ pool c.program.statements, raw ≠ raw' →
        ∀ bytes bytes', Assembly.stringBytes (escapeControls raw.toList) = .ok bytes →
          Assembly.stringBytes (escapeControls raw'.toList) = .ok bytes' →
          Disjoint
            (Set.Ico (c.program.address raw) (c.program.address raw + (bytes.length + 1)))
            (Set.Ico (c.program.address raw') (c.program.address raw' + (bytes'.length + 1))) := by
  obtain ⟨image, loads⟩ := exists_loads compiled latin outside fits
  have loaded := loads.load_eq routine? world
  refine ⟨_, _, loaded, fun limit k call found => ?_, fun limit exit returned site next => ?_,
    fun raw member raw' member' differ bytes bytes' decoded decoded' =>
      disjoint_literals member member' differ decoded decoded'⟩
  · rw [ofText_eq loaded limit] at found
    rcases Session.exists_step_of_call found with before | ⟨n, s, i, within, steps, running, last⟩
    · cases before
    obtain ⟨fetched, size, called⟩ := last
    obtain ⟨words, holds, site, here, made⟩ :=
      loads.exists_site_of_call readOnly steps running fetched called
    have few : (n : Int) < limit := by
      unfold Session.allowance at within
      omega
    refine ⟨n, site, few, ?_⟩
    dsimp only
    rw [steps.run_fst rfl, steps.run_succ_fst rfl running fetched]
    refine ⟨size, called, words, size ▸ here, made.name, fun j raw span written => ?_⟩
    have address := made.literal j raw span written
    rw [toNat_addressOf fits] at address
    exact ⟨address, exists_bytes loads.latin fits holds (mem_pool_of_site here written)⟩
  · rw [ofText_eq loaded limit] at returned next
    obtain ⟨n, -, value, steps, ended, exited⟩ := Session.exists_steps_of_run returned
    obtain ⟨word, left, same⟩ := loads.left_of_exit readOnly steps ended next
    refine ⟨left.name, fun raw span written => ?_⟩
    rw [exited, same, left.literal raw span written, toNat_addressOf fits, signed_eq]
    have small := c.program.address_le raw
    have size : memorySize = 1048576 := rfl
    unfold Program.footprint at fits
    exact BitVec.toInt_ofInt_eq_self (by decide) (by omega) (by omega)

/-- The second call gets a literal with an escape as its second argument, after another literal. -/
theorem literals_reach_routines_of_nested :
    ∃ c setup start, ofSource ⟨false, none⟩ "f(g(\"é\"), \"a\\n\") + g(\"é\");" = .ok c ∧
      load c.assembly tally 0 = .ok (setup, start) ∧
      ∃ (n : Nat) (call : Call), (Execution.ofText c.assembly tally 0 100).calls[1]? = some call ∧
        call.name = "f" ∧ call.arguments[1]? = some (Assembly.dataBase + 2 : Int) ∧
        (start.run setup Session.unobserved n).1.machine.memory.Holds (Assembly.dataBase + 2)
          [0x61, 0x0A, 0] := by
  obtain ⟨c, compiled, isNested, externals, provided⟩ := exists_ofSource_nested
  obtain ⟨word, store, call, value, second⟩ : ∃ word store call,
      c.program.evaluate tallied 0 = (.ok word, store) ∧ store.calls[1]? = some call := by
    rw [isNested]
    exact ⟨_, _, _, rfl, rfl⟩
  obtain ⟨-, calls, -⟩ := provided.run_of_value compiled value
  have made : (Execution.ofText c.assembly tally 0 100).calls[1]? = some call := by
    rw [calls, second]
  obtain ⟨setup, start, loaded, reached, -⟩ := literals_reach_routines compiled provided.latin
    provided.outside provided.fits readOnly_tally 0
  obtain ⟨n, site, -, -, -, -, here, name, passed⟩ := reached 100 1 call made
  have written : (nested.statements.flatMap callSites)[1]? =
      some ⟨"f", [.call "g" [.string "é" ⟨4, 7⟩] ⟨2, 8⟩, .string "a\\n" ⟨10, 15⟩]⟩ := by rfl
  rw [isNested, written] at here
  cases here
  have address : nested.address "a\\n" = Assembly.dataBase + 2 := by cbv
  have meaning : Assembly.stringBytes (escapeControls "a\\n".toList) = .ok [0x61, 0x0A] := by cbv
  obtain ⟨argument, bytes, decoded, holds⟩ := passed 1 "a\\n" ⟨10, 15⟩ rfl
  rw [isNested, address] at argument holds
  cases meaning.symm.trans decoded
  exact ⟨c, setup, start, compiled, loaded, n, call, made, name, argument, holds⟩

end Compilation

end Reckon
