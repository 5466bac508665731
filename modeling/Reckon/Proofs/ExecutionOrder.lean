import Reckon.Proofs.AlignedCalls

/-!
# The order of execution

The code of a program has no branches. If the program does not call `main` itself, its instructions
can be executed in one order only (`Machine.executionOrder`): those of the entry point up to its
call of `main`, those of `main`, and the rest of the entry point. A run goes through them in that
order as far as it comes, whatever stops it (`Machine.follows_fresh`), so it executes no instruction
twice (`Machine.perm_executionOrder`). It comes back from `main` because of the place on the stack
that `Machine.Standing` keeps account of.
-/

namespace Reckon

open Code

/-- Lines that keep account of the stack call only what they may. -/
theorem Code.Line.Balances.call_notMem {slots floor h h' : Nat} {allowed : String → Prop}
    {lines : List Line} {name : String} (balances : Line.Balances slots floor allowed lines h h')
    (never : ¬ allowed name) : one .call (.symbol name) ∉ lines := by
  induction balances with
  | nil => exact List.not_mem_nil
  | @cons line _ _ _ _ shifts _ ih =>
    refine List.not_mem_cons_of_ne_of_not_mem (fun same => ?_) ih
    subst same
    cases shifts with
    | plain _ plain => cases plain
    | call _ may => exact never may

namespace Machine

variable {World : Type} {setup : Setup World} {place : Nat} {path : List Nat} {line : Line}
  {lines lines' : List Line} {pre mid post : Registers → Memory → Prop}

/-! ## Runs along a path -/

namespace Session

/-- However many steps a run may take, it executes the instructions of a path in their order, as far
as it comes. -/
def Follows (setup : Setup World) (path : List Nat) (s : Session World) : Prop :=
  ∀ allowed, (visitsFor setup unobserved allowed s).map Visit.index <+: path

variable {s s' : Session World} {i : Assembly.Instruction}

theorem follows_of_exit (ended : s.machine.exit? ≠ none) : s.Follows setup path := by
  obtain ⟨value, ended⟩ := Option.ne_none_iff_exists'.mp ended
  intro allowed
  cases allowed with
  | zero => exact List.nil_prefix
  | succ allowed =>
    rw [visitsFor, ended]
    exact List.nil_prefix

theorem follows_of_next (next : s.machine.exit? = none → s.Follows setup path) :
    s.Follows setup path := by
  by_cases running : s.machine.exit? = none
  · exact next running
  · exact follows_of_exit running

/-- A run follows a path if its first instruction comes first there, and what it leads to follows
the rest. -/
theorem follows_cons (fetched : s.fetch setup = .ok i)
    (outcome : Outcome setup (Follows setup path) (s.step setup i)) :
    s.Follows setup (s.machine.counter :: path) := by
  refine follows_of_next fun running allowed => ?_
  cases allowed with
  | zero => exact List.nil_prefix
  | succ allowed =>
    rw [visitsFor, running, fetched]
    simp only [unobserved, Bool.false_eq_true, if_false]
    generalize s.step setup i = stepped at outcome ⊢
    cases outcome with
    | stop => exact List.cons_prefix_cons.mpr ⟨rfl, List.nil_prefix⟩
    | next next => exact List.cons_prefix_cons.mpr ⟨rfl, follows_of_next next allowed⟩

/-- A run that is allowed some steps, and can take them, executes as many instructions. -/
theorem Steps.le_length_visitsFor {n allowed : Nat} (steps : Steps setup n s s')
    (enough : n ≤ allowed) : n ≤ (visitsFor setup unobserved allowed s).length := by
  induction steps generalizing allowed with
  | refl => exact Nat.zero_le _
  | head running fetched stepped _ ih =>
    cases allowed with
    | zero => exact absurd enough (Nat.not_succ_le_zero _)
    | succ allowed =>
      rw [visitsFor, running, fetched]
      simp only [stepped, unobserved, Bool.false_eq_true, if_false]
      exact Nat.succ_le_succ (ih (Nat.le_of_succ_le_succ enough))

/-- A run of as many steps as its path is long goes through the whole path. -/
theorem Follows.visits_eq {n : Nat} {limit : Int} (follows : s.Follows setup path)
    (length : path.length = n) (steps : Steps setup n s s') (start : s.steps = 0)
    (enough : n ≤ limit) :
    (s.visits setup unobserved limit).map Visit.index = path := by
  apply (follows (s.allowance limit)).eq_of_length_le
  rw [List.length_map, length]
  obtain ⟨more, allowed⟩ := exists_allowance start enough
  exact steps.le_length_visitsFor (by omega)

end Session

/-- Runs from a place in the program follow a path, if `pre` holds there. -/
def FollowsAt (setup : Setup World) (place : Nat) (path : List Nat)
    (pre : Registers → Memory → Prop) : Prop :=
  ∀ s : Session World, s.machine.counter = place →
    pre s.machine.registers s.machine.memory → s.Follows setup path

theorem FollowsAt.goto {code : String × List Assembly.Operand} {target : Nat}
    (located : CodeAt setup.image place [line]) (isCode : line.code? = some code)
    (leads : LeadsTo setup line place target pre post) (next : FollowsAt setup target path post) :
    FollowsAt setup place (place :: path) pre := by
  rintro s rfl holds
  obtain ⟨i, fetched, same⟩ := located.exists_fetch isCode
  refine Session.follows_cons fetched ?_
  exact (leads s i same rfl holds).mono fun s' reached => next s' reached.1 reached.2

/-! ## Code without jumps -/

/-- Runs go through lines of code from the first instruction to the last, from registers and memory
where `pre` holds to such where `post` holds. -/
def Traverses (setup : Setup World) (lines : List Line) (pre post : Registers → Memory → Prop) :
    Prop :=
  ∀ place path, CodeAt setup.image place lines →
    FollowsAt setup (place + (codeOf lines).length) path post →
    FollowsAt setup place (List.range' place (codeOf lines).length ++ path) pre

theorem Leads.traverses {code : String × List Assembly.Operand} (leads : Leads setup line pre post)
    (isCode : line.code? = some code) : Traverses setup [line] pre post := by
  intro place path located next
  have single : codeOf [line] = [code] := by
    rw [codeOf, List.filterMap_cons_some isCode]
    rfl
  rw [single] at next ⊢
  exact .goto located isCode leads.leadsTo next

theorem traverses_remark (remark : line.code? = none) : Traverses setup [line] pre pre := by
  intro place path located next
  rwa [codeOf, List.filterMap_cons_none remark] at next ⊢

theorem Traverses.append (first : Traverses setup lines pre mid)
    (later : Traverses setup lines' mid post) : Traverses setup (lines ++ lines') pre post := by
  intro place path located next
  rw [codeOf_append, List.length_append] at next ⊢
  rw [← List.range'_append_1, List.append_assoc]
  rw [← Nat.add_assoc] at next
  exact first _ _ located.left (later _ _ located.right next)

/-! ## Programs -/

variable {layout : Layout} {once : Prop} {height height' : Nat}

theorem traverses_body (undisturbed : Undisturbed setup)
    (balances : Line.Balances layout.count 0 (· ≠ "_start") lines height height')
    (absent : one .call (.symbol "main") ∉ lines) :
    Traverses setup lines (Standing layout.floor once height)
      (Standing layout.floor once height') := by
  induction balances with
  | nil => exact fun _ _ _ next => next
  | @cons line lines h h₁ h₂ shifts _ ih =>
    obtain ⟨other, absent⟩ := not_or.mp (mt List.mem_cons.mpr absent)
    suffices first : Traverses setup [line] (Standing layout.floor once h)
        (Standing layout.floor once h₁) from first.append (ih absent)
    cases isCode : line.code? with
    | none =>
      obtain rfl := shifts.eq_of_code? isCode
      exact traverses_remark isCode
    | some code =>
      have hasCode : line.code? ≠ none := by
        rw [isCode]
        exact Option.some_ne_none code
      exact (leads_of_shifts layout.ground undisturbed shifts hasCode (Ne.symm other)).traverses
        isCode

theorem traverses_prologue :
    Traverses setup (prologueCode layout.count) (Entered once (frameBase + 8))
      (Standing layout.floor once 0) := by
  have based : Traverses setup [one .push rbp, two .mov rsp rbp] (Entered once (frameBase + 8))
      (Standing frameBase once 0) :=
    (leads_push_base.traverses rfl).append (leads_mov_base.traverses rfl)
  unfold prologueCode
  split
  · next empty => rwa [List.append_nil, layout.floor_of_empty empty]
  · exact based.append ((leads_lower_pointer layout.ground).traverses rfl)

theorem traverses_leave (undisturbed : Undisturbed setup) (freestanding : Bool) :
    Traverses setup (leaveCode freestanding) Level fun _ _ => False := by
  have move : Leads setup (two .mov eax (.register .rdi .double)) Level Level :=
    leads_compute rfl eax .double fun rs mem value level => level
  refine (move.traverses rfl).append ?_
  cases freestanding with
  | false =>
    have leaves := undisturbed.leaves "exit" (by decide) (by decide)
    have exits : Leads setup (one .call (.symbol "exit")) Level fun _ _ => False :=
      leads_call leaves (undisturbed.inert "exit") (fun rs mem level => level)
        fun stays => absurd rfl stays
    exact exits.traverses rfl
  | true =>
    have number : Leads setup (two .mov (.immediate exitSystemCall) eax) Level Level :=
      leads_compute rfl _ .double fun rs mem value level => level
    exact (number.traverses rfl).append (leads_syscall.traverses rfl)

/-- The order in which the instructions of a program are executed, if `main` is at an index. -/
def executionOrder (main total : Nat) : List Nat :=
  [0, 1] ++ (List.range' main (total - main) ++ List.range' 2 (main - 2))

theorem perm_executionOrder {main total : Nat} (entry : 2 ≤ main) (inside : main ≤ total) :
    (executionOrder main total).Perm (List.range total) := by
  have sorted : List.range total =
      [0, 1] ++ (List.range' 2 (main - 2) ++ List.range' main (total - main)) := by
    have places : main = 2 + (main - 2) := by omega
    have lengths : total = 2 + ((main - 2) + (total - main)) := by omega
    conv_lhs => rw [lengths, List.range_eq_range', ← List.range'_append_1, ← List.range'_append_1]
    rw [Nat.zero_add, ← places]
    rfl
  rw [sorted]
  exact List.perm_append_comm.append_left _

theorem two_le_length_entryCode {freestanding : Bool} :
    2 ≤ (codeOf (entryCode freestanding)).length := by
  cases freestanding <;> decide

/-- All of `main` is executed, and then the rest of the entry point. -/
theorem followsAt_main (undisturbed : Undisturbed setup) {body : List Line}
    (balances : Line.Balances layout.count 0 (· ≠ "_start") body 0 0)
    (absent : one .call (.symbol "main") ∉ body)
    (located : CodeAt setup.image place (prologueCode layout.count ++ body ++ epilogue))
    (rest : FollowsAt setup returnPlace.toNat path Level) :
    FollowsAt setup place (List.range' place
      (codeOf (prologueCode layout.count ++ body ++ epilogue)).length ++ path)
      (Entered True (frameBase + 8)) := by
  let upToReturn := prologueCode layout.count ++ body ++ [two .mov rbp rsp, one .pop rbp]
  have whole : prologueCode layout.count ++ body ++ epilogue =
      upToReturn ++ [.instruction ⟨.ret, []⟩] := append_epilogue _
  have restored : Traverses setup [two .mov rbp rsp, one .pop rbp] (Standing layout.floor True 0)
      (Entered True (frameBase + 8)) :=
    ((leads_mov_pointer trivial).traverses rfl).append (leads_pop_base.traverses rfl)
  have traverses : Traverses setup upToReturn (Entered True (frameBase + 8))
      (Entered True (frameBase + 8)) :=
    (traverses_prologue.append (traverses_body undisturbed balances absent)).append restored
  rw [whole] at located ⊢
  have returns := traverses _ _ located.left
    (.goto located.right rfl (leadsTo_ret_entry trivial) rest)
  rw [codeOf_append, List.length_append, ← List.range'_append_1, List.append_assoc]
  exact returns

/-- A program that does not call `main` is executed in one order, from its entry to its end. -/
theorem follows_fresh (undisturbed : Undisturbed setup) {freestanding : Bool} {body : List Line}
    (balances : Line.Balances layout.count 0 (· ≠ "_start") body 0 0)
    (absent : one .call (.symbol "main") ∉ body)
    (located : CodeAt setup.image 0
      (entryCode freestanding ++ (prologueCode layout.count ++ body ++ epilogue)))
    (labelled : setup.image.codeLabels.get? "main" = some (codeOf (entryCode freestanding)).length)
    (data : List UInt8) (world : World) :
    (Session.fresh data world).Follows setup
      (executionOrder (codeOf (entryCode freestanding)).length (codeOf (entryCode freestanding ++
        (prologueCode layout.count ++ body ++ epilogue))).length) := by
  have inMain := located.right
  have entry := located.left
  rw [Nat.zero_add] at inMain
  rw [entryCode_eq] at entry
  have leaveLength : (codeOf (entryCode freestanding)).length - 2 =
      (codeOf (leaveCode freestanding)).length := by
    cases freestanding <;> rfl
  have leaving : FollowsAt setup returnPlace.toNat
      (List.range' 2 (codeOf (leaveCode freestanding)).length) Level := by
    have ended := traverses_leave undisturbed freestanding _ [] entry.right
      fun _ _ impossible => impossible.elim
    rwa [List.append_nil] at ended
  have clear :
      Leads setup (two .xor (.register .rbp .double) (.register .rbp .double)) Fresh Fresh :=
    leads_compute rfl _ .double fun rs mem value fresh => fresh
  have started := FollowsAt.goto entry.left.left rfl clear.leadsTo
    (.goto entry.left.right rfl (leadsTo_call_main labelled)
      (followsAt_main undisturbed balances absent inMain leaving))
  rw [executionOrder, leaveLength, codeOf_append, List.length_append, Nat.add_sub_cancel_left]
  exact started _ rfl rfl

end Machine

end Reckon
