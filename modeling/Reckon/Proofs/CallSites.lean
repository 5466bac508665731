import Reckon.Proofs.Callees
import Reckon.Proofs.Expressions

/-!
# Calls and where they are written

`Code.callSites` lists the calls that are written in a tree, in the order of evaluation. The calls
that an evaluation makes are made there, one after the other: all of them if the evaluation gives a
value, and those up to some place if it is stopped (`Evaluation.makes_ofStatements`). A call has the
name that is written, and passes the address of each string literal in the place of the literal
(`CallSite.Made`); what it passes for other arguments, and what the routines answer, is left open.
-/

namespace Reckon

open Machine (Call)

/-- A call as it is written. -/
structure CallSite where
  name : String
  arguments : List Expr

/-- A call is made where it is written: it has the name, and passes the addresses of literals. -/
structure CallSite.Made (address : String → Word) (site : CallSite) (call : Call) : Prop where
  name : call.name = site.name
  literal : ∀ (k : Nat) (raw : String) (span : Span),
    site.arguments[k]? = some (.string raw span) →
      call.arguments[k]? = some ((address raw).toNat : Int)

/-- The program ends itself where the call of `exit` is written. -/
structure CallSite.Left (address : String → Word) (site : CallSite) (word : Word) : Prop where
  name : site.name = "exit"
  literal : ∀ (raw : String) (span : Span),
    site.arguments[0]? = some (.string raw span) → word = address raw

namespace Code

mutual

/-- The calls written in an expression, in the order of evaluation. -/
def callSites : Expr → List CallSite
  | .binary .assign _ _ right _ => callSites right
  | .binary _ _ left right _ => callSites left ++ callSites right
  | .call name arguments _ => argumentSites arguments ++ [⟨name, arguments⟩]
  | .number .. | .string .. | .var .. | .hole .. | .block .. => []

/-- The calls written in arguments. -/
def argumentSites : List Expr → List CallSite
  | [] => []
  | argument :: rest => callSites argument ++ argumentSites rest

end

theorem callSites_binary {operator : Operator} {left right : Expr} {operatorSpan span : Span}
    (arithmetic : operator ≠ .assign) :
    callSites (.binary operator operatorSpan left right span) =
      callSites left ++ callSites right := by
  rw [callSites]
  exact arithmetic

mutual

/-- The calls written in an expression are of the routines that it calls. -/
theorem map_name_callSites : ∀ e : Expr, (callSites e).map CallSite.name = callees e
  | .number .. | .string .. | .var .. | .hole .. | .block .. => by rw [callSites, callees]; rfl
  | .binary operator _ left right _ => by
    by_cases assigns : operator = .assign
    · subst assigns
      rw [callSites, callees]
      exact map_name_callSites right
    · rw [callSites_binary assigns, callees_binary assigns, List.map_append,
        map_name_callSites left, map_name_callSites right]
  | .call name arguments _ => by
    rw [callSites, callees, List.map_append, map_name_argumentSites arguments]
    rfl

theorem map_name_argumentSites :
    ∀ arguments : List Expr, (argumentSites arguments).map CallSite.name = argumentCallees arguments
  | [] => rfl
  | argument :: rest => by
    rw [argumentSites, argumentCallees, List.map_append, map_name_callSites argument,
      map_name_argumentSites rest]

end

theorem mem_argumentLiterals {raw : String} {span : Span} {arguments : List Expr}
    (written : .string raw span ∈ arguments) : raw ∈ argumentLiterals arguments := by
  induction arguments with
  | nil => cases written
  | cons argument rest ih =>
    by_cases literal : ∃ raw span, argument = .string raw span
    · obtain ⟨other, place, rfl⟩ := literal
      rw [argumentLiterals]
      rcases List.mem_cons.mp written with same | later
      · cases same
        exact List.mem_cons_self
      · exact List.mem_cons_of_mem _ (ih later)
    · rw [argumentLiterals_cons fun raw span same => literal ⟨raw, span, same⟩]
      rcases List.mem_cons.mp written with rfl | later
      · exact absurd ⟨raw, span, rfl⟩ literal
      · exact List.mem_append_right _ (ih later)

mutual

/-- The literals in the calls of an expression are its literals. -/
theorem mem_literals_of_callSites {raw : String} {span : Span} {site : CallSite}
    (written : .string raw span ∈ site.arguments) :
    ∀ e : Expr, site ∈ callSites e → raw ∈ literals e
  | .number .., inside | .string .., inside | .var .., inside | .hole .., inside
  | .block .., inside => by
    rw [callSites] at inside
    cases inside
  | .binary operator _ left right _, inside => by
    by_cases assigns : operator = .assign
    · subst assigns
      rw [callSites] at inside
      rw [literals]
      exact mem_literals_of_callSites written right inside
    · rw [callSites_binary assigns] at inside
      rw [literals_binary assigns]
      rcases List.mem_append.mp inside with first | second
      · exact List.mem_append_left _ (mem_literals_of_callSites written left first)
      · exact List.mem_append_right _ (mem_literals_of_callSites written right second)
  | .call name arguments _, inside => by
    rw [callSites] at inside
    rw [literals]
    rcases List.mem_append.mp inside with deeper | here
    · exact mem_argumentLiterals_of_argumentSites written arguments deeper
    · cases List.mem_singleton.mp here
      exact mem_argumentLiterals written

theorem mem_argumentLiterals_of_argumentSites {raw : String} {span : Span} {site : CallSite}
    (written : .string raw span ∈ site.arguments) :
    ∀ arguments : List Expr, site ∈ argumentSites arguments → raw ∈ argumentLiterals arguments
  | [], inside => by
    rw [argumentSites] at inside
    cases inside
  | argument :: rest, inside => by
    rw [argumentSites] at inside
    by_cases literal : ∃ raw span, argument = .string raw span
    · obtain ⟨other, place, rfl⟩ := literal
      rw [callSites, List.nil_append] at inside
      rw [argumentLiterals]
      exact List.mem_cons_of_mem _ (mem_argumentLiterals_of_argumentSites written rest inside)
    · rw [argumentLiterals_cons fun raw span same => literal ⟨raw, span, same⟩]
      rcases List.mem_append.mp inside with first | later
      · exact List.mem_append_left _ (mem_literals_of_callSites written argument first)
      · exact List.mem_append_right _ (mem_argumentLiterals_of_argumentSites written rest later)

end

end Code

namespace Evaluation

open Code
open Machine (run_bind run_perform ofExpr_binary ofArguments_cons)

variable {World α β : Type} {env : Environment World} {sites sites' : List CallSite}
  {keeps : World → Prop}

/-- How an evaluation that makes calls at sites has come out: with a value after all the calls, or
stopped after the calls before some site. -/
inductive Progress (address : String → Word) (post : α → Prop) (sites : List CallSite)
    (made : List Call) : Except Stop α → Prop
  | complete {a : α} : post a → List.Forall₂ (CallSite.Made address) sites made →
    Progress address post sites made (.ok a)
  | stopped {stop : Stop} {before after : List CallSite} : sites = before ++ after →
    List.Forall₂ (CallSite.Made address) before made →
    (∀ word, stop = .exit word → ∃ site rest, after = site :: rest ∧ site.Left address word) →
    Progress address post sites made (.error stop)

/-- The evaluation makes calls at the sites, in order. If it is not stopped, its value is as
described. What is kept by the world stays so. -/
def Makes (env : Environment World) (keeps : World → Prop) (sites : List CallSite)
    (post : α → Prop) (evaluation : Evaluation World α) : Prop :=
  ∀ store result store', evaluation.run store = (result, store') → keeps store.world →
    keeps store'.world ∧ ∃ made, store'.calls.toList = store.calls.toList ++ made ∧
      Progress env.address post sites made result

theorem makes_of_run {evaluation : Evaluation World α} {post : α → Prop}
    (ran : ∀ store, ∃ a store', evaluation.run store = (.ok a, store') ∧
      store'.world = store.world ∧ store'.calls = store.calls ∧ post a) :
    Makes env keeps [] post evaluation := by
  intro store result store' same kept
  obtain ⟨a, store'', ran, world, calls, holds⟩ := ran store
  cases ran.symm.trans same
  exact ⟨world ▸ kept, [], by rw [calls, List.append_nil], .complete holds .nil⟩

theorem makes_pure {post : α → Prop} {a : α} (holds : post a) :
    Makes env keeps [] post (pure a) :=
  makes_of_run fun store => ⟨a, store, rfl, rfl, rfl, holds⟩

theorem makes_get : Makes env keeps [] (fun _ => True) (get : Evaluation World (Store World)) :=
  makes_of_run fun store => ⟨store, store, rfl, rfl, rfl, trivial⟩

/-- A value after a change of variables or places for arguments. -/
theorem makes_update {f : Store World → Store World} {a : α}
    (quiet : ∀ store, (f store).world = store.world ∧ (f store).calls = store.calls) :
    Makes env keeps [] (fun _ => True) (do modify f; pure a : Evaluation World α) :=
  makes_of_run fun store => ⟨a, f store, rfl, (quiet store).1, (quiet store).2, trivial⟩

theorem makes_throw {stop : Stop} {post : α → Prop} (stays : ∀ word, stop ≠ .exit word) :
    Makes env keeps sites post (throw stop : Evaluation World α) := by
  intro store result store' ran kept
  cases ran
  exact ⟨kept, [], (List.append_nil _).symm,
    .stopped (List.nil_append _).symm .nil fun word same => absurd same (stays word)⟩

/-- Calls are made at the sites of one evaluation and then at those of the next. -/
theorem Makes.bind {evaluation : Evaluation World α} {next : α → Evaluation World β}
    {post : α → Prop} {last : β → Prop} (first : Makes env keeps sites post evaluation)
    (later : ∀ a, post a → Makes env keeps sites' last (next a)) :
    Makes env keeps (sites ++ sites') last (evaluation >>= next) := by
  intro store result store' ran kept
  rw [run_bind] at ran
  cases done : evaluation.run store with
  | mk outcome between =>
    rw [done] at ran
    obtain ⟨keptBetween, made, calls, progress⟩ := first _ _ _ done kept
    cases progress with
    | complete holds all =>
      obtain ⟨kept', made', calls', progress'⟩ := later _ holds _ _ _ ran keptBetween
      refine ⟨kept', made ++ made', by rw [calls', calls, List.append_assoc], ?_⟩
      cases progress' with
      | complete holds' all' => exact .complete holds' (List.rel_append all all')
      | stopped split part exits =>
        exact .stopped (by rw [split, List.append_assoc]) (List.rel_append all part) exits
    | stopped split part exits =>
      -- What comes after is not evaluated, and its sites are among those that are left.
      cases ran
      refine ⟨keptBetween, made, calls, .stopped (by rw [split, List.append_assoc]) part ?_⟩
      intro word same
      obtain ⟨site, rest, begins, left⟩ := exits word same
      exact ⟨site, rest ++ sites', by rw [begins, List.cons_append], left⟩

/-- An evaluation that makes calls, after one that makes none. -/
theorem Makes.after {evaluation : Evaluation World α} {next : α → Evaluation World β}
    {post : α → Prop} {last : β → Prop} (first : Makes env keeps [] post evaluation)
    (later : ∀ a, post a → Makes env keeps sites last (next a)) :
    Makes env keeps sites last (evaluation >>= next) :=
  first.bind later

/-- An evaluation that makes calls, before one that makes none. -/
theorem Makes.before {evaluation : Evaluation World α} {next : α → Evaluation World β}
    {post : α → Prop} {last : β → Prop} (first : Makes env keeps sites post evaluation)
    (later : ∀ a, post a → Makes env keeps [] last (next a)) :
    Makes env keeps sites last (evaluation >>= next) :=
  List.append_nil sites ▸ first.bind later

theorem makes_operate (operator : Operator) (left right : Word) :
    Makes env keeps [] (fun _ => True) (operate operator left right) := by
  cases operator with
  | add | subtract | multiply => exact makes_pure trivial
  | assign | other => exact makes_throw fun word same => by cases same
  | divide =>
    unfold operate divide raise
    dsimp only
    split
    · exact makes_throw fun word same => by cases same
    · split
      · exact makes_throw fun word same => by cases same
      · exact makes_update fun store => ⟨rfl, rfl⟩

theorem makes_assign (target : Expr) (word : Word) :
    Makes env keeps [] (fun _ => True) (assign target word) := by
  cases target with
  | var => exact makes_update fun store => ⟨rfl, rfl⟩
  | number | string | binary | call | hole | block =>
    exact makes_throw fun word same => by cases same

/-- No answer changes what the world keeps. -/
def Keeping (env : Environment World) (keeps : World → Prop) : Prop :=
  ∀ name answer, env.answer? name = some answer →
    ∀ world words answered, answer world words = some answered → keeps world → keeps answered.1

/-- The words have the addresses of literals in the places of the literals. -/
def Places (env : Environment World) (arguments : List Expr) (words : List Word) : Prop :=
  ∀ (k : Nat) (raw : String) (span : Span),
    arguments[k]? = some (.string raw span) → words[k]? = some (env.address raw)

theorem Places.cons {argument : Expr} {arguments : List Expr} {word : Word} {words : List Word}
    (first : ∀ raw span, argument = .string raw span → word = env.address raw)
    (later : Places env arguments words) :
    Places env (argument :: arguments) (word :: words) := by
  intro k raw span found
  cases k with
  | zero => exact congrArg some (first raw span (Option.some.inj found))
  | succ k => exact later k raw span found

theorem Places.append {arguments : List Expr} {words : List Word}
    (places : Places env arguments words) (more : List Word) :
    Places env arguments (words ++ more) := by
  intro k raw span found
  have placed := places k raw span found
  rw [List.getElem?_append_left (List.getElem?_eq_some_iff.mp placed).1]
  exact placed

theorem makes_perform (keeping : Keeping env keeps) (name : String) {arguments : List Expr}
    {passed : List Word} (places : Places env arguments passed) :
    Makes env keeps [⟨name, arguments⟩] (fun _ => True) (perform env name passed) := by
  intro store result store' ran kept
  by_cases leaves : name = "exit"
  · subst leaves
    rw [perform, if_pos rfl] at ran
    cases ran
    refine ⟨kept, [], (List.append_nil _).symm, .stopped (List.nil_append _).symm .nil ?_⟩
    intro word same
    refine ⟨_, [], rfl, rfl, fun raw span found => ?_⟩
    cases same
    rw [List.headD_eq_head?_getD, List.head?_eq_getElem?, places 0 raw span found]
    rfl
  · cases answered : env.answer? name with
    | none =>
      rw [perform, if_neg leaves, answered] at ran
      cases ran
      exact ⟨kept, [], (List.append_nil _).symm,
        .stopped (List.nil_append _).symm .nil fun word same => by cases same⟩
    | some answer =>
      have made : CallSite.Made env.address ⟨name, arguments⟩
          ⟨name, passed.map fun word => (word.toNat : Int)⟩ := by
        refine ⟨rfl, fun k raw span found => ?_⟩
        rw [List.getElem?_map, places k raw span found]
        rfl
      rw [run_perform leaves answered] at ran
      cases known : answer store.world passed with
      | none =>
        rw [known] at ran
        cases ran
        exact ⟨kept, [], (List.append_nil _).symm,
          .stopped (List.nil_append _).symm .nil fun word same => by cases same⟩
      | some outcome =>
        have kept' := keeping name answer answered store.world passed outcome known kept
        rw [known] at ran
        obtain ⟨world, fault | value⟩ := outcome
        · cases ran
          exact ⟨kept', [_], Array.toList_push, .stopped (List.append_nil _).symm (.cons made .nil)
            fun word same => by cases same⟩
        · cases ran
          exact ⟨kept', [_], Array.toList_push, .complete trivial (.cons made .nil)⟩

mutual

/-- An expression makes the calls that are written in it. -/
theorem makes_ofExpr (keeping : Keeping env keeps) :
    ∀ e : Expr, Makes env keeps (callSites e) (fun _ => True) (ofExpr env e)
  | .number .. => makes_pure trivial
  | .string .. => makes_throw fun word same => by cases same
  | .var .. => makes_get.after fun _ _ => makes_pure trivial
  | .binary operator _ left right _ => by
    by_cases assigns : operator = .assign
    · subst assigns
      rw [callSites, ofExpr]
      exact (makes_ofExpr keeping right).before fun word _ => makes_assign left word
    · rw [callSites_binary assigns, ofExpr_binary assigns]
      exact (makes_ofExpr keeping left).bind fun leftWord _ =>
        (makes_ofExpr keeping right).before fun rightWord _ =>
          makes_operate operator leftWord rightWord
  | .call name arguments _ => by
    rw [callSites, ofExpr]
    refine makes_get.after fun store _ => ?_
    refine (makes_ofArguments keeping arguments).bind fun words places => ?_
    refine makes_get.after fun store' _ => ?_
    refine (makes_perform keeping name (places.append _)).before fun word _ => ?_
    exact makes_update fun store => ⟨rfl, rfl⟩
  | .hole _ => makes_throw fun word same => by cases same
  | .block _ => makes_throw fun word same => by cases same

/-- Arguments make the calls that are written in them, and literals have their addresses. -/
theorem makes_ofArguments (keeping : Keeping env keeps) :
    ∀ arguments : List Expr,
      Makes env keeps (argumentSites arguments) (Places env arguments) (ofArguments env arguments)
  | [] => makes_pure fun k raw span found => by cases found
  | argument :: rest => by
    by_cases literal : ∃ raw span, argument = .string raw span
    · obtain ⟨raw, span, rfl⟩ := literal
      rw [argumentSites, callSites, ofArguments]
      refine (makes_ofArguments keeping rest).before fun words places => makes_pure ?_
      exact places.cons fun raw' span' same => by cases same; rfl
    · rw [argumentSites, ofArguments_cons fun raw span same => literal ⟨raw, span, same⟩]
      refine (makes_ofExpr keeping argument).bind fun word _ => ?_
      refine (makes_ofArguments keeping rest).before fun words places => makes_pure ?_
      exact places.cons fun raw span same => absurd ⟨raw, span, same⟩ literal

end

/-- Statements make the calls that are written in them. -/
theorem makes_ofStatements (keeping : Keeping env keeps) (statements : List Expr) (last : Word) :
    Makes env keeps (statements.flatMap callSites) (fun _ => True)
      (ofStatements env last statements) := by
  induction statements generalizing last with
  | nil => exact makes_pure trivial
  | cons statement rest ih =>
    rw [List.flatMap_cons, ofStatements]
    exact (makes_ofExpr keeping statement).bind fun word _ => ih word

end Evaluation

end Reckon
