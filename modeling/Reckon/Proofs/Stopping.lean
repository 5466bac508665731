import Reckon.Proofs.Callees
import Reckon.Proofs.Expressions

/-!
# What stops an evaluation

An evaluation is stopped by one of its calls, or by itself: by a division, or because a tree has no
meaning (`Stop.Own`). So whatever is known of how calls come out is known of whole programs
(`Evaluation.tame_ofStatements`). In particular an evaluation whose routines have answers for all
words never meets a call whose answer is left open (`Program.evaluate_ne_unanswered`).
-/

namespace Reckon

open Code

/-- What stops an evaluation that makes no calls. -/
inductive Stop.Own : Stop → Prop
  | divisionByZero : Own (.fault (.raised .divisionByZero none))
  | quotientOverflow : Own (.fault (.raised .quotientOverflow none))
  | stuck : Own .stuck

/-- The answer says what becomes of any words. -/
def Answer.Total {World : Type} (answer : Answer World) : Prop :=
  ∀ world words, answer world words ≠ none

namespace Evaluation

open Machine (run_bind run_perform ofExpr_binary ofArguments_cons)

variable {World α β : Type} {allowed : Stop → Prop}

/-- Nothing but what is allowed stops the evaluation. -/
def Tame (allowed : Stop → Prop) (evaluation : Evaluation World α) : Prop :=
  ∀ store stop store', evaluation.run store = (.error stop, store') → allowed stop

theorem tame_pure (a : α) : Tame allowed (pure a : Evaluation World α) :=
  fun _ _ _ stopped => by cases stopped

theorem tame_get : Tame allowed (get : Evaluation World (Store World)) :=
  fun _ _ _ stopped => by cases stopped

theorem tame_modify (f : Store World → Store World) :
    Tame allowed (modify f : Evaluation World PUnit) :=
  fun _ _ _ stopped => by cases stopped

theorem tame_throw {stop : Stop} (isAllowed : allowed stop) :
    Tame allowed (throw stop : Evaluation World α) := by
  intro store stop' store' stopped
  cases stopped
  exact isAllowed

theorem Tame.bind {evaluation : Evaluation World α} {next : α → Evaluation World β}
    (first : Tame allowed evaluation) (later : ∀ a, Tame allowed (next a)) :
    Tame allowed (evaluation >>= next) := by
  intro store stop store' stopped
  rw [run_bind] at stopped
  cases ran : evaluation.run store with
  | mk result between =>
    rw [ran] at stopped
    cases result with
    | ok a => exact later a between stop store' stopped
    | error =>
      cases stopped
      exact first _ _ _ ran

theorem tame_operate (own : ∀ stop, Stop.Own stop → allowed stop) (operator : Operator)
    (left right : Word) : Tame allowed (operate operator left right : Evaluation World Word) := by
  cases operator with
  | add | subtract | multiply => exact tame_pure _
  | assign | other => exact tame_throw (own _ .stuck)
  | divide =>
    unfold operate divide
    dsimp only
    split
    · exact tame_throw (own _ .divisionByZero)
    · split
      · exact tame_throw (own _ .quotientOverflow)
      · exact (tame_modify _).bind fun _ => tame_pure _

theorem tame_assign (own : ∀ stop, Stop.Own stop → allowed stop) (target : Expr) (word : Word) :
    Tame allowed (assign target word : Evaluation World Word) := by
  cases target with
  | var => exact (tame_modify _).bind fun _ => tame_pure _
  | number | string | binary | call | hole | block => exact tame_throw (own _ .stuck)

variable {env : Environment World}

mutual

/-- An expression is stopped by itself or by its calls. -/
theorem tame_ofExpr (own : ∀ stop, Stop.Own stop → allowed stop) : ∀ e : Expr,
    (∀ name ∈ callees e, ∀ passed, Tame allowed (perform env name passed)) →
      Tame allowed (ofExpr env e)
  | .number .., _ => tame_pure _
  | .string .., _ => tame_throw (own _ .stuck)
  | .var .., _ => tame_get.bind fun _ => tame_pure _
  | .binary operator _ left right _, calls => by
    by_cases assigns : operator = .assign
    · subst assigns
      rw [callees] at calls
      rw [ofExpr]
      exact (tame_ofExpr own right calls).bind (tame_assign own left)
    · rw [callees_binary assigns, List.forall_mem_append] at calls
      rw [ofExpr_binary assigns]
      exact (tame_ofExpr own left calls.1).bind fun leftWord =>
        (tame_ofExpr own right calls.2).bind fun rightWord =>
          tame_operate own operator leftWord rightWord
  | .call name arguments _, calls => by
    rw [callees, List.forall_mem_append] at calls
    rw [ofExpr]
    refine tame_get.bind fun store => ?_
    refine (tame_ofArguments own arguments calls.1).bind fun words => ?_
    refine tame_get.bind fun store' => ?_
    refine (calls.2 name List.mem_cons_self _).bind fun word => ?_
    exact (tame_modify _).bind fun _ => tame_pure _
  | .hole _, _ => tame_throw (own _ .stuck)
  | .block _, _ => tame_throw (own _ .stuck)

theorem tame_ofArguments (own : ∀ stop, Stop.Own stop → allowed stop) : ∀ arguments : List Expr,
    (∀ name ∈ argumentCallees arguments, ∀ passed, Tame allowed (perform env name passed)) →
      Tame allowed (ofArguments env arguments)
  | [], _ => tame_pure _
  | argument :: rest, calls => by
    rw [argumentCallees, List.forall_mem_append] at calls
    by_cases literal : ∃ raw span, argument = .string raw span
    · obtain ⟨raw, span, rfl⟩ := literal
      rw [ofArguments]
      exact (tame_ofArguments own rest calls.2).bind fun words => tame_pure _
    · rw [ofArguments_cons fun raw span same => literal ⟨raw, span, same⟩]
      exact (tame_ofExpr own argument calls.1).bind fun word =>
        (tame_ofArguments own rest calls.2).bind fun words => tame_pure _

end

theorem tame_ofStatements {statements : List Expr}
    (own : ∀ stop, Stop.Own stop → allowed stop)
    (calls : ∀ name ∈ statements.flatMap callees, ∀ passed, Tame allowed (perform env name passed))
    (last : Word) : Tame allowed (ofStatements env last statements) := by
  induction statements generalizing last with
  | nil => exact tame_pure _
  | cons statement rest ih =>
    rw [List.flatMap_cons, List.forall_mem_append] at calls
    rw [ofStatements]
    exact (tame_ofExpr own statement calls.1).bind fun word => ih calls.2 word

theorem tame_perform_of_total {env : Environment World} {name : String}
    (total : ∀ answer, env.answer? name = some answer → answer.Total) (passed : List Word) :
    Tame (· ≠ .unanswered) (perform env name passed) := by
  by_cases exits : name = "exit"
  · rw [perform, if_pos exits]
    exact tame_throw fun same => by cases same
  cases named : env.answer? name with
  | none =>
    rw [perform, if_neg exits, named]
    exact tame_throw fun same => by cases same
  | some answer =>
    intro store stop store' stopped
    rw [run_perform exits named] at stopped
    cases known : answer store.world passed with
    | none => exact absurd known (total answer named _ _)
    | some answered =>
      obtain ⟨world, fault | returned⟩ := answered
      · rw [known] at stopped
        cases stopped
        exact fun same => by cases same
      · rw [known] at stopped
        cases stopped

end Evaluation

/-- With answers for all words, no answer is left open. -/
theorem Program.evaluate_ne_unanswered {World : Type} {answer? : String → Option (Answer World)}
    (total : ∀ name answer, answer? name = some answer → answer.Total) (program : Program)
    (world : World) : (program.evaluate answer? world).1 ≠ .error .unanswered := by
  intro stopped
  have own : ∀ stop, Stop.Own stop → stop ≠ .unanswered := by
    rintro _ ⟨⟩ same
    all_goals cases same
  have tame : Evaluation.Tame (· ≠ .unanswered)
      (Evaluation.ofStatements (program.environment answer?) 0 program.statements) :=
    Evaluation.tame_ofStatements own
      (fun name _ passed => Evaluation.tame_perform_of_total (total name) passed) 0
  exact tame _ _ _ (Prod.ext stopped rfl) rfl

end Reckon
