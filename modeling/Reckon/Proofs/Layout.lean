import Reckon.Proofs.Displacement
import Reckon.Proofs.Parsing.Rows

/-!
# Layout does not matter

The blanks between tokens show in the spans and nowhere else. Two texts with the same tokens have
spans that stand for the same runs of tokens (`Token.Corresponding`), and this relation is kept by
the union of spans (`Token.compatible_corresponding`).

Main statement: texts that differ in blanks only are compiled to the same assembly text, or fail
with the same error on the same run of tokens (`Compilation.ofSource_layout`).
-/

namespace Reckon

namespace Token

/-- The spans stand for the same run of tokens in two rows, or both for the end of the input. -/
inductive Corresponding (ts us : List Token) : Span → Span → Prop
  | eof : Corresponding ts us .eof .eof
  | run {i j : Nat} {first last first' last' : Token} : i ≤ j →
    ts[i]? = some first → ts[j]? = some last → us[i]? = some first' → us[j]? = some last' →
    Corresponding ts us ⟨first.span.start, last.span.stop⟩ ⟨first'.span.start, last'.span.stop⟩

namespace Ordered

variable {ts : List Token} {i j : Nat} {t u : Token}

theorem start_nonneg (ordered : Ordered ts) (here : ts[i]? = some t) : 0 ≤ t.span.start :=
  (ordered.proper t (List.mem_of_getElem? here)).1

theorem le_of_le (ordered : Ordered ts) (here : ts[i]? = some t) (there : ts[j]? = some u)
    (le : i ≤ j) : t.span.start ≤ u.span.start ∧ t.span.stop ≤ u.span.stop := by
  rcases Nat.eq_or_lt_of_le le with rfl | lt
  · cases here.symm.trans there
    exact ⟨Int.le_refl _, Int.le_refl _⟩
  · obtain ⟨inside, rfl⟩ := List.getElem?_eq_some_iff.mp here
    obtain ⟨inside', rfl⟩ := List.getElem?_eq_some_iff.mp there
    have apart := List.pairwise_iff_getElem.mp ordered.apart i j inside inside' lt
    have proper := ordered.proper _ (List.getElem_mem inside)
    have proper' := ordered.proper _ (List.getElem_mem inside')
    omega

end Ordered

/-- Runs of tokens are put together by their first and their last token. -/
theorem union_of_runs {ts : List Token} (ordered : Ordered ts) {i j k l : Nat}
    {a b c d : Token} (first : ts[i]? = some a) (last : ts[j]? = some b) (first' : ts[k]? = some c)
    (last' : ts[l]? = some d) :
    (⟨a.span.start, b.span.stop⟩ : Span) + ⟨c.span.start, d.span.stop⟩ =
      ⟨if i ≤ k then a.span.start else c.span.start,
        if j ≤ l then d.span.stop else b.span.stop⟩ := by
  have nonneg := ordered.start_nonneg first
  have nonneg' := ordered.start_nonneg first'
  have starts : min a.span.start c.span.start =
      if i ≤ k then a.span.start else c.span.start := by
    split
    · next le => exact Int.min_eq_left (ordered.le_of_le first first' le).1
    · next gt => exact Int.min_eq_right (ordered.le_of_le first' first (Nat.le_of_not_le gt)).1
  have stops : max b.span.stop d.span.stop = if j ≤ l then d.span.stop else b.span.stop := by
    split
    · next le => exact Int.max_eq_right (ordered.le_of_le last last' le).2
    · next gt => exact Int.max_eq_left (ordered.le_of_le last' last (Nat.le_of_not_le gt)).2
  show Span.union _ _ = _
  rw [Span.union, if_neg (by simpa [Span.isEof] using nonneg),
    if_neg (by simpa [Span.isEof] using nonneg'), starts, stops]

theorem compatible_corresponding {ts us : List Token} (ordered : Ordered ts)
    (ordered' : Ordered us) : Span.Compatible (Corresponding ts us) := by
  intro a a' b b' left right
  cases left with
  | eof => exact right
  | run le first last first' last' =>
    cases right with
    | eof =>
      rw [Span.add_eof, Span.add_eof]
      · exact .run le first last first' last'
      · simpa [Span.isEof] using ordered'.start_nonneg first'
      · simpa [Span.isEof] using ordered.start_nonneg first
    | run le' second final second' final' =>
      rw [union_of_runs ordered first last second final,
        union_of_runs ordered' first' last' second' final']
      split
      · split
        · exact .run (by omega) first final first' final'
        · exact .run le first last first' last'
      · split
        · exact .run le' second final second' final'
        · exact .run (by omega) second last second' last'

/-- The same tokens at other places stand for themselves. -/
theorem displaced_corresponding {ts us : List Token}
    (same : ts.map Token.kind = us.map Token.kind) :
    List.Forall₂ (Token.Displaced (Corresponding ts us)) ts us := by
  have length : ts.length = us.length := by simpa using congrArg List.length same
  refine List.forall₂_iff_get.mpr ⟨length, fun i inside inside' => ?_⟩
  have kinds : (ts.map Token.kind)[i]? = (us.map Token.kind)[i]? := by rw [same]
  have here : ts[i]? = some (ts.get ⟨i, inside⟩) := List.getElem?_eq_getElem inside
  have here' : us[i]? = some (us.get ⟨i, inside'⟩) := List.getElem?_eq_getElem inside'
  rw [List.getElem?_map, List.getElem?_map, here, here'] at kinds
  exact ⟨Option.some.inj kinds, .run (Nat.le_refl i) here here here' here'⟩

end Token

namespace Compilation

open Lexer Token

/-- Compiled programs with the same assembly text, the same routines and as many tokens. -/
structure SameOutput (c c' : Compilation) : Prop extends SameCode c c' where
  tokenCount : c.tokenCount = c'.tokenCount

theorem tokenCount_eq {options : Code.Options} {source : String} {c : Compilation}
    (compiled : ofSource options source = .ok c) :
    c.tokenCount = (Parsing.ofSource source).consumed := by
  obtain ⟨parsed, generated, -⟩ := stages_of_ofSource compiled
  rw [ofSource_of_stages parsed generated] at compiled
  exact (congrArg tokenCount (Except.ok.inj compiled)).symm

/-- Layout does not matter. Take two texts without lexical errors whose tokens, blanks left out,
have the same kinds and values. Under any options, both are compiled to the same assembly text with
the same number of tokens and the same routines, or both fail with the same error, in the same
words; its spans are the same run of tokens in the two texts, or both the end of the input. -/
theorem ofSource_layout {source source' : String} (clean : failureOf? source = none)
    (clean' : failureOf? source' = none)
    (same : (tokensOf source).map Token.kind = (tokensOf source').map Token.kind)
    (options : Code.Options) :
    SourceError.Parallel (Corresponding (tokensOf source) (tokensOf source')) SameOutput
        (ofSource options source) (ofSource options source') ∧
      ∀ e e', ofSource options source = .error e → ofSource options source' = .error e' →
        e.message = e'.message := by
  have read : Parsing.Displaced (Corresponding (tokensOf source) (tokensOf source'))
      (Parsing.ofSource source) (Parsing.ofSource source') := by
    rw [Parsing.ofSource_eq, Parsing.ofSource_eq, clean, clean']
    exact Parsing.displaced_ofTokens
      (compatible_corresponding (ordered_tokensOf clean) (ordered_tokensOf clean')) .eof
      (displaced_corresponding same) Parser.State.displaced_initial
  have parallel := parallel_ofSource read.result options
  cases compiled : ofSource options source with
  | error e =>
    cases compiled' : ofSource options source' with
    | error e' =>
      rw [compiled, compiled'] at parallel
      cases parallel with
      | error displaced =>
        refine ⟨.error displaced, fun _ _ first second => ?_⟩
        cases first
        cases second
        exact displaced.message_eq
    | ok c' =>
      rw [compiled, compiled'] at parallel
      cases parallel
  | ok c =>
    cases compiled' : ofSource options source' with
    | error e' =>
      rw [compiled, compiled'] at parallel
      cases parallel
    | ok c' =>
      rw [compiled, compiled'] at parallel
      cases parallel with
      | ok sameCode =>
        have counted : c.tokenCount = c'.tokenCount := by
          rw [tokenCount_eq compiled, tokenCount_eq compiled', read.consumed]
        refine ⟨.ok ⟨sameCode, counted⟩, fun _ _ first => ?_⟩
        cases first

/-- A literal in parentheses that is no argument, written close and wide: the error is on the run of
three tokens in both texts. -/
theorem layout_of_literal_in_group :
    ofSource ⟨false, none⟩ "(\"a\");" = .error (.compile ⟨.expectedInteger, ⟨0, 5⟩⟩) ∧
      ofSource ⟨false, none⟩ " ( \"a\"\n) ;" = .error (.compile ⟨.expectedInteger, ⟨1, 8⟩⟩) ∧
      Corresponding (tokensOf "(\"a\");") (tokensOf " ( \"a\"\n) ;") ⟨0, 5⟩ ⟨1, 8⟩ := by
  have close : ofSource ⟨false, none⟩ "(\"a\");" =
      .error (.compile ⟨.expectedInteger, ⟨0, 5⟩⟩) := by cbv
  have wide : ofSource ⟨false, none⟩ " ( \"a\"\n) ;" =
      .error (.compile ⟨.expectedInteger, ⟨1, 8⟩⟩) := by cbv
  have parallel := (@ofSource_layout "(\"a\");" " ( \"a\"\n) ;" (by cbv) (by cbv) (by cbv)
    ⟨false, none⟩).1
  rw [close, wide] at parallel
  cases parallel with
  | error displaced =>
    cases displaced with
    | compile displaced => exact ⟨close, wide, displaced.span⟩

end Compilation

end Reckon
