import Reckon.Proofs.Lexing.Writing
import Reckon.Token.Buffer

/-!
# The token buffer is a queue

A token buffer keeps a lexer, a slot for one token and a count, and looks ahead only when it has to.
Seen from outside it is simpler: a queue of all outcomes of the lexer that are no blanks, errors
among them. `Access.answer` is what such a queue answers; a token stays in front until it is taken,
an error leaves the queue when it is met, and an empty queue answers with the end of the input.

Main statement: whatever calls are made on a buffer and in whatever order, the answers are those of
the queue, and the count is the number of tokens that were taken
(`TokenBuffer.accessAll_eq_answers`).
-/

namespace Reckon

open Lexer (Outcome)

/-! ## The queue -/

/-- The outcome is a row of blanks. -/
def Lexer.Outcome.isBlank : Outcome → Bool
  | .token t => t.kind == .whitespace
  | .failure _ _ => false

/-- The outcomes that a lexer has still to give, blanks left out. -/
def Lexer.pending (l : Lexer) : List Outcome :=
  l.outcomes.filter fun o => !o.isBlank

/-- A call of a token buffer. -/
inductive Access where
  /-- Shows the next token. -/
  | peek
  /-- Takes the next token. -/
  | next
  deriving DecidableEq, Repr

namespace Access

/-- What a queue of outcomes answers to a call, and the queue after it. -/
def answer : Access → List Outcome → Except SourceError Token × List Outcome
  | _, [] => (.ok Token.eof, [])
  | peek, .token t :: queue => (.ok t, .token t :: queue)
  | next, .token t :: queue => (.ok t, queue)
  | _, .failure error _ :: queue => (.error error, queue)

/-- What a queue of outcomes answers to one call after another. -/
def answers (queue : List Outcome) : List Access → List (Except SourceError Token)
  | [] => []
  | a :: rest => (a.answer queue).1 :: answers (a.answer queue).2 rest

/-- The call was answered with a token that it takes, the end of the input apart. -/
def takes : Access → Except SourceError Token → Bool
  | next, .ok t => t.kind != .eof
  | _, _ => false

/-- How many of the calls took a token. -/
def taken (accesses : List Access) (answers : List (Except SourceError Token)) : Nat :=
  (accesses.zip answers).countP fun (a, answer) => a.takes answer

theorem taken_cons (a : Access) (rest : List Access) (answer : Except SourceError Token)
    (later : List (Except SourceError Token)) :
    taken (a :: rest) (answer :: later) = taken rest later + if a.takes answer then 1 else 0 := by
  rw [taken, List.zip_cons_cons, List.countP_cons, taken]

end Access

/-! ## What the lexer gives next -/

namespace Lexer

theorem pending_of_end {l : Lexer} (ended : l.next? = none) : l.pending = [] := by
  rw [pending, outcomes_of_end ended, List.filter_nil]

theorem pending_of_blank {l l' : Lexer} {o : Outcome} (called : l.next? = some (o, l'))
    (blank : o.isBlank = true) : l.pending = l'.pending := by
  rw [pending, outcomes_of_next? called, List.filter_cons_of_neg (by simp [blank]), pending]

theorem pending_of_next? {l l' : Lexer} {o : Outcome} (called : l.next? = some (o, l'))
    (solid : o.isBlank = false) : l.pending = o :: l'.pending := by
  rw [pending, outcomes_of_next? called, List.filter_cons_of_pos (by simp [solid]), pending]

/-- What a lexer gives when it is asked for an outcome that is no blank: the front of the outcomes
to come, or the end of the input. -/
inductive Pulls (l : Lexer) : Except SourceError Token × Lexer → Prop
  | ended {l' : Lexer} : l.pending = [] → l'.pending = [] → Pulls l (.ok Token.eof, l')
  | token {t : Token} {l' : Lexer} : l.pending = .token t :: l'.pending → Pulls l (.ok t, l')
  | failure {error : SourceError} {span : Span} {l' : Lexer} :
    l.pending = .failure error span :: l'.pending → Pulls l (.error error, l')

theorem Pulls.of_blank {l l' : Lexer} {given : Except SourceError Token × Lexer}
    (same : l.pending = l'.pending) (pulls : Pulls l' given) : Pulls l given := by
  cases pulls with
  | ended empty last => exact .ended (same.trans empty) last
  | token front => exact .token (same.trans front)
  | failure front => exact .failure (same.trans front)

theorem pulls (l : Lexer) : Pulls l l.pull := by
  fun_induction pull l with
  | case1 l ended =>
    have empty := pending_of_end ended
    exact .ended empty empty
  | case2 l t l' called blank ih =>
    exact ih.of_blank (pending_of_blank called (by simp [Outcome.isBlank, blank]))
  | case3 l t l' called solid =>
    exact .token (pending_of_next? called (by simp [Outcome.isBlank, solid]))
  | case4 l error span l' called => exact .failure (pending_of_next? called rfl)

end Lexer

/-! ## One call -/

namespace TokenBuffer

/-- A call of a buffer. -/
def access (b : TokenBuffer) : Access → Except SourceError Token × TokenBuffer
  | .peek => b.peek
  | .next => b.next

/-- One call after another: the answers, and the buffer after them. -/
def accessAll (b : TokenBuffer) : List Access → List (Except SourceError Token) × TokenBuffer
  | [] => ([], b)
  | a :: rest =>
    let (answer, after) := b.access a
    let (answers, last) := after.accessAll rest
    (answer :: answers, last)

/-- The buffer stands for a queue of outcomes: those the lexer has still to give, behind the token
in the slot. At the end of the input the slot may hold the token of the end, which is in no
queue. -/
inductive StandsFor (b : TokenBuffer) : List Outcome → Prop
  | empty : b.slot = none → StandsFor b b.lexer.pending
  | full {t : Token} : b.slot = some t → StandsFor b (.token t :: b.lexer.pending)
  | ended : b.slot = some Token.eof → b.lexer.pending = [] → StandsFor b []

/-- How a buffer that stands for a queue looks at the next token: it ends up with the token in its
slot, or without the error that it met. -/
inductive Peeks (b : TokenBuffer) : List Outcome → Except SourceError Token × TokenBuffer → Prop
  | token {t : Token} {after : TokenBuffer} : after.slot = some t → after.consumed = b.consumed →
    Peeks b (.token t :: after.lexer.pending) (.ok t, after)
  | ended {after : TokenBuffer} : after.slot = some Token.eof → after.lexer.pending = [] →
    after.consumed = b.consumed → Peeks b [] (.ok Token.eof, after)
  | failure {error : SourceError} {after : TokenBuffer} (span : Span) : after.slot = none →
    after.consumed = b.consumed →
    Peeks b (.failure error span :: after.lexer.pending) (.error error, after)

theorem peeks {b : TokenBuffer} {queue : List Outcome} (standsFor : b.StandsFor queue) :
    Peeks b queue b.peek := by
  cases standsFor with
  | @full t filled =>
    have shown : b.peek = (.ok t, b) := by rw [peek, filled]
    rw [shown]
    exact .token filled rfl
  | ended filled last =>
    have shown : b.peek = (.ok Token.eof, b) := by rw [peek, filled]
    rw [shown]
    exact .ended filled last rfl
  | empty free =>
    rw [peek, free]
    dsimp only
    have pulls := b.lexer.pulls
    generalize b.lexer.pull = given at pulls
    cases pulls with
    | @ended l front last =>
      rw [front]
      exact @Peeks.ended b ⟨l, some Token.eof, b.consumed⟩ rfl last rfl
    | @token t l front =>
      rw [front]
      exact @Peeks.token b t ⟨l, some t, b.consumed⟩ rfl rfl
    | @failure error span l front =>
      rw [front]
      exact @Peeks.failure b error ⟨l, none, b.consumed⟩ span rfl rfl

/-- What a call does to a buffer that stands for a queue: the answer is that of the queue, the
buffer stands for the queue after it, and a token that was taken is counted. -/
structure Serves (b : TokenBuffer) (queue : List Outcome) (a : Access) : Prop where
  answer : (b.access a).1 = (a.answer queue).1
  standsFor : (b.access a).2.StandsFor (a.answer queue).2
  consumed : (b.access a).2.consumed =
    b.consumed + if a.takes (a.answer queue).1 then 1 else 0

theorem serves_peek {b : TokenBuffer} {queue : List Outcome} (standsFor : b.StandsFor queue) :
    b.Serves queue .peek := by
  have peeks := peeks standsFor
  have called : b.access .peek = b.peek := rfl
  generalize b.peek = given at peeks called
  cases peeks with
  | token filled kept => exact ⟨congrArg _ called, called ▸ .full filled, called ▸ kept⟩
  | ended filled last kept => exact ⟨congrArg _ called, called ▸ .ended filled last, called ▸ kept⟩
  | failure span free kept => exact ⟨congrArg _ called, called ▸ .empty free, called ▸ kept⟩

theorem serves_next {b : TokenBuffer} {queue : List Outcome} (standsFor : b.StandsFor queue) :
    b.Serves queue .next := by
  have peeks := peeks standsFor
  have called : b.access .next = b.next := rfl
  unfold next at called
  generalize b.peek = given at peeks called
  cases peeks with
  | @token t after filled kept =>
    refine ⟨congrArg _ called, called ▸ .empty rfl, ?_⟩
    rw [called, ← kept]
    by_cases last : t.kind = .eof
    · simp [Access.answer, Access.takes, last]
    · simp [Access.answer, Access.takes, last]
  | ended filled last kept =>
    refine ⟨congrArg _ called, ?_, called ▸ kept⟩
    rw [called, Access.answer, ← last]
    exact .empty rfl
  | failure span free kept => exact ⟨congrArg _ called, called ▸ .empty free, called ▸ kept⟩

theorem serves {b : TokenBuffer} {queue : List Outcome} (standsFor : b.StandsFor queue) :
    ∀ a : Access, b.Serves queue a
  | .peek => serves_peek standsFor
  | .next => serves_next standsFor

/-! ## Any number of calls -/

theorem accessAll_of_standsFor {b : TokenBuffer} {queue : List Outcome}
    (standsFor : b.StandsFor queue) (accesses : List Access) :
    (b.accessAll accesses).1 = Access.answers queue accesses ∧
      (b.accessAll accesses).2.consumed =
        b.consumed + Access.taken accesses (Access.answers queue accesses) := by
  induction accesses generalizing b queue with
  | nil => exact ⟨rfl, rfl⟩
  | cons a rest ih =>
    obtain ⟨answer, after, consumed⟩ := serves standsFor a
    obtain ⟨answers, total⟩ := ih after
    rw [accessAll, Access.answers, Access.taken_cons]
    refine ⟨?_, ?_⟩
    · rw [← answer, ← answers]
    · exact total.trans (by rw [consumed]; omega)

/-- The token buffer is a faithful lookahead of one token. For every source text and every row of
calls of `peek` and `next`, the buffer answers as the queue of the lexer's outcomes without blanks
does, in which errors have their place, and it has counted the calls of `next` that were answered
with a token, the end of the input apart. -/
theorem accessAll_eq_answers (source : String) (accesses : List Access) :
    let queue := (Lexer.ofSource source).outcomes.filter fun o => !o.isBlank
    ((ofSource source).accessAll accesses).1 = Access.answers queue accesses ∧
      ((ofSource source).accessAll accesses).2.consumed =
        Access.taken accesses (Access.answers queue accesses) := by
  obtain ⟨answers, consumed⟩ := accessAll_of_standsFor (b := ofSource source) (.empty rfl) accesses
  exact ⟨answers, consumed.trans (Nat.zero_add _)⟩

/-- A look at a token that is taken afterwards, an error between two tokens that is met by looking
ahead, and two calls at the end. -/
example : ((ofSource "a ?1").accessAll [.peek, .next, .peek, .next, .next, .peek]) =
    ([.ok ⟨.identifier "a", ⟨0, 1⟩⟩, .ok ⟨.identifier "a", ⟨0, 1⟩⟩,
      .error (.compile ⟨.invalidCharacter "?", ⟨2, 3⟩⟩), .ok ⟨.number 1, ⟨3, 4⟩⟩, .ok Token.eof,
      .ok Token.eof], ⟨⟨[], 3, 4⟩, some Token.eof, 2⟩) := by
  cbv

end TokenBuffer

end Reckon
