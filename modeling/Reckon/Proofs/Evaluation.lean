import Mathlib
import Reckon.Assembly.StringData
import Reckon.Machine.Session
import Reckon.Proofs.Lowering

/-!
# What programs mean

A program is evaluated tree by tree over words of 64 bits. Variables hold 32 bits. Arithmetic works
on the low halves of its operands, a division by its own rules; an assignment stores a low half and
has the whole word as its value; a call passes words to an outside routine and has the returned word
as its value. An evaluation gives a word, or is stopped: by a call of `exit`, by a fault, or because
the tree has no meaning, as a string literal outside the arguments of a call.

What routines do is known from an `Answer`, which may leave open what becomes of some words. A call
with such words is not evaluated.

Routines are given six words, whatever the number of arguments that are written. Those not written
are what was left in their places by earlier calls and divisions, so that the places are part of the
state of an evaluation (`Store.registers`).
-/

namespace Reckon

open Machine (Call)

/-- A word of the machine. -/
abbrev Word := BitVec 64

/-- What stops an evaluation. -/
inductive Stop where
  /-- The program ended itself. -/
  | exit (word : Word)
  | fault (fault : Fault)
  /-- The tree has no meaning. -/
  | stuck
  /-- A routine was given words for which its answer is left open. -/
  | unanswered

/-- The state of an evaluation. -/
structure Store (World : Type) where
  /-- The variables by their index. -/
  slots : Nat → BitVec 32
  /-- The words in the six places for arguments. -/
  registers : List Word
  /-- What routines act on. -/
  world : World
  /-- The calls of outside routines, in order. -/
  calls : Array Call

/-- A computation on stores that may be stopped. -/
abbrev Evaluation (World α : Type) := ExceptT Stop (StateM (Store World)) α

/-- A routine as programs see it: what it makes of the world when it is given six words, and the
value it returns if it returns one; or nothing, where that is left open. -/
abbrev Answer (World : Type) := World → List Word → Option (World × Except Fault (Option Int))

/-- What the meaning of a tree depends on. -/
structure Environment (World : Type) where
  /-- The address of a string literal. -/
  address : String → Word
  /-- The routine with a name. -/
  answer? : String → Option (Answer World)

namespace Evaluation

variable {World : Type}

/-- The evaluation that raises a fault. -/
def raise {α : Type} (cause : Fault.Cause) : Evaluation World α :=
  throw (.fault (.raised cause none))

/-- Divides a number without sign by a number with sign, towards zero. The remainder is left in the
third place for arguments. -/
def divide (dividend divisor : BitVec 32) : Evaluation World Word :=
  let quotient := (dividend.toNat : Int).tdiv divisor.toInt
  let remainder := (dividend.toNat : Int).tmod divisor.toInt
  if divisor = 0 then raise .divisionByZero
  else if quotient < -0x80000000 ∨ 0x80000000 ≤ quotient then raise .quotientOverflow
  else do
    modify fun store =>
      { store with registers := store.registers.set 2 ((BitVec.ofInt 32 remainder).setWidth 64) }
    pure ((BitVec.ofInt 32 quotient).setWidth 64)

/-- Combines the values of two operands. -/
def operate : Operator → Word → Word → Evaluation World Word
  | .add, left, right => pure ((left.setWidth 32 + right.setWidth 32).setWidth 64)
  | .subtract, left, right => pure ((left.setWidth 32 - right.setWidth 32).setWidth 64)
  | .multiply, left, right => pure ((left.setWidth 32 * right.setWidth 32).setWidth 64)
  | .divide, left, right => divide (left.setWidth 32) (right.setWidth 32)
  | .assign, _, _ | .other _, _, _ => throw .stuck

/-- Stores the low half of a word in a variable; nothing else can be assigned to. -/
def assign : Expr → Word → Evaluation World Word
  | .var index _ _, word => do
    modify fun store =>
      { store with slots := Function.update store.slots index.toNat (word.setWidth 32) }
    pure word
  | _, _ => throw .stuck

/-- Passes six words to the routine with a name. -/
def perform (env : Environment World) (name : String) (passed : List Word) :
    Evaluation World Word :=
  if name = "exit" then throw (.exit (passed.headD 0))
  else
    match env.answer? name with
    | none => raise (.undefinedSymbol name)
    | some answer => do
      let store ← get
      match answer store.world passed with
      | none => throw .unanswered
      | some (world, result) =>
        let call : Call := ⟨name, passed.map fun word => (word.toNat : Int)⟩
        set { store with world, calls := store.calls.push call }
        match result with
        | .ok returned => pure (BitVec.ofInt 64 (returned.getD 0))
        | .error fault => throw (.fault fault)

/-- The places for arguments after a call with `count` of them: the first keeps what it was given,
the others get back what they held before the arguments were evaluated. -/
def restored (count : Nat) (saved passed : List Word) : List Word :=
  passed.take 1 ++ (saved.take count).drop 1 ++ passed.drop (max 1 count)

mutual

/-- Evaluates an expression. -/
def ofExpr (env : Environment World) : Expr → Evaluation World Word
  | .number value _ => pure (BitVec.ofInt 64 value)
  | .var index _ _ => return ((← get).slots index.toNat).setWidth 64
  | .binary .assign _ target right _ => do
    let word ← ofExpr env right
    assign target word
  | .binary operator _ left right _ => do
    let leftWord ← ofExpr env left
    let rightWord ← ofExpr env right
    operate operator leftWord rightWord
  | .call name arguments _ => do
    let saved := (← get).registers
    let words ← ofArguments env arguments
    let passed := words ++ (← get).registers.drop words.length
    let word ← perform env name passed
    modify fun store => { store with registers := restored words.length saved passed }
    pure word
  | .string .. | .hole .. | .block .. => throw .stuck

/-- Evaluates arguments from left to right; a string literal is its address. -/
def ofArguments (env : Environment World) : List Expr → Evaluation World (List Word)
  | [] => pure []
  | .string raw _ :: rest => do
    let words ← ofArguments env rest
    pure (env.address raw :: words)
  | argument :: rest => do
    let word ← ofExpr env argument
    let words ← ofArguments env rest
    pure (word :: words)

end

/-- Evaluates statements in order; the value is that of the last one. -/
def ofStatements (env : Environment World) (last : Word) : List Expr → Evaluation World Word
  | [] => pure last
  | statement :: rest => do
    let word ← ofExpr env statement
    ofStatements env word rest

end Evaluation

/-- The store before a program: all variables and places for arguments are zero. -/
def Store.initial {World : Type} (world : World) : Store World :=
  ⟨fun _ => 0, List.replicate 6 0, world, #[]⟩

namespace Code

/-- The bytes of a string literal in memory. -/
def literalBytes (raw : String) : List UInt8 :=
  match Assembly.stringBytes (escapeControls raw.toList) with
  | .ok bytes => bytes
  | .error _ => []

/-- The data of string literals, each followed by a zero. -/
def literalData (literals : List String) : List UInt8 :=
  literals.flatMap fun raw => literalBytes raw ++ [0]

end Code

namespace Program

/-- The data of a program: its pool of string literals. -/
def data (program : Program) : List UInt8 :=
  Code.literalData (Code.pool program.statements)

/-- The address of a string literal, after those before it in the pool. -/
def address (program : Program) (raw : String) : Nat :=
  let pool := Code.pool program.statements
  Assembly.dataBase + (Code.literalData (pool.take (pool.idxOf raw))).length

variable {World : Type}

/-- What the meaning of the trees of a program depends on. -/
def environment (program : Program) (answer? : String → Option (Answer World)) :
    Environment World :=
  ⟨fun raw => BitVec.ofNat 64 (program.address raw), answer?⟩

/-- Evaluates a program, with routines for the names it calls. The value of a program without
statements is zero. -/
def evaluate (program : Program) (answer? : String → Option (Answer World)) (world : World) :
    Except Stop Word × Store World :=
  (Evaluation.ofStatements (program.environment answer?) 0 program.statements).run (.initial world)

end Program

end Reckon
