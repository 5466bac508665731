import Reckon.Machine.Console
import Reckon.Proofs.Machine.Calls

/-!
# What console routines answer

`putchar` looks at nothing but its argument. `puts` looks at the memory, and what it finds there may
be anything: the text at an address is part of the program only if the address and the zero that
ends the text lie in the data of the program (`textIn?`). For such an address `puts` has an answer,
for other addresses the answer is left open.

Main statement: the routines of a console do what these answers say (`serves_console`).
-/

namespace Reckon.Machine

variable {World : Type} {m : Memory}

/-! ## Texts in the data of a program -/

namespace Memory

theorem bytesToZeroFrom?_eq {before bytes : List UInt8} {address count : Nat}
    (here : ∀ k (inside : k < bytes.length), m.byte (address + k) = bytes[k])
    (plain : 0 ∉ bytes) (ends : m.byte (address + bytes.length) = 0)
    (within : bytes.length < count) :
    m.bytesToZeroFrom? before address count = some (before.reverse ++ bytes) := by
  induction bytes generalizing before address count with
  | nil =>
    obtain ⟨count, rfl⟩ := Nat.exists_eq_succ_of_ne_zero (Nat.ne_of_gt within)
    have zero : m.byte address = 0 := ends
    rw [bytesToZeroFrom?, zero, if_pos rfl, List.append_nil]
  | cons first rest ih =>
    obtain ⟨count, rfl⟩ := Nat.exists_eq_succ_of_ne_zero (Nat.ne_of_gt (Nat.zero_lt_of_lt within))
    have head : m.byte address = first := here 0 (Nat.succ_pos _)
    have other : first ≠ 0 := fun zero => plain (zero ▸ List.mem_cons_self)
    rw [List.length_cons] at ends within
    rw [bytesToZeroFrom?, head, if_neg other, ih, List.reverse_cons, List.append_assoc]
    · rfl
    · intro k inside
      rw [Nat.add_assoc, Nat.add_comm 1]
      exact here (k + 1) (Nat.succ_lt_succ inside)
    · exact fun inside => plain (List.mem_cons_of_mem _ inside)
    · rwa [Nat.add_assoc, Nat.add_comm 1]
    · exact Nat.lt_of_succ_lt_succ within

/-- A text in the data of a program is read up to its zero. -/
theorem HoldsData.readText {before bytes after : List UInt8}
    (holds : m.HoldsData (before ++ bytes ++ 0 :: after)) (plain : 0 ∉ bytes)
    (inside : Assembly.dataBase + (before ++ bytes ++ 0 :: after).length ≤ memorySize) :
    m.readText (Assembly.dataBase + before.length : Nat) = .ok bytes := by
  have within := holds.within
  simp only [List.length_append, List.length_cons] at inside within
  have ends : m.byte (Assembly.dataBase + before.length + bytes.length) = 0 := by
    have zero := holds.byte (before.length + bytes.length) (by simp)
    rw [← Nat.add_assoc] at zero
    rw [zero, List.getElem_append_right (by simp)]
    simp
  have here : ∀ k (inside : k < bytes.length),
      m.byte (Assembly.dataBase + before.length + k) = bytes[k] := by
    intro k inside
    have byte := holds.byte (before.length + k) (by simp; omega)
    rw [← Nat.add_assoc] at byte
    rw [byte, List.getElem_append_left (by simp; omega), List.getElem_append_right (by omega)]
    simp
  have found := @bytesToZeroFrom?_eq m [] bytes (Assembly.dataBase + before.length)
    (m.size - (Assembly.dataBase + before.length)) here plain ends (by omega)
  have reached : reaches (Assembly.dataBase + before.length : Nat) 1 = true :=
    @reaches_of_le _ 1 (by omega)
  rw [Memory.readText, if_pos reached, Int.toNat_natCast, found]
  rfl

end Memory

/-- The bytes before the first zero, if there is one. -/
def toZero? : List UInt8 → Option (List UInt8)
  | [] => none
  | first :: rest => if first = 0 then some [] else (toZero? rest).map (first :: ·)

theorem exists_of_toZero? {data bytes : List UInt8} (found : toZero? data = some bytes) :
    ∃ after, data = bytes ++ 0 :: after ∧ 0 ∉ bytes := by
  induction data generalizing bytes with
  | nil => cases found
  | cons first rest ih =>
    rw [toZero?] at found
    by_cases zero : first = 0
    · rw [if_pos zero] at found
      cases found
      exact ⟨rest, by rw [zero]; rfl, List.not_mem_nil⟩
    · rw [if_neg zero] at found
      obtain ⟨later, here, rfl⟩ := Option.map_eq_some_iff.mp found
      obtain ⟨after, same, plain⟩ := ih here
      refine ⟨after, by rw [same]; rfl, fun inside => ?_⟩
      rcases List.mem_cons.mp inside with isFirst | inLater
      · exact zero isFirst.symm
      · exact plain inLater

/-- The text at an address of the data of a program, if a zero of the data ends it. -/
def textIn? (data : List UInt8) (address : Nat) : Option (List UInt8) :=
  if Assembly.dataBase ≤ address then toZero? (data.drop (address - Assembly.dataBase)) else none

theorem exists_of_textIn? {data bytes : List UInt8} {address : Nat}
    (found : textIn? data address = some bytes) :
    ∃ before after, data = before ++ bytes ++ 0 :: after ∧ 0 ∉ bytes ∧
      address = Assembly.dataBase + before.length := by
  unfold textIn? at found
  split at found
  · next above =>
    obtain ⟨after, same, plain⟩ := exists_of_toZero? found
    have short : address - Assembly.dataBase < data.length := by
      have lengths := congrArg List.length same
      simp only [List.length_drop, List.length_append, List.length_cons] at lengths
      omega
    refine ⟨data.take (address - Assembly.dataBase), after, ?_, plain, ?_⟩
    · rw [List.append_assoc, ← same, List.take_append_drop]
    · rw [List.length_take_of_le (Nat.le_of_lt short)]
      omega
  · cases found

/-! ## Answers -/

/-- What console routines answer in a program with the given data. -/
def consoleAnswer? (write : World → String → World) (data : List UInt8) (name : String) :
    Option (Answer World) :=
  if name = "putchar" then
    some fun world words =>
      let char := ((words.headD 0).setWidth 8).toNat
      some (write world (Char.ofNat char).toString, .ok (some char))
  else if name = "puts" then
    some fun world words => (textIn? data (words.headD 0).toNat).map fun bytes =>
      (write world (String.ofList (Text.decodeLatin bytes) ++ "\n"), .ok (some (bytes.length + 1)))
  else none

theorem headD_map_toNat (words : List Word) :
    (words.map fun word => (word.toNat : Int)).headD 0 = ((words.headD 0).toNat : Int) := by
  cases words with
  | nil => rfl
  | cons first rest => rfl

/-- Console routines do what their answers say. -/
theorem serves_console (write : World → String → World) {data : List UInt8}
    (inside : Assembly.dataBase + data.length ≤ memorySize) (name : String) :
    Serves data (consoleAnswer? write data name) (console? write name) := by
  unfold consoleAnswer? console?
  by_cases isPutchar : name = "putchar"
  · rw [if_pos isPutchar, if_pos isPutchar]
    rintro world m words _ ⟨⟩ _ _
    rw [putchar]
    dsimp only
    rw [headD_map_toNat, wrap_eq, BitVec.ofInt_natCast, BitVec.ofNat_toNat]
  by_cases isPuts : name = "puts"
  · rw [if_neg isPutchar, if_neg isPutchar, if_pos isPuts, if_pos isPuts]
    rintro world m words answered known holds _
    obtain ⟨bytes, found, rfl⟩ := Option.map_eq_some_iff.mp known
    obtain ⟨before, after, rfl, plain, address⟩ := exists_of_textIn? found
    rw [puts, headD_map_toNat, address, holds.readText plain inside]
  · rw [if_neg isPutchar, if_neg isPutchar, if_neg isPuts, if_neg isPuts]
    trivial

end Reckon.Machine
