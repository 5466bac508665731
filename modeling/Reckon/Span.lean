/-!
# Spans

A span is a half-open range of character offsets into a source text. A span that starts before the
text stands for the end of the input; `Span.eof` is the one the library itself uses.

Main statements: the end of the input is neutral for the union of spans.
-/

namespace Reckon

/-- A half-open range of offsets into a source text. -/
structure Span where
  /-- Offset of the first character. -/
  start : Int
  /-- Offset one past the last character. -/
  stop : Int
  deriving DecidableEq, Repr, Inhabited

namespace Span

/-- The end of the input. -/
def eof : Span := ⟨-1, -1⟩

/-- The span stands for the end of the input. -/
def isEof (s : Span) : Bool :=
  s.start < 0

/-- The least span that covers both, where the end of the input covers nothing. -/
def union (a b : Span) : Span :=
  if a.isEof then b
  else if b.isEof then a
  else ⟨min a.start b.start, max a.stop b.stop⟩

instance : Add Span := ⟨union⟩

@[simp] theorem eof_add (s : Span) : eof + s = s := rfl

theorem add_eof (s : Span) (h : s.isEof = false) : s + eof = s := by
  show union s eof = s
  rw [union, h]
  rfl

/-- The offsets covered, none for the end of the input. -/
def range? (s : Span) : Option (Int × Int) :=
  if s.isEof then none else some (s.start, s.stop)

/-- An offset brought into a text of `length` characters; a negative one counts from the end. -/
def offsetIn (length : Nat) (offset : Int) : Nat :=
  if offset < 0 then (offset + length).toNat else min offset.toNat length

/-- The characters of `source` that the span covers, none for the end of the input. -/
def chars? (s : Span) (source : List Char) : Option (List Char) :=
  s.range?.map fun (start, stop) =>
    let first := offsetIn source.length start
    let last := offsetIn source.length stop
    (source.drop first).take (last - first)

/-- The text of `source` that the span covers, none for the end of the input. -/
def text? (s : Span) (source : String) : Option String :=
  (s.chars? source.toList).map String.ofList

/-- The span as it is shown to a reader. -/
def render (s : Span) : String :=
  if s.isEof then "EOF" else s!"{s.start}..{s.stop}"

/-- The span with its fields named. -/
def describe (s : Span) : String :=
  s!"Span(start={s.start}, end={s.stop})"

end Span

end Reckon
