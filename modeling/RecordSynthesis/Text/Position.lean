/-!
# Spans and positions

Byte spans of a source text, the line and column of a byte offset, and the part of a span that a report can point at.
Offsets, lines and columns are 32-bit words. A line or a column that no word holds is not given.
-/

namespace RecordSynthesis

set_option autoImplicit false

structure Span where
  start : UInt32 := 0
  stop : UInt32 := 0
  deriving DecidableEq, Repr, Inhabited

namespace Text

def byteLength : List Char → Nat
  | [] => 0
  | c :: cs => c.utf8Size + byteLength cs

/-- The offsets at which the lines after the first begin, the text itself beginning at `offset`. -/
def lineStartsFrom (offset : Nat) : List Char → List UInt32
  | [] => []
  | c :: cs =>
    let next := offset + c.utf8Size
    if c = '\n' then UInt32.ofNat next :: lineStartsFrom next cs else lineStartsFrom next cs

/-- A count from 1 out of one from 0; there is none behind the last word. -/
def ordinal? (word : UInt32) : Option UInt32 :=
  if word.toNat + 1 < UInt32.size then some (word + 1) else none

end Text

/-- The byte offsets at which the lines of a text begin; the first is 0. -/
structure LineIndex where
  starts : List UInt32

def LineIndex.ofText (source : String) : LineIndex :=
  ⟨0 :: Text.lineStartsFrom 0 source.toList⟩

/-- The line and the column of a byte offset, both counted from 1, if words hold them. -/
def LineIndex.lineColumn? (index : LineIndex) (offset : UInt32) : Option (UInt32 × UInt32) := do
  let before := index.starts.takeWhile (· ≤ offset)
  let line ← Text.ordinal? (UInt32.ofNat (before.length - 1))
  let column ← Text.ordinal? (offset - before.getLast?.getD 0)
  return (line, column)

/-- The range of a span inside a source of `size` bytes, widened to one byte where there is room. -/
def Span.labelRange (span : Span) (size : Nat) : Nat × Nat :=
  let start := min span.start.toNat size
  let stop := max (min span.stop.toNat size) start
  if start = stop then (start, min (stop + 1) size) else (start, stop)

end RecordSynthesis
