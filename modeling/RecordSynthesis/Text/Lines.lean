import RecordSynthesis.Text.Blank

/-!
# Lines of a text

The lines that a drawn report shows, with positions counted in characters. Every line terminator of Unicode ends a line,
and no line begins behind the last one.
-/

namespace RecordSynthesis.Text

set_option autoImplicit false

structure Line where
  start : Nat
  chars : List Char
  deriving DecidableEq, Repr, Inhabited

def endsLine (c : Char) : Bool :=
  c = '\n' || c = '\r' || c.toNat = 0x0b || c.toNat = 0x0c || c.toNat = 0x85 || c.toNat = 0x2028 || c.toNat = 0x2029

/-- The lines of a text whose first line has begun at `start` with the characters of `line`, last one first. -/
def linesFrom (start : Nat) (line : List Char) : List Char → List Line
  | [] => if line = [] then [] else [⟨start, line.reverse⟩]
  | '\r' :: '\n' :: rest => ⟨start, line.reverse⟩ :: linesFrom (start + line.length + 2) [] rest
  | c :: rest =>
    if endsLine c then ⟨start, line.reverse⟩ :: linesFrom (start + line.length + 1) [] rest
    else linesFrom start (c :: line) rest

def lines (text : String) : List Line := linesFrom 0 [] text.toList

/-- The number of the line that holds a character offset, counted from 1, and the line. -/
def lineOf? (lines : List Line) (offset : Nat) : Option (Nat × Line) :=
  let before := lines.takeWhile (·.start ≤ offset)
  before.getLast?.map fun line => (before.length, line)

/-- The number of the line and the column of a character offset, unless it is behind the end of the text. -/
def place? (text : String) (offset : Nat) : Option (Nat × Nat) :=
  if text.length < offset then none
  else (lineOf? (lines text) offset).map fun (number, line) => (number, offset - line.start + 1)

/-- The characters of a line as they are shown from a column on: a tab reaches up to the next multiple of four, and
other white space is blank. -/
def shownChars (column : Nat) : List Char → List Char
  | [] => []
  | c :: rest =>
    let shown :=
      if c = '\t' then List.replicate (4 - column % 4) ' '
      else if isNarrowBlank c || isWideBlank c then [' ']
      else [c]
    shown ++ shownChars (column + 1) rest

end RecordSynthesis.Text
