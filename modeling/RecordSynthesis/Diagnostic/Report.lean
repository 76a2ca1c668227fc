import RecordSynthesis.Datum.Json
import RecordSynthesis.Diagnostic.Basic
import RecordSynthesis.Text.Lines

/-!
# Reports

How diagnostics and faults are shown: as one line of JSON, as a drawn report over the source, or as a short header where
there is no source. A drawn report counts in characters where spans count in bytes. A line of JSON needs the lines and
columns of all its labels, so there is none for a label whose line or column no word holds.
-/

namespace RecordSynthesis

set_option autoImplicit false

/-- A span of the source and what is to be said about it. -/
structure Label where
  span : Span
  text : String
  deriving DecidableEq, Repr, Inhabited

namespace Diagnostic

def duplicateText : String := "duplicates the primary constructor"

def primaryText : String := "primary constructor declared here"

/-- Where to look. One place is not named twice. -/
def labels : Diagnostic → List Label
  | duplicatePrimaryConstructor _ _ span primarySpan =>
    ⟨span, duplicateText⟩ :: if primarySpan = span then [] else [⟨primarySpan, primaryText⟩]

def advice : Diagnostic → String
  | duplicatePrimaryConstructor .. => "remove this constructor or change its parameter types"

end Diagnostic

/-! ## JSON -/

def Label.toDatum? (index : LineIndex) (label : Label) : Option Datum := do
  let (line, column) ← index.lineColumn? label.span.start
  return .table [("start", .int (Int.ofNat label.span.start.toNat)), ("end", .int (Int.ofNat label.span.stop.toNat)),
    ("line", .int (Int.ofNat line.toNat)), ("column", .int (Int.ofNat column.toNat)), ("label", .text label.text)]

def Diagnostic.toDatum? (source file : String) (diagnostic : Diagnostic) : Option Datum := do
  let spans ← diagnostic.labels.mapM (Label.toDatum? (LineIndex.ofText source))
  return .table [("code", .text diagnostic.code), ("severity", .text "error"), ("message", .text diagnostic.message),
    ("file", .text file), ("spans", .list spans), ("fix", .text diagnostic.advice)]

def Fault.toDatum (file : String) (fault : Fault) : Datum :=
  .table [("code", .text fault.code), ("severity", .text "internal"), ("message", .text fault.message),
    ("file", .text file), ("spans", .list []), ("fix", .null)]

/-! ## Drawn reports -/

/-- A stretch of a line to underline and what stands beside it. -/
structure Mark where
  line : Nat
  column : Nat
  width : Nat
  lineText : String
  text : String
  deriving DecidableEq, Repr, Inhabited

/-- What a report shows of the source, and what it advises. -/
structure Excerpt where
  /-- The line and the column of the report, unless it begins behind the end of the source. -/
  location : Option (Nat × Nat)
  marks : List Mark
  help : String
  deriving DecidableEq, Repr, Inhabited

structure Report where
  code : String
  message : String
  /-- Left out if the source has no place for any label. -/
  excerpt : Option Excerpt
  deriving DecidableEq, Repr, Inhabited

/-- The mark on one line from the character at `start` up to the one at `stop`. -/
def Text.Line.mark (line : Text.Line) (number start stop : Nat) (text : String) : Mark :=
  let column := start - line.start
  { line := number, column := column + 1, width := max 1 (min (stop - start) (line.chars.length - column))
    lineText := String.ofList (Text.shownChars 0 line.chars), text }

/-- The offsets of the first and the last character of a label, and the one behind them. -/
def Label.extent (source : String) (label : Label) : Nat × Nat × Nat :=
  let (start, stop) := label.span.labelRange source.utf8ByteSize
  (start, max start (stop - 1), stop)

/-- Whether the source has a place for a label: it neither begins nor ends behind the end of the source. -/
def Label.isPlaced (source : String) (label : Label) : Bool :=
  (label.extent source).2.1 ≤ source.length

/-- Where a label is drawn. On several lines its first and its last one are marked, the last with the text. The end of a
label that goes one character past the source is not drawn. -/
def Label.marks (source : String) (label : Label) : List Mark :=
  if label.isPlaced source then
    let (start, last, stop) := label.extent source
    let lines := Text.lines source
    match Text.lineOf? lines start, Text.lineOf? lines last with
    | some (number, line), some (lastNumber, lastLine) =>
      let ending :=
        if stop ≤ source.length then [lastLine.mark lastNumber (max start lastLine.start) stop label.text] else []
      if number = lastNumber then ending else line.mark number start stop "" :: ending
    | _, _ => []
  else []

def Diagnostic.report (source : String) (diagnostic : Diagnostic) : Report :=
  let labels := diagnostic.labels.filter (Label.isPlaced source)
  { code := diagnostic.code
    message := diagnostic.message
    excerpt :=
      if labels.isEmpty then none
      else some {
        location := Text.place? source (diagnostic.span.labelRange source.utf8ByteSize).1
        marks := labels.flatMap (Label.marks source)
        help := diagnostic.advice } }

def Excerpt.locationText (excerpt : Excerpt) : String :=
  match excerpt.location with
  | some (line, column) => toString line ++ ":" ++ toString column
  | none => "?:?"

namespace Report

def red : String := "\x1b[31m"
def plain : String := "\x1b[0m"

def paint (color : Bool) (text : String) : String :=
  if color then red ++ text ++ plain else text

def blanks (count : Nat) : String := String.ofList (List.replicate count ' ')

/-- The marked line, and below it the mark with its text. -/
def markText (color : Bool) (mark : Mark) : String :=
  let number := toString mark.line
  " " ++ number ++ " | " ++ mark.lineText ++ "\n "
    ++ blanks number.length ++ " | " ++ blanks (mark.column - 1)
    ++ paint color (String.ofList (List.replicate mark.width '^')) ++ " " ++ mark.text ++ "\n"

def head (color : Bool) (report : Report) : String :=
  paint color ("[" ++ report.code ++ "] Error:") ++ " " ++ report.message

def excerptText (color : Bool) (excerpt : Excerpt) : String :=
  " --> " ++ excerpt.locationText ++ "\n" ++ String.join (excerpt.marks.map (markText color))
    ++ "  = help: " ++ excerpt.help ++ "\n"

def text (color : Bool) (report : Report) : String :=
  report.head color ++ "\n" ++ (report.excerpt.map (excerptText color)).getD ""

end Report

/-! ## Notices -/

inductive NoticeStyle
  | plain
  | colored
  | json
  deriving DecidableEq, Repr, Inhabited

inductive Notice
  | text (text : String)
  | report (report : Report) (color : Bool)
  deriving DecidableEq, Repr, Inhabited

def Notice.write : Notice → String
  | .text shown => shown
  | .report drawn color => drawn.text color

/-- The notice with the end of its line; in JSON a notice is a line without one. -/
def Notice.ended (style : NoticeStyle) : Notice → Notice
  | .text shown => .text (if style = .json then shown ++ "\n" else shown)
  | .report drawn color => .report drawn color

/-- A diagnostic as it is shown, if it can be; without a source, a header stands for the report. -/
def Diagnostic.notice? (style : NoticeStyle) (source file : String) (diagnostic : Diagnostic) : Option Notice :=
  if style = .json then (diagnostic.toDatum? source file).map fun datum => .text (Json.write datum)
  else if source.isEmpty then
    some <| .text ("error[" ++ diagnostic.code ++ "]: " ++ diagnostic.message ++ "\n  --> " ++ file ++ "\n  = help: "
      ++ diagnostic.advice ++ "\n")
  else some <| .report (diagnostic.report source) (style = .colored)

def Fault.notice (style : NoticeStyle) (file : String) (fault : Fault) : Notice :=
  if style = .json then .text (Json.write (fault.toDatum file))
  else .text ("internal error[" ++ fault.code ++ "]: " ++ fault.message ++ "\n  --> " ++ file ++ "\n")

end RecordSynthesis
