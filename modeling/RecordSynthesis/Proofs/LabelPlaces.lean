import RecordSynthesis.Proofs.DecodedSpans
import RecordSynthesis.Proofs.LineSearch
import RecordSynthesis.Proofs.Reports

/-!
# Places of labels

A line of JSON says where each of its labels starts, also if that is far behind the end of the source. Lines and columns
are words like offsets but count from 1, so one offset can be too far: the last of all, on the only line of a source
without newlines, or on the last line of a source that is nothing but newlines and as long as an index can take. There a
line or a column is no word, and the run that has to give it breaks off; everywhere else both are given as they are.
-/

namespace RecordSynthesis

set_option autoImplicit false

namespace Text

variable {bytes : List UInt8} {offset : Nat}

theorem lineOf_of_notMem (absent : newline ∉ bytes) : lineOf bytes offset = 1 := by
  rw [lineOf, List.count_eq_zero_of_not_mem fun mem => absent (List.mem_of_mem_take mem)]

theorem columnOf_of_notMem (absent : newline ∉ bytes) : columnOf bytes offset = offset + 1 := by
  rw [columnOf, lastStart_eq_zero_iff.mpr fun mem => absent (List.mem_of_mem_take mem), Nat.sub_zero]

theorem count_eq_length_iff : bytes.count newline = bytes.length ↔ ∀ byte ∈ bytes, byte = newline := by
  rw [List.count_eq_length]
  exact forall₂_congr fun _ _ => eq_comm

theorem lineOf_length (all : ∀ byte ∈ bytes, byte = newline) : lineOf bytes bytes.length = bytes.length + 1 := by
  rw [lineOf, List.take_length, count_eq_length_iff.mpr all]

/-- Only the last offset can have a line that is no word, which takes every byte before it to end a line. -/
theorem lineOf_lt_iff (small : bytes.length < UInt32.size) (word : offset < UInt32.size) :
    lineOf bytes offset < UInt32.size ↔
      ¬(offset = UInt32.size - 1 ∧ bytes.length = UInt32.size - 1 ∧ ∀ byte ∈ bytes, byte = newline) := by
  rw [← Nat.not_le, not_iff_not]
  constructor
  · intro large
    have hTaken : (bytes.take offset).count newline ≤ offset :=
      Nat.le_trans List.count_le_length (List.length_take_le offset bytes)
    have hAll : (bytes.take offset).count newline ≤ bytes.count newline :=
      (List.take_sublist offset bytes).count_le newline
    have hLength : bytes.count newline ≤ bytes.length := List.count_le_length
    rw [lineOf] at large
    exact ⟨by omega, by omega, count_eq_length_iff.mp (by omega)⟩
  · rintro ⟨rfl, hLength, all⟩
    rw [← hLength, lineOf_length all, hLength]
    exact Nat.le_refl _

/-- Only the last offset can have a column that is no word, which takes all bytes before it to be on its line. -/
theorem columnOf_lt_iff (small : bytes.length < UInt32.size) (word : offset < UInt32.size) :
    columnOf bytes offset < UInt32.size ↔ ¬(offset = UInt32.size - 1 ∧ newline ∉ bytes) := by
  rw [← Nat.not_le, not_iff_not]
  constructor
  · intro large
    rw [columnOf] at large
    have hSize : UInt32.size = 4294967296 := rfl
    have hTaken : bytes.take offset = bytes := List.take_of_length_le (by omega)
    rw [hTaken] at large
    exact ⟨by omega, lastStart_eq_zero_iff.mp (by omega)⟩
  · rintro ⟨rfl, absent⟩
    rw [columnOf_of_notMem absent]
    exact Nat.le_refl _

end Text

def Span.last : Span := ⟨4294967295, 4294967295⟩

theorem Span.start_eq_last_iff {span : Span} (ordered : span.IsOrdered) :
    span.start.toNat = UInt32.size - 1 ↔ span = last := by
  obtain ⟨start, stop⟩ := span
  have hSize : UInt32.size = 4294967296 := rfl
  have hStop := UInt32.toNat_lt_size stop
  have hOrder : start.toNat ≤ stop.toNat := UInt32.le_iff_toNat_le.mp ordered
  rw [last, Span.mk.injEq, ← UInt32.toNat_inj, ← UInt32.toNat_inj]
  simp only [UInt32.reduceToNat]
  omega

namespace Label

def datumAt (label : Label) (line column : Nat) : Datum :=
  .table [("start", .int (Int.ofNat label.span.start.toNat)), ("end", .int (Int.ofNat label.span.stop.toNat)),
    ("line", .int (Int.ofNat line)), ("column", .int (Int.ofNat column)), ("label", .text label.text)]

/-- The line and the column that are given for a label are those of its start as they are, and they fit into words. -/
def IsExact (source : String) (label : Label) : Prop :=
  ∃ line column, Text.IsPlace (Text.bytes source) label.span.start.toNat line column ∧
    1 ≤ line ∧ line < UInt32.size ∧ 1 ≤ column ∧ column < UInt32.size ∧
    label.toDatum? (LineIndex.ofText source) = some (label.datumAt line column)

variable {source : String}

theorem toDatum?_eq (index : LineIndex) (label : Label) :
    label.toDatum? index =
      (index.lineColumn? label.span.start).map fun place => label.datumAt place.1.toNat place.2.toNat := by
  rw [toDatum?]
  cases index.lineColumn? label.span.start <;> rfl

theorem isExact_iff (small : source.utf8ByteSize < UInt32.size) (label : Label) :
    label.IsExact source ↔ Text.lineOf (Text.bytes source) label.span.start.toNat < UInt32.size ∧
      Text.columnOf (Text.bytes source) label.span.start.toNat < UInt32.size := by
  constructor
  · rintro ⟨line, column, place, -, hLine, -, hColumn, -⟩
    obtain ⟨rfl, rfl⟩ := Text.isPlace_iff.mp place
    exact ⟨hLine, hColumn⟩
  · rintro ⟨hLine, hColumn⟩
    obtain ⟨⟨line, column⟩, hPlace⟩ :=
      Option.isSome_iff_exists.mp ((LineIndex.isSome_lineColumn?_ofText small).mpr ⟨hLine, hColumn⟩)
    obtain ⟨hGivenLine, hGivenColumn⟩ := (LineIndex.lineColumn?_ofText_eq_some_iff small).mp hPlace
    refine ⟨_, _, Text.isPlace_iff.mpr ⟨rfl, rfl⟩, Nat.succ_pos _, hLine, Nat.succ_pos _, hColumn, ?_⟩
    rw [toDatum?_eq, hPlace, Option.map_some, hGivenLine, hGivenColumn]

theorem toDatum?_eq_none_iff (small : source.utf8ByteSize < UInt32.size) (label : Label) :
    label.toDatum? (LineIndex.ofText source) = none ↔ ¬label.IsExact source := by
  rw [isExact_iff small, ← LineIndex.isSome_lineColumn?_ofText small, toDatum?_eq, Option.map_eq_none_iff,
    Option.not_isSome_iff_eq_none]

end Label

/-- In a line of JSON the start of an accepted span has its exact line and column, however far behind the source it is,
unless it is the last offset of all and the source has no newline, or is nothing but newlines and as long as can be. Then
no word holds the column, or the line, and a run that has to report the label breaks off with status 101. The index has
all starts of lines as they are and in order, and searching it by halving never leaves it. -/
theorem label_place_exact_iff (source : String) (small : source.utf8ByteSize < UInt32.size) (reading : Reading)
    (datum : Datum) (label : Label) (accepted : datum.asSpan reading = .ok label.span) :
    let bytes := Text.bytes source
    let index := LineIndex.ofText source
    let allNewlines := bytes.length = UInt32.size - 1 ∧ ∀ byte ∈ bytes, byte = Text.newline
    (label.IsExact source ↔ ¬(label.span = Span.last ∧ (Text.newline ∉ bytes ∨ allNewlines))) ∧
    (¬label.IsExact source ↔ label.toDatum? index = none) ∧
    (∀ (invocation : Invocation) (inputs : Invocation.Inputs) (result : UnitResult) (diagnostic : Diagnostic),
      inputs.unit.source.getD "" = source → invocation.json = true → diagnostic ∈ result.diagnostics →
      isWanted invocation.record diagnostic.record = true → label ∈ diagnostic.labels → ¬label.IsExact source →
      (invocation.finish inputs result).status = 101 ∧ (invocation.finish inputs result).output = "") ∧
    (index.starts.Pairwise (· < ·) ∧ ∀ start, start ∈ index.starts.map (·.toNat) ↔ Text.BeginsLine bytes start) ∧
    index.found label.span.start < index.starts.length ∧
    index.search? label.span.start = index.lineColumn? label.span.start := by
  intro bytes index allNewlines
  have hBytes : bytes.length < UInt32.size := (Text.length_bytes source).trans_lt small
  have hWord := UInt32.toNat_lt_size label.span.start
  have hLast := Span.start_eq_last_iff (Datum.isOrdered_of_asSpan accepted)
  refine ⟨?_, (Label.toDatum?_eq_none_iff small label).symm, ?_, ⟨LineIndex.pairwise_starts_ofText small, fun start => ?_⟩,
    LineIndex.found_lt_ofText small _, LineIndex.search?_ofText small _⟩
  · rw [Label.isExact_iff small, Text.lineOf_lt_iff hBytes hWord, Text.columnOf_lt_iff hBytes hWord, hLast]
    tauto
  · rintro invocation inputs result diagnostic rfl json mem wanted labelled inexact
    have hLost : ¬diagnostic.IsShown invocation.style (inputs.unit.source.getD "") := fun shown => by
      have hGiven := shown (by simp [Invocation.style, json]) label labelled
      rw [(Label.toDatum?_eq_none_iff small label).mpr inexact] at hGiven
      cases hGiven
    rw [Invocation.finish_of_mem (UnitResult.none_mem_reports_iff.mpr ⟨diagnostic, mem, wanted, hLost⟩)]
    exact ⟨rfl, rfl⟩
  · rw [LineIndex.map_starts_ofText small]
    exact Text.mem_lineStarts

def lastOffsets : Datum := .list [.int 4294967295, .int 4294967295]

def lastLabel : Label := ⟨Span.last, Diagnostic.duplicateText⟩

def lastCollision : FileView := fun path =>
  if path = "unit.json" then
    .file (.ok ("\x7b\"source\":\"record P(int x);\",\"records\":[\x7b\"name\":\"P\",\"parameters\":"
      ++ "[\x7b\"name\":\"x\",\"type\":\"int\"\x7d],\"members\":[\x7b\"kind\":\"constructor\",\"params\":"
      ++ "[\x7b\"name\":\"a\",\"type\":\"int\"\x7d],\"span\":[4294967295,4294967295]\x7d]\x7d]\x7d"))
  else .noFile .notFound

def checkInJson : Invocation := { task := .check, unit := "unit.json", json := true }

/-- On the first line the last offset has a column that no word holds, and the run breaks off without a word. -/
theorem not_label_place_exact_one_line :
    Datum.asSpan .document lastOffsets = .ok lastLabel.span ∧
    Text.IsPlace (Text.bytes "record P(int x);") 4294967295 1 4294967296 ∧ ¬lastLabel.IsExact "record P(int x);" ∧
    lastLabel.toDatum? (LineIndex.ofText "record P(int x);") = none ∧
    (checkInJson.load lastCollision {}).isOk = true ∧
    (checkInJson.run lastCollision {}).status = 101 ∧ (checkInJson.run lastCollision {}).notices = [] := by
  have hNone : Text.newline ∉ Text.bytes "record P(int x);" := by decide +kernel
  have hSmall : "record P(int x);".utf8ByteSize < UInt32.size := by decide +kernel
  have hColumn : Text.columnOf (Text.bytes "record P(int x);") 4294967295 = 4294967296 := Text.columnOf_of_notMem hNone
  have hPlace := Text.isPlace_iff.mpr ⟨(Text.lineOf_of_notMem hNone).symm, hColumn.symm⟩
  have hInexact : ¬lastLabel.IsExact "record P(int x);" := fun hExact => by
    have hWord : Text.columnOf (Text.bytes "record P(int x);") 4294967295 < UInt32.size :=
      ((Label.isExact_iff hSmall lastLabel).mp hExact).2
    exact absurd (hColumn ▸ hWord) (by decide)
  have hOutcome : ((checkInJson.load lastCollision {}).toOption.map fun inputs =>
      let outcome := checkInJson.finish inputs (checkUnit inputs.unit inputs.options)
      (outcome.status, outcome.notices)) = some (101, []) := by decide +kernel
  obtain ⟨inputs, hLoaded, hFinish⟩ := exists_ok_of_map_toOption hOutcome
  obtain ⟨hStatus, hNotices⟩ := Prod.mk.inj hFinish
  refine ⟨rfl, hPlace, hInexact, (Label.toDatum?_eq_none_iff hSmall lastLabel).mpr hInexact, ?_⟩
  rw [Invocation.run, hLoaded]
  exact ⟨rfl, hStatus, hNotices⟩

/-- On the second line the last offset, far behind the end of the source, has its column. -/
theorem label_place_exact_iff_second_line :
    "a\nb".utf8ByteSize < UInt32.size ∧ Datum.asSpan .document lastOffsets = .ok lastLabel.span ∧
    lastLabel.IsExact "a\nb" ∧ lastLabel.toDatum? (LineIndex.ofText "a\nb") = some (lastLabel.datumAt 2 4294967294) := by
  have hSmall : "a\nb".utf8ByteSize < UInt32.size := by decide +kernel
  have hAccepted : Datum.asSpan .document lastOffsets = .ok lastLabel.span := rfl
  obtain ⟨hExact, -⟩ := label_place_exact_iff "a\nb" hSmall .document lastOffsets lastLabel hAccepted
  refine ⟨hSmall, hAccepted, hExact.mpr ?_, rfl⟩
  rintro ⟨-, absent | ⟨long, -⟩⟩
  · exact absent (by decide +kernel)
  · exact absurd long (by decide +kernel)

end RecordSynthesis
