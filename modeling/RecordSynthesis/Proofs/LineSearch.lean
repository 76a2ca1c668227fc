import Mathlib.Data.Set.Operations
import RecordSynthesis.Proofs.LineStarts

/-!
# Lines and columns

The line of an offset is the last one that begins at or before it, and its column counts from the start of that line. A
line index finds the line among its starts, by halving as well as one start after the other, and inside a text it gives
the line and the column as they are: no two offsets have the same, and they go up with the offsets.
-/

namespace RecordSynthesis

set_option autoImplicit false

namespace Text

/-- Line `line` is the last one that begins at or before an offset, which is at `column` of it. Both count from 1. -/
def IsPlace (bytes : List UInt8) (offset line column : Nat) : Prop :=
  ∃ start, BeginsLine bytes start ∧ start ≤ offset ∧
    (∀ next, BeginsLine bytes next → next ≤ offset → next ≤ start) ∧
    line = (bytes.take start).count newline + 1 ∧ column = offset - start + 1

def lineOf (bytes : List UInt8) (offset : Nat) : Nat :=
  (bytes.take offset).count newline + 1

def columnOf (bytes : List UInt8) (offset : Nat) : Nat :=
  offset - lastStart (bytes.take offset) + 1

theorem ordinal?_eq_some_iff {word next : UInt32} : ordinal? word = some next ↔ next.toNat = word.toNat + 1 := by
  rw [ordinal?]
  split_ifs with hNext
  · have hWord : (word + 1).toNat = word.toNat + 1 := by
      rw [UInt32.toNat_add, UInt32.toNat_one, Nat.mod_eq_of_lt hNext]
    rw [Option.some_inj, ← UInt32.toNat_inj, hWord, eq_comm]
  · exact ⟨fun h => (nomatch h), fun h => absurd (h ▸ UInt32.toNat_lt_size next) hNext⟩

theorem lastStart_take_le (bytes : List UInt8) (offset : Nat) : lastStart (bytes.take offset) ≤ offset :=
  Nat.le_trans (lastStart_le _) (List.length_take_le offset bytes)

/-- Inside the text a column counts the bytes since the last newline. -/
theorem columnOf_eq_of_le {bytes : List UInt8} {offset : Nat} (inside : offset ≤ bytes.length) :
    columnOf bytes offset = 1 + ((bytes.take offset).rtakeWhile (· ≠ newline)).length := by
  have hLength := lastStart_add_length (bytes.take offset)
  rw [List.length_take_of_le inside] at hLength
  rw [columnOf]
  omega

theorem lineOf_le (bytes : List UInt8) (offset : Nat) : lineOf bytes offset ≤ offset + 1 :=
  Nat.succ_le_succ (Nat.le_trans List.count_le_length (List.length_take_le offset bytes))

theorem columnOf_le (bytes : List UInt8) (offset : Nat) : columnOf bytes offset ≤ offset + 1 :=
  Nat.succ_le_succ (Nat.sub_le _ _)

theorem isPlace_iff {bytes : List UInt8} {offset line column : Nat} :
    IsPlace bytes offset line column ↔ line = lineOf bytes offset ∧ column = columnOf bytes offset := by
  have hBegins : BeginsLine bytes (lastStart (bytes.take offset)) :=
    (beginsLine_take.mp (beginsLine_lastStart _)).1
  have hLatest : ∀ next, BeginsLine bytes next → next ≤ offset → next ≤ lastStart (bytes.take offset) :=
    fun next begins before => (beginsLine_take.mpr ⟨begins, before⟩).le_lastStart
  have hCount : (bytes.take (lastStart (bytes.take offset))).count newline = (bytes.take offset).count newline := by
    rw [← count_take_lastStart (bytes.take offset), List.take_take, Nat.min_eq_left (lastStart_take_le bytes offset)]
  constructor
  · rintro ⟨start, begins, before, latest, rfl, rfl⟩
    have hStart : start = lastStart (bytes.take offset) :=
      Nat.le_antisymm (hLatest start begins before) (latest _ hBegins (lastStart_take_le bytes offset))
    rw [hStart, hCount]
    exact ⟨rfl, rfl⟩
  · rintro ⟨rfl, rfl⟩
    exact ⟨_, hBegins, lastStart_take_le bytes offset, hLatest, congrArg (· + 1) hCount.symm, rfl⟩

/-- Of two offsets the later one stands on a later line or farther on the same one. -/
theorem place_lt_of_lt {bytes : List UInt8} {offset next : Nat} (h : offset < next) :
    lineOf bytes offset < lineOf bytes next ∨
      lineOf bytes offset = lineOf bytes next ∧ columnOf bytes offset < columnOf bytes next := by
  obtain ⟨between, hSplit⟩ : bytes.take offset <+: bytes.take next := List.take_prefix_take_left h.le
  have hCount : (bytes.take offset).count newline + between.count newline = (bytes.take next).count newline := by
    rw [← List.count_append, hSplit]
  by_cases hNone : newline ∈ between
  · left
    have hSome := List.count_pos_iff.mpr hNone
    rw [lineOf, lineOf]
    omega
  · right
    have hSame : lastStart (bytes.take next) = lastStart (bytes.take offset) := by
      rw [← hSplit, lastStart_append hNone]
    have hBefore := lastStart_take_le bytes offset
    rw [List.count_eq_zero_of_not_mem hNone] at hCount
    rw [lineOf, lineOf, columnOf, columnOf, hSame]
    omega

end Text

namespace LineIndex

/-- How many lines begin at or before an offset, by halving: those before `low` do, and those from `high` on do not. -/
def bisect (index : LineIndex) (offset : UInt32) (low high : Nat) (inside : high ≤ index.starts.length) : Nat :=
  if h : low < high then
    let middle := (low + high) / 2
    have : middle < index.starts.length := by omega
    if index.starts[middle] ≤ offset then index.bisect offset (middle + 1) high inside
    else index.bisect offset low middle (by omega)
  else low
termination_by high - low

def found (index : LineIndex) (offset : UInt32) : Nat :=
  index.bisect offset 0 index.starts.length (Nat.le_refl _) - 1

def search? (index : LineIndex) (offset : UInt32) : Option (UInt32 × UInt32) := do
  let start ← index.starts[index.found offset]?
  let line ← Text.ordinal? (UInt32.ofNat (index.found offset))
  let column ← Text.ordinal? (offset - start)
  return (line, column)

def reached (index : LineIndex) (offset : UInt32) : List UInt32 :=
  index.starts.takeWhile (· ≤ offset)

theorem reached_prefix (index : LineIndex) (offset : UInt32) : index.reached offset <+: index.starts :=
  List.takeWhile_prefix _

theorem le_iff_lt_length_reached {index : LineIndex} (sorted : index.starts.Pairwise (· < ·)) {offset : UInt32}
    {i : Nat} (inside : i < index.starts.length) : index.starts[i] ≤ offset ↔ i < (index.reached offset).length := by
  obtain ⟨starts⟩ := index
  dsimp only [reached] at sorted inside ⊢
  induction starts generalizing i with
  | nil => exact absurd inside (Nat.not_lt_zero i)
  | cons start starts ih =>
    obtain ⟨hLater, hSorted⟩ := List.pairwise_cons.mp sorted
    rw [List.takeWhile_cons]
    split_ifs with hStart
    · cases i with
      | zero => simpa using hStart
      | succ i => simpa using ih hSorted (Nat.lt_of_succ_lt_succ inside)
    · have hAfter : offset < start := by simpa using hStart
      cases i with
      | zero => simpa using hAfter
      | succ i =>
        have hNext := hLater _ (List.getElem_mem (Nat.lt_of_succ_lt_succ inside))
        simpa using UInt32.lt_trans hAfter hNext

theorem bisect_eq {index : LineIndex} (sorted : index.starts.Pairwise (· < ·)) {offset : UInt32} {low high : Nat}
    {inside : high ≤ index.starts.length} (above : low ≤ (index.reached offset).length)
    (below : (index.reached offset).length ≤ high) :
    index.bisect offset low high inside = (index.reached offset).length := by
  fun_induction index.bisect offset low high inside with
  | case1 low high inside h middle hMiddle hReached ih =>
    have hLow := (le_iff_lt_length_reached sorted hMiddle).mp hReached
    exact ih hLow below
  | case2 low high inside h middle hMiddle hNotReached ih =>
    have hHigh := mt (le_iff_lt_length_reached sorted hMiddle).mpr hNotReached
    exact ih above (Nat.le_of_not_lt hHigh)
  | case3 low high inside h => omega

section

variable {index : LineIndex} {offset start : UInt32}

theorem lineColumn?_eq (last : (index.reached offset).getLast? = some start) :
    index.lineColumn? offset = do
      let line ← Text.ordinal? (UInt32.ofNat ((index.reached offset).length - 1))
      let column ← Text.ordinal? (offset - start)
      return (line, column) := by
  rw [lineColumn?, ← reached, last, Option.getD_some]

theorem found_eq (sorted : index.starts.Pairwise (· < ·)) (offset : UInt32) :
    index.found offset = (index.reached offset).length - 1 := by
  rw [found, bisect_eq sorted (Nat.zero_le _) (index.reached_prefix offset).length_le]

theorem getElem?_found (sorted : index.starts.Pairwise (· < ·)) (last : (index.reached offset).getLast? = some start) :
    index.starts[index.found offset]? = some start := by
  have hPos : 0 < (index.reached offset).length := List.length_pos_of_mem (List.mem_of_getLast? last)
  obtain ⟨others, hSplit⟩ := index.reached_prefix offset
  rw [found_eq sorted, ← hSplit, List.getElem?_append_left (Nat.sub_one_lt_of_lt hPos), ← List.getLast?_eq_getElem?,
    last]

/-- Halving leads to the line that stepping leads to. -/
theorem search?_eq (sorted : index.starts.Pairwise (· < ·)) (last : (index.reached offset).getLast? = some start) :
    index.search? offset = index.lineColumn? offset := by
  rw [search?, getElem?_found sorted last, lineColumn?_eq last, found_eq sorted]
  rfl

end

section

variable {source : String}

theorem map_reached (small : source.utf8ByteSize < UInt32.size) (offset : UInt32) :
    ((ofText source).reached offset).map (·.toNat) = Text.lineStarts ((Text.bytes source).take offset.toNat) := by
  rw [← Text.takeWhile_lineStarts, ← map_starts_ofText small, List.takeWhile_map, reached]
  congr

theorem exists_getLast?_reached (small : source.utf8ByteSize < UInt32.size) (offset : UInt32) :
    ∃ start, ((ofText source).reached offset).getLast? = some start ∧
      start.toNat = Text.lastStart ((Text.bytes source).take offset.toNat) := by
  have hLast := Text.getLast?_lineStarts ((Text.bytes source).take offset.toNat)
  rw [← map_reached small, List.getLast?_map] at hLast
  exact Option.map_eq_some_iff.mp hLast

theorem length_reached (small : source.utf8ByteSize < UInt32.size) (offset : UInt32) :
    ((ofText source).reached offset).length = Text.lineOf (Text.bytes source) offset.toNat := by
  rw [← List.length_map (·.toNat), map_reached small, Text.length_lineStarts, Text.lineOf]

theorem lineColumn?_ofText_eq_some_iff (small : source.utf8ByteSize < UInt32.size) {offset line column : UInt32} :
    (ofText source).lineColumn? offset = some (line, column) ↔
      line.toNat = Text.lineOf (Text.bytes source) offset.toNat ∧
        column.toNat = Text.columnOf (Text.bytes source) offset.toNat := by
  obtain ⟨start, hLast, hStart⟩ := exists_getLast?_reached small offset
  have hBefore := Text.lastStart_take_le (Text.bytes source) offset.toNat
  rw [← hStart] at hBefore
  have hLine : (UInt32.ofNat (((ofText source).reached offset).length - 1)).toNat + 1 =
      Text.lineOf (Text.bytes source) offset.toNat := by
    have hTaken : ((Text.bytes source).take offset.toNat).count Text.newline ≤ source.utf8ByteSize :=
      Nat.le_trans List.count_le_length (List.length_take_le' _ _)
    rw [length_reached small, Text.lineOf, Nat.add_sub_cancel,
      UInt32.toNat_ofNat_of_lt' (Nat.lt_of_le_of_lt hTaken small)]
  have hColumn : (offset - start).toNat + 1 = Text.columnOf (Text.bytes source) offset.toNat := by
    rw [UInt32.toNat_sub_of_le _ _ (UInt32.le_iff_toNat_le.mpr hBefore), hStart, Text.columnOf]
  rw [lineColumn?_eq hLast, ← hLine, ← hColumn, ← Text.ordinal?_eq_some_iff, ← Text.ordinal?_eq_some_iff]
  simp [Option.bind_eq_some_iff]

/-- An offset has a line and a column if words hold those of its place. -/
theorem isSome_lineColumn?_ofText (small : source.utf8ByteSize < UInt32.size) {offset : UInt32} :
    ((ofText source).lineColumn? offset).isSome = true ↔
      Text.lineOf (Text.bytes source) offset.toNat < UInt32.size ∧
        Text.columnOf (Text.bytes source) offset.toNat < UInt32.size := by
  rw [Option.isSome_iff_exists]
  constructor
  · rintro ⟨⟨line, column⟩, hPlace⟩
    obtain ⟨hLine, hColumn⟩ := (lineColumn?_ofText_eq_some_iff small).mp hPlace
    exact ⟨hLine ▸ UInt32.toNat_lt_size line, hColumn ▸ UInt32.toNat_lt_size column⟩
  · rintro ⟨hLine, hColumn⟩
    exact ⟨(.ofNat _, .ofNat _), (lineColumn?_ofText_eq_some_iff small).mpr
      ⟨UInt32.toNat_ofNat_of_lt' hLine, UInt32.toNat_ofNat_of_lt' hColumn⟩⟩

theorem search?_ofText (small : source.utf8ByteSize < UInt32.size) (offset : UInt32) :
    (ofText source).search? offset = (ofText source).lineColumn? offset :=
  let ⟨_, hLast, _⟩ := exists_getLast?_reached small offset
  search?_eq (pairwise_starts_ofText small) hLast

theorem found_lt_ofText (small : source.utf8ByteSize < UInt32.size) (offset : UInt32) :
    (ofText source).found offset < (ofText source).starts.length :=
  let ⟨_, hLast, _⟩ := exists_getLast?_reached small offset
  (List.getElem?_eq_some_iff.mp (getElem?_found (pairwise_starts_ofText small) hLast)).1

/-- With a word left above it, an offset has a line and a column. -/
theorem exists_lineColumn?_ofText (small : source.utf8ByteSize < UInt32.size) {offset : UInt32}
    (free : offset.toNat + 1 < UInt32.size) :
    ∃ line column, (ofText source).lineColumn? offset = some (line, column) ∧
      line.toNat = Text.lineOf (Text.bytes source) offset.toNat ∧
      column.toNat = Text.columnOf (Text.bytes source) offset.toNat := by
  have hLine := Nat.lt_of_le_of_lt (Text.lineOf_le (Text.bytes source) offset.toNat) free
  have hColumn := Nat.lt_of_le_of_lt (Text.columnOf_le (Text.bytes source) offset.toNat) free
  obtain ⟨⟨line, column⟩, hPlace⟩ := Option.isSome_iff_exists.mp ((isSome_lineColumn?_ofText small).mpr ⟨hLine, hColumn⟩)
  exact ⟨line, column, hPlace, (lineColumn?_ofText_eq_some_iff small).mp hPlace⟩

theorem lineColumn?_lt_of_lt (small : source.utf8ByteSize < UInt32.size) {offset next : UInt32} (before : offset < next)
    (free : next.toNat + 1 < UInt32.size) :
    ∃ place later, (ofText source).lineColumn? offset = some place ∧ (ofText source).lineColumn? next = some later ∧
      Prod.Lex (· < ·) (· < ·) place later := by
  rw [UInt32.lt_iff_toNat_lt] at before
  obtain ⟨line, column, hPlace, hLine, hColumn⟩ :=
    exists_lineColumn?_ofText small (Nat.lt_of_le_of_lt before (Nat.lt_of_succ_lt free))
  obtain ⟨nextLine, nextColumn, hNext, hNextLine, hNextColumn⟩ := exists_lineColumn?_ofText small free
  refine ⟨_, _, hPlace, hNext, ?_⟩
  rw [Prod.lex_def, UInt32.lt_iff_toNat_lt, UInt32.lt_iff_toNat_lt, ← UInt32.toNat_inj, hLine, hColumn, hNextLine,
    hNextColumn]
  exact Text.place_lt_of_lt before

end

end LineIndex

/-- Inside a text that leaves a word free, every offset has a line, which is one more than the newlines before it, and a
column, one more than the bytes since the last of them. Searching by halving finds the same. No two offsets have the same
line and column, and the later one of two has the later line, or the later column of one line. -/
theorem line_and_column_of_offset (source : String) (small : source.utf8ByteSize < UInt32.size - 1) :
    let bytes := Text.bytes source
    let index := LineIndex.ofText source
    (∀ offset : UInt32, offset.toNat ≤ bytes.length → ∃ line column,
      index.lineColumn? offset = some (line, column) ∧
      line.toNat = 1 + (bytes.take offset.toNat).count Text.newline ∧
      column.toNat = 1 + ((bytes.take offset.toNat).rtakeWhile (· ≠ Text.newline)).length ∧
      index.search? offset = some (line, column)) ∧
    Set.InjOn index.lineColumn? {offset | offset.toNat ≤ bytes.length} ∧
    ∀ offset next : UInt32, offset < next → next.toNat ≤ bytes.length → ∃ place later,
      index.lineColumn? offset = some place ∧ index.lineColumn? next = some later ∧
      Prod.Lex (· < ·) (· < ·) place later := by
  intro bytes index
  have hSmall : source.utf8ByteSize < UInt32.size := Nat.lt_of_lt_of_le small (Nat.sub_le _ _)
  have hFree : ∀ offset : UInt32, offset.toNat ≤ bytes.length → offset.toNat + 1 < UInt32.size :=
    fun offset inside => Nat.add_lt_of_lt_sub (Nat.lt_of_le_of_lt inside small)
  have hDiffer : ∀ offset next : UInt32, offset < next → next.toNat ≤ bytes.length →
      index.lineColumn? offset ≠ index.lineColumn? next := by
    intro offset next before inside same
    obtain ⟨place, later, hPlace, hLater, hOrder⟩ := LineIndex.lineColumn?_lt_of_lt hSmall before (hFree next inside)
    obtain rfl : place = later := Option.some.inj (hPlace.symm.trans (same.trans hLater))
    simp [Prod.lex_def] at hOrder
  refine ⟨fun offset inside => ?_, fun offset inside next nextInside same => ?_, fun offset next before inside =>
    LineIndex.lineColumn?_lt_of_lt hSmall before (hFree next inside)⟩
  · obtain ⟨line, column, hPlace, hLine, hColumn⟩ := LineIndex.exists_lineColumn?_ofText hSmall (hFree offset inside)
    exact ⟨line, column, hPlace, hLine.trans (Nat.add_comm _ _), hColumn.trans (Text.columnOf_eq_of_le inside),
      (LineIndex.search?_ofText hSmall offset).trans hPlace⟩
  · by_contra hOther
    rcases UInt32.lt_or_lt_of_ne hOther with hBefore | hBehind
    · exact hDiffer offset next hBefore nextInside same
    · exact hDiffer next offset hBehind inside same.symm

/-- A character of two bytes and an empty line. The offset 1 is inside the character, and 5 is the end of the text. -/
theorem line_and_column_of_offset_accent :
    let source := "é\n\nx"
    let index := LineIndex.ofText source
    source.utf8ByteSize < UInt32.size - 1 ∧ (5 : UInt32).toNat ≤ (Text.bytes source).length ∧
    index.lineColumn? 5 = some (3, 2) ∧ index.search? 5 = some (3, 2) ∧ index.lineColumn? 1 ≠ index.lineColumn? 5 ∧
    ∃ place, index.lineColumn? 1 = some place ∧ Prod.Lex (· < ·) (· < ·) place (3, 2) := by
  intro source index
  have hSmall : source.utf8ByteSize < UInt32.size - 1 := by decide +kernel
  have hEnd : (5 : UInt32).toNat ≤ (Text.bytes source).length := by decide +kernel
  have hInside : (1 : UInt32).toNat ≤ (Text.bytes source).length := by decide +kernel
  obtain ⟨hPlaces, hInjective, hOrder⟩ := line_and_column_of_offset source hSmall
  obtain ⟨line, column, hPlace, hLine, hColumn, hSearch⟩ := hPlaces 5 hEnd
  obtain rfl : line = 3 := UInt32.toNat_inj.mp (hLine.trans (by decide +kernel))
  obtain rfl : column = 2 := UInt32.toNat_inj.mp (hColumn.trans (by decide +kernel))
  obtain ⟨place, later, hFirst, hLater, hLess⟩ := hOrder 1 5 (by decide) hEnd
  obtain rfl : (3, 2) = later := Option.some.inj (hPlace.symm.trans hLater)
  exact ⟨hSmall, hEnd, hPlace, hSearch, fun same => absurd (hInjective hInside hEnd same) (by decide), place, hFirst, hLess⟩

end RecordSynthesis
