import Mathlib.Data.List.DropRight
import RecordSynthesis.Text.Position

/-!
# Line starts

The lines of a text begin at its first byte and behind each of its newline bytes. A line index goes through characters,
but of all characters only the newline has that byte in its encoding, so the index holds these offsets, in order. Where
the text has fewer bytes than there are words, it holds them as they are.
-/

namespace RecordSynthesis

set_option autoImplicit false

namespace Text

def newline : UInt8 := 10

def bytes (source : String) : List UInt8 :=
  source.toByteArray.data.toList

@[simp] theorem length_bytes (source : String) : (bytes source).length = source.utf8ByteSize := rfl

theorem bytes_eq_flatMap (source : String) : bytes source = source.toList.flatMap String.utf8EncodeChar := by
  rw [bytes, ← String.utf8Encode_toList, List.utf8Encode, List.toList_data_toByteArray]

theorem newline_notMem_utf8EncodeChar {c : Char} (h : c ≠ '\n') : newline ∉ String.utf8EncodeChar c := by
  have hOther : c.val.toNat ≠ 10 := fun hValue => h (Char.ext (UInt32.toNat_inj.mp hValue))
  rw [String.utf8EncodeChar]
  split_ifs with hOne hTwo hThree <;>
    simp only [newline, List.mem_cons, List.not_mem_nil, or_false, ← UInt8.toNat_inj, UInt8.toNat_ofNat',
      UInt8.reduceToNat] <;>
    omega

/-- A line begins at the start of a text and behind each of its newlines. -/
def BeginsLine (bytes : List UInt8) (start : Nat) : Prop :=
  start = 0 ∨ ∃ i, bytes[i]? = some newline ∧ start = i + 1

def lineStarts (bytes : List UInt8) : List Nat :=
  0 :: bytes.idxsOf newline 1

theorem mem_lineStarts {bytes : List UInt8} {start : Nat} : start ∈ lineStarts bytes ↔ BeginsLine bytes start := by
  rw [lineStarts, List.mem_cons, List.mem_idxsOf_iff_getElem_sub_pos, BeginsLine]
  refine or_congr_right ⟨?_, ?_⟩
  · rintro ⟨hBehind, hInside, hByte⟩
    exact ⟨start - 1, List.getElem?_eq_some_iff.mpr ⟨hInside, eq_of_beq hByte⟩, (Nat.sub_add_cancel hBehind).symm⟩
  · rintro ⟨i, hByte, rfl⟩
    obtain ⟨hInside, hNewline⟩ := List.getElem?_eq_some_iff.mp hByte
    exact ⟨Nat.le_add_left 1 i, hInside, beq_iff_eq.mpr hNewline⟩

theorem pairwise_lineStarts (bytes : List UInt8) : (lineStarts bytes).Pairwise (· < ·) :=
  List.pairwise_cons.mpr ⟨List.ge_of_mem_idxsOf, List.pairwise_idxsOf⟩

theorem length_lineStarts (bytes : List UInt8) : (lineStarts bytes).length = bytes.count newline + 1 := by
  rw [lineStarts, List.length_cons, List.length_idxsOf]

theorem BeginsLine.le_length {bytes : List UInt8} {start : Nat} (begins : BeginsLine bytes start) :
    start ≤ bytes.length := by
  rcases begins with rfl | ⟨i, hByte, rfl⟩
  · exact Nat.zero_le _
  · exact (List.getElem?_eq_some_iff.mp hByte).1

theorem beginsLine_take {bytes : List UInt8} {count start : Nat} :
    BeginsLine (bytes.take count) start ↔ BeginsLine bytes start ∧ start ≤ count := by
  constructor
  · rintro (rfl | ⟨i, hByte, rfl⟩)
    · exact ⟨.inl rfl, Nat.zero_le _⟩
    · rw [List.getElem?_take] at hByte
      split_ifs at hByte with hInside
      exact ⟨.inr ⟨i, hByte, rfl⟩, hInside⟩
  · rintro ⟨rfl | ⟨i, hByte, rfl⟩, hInside⟩
    · exact .inl rfl
    · exact .inr ⟨i, by rw [List.getElem?_take, if_pos (Nat.lt_of_succ_le hInside), hByte], rfl⟩

theorem lineStarts_append (before after : List UInt8) :
    lineStarts (before ++ after) = lineStarts before ++ after.idxsOf newline (before.length + 1) := by
  rw [lineStarts, List.idxsOf_append, ← List.cons_append, ← lineStarts, Nat.add_comm 1]

/-- The lines that begin within the first bytes are those of these bytes by themselves. -/
theorem takeWhile_lineStarts (count : Nat) (bytes : List UInt8) :
    (lineStarts bytes).takeWhile (· ≤ count) = lineStarts (bytes.take count) := by
  have hWithin : ∀ start ∈ lineStarts (bytes.take count), decide (start ≤ count) = true := fun start mem =>
    decide_eq_true (beginsLine_take.mp (mem_lineStarts.mp mem)).2
  have hBeyond : ∀ start ∈ (bytes.drop count).idxsOf newline ((bytes.take count).length + 1), ¬start ≤ count := by
    intro start mem
    have hFirst := List.ge_of_mem_idxsOf start mem
    have hLast := List.lt_add_of_mem_idxsOf start mem
    rw [List.length_take] at hFirst hLast
    rw [List.length_drop] at hLast
    omega
  have hNone : ((bytes.drop count).idxsOf newline ((bytes.take count).length + 1)).takeWhile (· ≤ count) = [] :=
    List.takeWhile_eq_nil_iff.mpr fun nonempty reached =>
      hBeyond _ (List.get_mem _ ⟨0, nonempty⟩) (of_decide_eq_true reached)
  conv_lhs => rw [← List.take_append_drop count bytes]
  rw [lineStarts_append, List.takeWhile_append_of_pos hWithin, hNone, List.append_nil]

/-- Where the last line of some bytes begins: behind their last newline, or at the first of them. -/
def lastStart (bytes : List UInt8) : Nat :=
  (bytes.rdropWhile (· ≠ newline)).length

theorem lastStart_concat (bytes : List UInt8) (byte : UInt8) :
    lastStart (bytes ++ [byte]) = if byte = newline then bytes.length + 1 else lastStart bytes := by
  rw [lastStart, List.rdropWhile_concat]
  split_ifs <;> simp_all [lastStart]

theorem lastStart_add_length (bytes : List UInt8) :
    lastStart bytes + (bytes.rtakeWhile (· ≠ newline)).length = bytes.length := by
  rw [lastStart, ← List.length_append, List.rdropWhile_append_rtakeWhile]

theorem lastStart_le (bytes : List UInt8) : lastStart bytes ≤ bytes.length :=
  Nat.le.intro (lastStart_add_length bytes)

theorem lastStart_eq_zero_iff {bytes : List UInt8} : lastStart bytes = 0 ↔ newline ∉ bytes := by
  rw [lastStart, List.length_eq_zero_iff, List.rdropWhile_eq_nil_iff]
  constructor
  · intro h mem
    simpa using h newline mem
  · intro h byte mem
    exact decide_eq_true fun hByte => h (hByte ▸ mem)

theorem getLast?_lineStarts (bytes : List UInt8) : (lineStarts bytes).getLast? = some (lastStart bytes) := by
  induction bytes using List.reverseRecOn with
  | nil => rfl
  | append_singleton bytes byte ih =>
    rw [lineStarts_append, lastStart_concat, List.idxsOf_cons, List.idxsOf_nil]
    by_cases hByte : byte = newline
    · rw [if_pos (beq_iff_eq.mpr hByte), if_pos hByte, List.getLast?_concat]
    · rw [if_neg (mt beq_iff_eq.mp hByte), if_neg hByte, List.append_nil, ih]

theorem beginsLine_lastStart (bytes : List UInt8) : BeginsLine bytes (lastStart bytes) :=
  mem_lineStarts.mp (List.mem_of_getLast? (getLast?_lineStarts bytes))

theorem BeginsLine.le_lastStart {bytes : List UInt8} {start : Nat} (begins : BeginsLine bytes start) :
    start ≤ lastStart bytes := by
  induction bytes using List.reverseRecOn with
  | nil => exact begins.le_length
  | append_singleton bytes byte ih =>
    rw [lastStart_concat]
    split_ifs with hByte
    · simpa using begins.le_length
    · rcases begins with rfl | ⟨i, hAt, rfl⟩
      · exact Nat.zero_le _
      · rw [List.getElem?_append] at hAt
        split_ifs at hAt
        · exact ih (.inr ⟨i, hAt, rfl⟩)
        · exact absurd (List.mem_singleton.mp (List.mem_of_getElem? hAt)).symm hByte

theorem count_take_lastStart (bytes : List UInt8) :
    (bytes.take (lastStart bytes)).count newline = bytes.count newline := by
  have hRest : newline ∉ bytes.rtakeWhile (· ≠ newline) := fun mem => by
    simpa using List.mem_rtakeWhile_imp mem
  have hSplit : bytes.rdropWhile (· ≠ newline) ++ bytes.rtakeWhile (· ≠ newline) = bytes :=
    List.rdropWhile_append_rtakeWhile
  have hTake : bytes.take (lastStart bytes) = bytes.rdropWhile (· ≠ newline) :=
    (List.prefix_iff_eq_take.mp (List.rdropWhile_prefix _ _)).symm
  calc
    (bytes.take (lastStart bytes)).count newline
      = (bytes.rdropWhile (· ≠ newline)).count newline + (bytes.rtakeWhile (· ≠ newline)).count newline := by
        rw [hTake, List.count_eq_zero_of_not_mem hRest, Nat.add_zero]
    _ = bytes.count newline := by rw [← List.count_append, hSplit]

theorem lastStart_append {before after : List UInt8} (h : newline ∉ after) :
    lastStart (before ++ after) = lastStart before := by
  induction after using List.reverseRecOn with
  | nil => rw [List.append_nil]
  | append_singleton after byte ih =>
    rw [List.mem_append, List.mem_singleton, not_or] at h
    rw [← List.append_assoc, lastStart_concat, if_neg (Ne.symm h.2), ih h.1]

theorem lineStartsFrom_eq (offset : Nat) (chars : List Char) :
    lineStartsFrom offset chars =
      ((chars.flatMap String.utf8EncodeChar).idxsOf newline (offset + 1)).map UInt32.ofNat := by
  induction chars generalizing offset with
  | nil => rfl
  | cons c chars ih =>
    rw [lineStartsFrom, ih, List.flatMap_cons, List.idxsOf_append, String.length_utf8EncodeChar, List.map_append,
      Nat.add_right_comm offset 1]
    split_ifs with hChar
    · subst hChar
      rfl
    · have hNone : (String.utf8EncodeChar c).idxsOf newline (offset + 1) = [] := by
        rw [← List.length_eq_zero_iff, List.length_idxsOf]
        exact List.count_eq_zero_of_not_mem (newline_notMem_utf8EncodeChar hChar)
      rw [hNone, List.map_nil, List.nil_append]

end Text

namespace LineIndex

/-- In a text of fewer bytes than there are words, every line start is a word. -/
theorem map_starts_ofText {source : String} (small : source.utf8ByteSize < UInt32.size) :
    (ofText source).starts.map (·.toNat) = Text.lineStarts (Text.bytes source) := by
  have hStarts : (ofText source).starts = (Text.lineStarts (Text.bytes source)).map UInt32.ofNat := by
    rw [ofText, Text.lineStartsFrom_eq, ← Text.bytes_eq_flatMap]
    rfl
  rw [hStarts, List.map_map]
  refine (List.map_congr_left fun start mem => ?_).trans (List.map_id _)
  have hInside := (Text.mem_lineStarts.mp mem).le_length
  exact UInt32.toNat_ofNat_of_lt' (Nat.lt_of_le_of_lt hInside small)

theorem pairwise_starts_ofText {source : String} (small : source.utf8ByteSize < UInt32.size) :
    (ofText source).starts.Pairwise (· < ·) := by
  have hSorted := Text.pairwise_lineStarts (Text.bytes source)
  rw [← map_starts_ofText small, List.pairwise_map] at hSorted
  exact hSorted.imp UInt32.lt_iff_toNat_lt.mpr

end LineIndex

end RecordSynthesis
