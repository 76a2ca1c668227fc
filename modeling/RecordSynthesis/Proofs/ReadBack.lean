import RecordSynthesis.Proofs.Rearrangement
import RecordSynthesis.Proofs.DecodedTypes
import RecordSynthesis.Decl.Encoding

/-!
# Reading back single values and structures

A value is read back from its data form however the tables in it are arranged. For a structure it is enough that under
the key of each field stands the data form of its value: then no field is missing, and no entry is at fault.
-/

namespace RecordSynthesis

set_option autoImplicit false

namespace Datum

def Reads {α : Type} (read : Datum → Except DecodeError α) (datum : Datum) (value : α) : Prop :=
  ∀ arranged, Rearranged datum arranged → read arranged = .ok value

theorem Reads.map {α β : Type} {read : Datum → Except DecodeError α} {datum : Datum} {value : α}
    (h : Reads read datum value) (f : α → β) : Reads (fun datum => (read datum).map f) datum (f value) := by
  intro arranged hArranged
  exact congrArg (Except.map f) (h arranged hArranged)

theorem Rearranged.eq_of_text {value : String} {datum : Datum} (h : Rearranged (.text value) datum) :
    datum = .text value := by
  cases h
  rfl

theorem reads_text (value : String) : Reads asText (.text value) value := by
  rintro _ ⟨⟩
  rfl

theorem reads_bool (value : Bool) : Reads asBool (.bool value) value := by
  rintro _ ⟨⟩
  rfl

theorem asWord_toNat (word : UInt32) : asWord (.int (Int.ofNat word.toNat)) = .ok word := by
  have hRange : 0 ≤ Int.ofNat word.toNat ∧ Int.ofNat word.toNat < Int.ofNat UInt32.size :=
    ⟨Int.natCast_nonneg _, Int.ofNat_lt.mpr word.toNat_lt_size⟩
  rw [asWord, if_pos hRange]
  exact congrArg Except.ok (UInt32.ofNat_toNat)

theorem surplus_self (reading : Reading) (length : Nat) : reading.surplus length length = none := by
  rw [Reading.surplus.eq_def, if_pos (Nat.le_refl length)]

theorem reads_word (word : UInt32) : Reads asWord (.int (Int.ofNat word.toNat)) word := by
  rintro _ ⟨⟩
  exact asWord_toNat word

theorem asType_canonical {type : Ty} (written : type.WrittenIn []) : asType (.text type.canonical) = .ok type := by
  have hRead := Ty.read_canonical written
  rw [asType, bind_eq_ok_iff]
  exact ⟨type.canonical, rfl, by rw [hRead]⟩

theorem reads_type {type : Ty} (written : type.WrittenIn []) : Reads asType type.toDatum type := by
  intro arranged h
  obtain rfl : arranged = .text type.canonical := h.eq_of_text
  exact asType_canonical written

theorem asSpan_toDatum (reading : Reading) {span : Span} (ordered : span.start ≤ span.stop) :
    asSpan reading span.toDatum = .ok span := by
  have hSurplus := surplus_self reading 2
  rw [Span.toDatum, asSpan, bind_eq_ok_iff]
  refine ⟨span.start, asWord_toNat _, ?_⟩
  rw [bind_eq_ok_iff]
  refine ⟨span.stop, asWord_toNat _, ?_⟩
  rw [List.length_nil, hSurplus]
  exact if_pos ordered

theorem reads_span (reading : Reading) {span : Span} (ordered : span.start ≤ span.stop) :
    Reads (asSpan reading) span.toDatum span := by
  intro arranged h
  have hSame : arranged = span.toDatum := by
    obtain ⟨_, rfl, hItems⟩ := h.of_list
    cases hItems with
    | cons hStart hItems =>
      cases hItems with
      | cons hStop hItems =>
        cases hItems
        cases hStart
        cases hStop
        rfl
  rw [hSame, asSpan_toDatum reading ordered]

theorem reads_variant {α : Type} (reading : Reading) {variants : List (String × α)} {name : String} {value : α}
    (h : variants.find? (fun variant => variant.1 = name) = some (name, value)) :
    Reads (asVariant reading variants) (.text name) value := by
  rintro _ ⟨⟩
  simp only [asVariant, h]

theorem Rearranged.eq_null {datum : Datum} (h : Rearranged datum .null) : datum = .null := by
  cases h
  rfl

theorem reads_option {α : Type} {read : Datum → Except DecodeError α} {encode : α → Datum} {value : Option α}
    (hNull : ∀ a, encode a ≠ .null) (h : ∀ a ∈ value, Reads read (encode a) a) :
    Reads (asOption read) (ofOption encode value) value := by
  intro arranged hArranged
  cases value with
  | none =>
    cases hArranged
    rfl
  | some a =>
    have hRead := h a rfl arranged hArranged
    rw [asOption.eq_def]
    split
    · exact absurd hArranged.eq_null (hNull a)
    · rw [hRead]
      rfl

theorem reads_list {α : Type} {read : Datum → Except DecodeError α} {encode : α → Datum} {values : List α}
    (h : ∀ a ∈ values, Reads read (encode a) a) : Reads (asList read) (.list (values.map encode)) values := by
  intro arranged hArranged
  obtain ⟨items, rfl, hItems⟩ := hArranged.of_list
  change items.mapM read = .ok values
  clear hArranged
  induction values generalizing items with
  | nil =>
    cases hItems
    rfl
  | cons a values ih =>
    cases hItems with
    | cons hItem hItems =>
      obtain ⟨hHead, hTail⟩ := List.forall_mem_cons.mp h
      rw [List.mapM_cons, hHead _ hItem, ih hTail _ hItems]
      rfl

theorem Rearranged.isMark {datum arranged : Datum} (h : Rearranged datum arranged) :
    arranged.isMark = datum.isMark := by
  cases h <;> rfl

theorem isMark_of_isSound {levels : Nat} {datum : Datum} (h : datum.isSound levels = true) : datum.isMark = false := by
  cases datum with
  | unusable | misnamed | broken =>
    rw [isSound] at h
    cases h
  | _ => rfl

@[simp] theorem isSound_text (levels : Nat) (value : String) : (Datum.text value).isSound levels = true := by
  simp [isSound]

@[simp] theorem isSound_bool (levels : Nat) (value : Bool) : (Datum.bool value).isSound levels = true := by
  simp [isSound]

@[simp] theorem isSound_int (levels : Nat) (value : Int) : (Datum.int value).isSound levels = true := by
  simp [isSound]

theorem isSound_list {levels : Nat} {items : List Datum} (h : ∀ item ∈ items, item.isSound levels = true) :
    (Datum.list items).isSound (levels + 1) = true := by
  rw [isSound, Bool.and_eq_true]
  exact ⟨decide_eq_true (Nat.succ_pos levels), areItemsSound_iff.mpr h⟩

theorem isSound_table {levels : Nat} {entries : List (String × Datum)}
    (h : ∀ entry ∈ entries, entry.2.isSound levels = true) : (Datum.table entries).isSound (levels + 1) = true := by
  rw [isSound, Bool.and_eq_true]
  exact ⟨decide_eq_true (Nat.succ_pos levels), areEntriesSound_iff.mpr h⟩

@[simp] theorem failure?_ok {α : Type} (a : α) : failure? (.ok a) = none := rfl

theorem exists_lookup_zip {fields : List String} {failures : List (Option DecodeError)}
    (hLength : failures.length = fields.length) (hNone : ∀ failure ∈ failures, failure = none) {field : String}
    (mem : field ∈ fields) : (fields.zip failures).lookup field = some none := by
  induction fields generalizing failures with
  | nil => cases mem
  | cons first fields ih =>
    cases failures with
    | nil => cases hLength
    | cons failure failures =>
      obtain ⟨rfl, hOthers⟩ := List.forall_mem_cons.mp hNone
      rw [List.zip_cons_cons, List.lookup_cons]
      cases hFirst : field == first with
      | true => rfl
      | false =>
        refine ih (Nat.succ.inj hLength) hOthers ((List.mem_cons.mp mem).resolve_left ?_)
        simpa using hFirst

/-- A table in which no known field is at fault, repeated or misnamed has no fault. -/
theorem fault?_eq_none {layout : Layout} {failures : List (String × Option DecodeError)}
    {entries : List (String × Datum)} {seen : List String}
    (known : ∀ entry ∈ entries, failures.lookup entry.1 = some none) (nodup : (entries.map Prod.fst).Nodup)
    (unseen : ∀ entry ∈ entries, entry.1 ∉ seen) (unmarked : ∀ entry ∈ entries, entry.2.isMark = false) :
    layout.fault? failures seen entries = none := by
  induction entries generalizing seen with
  | nil => rfl
  | cons entry entries ih =>
    obtain ⟨key, value⟩ := entry
    obtain ⟨hKnown, hKnownOthers⟩ := List.forall_mem_cons.mp known
    obtain ⟨hUnseen, hUnseenOthers⟩ := List.forall_mem_cons.mp unseen
    obtain ⟨hUnmarked, hUnmarkedOthers⟩ := List.forall_mem_cons.mp unmarked
    obtain ⟨hKey, hNodup⟩ := List.nodup_cons.mp nodup
    have hLater : ∀ entry ∈ entries, entry.1 ∉ key :: seen := by
      intro other hOther hMem
      rcases List.mem_cons.mp hMem with hSame | hSeen
      · exact hKey (List.mem_map.mpr ⟨other, hOther, hSame⟩)
      · exact hUnseenOthers other hOther hSeen
    rw [Layout.fault?.eq_def]
    split
    · rfl
    · rename_i hEntries
      cases hEntries
      cases hUnmarked
    · rename_i hEntries
      cases hEntries
      rw [hKnown]
      simp [hUnseen, ih hKnownOthers hNodup hLater hUnmarkedOthers]

section

variable {layout : Layout} {arranged : List (String × Datum)} {field : String} {datum : Datum} {α : Type}
  {read : Datum → Except DecodeError α} {a : α}

theorem Finds.required (h : Finds arranged field datum) (reads : Reads read datum a) :
    (Opened.mk layout false arranged none).required field read = .ok a := by
  obtain ⟨other, hLookup, hOther⟩ := h
  rw [Opened.required, hLookup]
  exact reads other hOther

theorem Finds.optional {default : α} (h : Finds arranged field datum) (reads : Reads read datum a) :
    (Opened.mk layout false arranged none).optional field default read = .ok a := by
  obtain ⟨other, hLookup, hOther⟩ := h
  rw [Opened.optional, hLookup]
  exact reads other hOther

end

theorem IsArrangement.settle {layout : Layout} {entries arranged : List (String × Datum)}
    (h : IsArrangement entries arranged) (fields : entries.map Prod.fst = layout.fields)
    (sound : ∀ entry ∈ entries, entry.2.isSound heldLevels = true) {failures : List (Option DecodeError)}
    (hLength : failures.length = layout.fields.length) (hNone : ∀ failure ∈ failures, failure = none) :
    (Opened.mk layout false arranged none).settle failures = .ok () := by
  have hFault : layout.fault? (layout.fields.zip failures) [] arranged = none := by
    refine fault?_eq_none (fun entry mem => ?_) h.nodup (by simp) fun entry mem => ?_
    · obtain ⟨value, hValue, -⟩ := h.origin entry mem
      exact exists_lookup_zip hLength hNone (fields ▸ List.mem_map.mpr ⟨_, hValue, rfl⟩)
    · obtain ⟨value, hValue, hRearranged⟩ := h.origin entry mem
      rw [hRearranged.isMark, isMark_of_isSound (sound _ hValue)]
  have hFirst : failures.findSome? id = none := List.findSome?_eq_none_iff.mpr hNone
  simp [Opened.settle, hFault, hFirst]

end Datum

end RecordSynthesis
