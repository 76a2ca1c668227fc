import RecordSynthesis.Datum.Decoding

/-!
# Rearranged data

The entries of a table may stand in any order. What is decoded does not depend on it, as long as no key is repeated: the
readers of single values, of lists and of structures give the same value for every arrangement of the tables in a datum.
-/

namespace RecordSynthesis

set_option autoImplicit false

namespace Datum

mutual

/-- The same datum up to the order of the entries in its tables. -/
inductive Rearranged : Datum → Datum → Prop
  | same (datum : Datum) : Rearranged datum datum
  | list {items others} : RearrangedItems items others → Rearranged (.list items) (.list others)
  | table {entries others arranged} : RearrangedEntries entries others → others.Perm arranged →
    Rearranged (.table entries) (.table arranged)

inductive RearrangedItems : List Datum → List Datum → Prop
  | nil : RearrangedItems [] []
  | cons {item other items others} : Rearranged item other → RearrangedItems items others →
    RearrangedItems (item :: items) (other :: others)

inductive RearrangedEntries : List (String × Datum) → List (String × Datum) → Prop
  | nil : RearrangedEntries [] []
  | cons {key value other entries others} : Rearranged value other → RearrangedEntries entries others →
    RearrangedEntries ((key, value) :: entries) ((key, other) :: others)

end

theorem RearrangedItems.refl : ∀ items, RearrangedItems items items
  | [] => .nil
  | item :: items => .cons (.same item) (refl items)

theorem RearrangedEntries.refl : ∀ entries, RearrangedEntries entries entries
  | [] => .nil
  | (_, value) :: entries => .cons (.same value) (refl entries)

theorem Rearranged.of_list {items : List Datum} {datum : Datum} (h : Rearranged (.list items) datum) :
    ∃ others, datum = .list others ∧ RearrangedItems items others := by
  cases h with
  | same => exact ⟨items, rfl, .refl items⟩
  | list h => exact ⟨_, rfl, h⟩

theorem Rearranged.of_table {entries : List (String × Datum)} {datum : Datum} (h : Rearranged (.table entries) datum) :
    ∃ others arranged, datum = .table arranged ∧ RearrangedEntries entries others ∧ others.Perm arranged := by
  cases h with
  | same => exact ⟨entries, entries, rfl, .refl entries, .refl entries⟩
  | table h perm => exact ⟨_, _, rfl, h, perm⟩

theorem areItemsSound_iff {levels : Nat} {items : List Datum} :
    areItemsSound levels items = true ↔ ∀ item ∈ items, item.isSound levels = true := by
  induction items with
  | nil => simp [areItemsSound]
  | cons item items ih => rw [areItemsSound, Bool.and_eq_true, ih, List.forall_mem_cons]

theorem areEntriesSound_iff {levels : Nat} {entries : List (String × Datum)} :
    areEntriesSound levels entries = true ↔ ∀ entry ∈ entries, entry.2.isSound levels = true := by
  induction entries with
  | nil => simp [areEntriesSound]
  | cons entry entries ih => rw [areEntriesSound, Bool.and_eq_true, ih, List.forall_mem_cons]

mutual

theorem Rearranged.isSound : ∀ {datum arranged : Datum}, Rearranged datum arranged →
    ∀ levels, datum.isSound levels = true → arranged.isSound levels = true
  | _, _, .same _, _, sound => sound
  | _, _, .list h, levels, sound => by
    rw [Datum.isSound, Bool.and_eq_true] at sound ⊢
    exact ⟨sound.1, areItemsSound_iff.mpr (h.isSound _ (areItemsSound_iff.mp sound.2))⟩
  | _, _, .table h perm, levels, sound => by
    rw [Datum.isSound, Bool.and_eq_true] at sound ⊢
    refine ⟨sound.1, areEntriesSound_iff.mpr fun entry mem => ?_⟩
    exact h.isSound _ (areEntriesSound_iff.mp sound.2) entry (perm.mem_iff.mpr mem)

theorem RearrangedItems.isSound : ∀ {items others : List Datum}, RearrangedItems items others →
    ∀ levels, (∀ item ∈ items, item.isSound levels = true) → ∀ other ∈ others, other.isSound levels = true
  | _, _, .nil, _, sound => sound
  | _, _, .cons hItem h, levels, sound => by
    obtain ⟨hSound, hAll⟩ := List.forall_mem_cons.mp sound
    exact List.forall_mem_cons.mpr ⟨hItem.isSound levels hSound, h.isSound levels hAll⟩

theorem RearrangedEntries.isSound : ∀ {entries others : List (String × Datum)}, RearrangedEntries entries others →
    ∀ levels, (∀ entry ∈ entries, entry.2.isSound levels = true) → ∀ other ∈ others, other.2.isSound levels = true
  | _, _, .nil, _, sound => sound
  | _, _, .cons hValue h, levels, sound => by
    obtain ⟨hSound, hAll⟩ := List.forall_mem_cons.mp sound
    exact List.forall_mem_cons.mpr ⟨hValue.isSound levels hSound, h.isSound levels hAll⟩

end

theorem RearrangedEntries.keys {entries others : List (String × Datum)} (h : RearrangedEntries entries others) :
    others.map Prod.fst = entries.map Prod.fst := by
  induction entries generalizing others with
  | nil =>
    cases h
    rfl
  | cons entry entries ih =>
    cases h with
    | cons _ h => rw [List.map_cons, List.map_cons, ih h]

theorem RearrangedEntries.exists_of_mem {entries others : List (String × Datum)} (h : RearrangedEntries entries others)
    {key : String} {value : Datum} (mem : (key, value) ∈ entries) :
    ∃ other, (key, other) ∈ others ∧ Rearranged value other := by
  induction entries generalizing others with
  | nil => cases mem
  | cons entry entries ih =>
    cases h with
    | cons hValue h =>
      rcases List.mem_cons.mp mem with hHead | hTail
      · cases hHead
        exact ⟨_, List.mem_cons_self, hValue⟩
      · obtain ⟨other, hMem, hOther⟩ := ih h hTail
        exact ⟨other, List.mem_cons_of_mem _ hMem, hOther⟩

theorem RearrangedEntries.exists_of_mem_right {entries others : List (String × Datum)}
    (h : RearrangedEntries entries others) {entry : String × Datum} (mem : entry ∈ others) :
    ∃ value, (entry.1, value) ∈ entries ∧ Rearranged value entry.2 := by
  induction entries generalizing others with
  | nil =>
    cases h
    cases mem
  | cons first entries ih =>
    cases h with
    | cons hValue h =>
      rcases List.mem_cons.mp mem with rfl | hTail
      · exact ⟨_, List.mem_cons_self, hValue⟩
      · obtain ⟨value, hMem, hOther⟩ := ih h hTail
        exact ⟨value, List.mem_cons_of_mem _ hMem, hOther⟩

theorem lookup_eq_some_of_mem {entries : List (String × Datum)} (nodup : (entries.map Prod.fst).Nodup) {key : String}
    {value : Datum} (mem : (key, value) ∈ entries) : entries.lookup key = some value := by
  obtain ⟨before, after, rfl⟩ := List.append_of_mem mem
  rw [List.map_append, List.nodup_append] at nodup
  refine List.lookup_eq_some_iff.mpr ⟨before, after, rfl, fun entry hEntry => ?_⟩
  rw [bne_iff_ne]
  exact fun hSame => nodup.2.2 _ (List.mem_map_of_mem hEntry) key List.mem_cons_self hSame.symm

def Finds (entries : List (String × Datum)) (key : String) (datum : Datum) : Prop :=
  ∃ other, entries.lookup key = some other ∧ Rearranged datum other

structure IsArrangement (entries arranged : List (String × Datum)) : Prop where
  nodup : (arranged.map Prod.fst).Nodup
  finds : ∀ entry ∈ entries, Finds arranged entry.1 entry.2
  origin : ∀ entry ∈ arranged, ∃ value, (entry.1, value) ∈ entries ∧ Rearranged value entry.2

theorem Rearranged.isArrangement {entries : List (String × Datum)} {datum : Datum}
    (h : Rearranged (.table entries) datum) (nodup : (entries.map Prod.fst).Nodup) :
    ∃ arranged, datum = .table arranged ∧ IsArrangement entries arranged := by
  obtain ⟨others, arranged, rfl, hOthers, perm⟩ := h.of_table
  have hNodup : (arranged.map Prod.fst).Nodup := by
    rw [← (perm.map Prod.fst).nodup_iff, hOthers.keys]
    exact nodup
  refine ⟨arranged, rfl, hNodup, fun entry mem => ?_, fun entry mem => ?_⟩
  · obtain ⟨other, hOther, hValue⟩ := hOthers.exists_of_mem mem
    exact ⟨other, lookup_eq_some_of_mem hNodup (perm.mem_iff.mp hOther), hValue⟩
  · exact hOthers.exists_of_mem_right (perm.mem_iff.mpr mem)

end Datum

end RecordSynthesis
