import Mathlib.Data.Finset.Card
import RecordSynthesis.Proofs.Lineage

/-!
# Entries of a record table

A table keeps the sets in the order in which they were entered and finds the one entered last under a name. A table with
an index of positions does the same: the index leads from each name to its last set. Neither takes an earlier set of the
name out, so there is one entry for a name exactly if no name is entered twice.
-/

namespace RecordSynthesis

set_option autoImplicit false

namespace RecordTable

def ofList (entered : List MemberSet) : RecordTable :=
  entered.foldl insert {}

theorem sets_foldl_insert (entered : List MemberSet) (table : RecordTable) :
    (entered.foldl insert table).sets = table.sets ++ entered := by
  induction entered generalizing table with
  | nil => simp
  | cons set entered ih => rw [List.foldl_cons, ih, insert, List.append_assoc, List.singleton_append]

@[simp] theorem sets_ofList (entered : List MemberSet) : (ofList entered).sets = entered :=
  sets_foldl_insert entered {}

theorem get?_eq_some_iff {table : RecordTable} {name : String} {set : MemberSet} :
    table.get? name = some set ↔
      ∃ before after, table.sets = before ++ set :: after ∧ set.recordName = name ∧
        ∀ later ∈ after, later.recordName ≠ name := by
  rw [get?, List.find?_eq_some_iff_append]
  constructor
  · rintro ⟨hName, after, before, hSets, hAfter⟩
    refine ⟨before.reverse, after.reverse, ?_, of_decide_eq_true hName, by simpa using hAfter⟩
    rw [← List.reverse_inj, hSets]
    simp
  · rintro ⟨before, after, hSets, hName, hAfter⟩
    refine ⟨decide_eq_true hName, after.reverse, before.reverse, ?_, by simpa using hAfter⟩
    rw [hSets]
    simp

theorem get?_eq_none_iff {table : RecordTable} {name : String} :
    table.get? name = none ↔ ∀ set ∈ table.sets, set.recordName ≠ name := by
  simp [get?]

end RecordTable

/-- Sets in order, and for each name the position of its set. -/
structure IndexedTable where
  sets : List MemberSet := []
  positions : String → Option Nat := fun _ => none

namespace IndexedTable

def insert (table : IndexedTable) (set : MemberSet) : IndexedTable where
  sets := table.sets ++ [set]
  positions name := if set.recordName = name then some table.sets.length else table.positions name

def get? (table : IndexedTable) (name : String) : Option MemberSet :=
  (table.positions name).bind fun position => table.sets[position]?

def ofList (entered : List MemberSet) : IndexedTable :=
  entered.foldl insert {}

structure LeadsToLast (table : IndexedTable) : Prop where
  found : ∀ name position, table.positions name = some position →
    ∃ set, table.sets[position]? = some set ∧ set.recordName = name ∧
      ∀ later ∈ table.sets.drop (position + 1), later.recordName ≠ name
  missing : ∀ name, table.positions name = none → ∀ set ∈ table.sets, set.recordName ≠ name

theorem leadsToLast_empty : ({} : IndexedTable).LeadsToLast where
  found _ _ h := by cases h
  missing _ _ _ h := by cases h

/-- A set that is entered becomes the last one of its name and leaves the last ones of other names in place. -/
theorem LeadsToLast.insert {table : IndexedTable} (leads : table.LeadsToLast) (set : MemberSet) :
    (table.insert set).LeadsToLast where
  found := by
    intro name position h
    dsimp only [IndexedTable.insert] at h ⊢
    split at h
    · rename_i hName
      cases h
      exact ⟨set, List.getElem?_concat_length, hName, by simp⟩
    · rename_i hName
      obtain ⟨found, hFound, hSame, hLater⟩ := leads.found name position h
      have hInside : position < table.sets.length := (List.getElem?_eq_some_iff.mp hFound).1
      refine ⟨found, by rwa [List.getElem?_append_left hInside], hSame, ?_⟩
      rw [List.drop_append_of_le_length hInside]
      simpa [or_imp, forall_and, hName] using hLater
  missing := by
    intro name h
    dsimp only [IndexedTable.insert] at h ⊢
    split at h
    · cases h
    · rename_i hName
      simpa [or_imp, forall_and, hName] using leads.missing name h

theorem foldl_insert {table : IndexedTable} (leads : table.LeadsToLast) (entered : List MemberSet) :
    (entered.foldl insert table).LeadsToLast ∧ (entered.foldl insert table).sets = table.sets ++ entered := by
  induction entered generalizing table with
  | nil => exact ⟨leads, (List.append_nil _).symm⟩
  | cons set entered ih =>
    obtain ⟨hLeads, hSets⟩ := ih (leads.insert set)
    refine ⟨hLeads, hSets.trans ?_⟩
    rw [insert, List.append_assoc, List.singleton_append]

theorem LeadsToLast.get?_eq {table : IndexedTable} (leads : table.LeadsToLast) (name : String) :
    table.get? name = RecordTable.get? ⟨table.sets⟩ name := by
  rw [get?]
  cases hPosition : table.positions name with
  | none => exact (RecordTable.get?_eq_none_iff.mpr (leads.missing name hPosition)).symm
  | some position =>
    obtain ⟨set, hSet, hName, hLater⟩ := leads.found name position hPosition
    obtain ⟨hInside, hGet⟩ := List.getElem?_eq_some_iff.mp hSet
    have hSplit : table.sets = table.sets.take position ++ set :: table.sets.drop (position + 1) := by
      rw [← hGet, List.getElem_cons_drop, List.take_append_drop]
    rw [Option.bind_some, hSet, RecordTable.get?_eq_some_iff.mpr ⟨_, _, hSplit, hName, hLater⟩]

end IndexedTable

theorem RecordTable.filter_eq_get?_iff (table : RecordTable) :
    (∀ name, table.sets.filter (fun set => set.recordName = name) = (table.get? name).toList) ↔
      (table.sets.map (·.recordName)).Nodup := by
  constructor
  · intro h
    refine List.nodup_iff_count_le_one.mpr fun name => ?_
    have hCount : (table.sets.map (·.recordName)).count name = (table.get? name).toList.length := by
      rw [← h name, ← List.countP_eq_length_filter, List.count, List.countP_map]
      rfl
    rw [hCount]
    cases table.get? name <;> simp
  · intro nodup name
    cases hFound : table.get? name with
    | none =>
      rw [Option.toList_none, List.filter_eq_nil_iff]
      simpa using get?_eq_none_iff.mp hFound
    | some set =>
      obtain ⟨before, after, hSets, hName, hAfter⟩ := get?_eq_some_iff.mp hFound
      have hBefore : ∀ earlier ∈ before, earlier.recordName ≠ name := by
        intro earlier hEarlier hSame
        rw [hSets, List.map_append, List.nodup_append] at nodup
        exact nodup.2.2 _ (List.mem_map_of_mem hEarlier) _ (List.mem_map_of_mem List.mem_cons_self)
          (hSame.trans hName.symm)
      have hNone : ∀ others : List MemberSet, (∀ other ∈ others, other.recordName ≠ name) →
          others.filter (fun set => set.recordName = name) = [] := by
        intro others h
        rw [List.filter_eq_nil_iff]
        simpa using h
      rw [hSets, List.filter_append, List.filter_cons_of_pos (by simpa using hName), hNone before hBefore,
        hNone after hAfter]
      rfl

/-- Of the sets entered into a table one after the other, the one entered last under a name is found under it, also by an
index of positions, which never leads past the sets. The table has just that set for each name, and as many sets as there
are names, exactly if no name is entered twice, as checking a unit never does. -/
theorem one_set_per_name_iff (entered : List MemberSet) :
    let table := RecordTable.ofList entered
    let indexed := IndexedTable.ofList entered
    let names := entered.map (·.recordName)
    (∀ name set, table.get? name = some set ↔
      ∃ before after, entered = before ++ set :: after ∧ set.recordName = name ∧
        ∀ later ∈ after, later.recordName ≠ name) ∧
    (∀ name, table.get? name = none ↔ name ∉ names) ∧
    (indexed.sets = table.sets ∧ (∀ name, indexed.get? name = table.get? name) ∧
      ∀ name position, indexed.positions name = some position → position < table.size) ∧
    ((∀ name, table.sets.filter (fun set => set.recordName = name) = (table.get? name).toList) ↔ names.Nodup) ∧
    (table.size = names.toFinset.card ↔ names.Nodup) ∧
    ∀ (unit : Decl.CompilationUnit) (options : SynthesisOptions),
      (checkUnit unit options).table = table → names.Nodup := by
  intro table indexed names
  have hSets : table.sets = entered := RecordTable.sets_ofList entered
  obtain ⟨hLeads, hIndexed⟩ : indexed.LeadsToLast ∧ indexed.sets = entered :=
    IndexedTable.foldl_insert IndexedTable.leadsToLast_empty entered
  refine ⟨fun name set => ?_, fun name => ?_, ⟨hIndexed.trans hSets.symm, fun name => ?_, ?_⟩, ?_, ?_, ?_⟩
  · rw [RecordTable.get?_eq_some_iff, hSets]
  · rw [RecordTable.get?_eq_none_iff, hSets]
    simp [names]
  · rw [hLeads.get?_eq, hIndexed, ← hSets]
  · intro name position h
    obtain ⟨set, hSet, -, -⟩ := hLeads.found name position h
    rw [RecordTable.size, hSets, ← hIndexed]
    exact (List.getElem?_eq_some_iff.mp hSet).1
  · rw [table.filter_eq_get?_iff, hSets]
  · rw [RecordTable.size, hSets, ← entered.length_map (f := (·.recordName)), eq_comm]
    exact Multiset.toFinset_card_eq_card_iff_nodup
  · intro unit options h
    have hNodup := (checkUnit_grown unit options).nodup
    rwa [h, hSets] at hNodup

def enteredPoints : List MemberSet :=
  [{ name := "Point", parameters := [{ name := "X", type := Ty.int }] }, { name := "Point" }].filterMap
    fun record : Decl.Record => (record.synthesize record.effectiveMembers none {}).outcome.toOption

/-- A set entered under the name of another is found, but the other one stays in the table and is counted. -/
theorem not_one_set_per_name_entered_points :
    enteredPoints.map (·.recordName) = ["Point", "Point"] ∧
    (RecordTable.ofList enteredPoints).get? "Point" = enteredPoints[1]? ∧
    (RecordTable.ofList enteredPoints).sets.filter (fun set => set.recordName = "Point") ≠
      ((RecordTable.ofList enteredPoints).get? "Point").toList ∧
    (RecordTable.ofList enteredPoints).size = 2 ∧ (enteredPoints.map (·.recordName)).toFinset.card = 1 := by
  refine ⟨by decide +kernel, rfl, fun h => ?_, rfl, by decide +kernel⟩
  have hLength := congrArg List.length h
  cases hLength

end RecordSynthesis
