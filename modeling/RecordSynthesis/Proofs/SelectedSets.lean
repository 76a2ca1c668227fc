import Mathlib.Data.List.NodupEquivFin
import RecordSynthesis.Proofs.BaseLinks
import RecordSynthesis.Proofs.Lineage
import RecordSynthesis.Proofs.LoweredMembers
import RecordSynthesis.Proofs.Reports

/-!
# Selected sets

A task writes one block for each declaration that it goes through and that has a set. The blocks stand in the order of the
declarations, and none of a wanted record is missing. A name that is declared again has its set written again, so each
set is written once exactly if no record with a set is declared twice. A run writes all the blocks unless it breaks off
over its reports, and then none.
-/

namespace RecordSynthesis

set_option autoImplicit false

open Decl (CompilationUnit Record)

def Task.block? (task : Task) (json : Bool) (set : MemberSet) : Option String :=
  match task with
  | .members => some (if json then set.membersLine else set.membersText)
  | .lower => set.codeText.toOption
  | .check => none

/-- Blocks one after the other, with an empty line between them unless each is a line of JSON. -/
def Task.joined (task : Task) (json : Bool) (blocks : List String) : String :=
  if task = .members ∧ json = true then String.join blocks else String.intercalate "\n" blocks

theorem MemberSet.exists_codeText (set : MemberSet) : ∃ text, set.codeText = .ok text := by
  rw [codeText, lowerAll_eq]
  exact ⟨_, rfl⟩

/-- Lowering a set never fails, so that no block is left out. -/
theorem codeTexts_eq (sets : List MemberSet) : codeTexts sets = (sets.filterMap (Task.block? .lower false), none) := by
  induction sets with
  | nil => rfl
  | cons set sets ih =>
    obtain ⟨text, hText⟩ := set.exists_codeText
    have hBlock : Task.block? .lower false set = some text := by
      rw [Task.block?, hText]
      rfl
    rw [codeTexts, hText, ih, List.filterMap_cons_some hBlock]

theorem Task.output_eq (task : Task) (json : Bool) (sets : List MemberSet) :
    task.output json sets = (task.joined json (sets.filterMap (task.block? json)), none) := by
  cases task with
  | members =>
    have hBlocks : sets.filterMap (Task.block? .members json) =
        sets.map fun set => if json then set.membersLine else set.membersText := by
      rw [← List.filterMap_eq_map]
      rfl
    cases json <;> simp [output, joined, hBlocks]
  | lower =>
    have hBlocks : Task.block? .lower json = Task.block? .lower false := rfl
    simp [output, joined, codeTexts_eq, hBlocks]
  | check =>
    have hBlocks : sets.filterMap (Task.block? .check json) = [] :=
      List.filterMap_eq_nil_iff.mpr fun _ _ => rfl
    simp [output, joined, hBlocks]

theorem Invocation.finish_of_notMem {invocation : Invocation} {inputs : Inputs} {result : UnitResult}
    (shown : none ∉ invocation.reports inputs result) :
    invocation.finish inputs result =
      let sets := result.selected inputs.unit invocation.record
      let notices := Notice.written (invocation.reports inputs result)
      let output := invocation.task.joined invocation.json (sets.filterMap (invocation.task.block? invocation.json))
      let events := invocation.events inputs sets
      if result.hasErrors then { invocation.failed notices .synthesis with output, events }
      else { notices, output, events } := by
  rw [finish, if_neg (mt any_isNone_iff.mp shown)]
  simp only [Task.output_eq]

namespace Decl.CompilationUnit

def names (unit : CompilationUnit) : List String :=
  unit.records.map (·.name)

/-- How many records are declared before the first one of a name. -/
def position (unit : CompilationUnit) (name : String) : Nat :=
  unit.names.idxOf name

theorem position_le {unit : CompilationUnit} {i : Nat} (h : i < unit.names.length) :
    unit.position unit.names[i] ≤ i := by
  by_contra hLater
  have hOther := List.not_of_lt_findIdx (Nat.lt_of_not_le hLater)
  simp at hOther

/-- A name that is declared once stands where it is declared. -/
theorem position_of_count_eq_one {unit : CompilationUnit} {i : Nat} (h : i < unit.names.length)
    (once : unit.names.count unit.names[i] = 1) : unit.position unit.names[i] = i := by
  have hFirst : unit.position unit.names[i] < unit.names.length := List.idxOf_lt_length_of_mem (List.getElem_mem h)
  have hSame : unit.names[unit.position unit.names[i]] = unit.names[i] := List.getElem_idxOf hFirst
  refine (Nat.eq_or_lt_of_le (position_le h)).resolve_right fun hEarlier => ?_
  have hTwice : List.Duplicate unit.names[i] unit.names :=
    List.duplicate_iff_exists_distinct_get.mpr ⟨⟨_, hFirst⟩, ⟨i, h⟩, hEarlier, hSame.symm, rfl⟩
  have hCount := List.duplicate_iff_two_le_count.mp hTwice
  omega

theorem nodup_of_ordered {unit : CompilationUnit} {sets : List MemberSet}
    (ordered : sets.Pairwise fun set next => unit.position set.recordName < unit.position next.recordName) :
    (sets.map (·.recordName)).Nodup := by
  refine List.pairwise_map.mpr (ordered.imp fun hBefore hSame => ?_)
  rw [hSame] at hBefore
  exact Nat.lt_irrefl _ hBefore

end Decl.CompilationUnit

namespace UnitResult

/-- Each set of the table is selected once, where its record is declared first; of one wanted record, its set if it has
one. -/
structure SelectsEachOnce (result : UnitResult) (unit : CompilationUnit) : Prop where
  all : (result.selected unit none).Perm result.table.sets
  ordered : (result.selected unit none).Pairwise fun set next =>
    unit.position set.recordName < unit.position next.recordName
  wanted : ∀ name, unit.Declares name → result.selected unit (some name) = (result.table.get? name).toList

theorem selected_eq (result : UnitResult) (unit : CompilationUnit) (only : Option String) :
    result.selected unit only = (unit.names.filter (isWanted only)).filterMap result.table.get? := by
  rw [selected, CompilationUnit.names, List.filter_map, List.filterMap_map]
  rfl

theorem selected_none (result : UnitResult) (unit : CompilationUnit) :
    result.selected unit none = unit.names.filterMap result.table.get? := by
  have hWanted : unit.names.filter (isWanted none) = unit.names := List.filter_eq_self.mpr fun _ _ => rfl
  rw [selected_eq, hWanted]

/-- A wanted record is selected as often as it is declared. -/
theorem selected_some (result : UnitResult) (unit : CompilationUnit) (name : String) :
    result.selected unit (some name) =
      match result.table.get? name with
      | none => []
      | some set => List.replicate (unit.names.count name) set := by
  have hWanted : isWanted (some name) = fun other => decide (other = name) := by
    funext other
    simp [isWanted, eq_comm]
  rw [selected_eq, hWanted, List.filter_eq, List.filterMap_replicate]
  cases result.table.get? name <;> rfl

end UnitResult

theorem RecordTable.map_recordName_filterMap (table : RecordTable) (names : List String) :
    (names.filterMap table.get?).map (·.recordName) = names.filter fun name => (table.get? name).isSome := by
  induction names with
  | nil => rfl
  | cons name names ih =>
    cases hFound : table.get? name with
    | none => simp [hFound, ih]
    | some set => simp [hFound, ih, (mem_of_get? hFound).2]

/-- The sets of records that are declared once stand in the order of these declarations. -/
theorem RecordTable.ordered_of_once (table : RecordTable) {unit : CompilationUnit}
    (once : ∀ set ∈ table.sets, unit.names.count set.recordName = 1) :
    (unit.names.filterMap table.get?).Pairwise fun set next =>
      unit.position set.recordName < unit.position next.recordName := by
  rw [List.pairwise_filterMap, List.pairwise_iff_getElem]
  intro i j hi hj hBefore set hSet next hNext
  obtain ⟨-, hName⟩ := mem_of_get? hSet
  obtain ⟨hMem, hNextName⟩ := mem_of_get? hNext
  rw [hName, hNextName, CompilationUnit.position_of_count_eq_one hj (hNextName ▸ once next hMem)]
  exact Nat.lt_of_le_of_lt (CompilationUnit.position_le hi) hBefore

namespace RecordTable.Grown

variable {unit : CompilationUnit} {options : SynthesisOptions} {table : RecordTable}

theorem mem_names (grown : table.Grown unit options) {set : MemberSet} (mem : set ∈ table.sets) :
    set.recordName ∈ unit.names := by
  obtain ⟨record, base, copy, origin⟩ := grown.exists_origin mem
  exact CompilationUnit.declares_iff.mpr ⟨record, origin.find?_eq⟩

theorem mem_filterMap_names_iff (grown : table.Grown unit options) {set : MemberSet} :
    set ∈ unit.names.filterMap table.get? ↔ set ∈ table.sets := by
  rw [List.mem_filterMap]
  constructor
  · rintro ⟨name, -, hFound⟩
    exact (mem_of_get? hFound).1
  · intro mem
    exact ⟨set.recordName, grown.mem_names mem, grown.get?_of_mem mem⟩

theorem count_eq_one_of_ordered (grown : table.Grown unit options)
    (ordered : (unit.names.filterMap table.get?).Pairwise fun set next =>
      unit.position set.recordName < unit.position next.recordName) {set : MemberSet} (mem : set ∈ table.sets) :
    unit.names.count set.recordName = 1 := by
  have hNodup := CompilationUnit.nodup_of_ordered ordered
  rw [table.map_recordName_filterMap] at hNodup
  have hCount := List.nodup_iff_count_le_one.mp hNodup set.recordName
  rw [List.count_filter (by rw [grown.get?_of_mem mem]; rfl)] at hCount
  exact Nat.le_antisymm hCount (List.count_pos_iff.mpr (grown.mem_names mem))

end RecordTable.Grown

/-- Without a wanted record the sets of a checked unit are selected once for every declaration of their records, in the
order of the declarations, and of a wanted record its set as often as the record is declared. So each set is selected
just once, where its record is declared first, exactly if no record that has a set is declared again. A task writes the
blocks of what is selected, and so does a run that can show all its reports; any other run writes none. -/
theorem selects_each_once_iff (unit : CompilationUnit) (options : SynthesisOptions) :
    let result := checkUnit unit options
    (result.SelectsEachOnce unit ↔ ∀ set ∈ result.table.sets, unit.names.count set.recordName = 1) ∧
    (∀ set, set ∈ result.selected unit none ↔ set ∈ result.table.sets) ∧
    (result.selected unit none).map (·.recordName) =
      unit.names.filter (fun name => (result.table.get? name).isSome) ∧
    (∀ name set, result.table.get? name = some set →
      result.selected unit (some name) = List.replicate (unit.names.count name) set) ∧
    (∀ (task : Task) (json : Bool) (only : Option String), task.output json (result.selected unit only) =
      (task.joined json ((result.selected unit only).filterMap (task.block? json)), none)) ∧
    ∀ (invocation : Invocation) (inputs : Invocation.Inputs), inputs.unit = unit →
      (none ∉ invocation.reports inputs result → (invocation.finish inputs result).output =
        invocation.task.joined invocation.json
          ((result.selected unit invocation.record).filterMap (invocation.task.block? invocation.json))) ∧
      (none ∈ invocation.reports inputs result → (invocation.finish inputs result).output = "") := by
  intro result
  have grown : result.table.Grown unit options := checkUnit_grown unit options
  refine ⟨⟨fun once set mem => ?_, fun once => ⟨?_, ?_, ?_⟩⟩, fun set => ?_, ?_, ?_, fun task json only => ?_, ?_⟩
  · exact grown.count_eq_one_of_ordered (result.selected_none unit ▸ once.ordered) mem
  · have hSelected : (unit.names.filterMap result.table.get?).Nodup :=
      List.Nodup.of_map _ (CompilationUnit.nodup_of_ordered (result.table.ordered_of_once once))
    rw [result.selected_none]
    exact (List.perm_ext_iff_of_nodup hSelected (List.Nodup.of_map _ grown.nodup)).mpr fun set =>
      grown.mem_filterMap_names_iff
  · rw [result.selected_none]
    exact result.table.ordered_of_once once
  · intro name declared
    rw [result.selected_some]
    cases hFound : result.table.get? name with
    | none => rfl
    | some set =>
      obtain ⟨mem, hName⟩ := RecordTable.mem_of_get? hFound
      dsimp only
      rw [← hName, once set mem]
      rfl
  · rw [result.selected_none]
    exact grown.mem_filterMap_names_iff
  · rw [result.selected_none, result.table.map_recordName_filterMap]
  · intro name set hFound
    rw [result.selected_some, hFound]
  · exact task.output_eq json _
  · rintro invocation inputs rfl
    refine ⟨fun shown => ?_, fun lost => by rw [Invocation.finish_of_mem lost]⟩
    rw [Invocation.finish_of_notMem shown]
    split_ifs <;> rfl

def drafts : CompilationUnit where
  records :=
    [{ name := "Point", parameters := [{ name := "X", type := Ty.int }] }, { name := "Line" }, { name := "Point" }]

/-- The one set of the point is selected for both of its declarations, and also if just this record is wanted. -/
theorem not_selects_each_once_drafts :
    (checkUnit drafts {}).table.sets.map (·.recordName) = ["Point", "Line"] ∧
    ((checkUnit drafts {}).selected drafts none).map (·.recordName) = ["Point", "Line", "Point"] ∧
    ((checkUnit drafts {}).selected drafts (some "Point")).length = 2 ∧
    ¬(checkUnit drafts {}).SelectsEachOnce drafts := by
  refine ⟨by decide +kernel, by decide +kernel, rfl, fun each => ?_⟩
  have hLength := (each.all).length_eq
  cases hLength

/-- Three records that are declared from below: the base is synthesized first and selected last. -/
theorem selects_each_once_staff :
    (checkUnit staff {}).table.sets.map (·.recordName) = ["Person", "Employee", "Manager"] ∧
    (checkUnit staff {}).SelectsEachOnce staff ∧
    ((checkUnit staff {}).selected staff none).map (·.recordName) = ["Manager", "Employee", "Person"] ∧
    (checkUnit staff {}).selected staff (some "Employee") = ((checkUnit staff {}).table.get? "Employee").toList := by
  obtain ⟨hEach, -, hNames, -⟩ := selects_each_once_iff staff {}
  have hSynthesized : (checkUnit staff {}).table.sets.map (·.recordName) = ["Person", "Employee", "Manager"] := by
    decide +kernel
  have hOnce : ∀ set ∈ (checkUnit staff {}).table.sets, staff.names.count set.recordName = 1 := by
    refine (List.forall_mem_map (P := fun name => staff.names.count name = 1)).mp ?_
    rw [hSynthesized]
    decide
  have each := hEach.mpr hOnce
  have declared : staff.Declares "Employee" := CompilationUnit.declares_iff.mpr ⟨_, rfl⟩
  exact ⟨hSynthesized, each, hNames.trans (by decide +kernel), each.wanted "Employee" declared⟩

end RecordSynthesis
