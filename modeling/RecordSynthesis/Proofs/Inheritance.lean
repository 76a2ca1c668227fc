import RecordSynthesis.Members.Table
import RecordSynthesis.Proofs.Synthesis
import RecordSynthesis.Proofs.TypeIdentity

/-!
# Inheritance in a checked unit

Every set in the table of a checked unit is made from a declaration of the unit and, if that declaration names a base,
from the one set of the table that has the base's name. The depth of a set counts the links above it, so facts about
all sets are proved from a base to what derives from it.
-/

namespace RecordSynthesis

set_option autoImplicit false

open Decl (CompilationUnit Record)

namespace RecordTable

def baseOf? (table : RecordTable) (set : MemberSet) : Option MemberSet :=
  set.base.bind fun base => table.get? base.name

/-- A set under all the sets that it derives from, the most distant first. -/
def levels (table : RecordTable) (set : MemberSet) : List MemberSet :=
  (match table.baseOf? set with
    | some base => if _h : base.inheritanceDepth < set.inheritanceDepth then table.levels base else []
    | none => [])
  ++ [set]
termination_by set.inheritanceDepth

def owner? (table : RecordTable) (type : Ty) : Option MemberSet :=
  table.sets.find? fun set => set.selfType.same type

theorem mem_levels_self (table : RecordTable) (set : MemberSet) : set ∈ table.levels set := by
  rw [levels]
  exact List.mem_append_right _ List.mem_cons_self

theorem get?_insert (table : RecordTable) (set : MemberSet) (name : String) :
    (table.insert set).get? name = if set.recordName = name then some set else table.get? name := by
  simp only [get?, insert, List.reverse_append, List.reverse_singleton, List.singleton_append, List.find?_cons]
  split <;> simp_all

theorem mem_of_get? {table : RecordTable} {name : String} {set : MemberSet} (h : table.get? name = some set) :
    set ∈ table.sets ∧ set.recordName = name := by
  exact ⟨List.mem_reverse.mp (List.mem_of_find?_eq_some h), by simpa using List.find?_some h⟩

theorem recordName_ne_of_get?_eq_none {table : RecordTable} {name : String} (h : table.get? name = none)
    {set : MemberSet} (mem : set ∈ table.sets) : set.recordName ≠ name := by
  simpa using List.find?_eq_none.mp h set (List.mem_reverse.mpr mem)

end RecordTable

namespace CheckUnit

def Fresh (finished path : List String) : Prop :=
  path.Nodup ∧ ∀ name ∈ path, name ∉ finished

theorem climb_fresh (unit : CompilationUnit) (finished : List String) (fuel : Nat) (path : List String) (name : String)
    (h : Fresh finished (name :: path)) : Fresh finished (climb unit finished fuel path name) := by
  induction fuel generalizing path name with
  | zero => exact h
  | succ fuel ih =>
    rw [climb]
    split
    · exact h
    · rename_i base _
      split
      · exact h
      · rename_i hStop
        simp only [Bool.or_eq_true, List.contains_iff_mem, not_or] at hStop
        obtain ⟨⟨hPath, hFinished⟩, _⟩ := hStop
        refine ih (name :: path) base ⟨List.nodup_cons.mpr ⟨hPath, h.1⟩, ?_⟩
        intro other hOther
        rcases List.mem_cons.mp hOther with rfl | hOther
        · exact hFinished
        · exact h.2 other hOther

theorem order_nodup (unit : CompilationUnit) : (order unit).Nodup := by
  refine List.foldlRecOn (motive := List.Nodup) _ _ List.nodup_nil ?_
  intro finished hFinished name _
  split
  · exact hFinished
  · rename_i hName
    have hFresh : Fresh finished (climb unit finished unit.records.length [] name) := by
      refine climb_fresh unit finished _ [] name ⟨by simp, ?_⟩
      simpa using hName
    exact List.nodup_append.mpr ⟨hFinished, hFresh.1, fun a ha b hb hab => hFresh.2 b hb (hab ▸ ha)⟩

end CheckUnit

/-- A table grown one set at a time, each synthesized over what stands before it. -/
inductive RecordTable.Grown (unit : CompilationUnit) (options : SynthesisOptions) : RecordTable → Prop
  | empty : Grown unit options {}
  | insert {table : RecordTable} {record : Record} {set : MemberSet} (grown : Grown unit options table)
      (declared : unit.find? record.name = some record) (fresh : table.get? record.name = none)
      (made : (record.synthesize record.effectiveMembers (record.base.bind table.get?) options).outcome = .ok set) :
      Grown unit options (table.insert set)

theorem Decl.CompilationUnit.name_of_find? {unit : CompilationUnit} {name : String} {record : Record}
    (h : unit.find? name = some record) : record.name = name := by
  simpa using List.find?_some h

namespace CheckUnit

theorem finish_table (unit : CompilationUnit) (options : SynthesisOptions) (result : UnitResult) (name : String) :
    (finish unit options result name).table = result.table ∨
      ∃ record set, unit.find? name = some record ∧
        (record.synthesize record.effectiveMembers (record.base.bind result.table.get?) options).outcome = .ok set ∧
        (finish unit options result name).table = result.table.insert set := by
  rw [finish]
  cases hRecord : unit.find? name with
  | none => exact .inl rfl
  | some record =>
    dsimp only
    split
    · exact .inl rfl
    · split
      · rename_i set hSet
        exact .inr ⟨record, set, rfl, hSet, rfl⟩
      · exact .inl rfl

theorem finish_grown {unit : CompilationUnit} {options : SynthesisOptions} {result : UnitResult} {name : String}
    (grown : RecordTable.Grown unit options result.table) (fresh : result.table.get? name = none) :
    RecordTable.Grown unit options (finish unit options result name).table ∧
      ∀ other, other ≠ name → result.table.get? other = none →
        (finish unit options result name).table.get? other = none := by
  rcases finish_table unit options result name with hTable | ⟨record, set, hRecord, hSet, hTable⟩
  · rw [hTable]
    exact ⟨grown, fun _ _ h => h⟩
  · rw [hTable]
    have hName := Decl.CompilationUnit.name_of_find? hRecord
    subst hName
    refine ⟨.insert grown hRecord fresh hSet, ?_⟩
    intro other hOther hNone
    rw [RecordTable.get?_insert, Record.recordName_of_synthesize hSet, if_neg (Ne.symm hOther), hNone]

theorem foldl_finish_grown {unit : CompilationUnit} {options : SynthesisOptions} (names : List String)
    (result : UnitResult) (grown : RecordTable.Grown unit options result.table) (nodup : names.Nodup)
    (fresh : ∀ name ∈ names, result.table.get? name = none) :
    RecordTable.Grown unit options (names.foldl (finish unit options) result).table := by
  induction names generalizing result with
  | nil => exact grown
  | cons name names ih =>
    obtain ⟨hName, hNames⟩ := List.nodup_cons.mp nodup
    obtain ⟨hGrown, hFresh⟩ := finish_grown grown (fresh name List.mem_cons_self)
    refine ih (finish unit options result name) hGrown hNames ?_
    intro other hOther
    exact hFresh other (fun h => hName (h ▸ hOther)) (fresh other (List.mem_cons_of_mem _ hOther))

end CheckUnit

theorem checkUnit_grown (unit : CompilationUnit) (options : SynthesisOptions) :
    (checkUnit unit options).table.Grown unit options :=
  CheckUnit.foldl_finish_grown _ _ .empty (CheckUnit.order_nodup unit) fun _ _ => rfl

namespace RecordTable

/-- Where a set of a table comes from: a declaration of the unit, and the set of its base if it names one. -/
structure Origin (unit : CompilationUnit) (options : SynthesisOptions) (table : RecordTable) (set : MemberSet)
    (record : Record) (base : Option MemberSet) (copy : Option CopyConstructor) : Prop where
  declared : unit.find? record.name = some record
  resolved : record.resolveBase (record.base.bind table.get?) = .ok base
  copied : record.HasCopy base copy
  made : set = record.memberSet record.effectiveMembers base copy options

namespace Grown

variable {unit : CompilationUnit} {options : SynthesisOptions} {table : RecordTable}

theorem get?_of_mem (grown : table.Grown unit options) {set : MemberSet} (mem : set ∈ table.sets) :
    table.get? set.recordName = some set := by
  induction grown with
  | empty => cases mem
  | @insert table record added grown declared fresh made ih =>
    have hName := Record.recordName_of_synthesize made
    rw [get?_insert, hName]
    rcases List.mem_append.mp mem with mem | mem
    · rw [if_neg (recordName_ne_of_get?_eq_none fresh mem).symm]
      exact ih mem
    · rw [List.mem_singleton.mp mem, if_pos hName.symm]

theorem resolveBase_insert {record other : Record} {added : MemberSet} {base : Option MemberSet}
    (fresh : table.get? record.name = none) (hName : added.recordName = record.name)
    (h : other.resolveBase (other.base.bind table.get?) = .ok base) :
    other.resolveBase (other.base.bind (table.insert added).get?) = .ok base := by
  rcases Record.resolveBase_eq_ok_iff.mp h with ⟨hBase, rfl⟩ | ⟨set, hBase, hGiven, rfl, hFit⟩
  · exact Record.resolveBase_eq_ok_iff.mpr (.inl ⟨hBase, rfl⟩)
  · refine Record.resolveBase_eq_ok_iff.mpr (.inr ⟨set, hBase, ?_, rfl, hFit⟩)
    rw [hBase, Option.bind_some] at hGiven ⊢
    rw [get?_insert, if_neg, hGiven]
    intro hSame
    rw [← hSame, hName, fresh] at hGiven
    cases hGiven

theorem exists_origin (grown : table.Grown unit options) {set : MemberSet} (mem : set ∈ table.sets) :
    ∃ record base copy, Origin unit options table set record base copy := by
  induction grown with
  | empty => cases mem
  | @insert table record added grown declared fresh made ih =>
    have hName := Record.recordName_of_synthesize made
    rcases List.mem_append.mp mem with mem | mem
    · obtain ⟨other, base, copy, origin⟩ := ih mem
      exact ⟨other, base, copy, origin.declared, resolveBase_insert fresh hName origin.resolved, origin.copied,
        origin.made⟩
    · rw [List.mem_singleton.mp mem]
      obtain ⟨base, copy, hBase, hCopy, hSet⟩ := Record.synthesize_eq_ok_iff.mp made
      exact ⟨record, base, copy, declared, resolveBase_insert fresh hName hBase, hCopy, hSet⟩

end Grown

namespace Origin

variable {unit : CompilationUnit} {options : SynthesisOptions} {table : RecordTable} {set : MemberSet}
  {record : Record} {base : Option MemberSet} {copy : Option CopyConstructor}

theorem find?_eq (origin : Origin unit options table set record base copy) :
    unit.find? set.recordName = some record := by
  rw [origin.made]
  exact origin.declared

theorem base_mem (origin : Origin unit options table set record base copy) {above : MemberSet}
    (h : base = some above) : above ∈ table.sets ∧ table.get? above.recordName = some above := by
  rcases Record.resolveBase_eq_ok_iff.mp origin.resolved with ⟨_, rfl⟩ | ⟨other, hBase, hGiven, rfl, _⟩
  · cases h
  · cases h
    rw [hBase, Option.bind_some] at hGiven
    exact ⟨(mem_of_get? hGiven).1, hGiven⟩

theorem base_reference (origin : Origin unit options table set record base copy) {above : MemberSet}
    (h : base = some above) : above.isValueType = false := by
  rcases Record.resolveBase_eq_ok_iff.mp origin.resolved with ⟨_, rfl⟩ | ⟨_, _, _, rfl, _, hKind, _⟩
  · cases h
  · cases h
    exact hKind

theorem primaryChain_eq (origin : Origin unit options table set record base copy) {above : MemberSet}
    (h : base = some above) :
    record.primaryChain base = .base above.selfType
      (record.baseArguments.filterMap fun argument =>
        (record.parameters.find? fun p => p.name = argument).map (·.type)) record.baseArguments := by
  rcases Record.resolveBase_eq_ok_iff.mp origin.resolved with ⟨_, rfl⟩ | ⟨_, _, _, rfl, hKind, _⟩
  · cases h
  · cases h
    simp [Record.primaryChain, hKind]

theorem baseOf?_eq (origin : Origin unit options table set record base copy) : table.baseOf? set = base := by
  rw [origin.made]
  cases hBase : base with
  | none => rfl
  | some above => exact (origin.base_mem hBase).2

theorem depth_eq (origin : Origin unit options table set record base copy) {above : MemberSet}
    (h : base = some above) : set.inheritanceDepth = above.inheritanceDepth + 1 := by
  rw [origin.made, h]
  rfl

theorem levels_eq_of_none (origin : Origin unit options table set record none copy) : table.levels set = [set] := by
  rw [levels, origin.baseOf?_eq]
  rfl

theorem levels_eq_of_some {above : MemberSet} (origin : Origin unit options table set record (some above) copy) :
    table.levels set = table.levels above ++ [set] := by
  have hDepth : above.inheritanceDepth < set.inheritanceDepth := by
    rw [origin.depth_eq rfl]
    exact Nat.lt_succ_self _
  rw [levels, origin.baseOf?_eq]
  simp only [dif_pos hDepth]

theorem levels_eq (origin : Origin unit options table set record base copy) :
    table.levels set = base.elim [] table.levels ++ [set] := by
  cases base with
  | none => exact origin.levels_eq_of_none
  | some above => exact origin.levels_eq_of_some

end Origin

theorem Grown.exists_origin_of_find? {unit : CompilationUnit} {options : SynthesisOptions} {table : RecordTable}
    (grown : table.Grown unit options) {set : MemberSet} (mem : set ∈ table.sets) {record : Record}
    (declared : unit.find? set.recordName = some record) :
    ∃ base copy, Origin unit options table set record base copy := by
  obtain ⟨found, base, copy, origin⟩ := grown.exists_origin mem
  obtain rfl : record = found := Option.some.inj (declared.symm.trans origin.find?_eq)
  exact ⟨base, copy, origin⟩

/-- What holds of a set whenever it holds of its base holds of all sets. -/
theorem Grown.induction {unit : CompilationUnit} {options : SynthesisOptions} {table : RecordTable}
    (grown : table.Grown unit options) {P : MemberSet → Prop}
    (root : ∀ set record copy, set ∈ table.sets → Origin unit options table set record none copy → P set)
    (derived : ∀ set record above copy, set ∈ table.sets → above ∈ table.sets →
      Origin unit options table set record (some above) copy → P above → P set)
    (set : MemberSet) (mem : set ∈ table.sets) : P set := by
  induction hDepth : set.inheritanceDepth using Nat.strongRecOn generalizing set with
  | ind depth ih =>
    obtain ⟨record, base, copy, origin⟩ := grown.exists_origin mem
    cases base with
    | none => exact root set record copy mem origin
    | some above =>
      have hMem := (origin.base_mem rfl).1
      have hAbove : above.inheritanceDepth < depth := by
        rw [← hDepth, origin.depth_eq rfl]
        exact Nat.lt_succ_self _
      exact derived set record above copy mem hMem origin (ih _ hAbove above hMem rfl)

/-- What holds of a set whenever it holds of the base, if there is one, holds of all sets. -/
theorem Grown.induction_base {unit : CompilationUnit} {options : SynthesisOptions} {table : RecordTable}
    (grown : table.Grown unit options) {P : MemberSet → Prop}
    (step : ∀ set record base copy, Origin unit options table set record base copy →
      (∀ above, base = some above → P above) → P set)
    (set : MemberSet) (mem : set ∈ table.sets) : P set := by
  refine grown.induction ?_ ?_ set mem
  · intro set record copy _ origin
    exact step set record none copy origin (by simp)
  · intro set record above copy _ _ origin ih
    refine step set record (some above) copy origin ?_
    rintro _ ⟨⟩
    exact ih

theorem Grown.levels_subset {unit : CompilationUnit} {options : SynthesisOptions} {table : RecordTable}
    (grown : table.Grown unit options) {set : MemberSet} (mem : set ∈ table.sets) :
    ∀ level ∈ table.levels set, level ∈ table.sets := by
  refine grown.induction (P := fun set => ∀ level ∈ table.levels set, level ∈ table.sets) ?_ ?_ set mem
  · intro set record copy mem origin level hLevel
    rw [origin.levels_eq_of_none] at hLevel
    rwa [List.mem_singleton.mp hLevel]
  · intro set record above copy mem _ origin ih level hLevel
    rw [origin.levels_eq_of_some] at hLevel
    rcases List.mem_append.mp hLevel with hLevel | hLevel
    · exact ih level hLevel
    · rwa [List.mem_singleton.mp hLevel]

theorem Grown.eq_of_same {unit : CompilationUnit} {options : SynthesisOptions} {table : RecordTable}
    (grown : table.Grown unit options) {set other : MemberSet} (mem : set ∈ table.sets) (otherMem : other ∈ table.sets)
    (h : set.selfType.same other.selfType = true) : set = other := by
  obtain ⟨record, base, copy, origin⟩ := grown.exists_origin mem
  obtain ⟨otherRecord, otherBase, otherCopy, otherOrigin⟩ := grown.exists_origin otherMem
  have hNames : set.recordName = other.recordName := by
    rw [origin.made, otherOrigin.made] at h ⊢
    exact Record.name_eq_of_same_selfType h
  have hSet := grown.get?_of_mem mem
  rw [hNames, grown.get?_of_mem otherMem] at hSet
  exact (Option.some.inj hSet).symm

theorem Grown.owner?_selfType {unit : CompilationUnit} {options : SynthesisOptions} {table : RecordTable}
    (grown : table.Grown unit options) {set : MemberSet} (mem : set ∈ table.sets) :
    table.owner? set.selfType = some set := by
  cases hFound : table.owner? set.selfType with
  | none =>
    have hNone := List.find?_eq_none.mp hFound set mem
    simp at hNone
  | some found =>
    have hSame := List.find?_some hFound
    rw [grown.eq_of_same (List.mem_of_find?_eq_some hFound) mem hSame]

end RecordTable

end RecordSynthesis
