import Mathlib.Data.List.Nodup
import RecordSynthesis.Proofs.Inheritance

/-!
# Lineages

In the table of a checked unit every set stands after the set of its base and is linked to it. Going up the links from a
set gives its lineage, which ends at a record without a base; its length is the depth of the set, and the reads that the
set prints are those of its lineage, the most distant ancestor first.
-/

namespace RecordSynthesis

set_option autoImplicit false

open Decl (CompilationUnit Record)

/-- The link of a set to its base tells what the set of the base says of itself. -/
structure MemberSet.Links (set : MemberSet) (link : BaseRecord) (base : MemberSet) : Prop where
  name : base.recordName = link.name
  type : link.selfType = base.selfType
  depth : link.depth = base.inheritanceDepth
  reference : base.isValueType = false
  clone : set.clone.overridden = some base.selfType

/-- The reads of the public state that a set adds to those of its base; events are not read. -/
def MemberSet.ownReads (set : MemberSet) : List MemberRead :=
  (set.state.filter fun s => s.member.visibility = .isPublic && s.member.origin ≠ .nominalEventBacking).map fun s =>
    ⟨s.member.name, s.member.type, if s.member.origin = .nominalField then .field else .property, set.selfType⟩

theorem MemberSet.ownReads_eq (set : MemberSet) :
    set.ownReads = set.state.filterMap (StateMember.printable? set.selfType) := by
  rw [ownReads, ← List.filterMap_eq_map, List.filterMap_filter]
  apply List.filterMap_congr
  intro s _
  rw [StateMember.printable?]
  cases hOrigin : s.member.origin <;> by_cases hPublic : s.member.visibility = .isPublic <;> simp [hOrigin, hPublic]

namespace RecordTable

variable {unit : CompilationUnit} {options : SynthesisOptions} {table : RecordTable} {set : MemberSet}

/-- The sets that a set derives from, the most distant first, as the links lead. -/
inductive Ancestry (table : RecordTable) : MemberSet → List MemberSet → Prop
  | root {set : MemberSet} (top : set.base = none) : Ancestry table set []
  | derived {set base : MemberSet} {link : BaseRecord} {ancestors : List MemberSet} (linked : set.base = some link)
      (mem : base ∈ table.sets) (named : base.recordName = link.name) (above : Ancestry table base ancestors) :
      Ancestry table set (ancestors ++ [base])

theorem Grown.nodup (grown : table.Grown unit options) : (table.sets.map (·.recordName)).Nodup := by
  induction grown with
  | empty => exact List.nodup_nil
  | @insert table record added grown declared fresh made ih =>
    rw [RecordTable.insert, List.map_append, List.map_singleton, List.nodup_append]
    refine ⟨ih, List.nodup_singleton _, ?_⟩
    rintro name hName _ hAdded rfl
    obtain ⟨other, hOther, rfl⟩ := List.mem_map.mp hName
    rw [List.mem_singleton, Record.recordName_of_synthesize made] at hAdded
    exact recordName_ne_of_get?_eq_none fresh hOther hAdded

/-- A set is synthesized over the sets that stand before it, and its base is one of them. -/
theorem Grown.base_before (grown : table.Grown unit options) {i : Nat} (h : table.sets[i]? = some set)
    {link : BaseRecord} (linked : set.base = some link) :
    ∃ j < i, ∃ base, table.sets[j]? = some base ∧ set.Links link base := by
  induction grown generalizing i set with
  | empty => cases h
  | @insert table record added grown declared fresh made ih =>
    rw [RecordTable.insert] at h ⊢
    rcases Nat.lt_or_ge i table.sets.length with hBefore | hLast
    · rw [List.getElem?_append_left hBefore] at h
      obtain ⟨j, hj, base, hBase, hLinks⟩ := ih h linked
      exact ⟨j, hj, base, by rwa [List.getElem?_append_left (Nat.lt_trans hj hBefore)], hLinks⟩
    · rw [List.getElem?_append_right hLast, List.getElem?_singleton] at h
      split at h
      · cases h
        obtain ⟨base, copy, resolved, -, rfl⟩ := Record.synthesize_eq_ok_iff.mp made
        obtain ⟨above, rfl, rfl⟩ := Option.map_eq_some_iff.mp linked
        rcases Record.resolveBase_eq_ok_iff.mp resolved with ⟨-, hNone⟩ | ⟨other, hName, hGiven, hSame, -, hKind, -⟩
        · cases hNone
        · cases hSame
          rw [hName, Option.bind_some] at hGiven
          obtain ⟨j, hBase⟩ := List.mem_iff_getElem?.mp (mem_of_get? hGiven).1
          have hj : j < table.sets.length := (List.getElem?_eq_some_iff.mp hBase).1
          refine ⟨j, Nat.lt_of_lt_of_le hj hLast, above, by rwa [List.getElem?_append_left hj], ?_⟩
          exact ⟨rfl, rfl, rfl, hKind, rfl⟩
      · cases h

theorem Grown.exists_ancestry (grown : table.Grown unit options) (mem : set ∈ table.sets) :
    ∃ ancestors, table.Ancestry set ancestors ∧ table.levels set = ancestors ++ [set] ∧
      set.inheritanceDepth = ancestors.length ∧ set.printable = (ancestors ++ [set]).flatMap MemberSet.ownReads := by
  refine grown.induction (P := fun set => ∃ ancestors, table.Ancestry set ancestors ∧
    table.levels set = ancestors ++ [set] ∧ set.inheritanceDepth = ancestors.length ∧
    set.printable = (ancestors ++ [set]).flatMap MemberSet.ownReads) ?_ ?_ set mem
  · intro set record copy _ origin
    refine ⟨[], .root ?_, origin.levels_eq_of_none, ?_, ?_⟩
    · rw [origin.made]
      rfl
    · rw [origin.made]
      rfl
    · rw [List.nil_append, List.flatMap_singleton, MemberSet.ownReads_eq, origin.made]
      rfl
  · rintro set record above copy _ aboveMem origin ⟨ancestors, hAncestry, hLevels, hDepth, hPrintable⟩
    have hLink : set.base = some ⟨above.recordName, above.selfType, above.inheritanceDepth⟩ := by
      rw [origin.made]
      rfl
    refine ⟨ancestors ++ [above], .derived hLink aboveMem rfl hAncestry, ?_, ?_, ?_⟩
    · rw [origin.levels_eq_of_some, hLevels]
    · rw [origin.depth_eq rfl, hDepth, List.length_append, List.length_singleton]
    · rw [List.flatMap_append, ← hPrintable, List.flatMap_singleton, MemberSet.ownReads_eq, origin.made]
      rfl

end RecordTable

/-- The table of a checked unit has one set for a name at most. A set with a base stands after the one set that has the
name of the base and is linked to it; its depth is the number of its ancestors, and it prints what its ancestors and then
it itself declare, each level reading its own state. -/
theorem bases_first_and_linked (unit : CompilationUnit) (options : SynthesisOptions) :
    let table := (checkUnit unit options).table
    (table.sets.map (·.recordName)).Nodup ∧
    ∀ (i : Nat) (set : MemberSet), table.sets[i]? = some set →
      (∀ link, set.base = some link → ∃ j < i, ∃ base, table.sets[j]? = some base ∧ set.Links link base ∧
        ∀ (k : Nat) (other : MemberSet), table.sets[k]? = some other → (other.recordName = link.name ↔ k = j)) ∧
      ∃ ancestors, table.Ancestry set ancestors ∧ table.levels set = ancestors ++ [set] ∧
        set.inheritanceDepth = ancestors.length ∧
        set.printable = (ancestors ++ [set]).flatMap MemberSet.ownReads := by
  intro table
  have grown : table.Grown unit options := checkUnit_grown unit options
  refine ⟨grown.nodup, fun i set hSet => ⟨?_, grown.exists_ancestry (List.mem_of_getElem? hSet)⟩⟩
  intro link linked
  obtain ⟨j, hj, base, hBase, hLinks⟩ := grown.base_before hSet linked
  refine ⟨j, hj, base, hBase, hLinks, fun k other hOther => ⟨?_, ?_⟩⟩
  · intro hName
    have hLength : k < (table.sets.map (·.recordName)).length := by
      rw [List.length_map]
      exact (List.getElem?_eq_some_iff.mp hOther).1
    refine (List.getElem?_inj hLength grown.nodup).mp ?_
    rw [List.getElem?_map, List.getElem?_map, hOther, hBase, Option.map_some, Option.map_some, hName, hLinks.name]
  · rintro rfl
    obtain rfl : base = other := Option.some.inj (hBase.symm.trans hOther)
    exact hLinks.name

def staff : CompilationUnit where
  records :=
    [{ name := "Manager", parameters := [{ name := "Level", type := Ty.int }], base := some "Employee" },
      { name := "Employee", base := some "Person"
        members := [.ofField "Badge" Ty.int, .ofFieldLikeEvent "Moved" Ty.object] },
      { name := "Person", parameters := [{ name := "Name", type := Ty.string }] }]

def staffManager : MemberSet :=
  ((checkUnit staff {}).table.get? "Manager").getD default

theorem bases_first_and_linked_manager :
    (checkUnit staff {}).table.sets[2]? = some staffManager ∧
    staffManager.base.map (fun link => (link.name, link.depth)) = some ("Employee", 1) ∧
    (∃ j < 2, ∃ base, (checkUnit staff {}).table.sets[j]? = some base ∧ base.recordName = "Employee") ∧
    staffManager.inheritanceDepth = 2 ∧
    staffManager.printable.map (fun read => (read.name, read.access, read.owner.canonical)) =
      [("Name", .property, "Person"), ("Badge", .field, "Employee"), ("Level", .property, "Manager")] ∧
    ∃ ancestors, (checkUnit staff {}).table.Ancestry staffManager ancestors ∧ ancestors.length = 2 := by
  have hSet : (checkUnit staff {}).table.sets[2]? = some staffManager := rfl
  have hLink : staffManager.base = some ⟨"Employee", .named "Employee" [] .reference, 1⟩ := rfl
  obtain ⟨hBase, ancestors, hAncestry, -, hDepth, -⟩ := (bases_first_and_linked staff {}).2 2 staffManager hSet
  obtain ⟨j, hj, base, hFound, hLinks, -⟩ := hBase _ hLink
  exact ⟨hSet, rfl, ⟨j, hj, base, hFound, hLinks.name⟩, rfl, by decide +kernel, ancestors, hAncestry, hDepth.symm⟩

end RecordSynthesis
