import Mathlib.Data.List.Nodup
import Mathlib.Data.List.Perm.Subperm
import Mathlib.Data.Nat.Find
import Mathlib.Logic.Relation
import RecordSynthesis.Members.Table

/-!
# Base links

Base links lead from a declared record to the name of its base, through first declarations. A record is on a cycle if
they lead from it back to it. A cycle is no longer than the unit has records, so looking that far up finds it.
-/

namespace RecordSynthesis

set_option autoImplicit false

open Decl (CompilationUnit Record)

namespace Decl.CompilationUnit

/-- The first declaration of a name has this base. -/
def Derives (unit : CompilationUnit) (name base : String) : Prop :=
  CheckUnit.baseOf? unit name = some base

def IsOnCycle (unit : CompilationUnit) (name : String) : Prop :=
  Relation.TransGen unit.Derives name name

def Declares (unit : CompilationUnit) (name : String) : Prop :=
  name ∈ unit.records.map (·.name)

theorem declares_iff {unit : CompilationUnit} {name : String} :
    unit.Declares name ↔ ∃ record, unit.find? name = some record := by
  rw [Declares, find?, ← Option.isSome_iff_exists, List.find?_isSome]
  simp

theorem derives_iff {unit : CompilationUnit} {name base : String} :
    unit.Derives name base ↔ ∃ record, unit.find? name = some record ∧ record.base = some base := by
  rw [Derives, CheckUnit.baseOf?, Option.bind_eq_some_iff]

theorem Derives.declares {unit : CompilationUnit} {name base : String} (h : unit.Derives name base) :
    unit.Declares name := by
  obtain ⟨record, hRecord, -⟩ := derives_iff.mp h
  exact declares_iff.mpr ⟨record, hRecord⟩

theorem derives_iff_base {unit : CompilationUnit} {name base : String} {record : Record}
    (declared : unit.find? name = some record) :
    unit.Derives name base ↔ record.base = some base := by
  rw [derives_iff, declared]
  simp

theorem IsOnCycle.declares {unit : CompilationUnit} {name : String} (h : unit.IsOnCycle name) : unit.Declares name := by
  obtain ⟨_, hLink, -⟩ := Relation.TransGen.head'_iff.mp h
  exact hLink.declares

/-- A cycle cannot be left: what it leads to leads back. -/
theorem IsOnCycle.back {unit : CompilationUnit} {name other : String} (h : unit.IsOnCycle name)
    (reached : Relation.ReflTransGen unit.Derives name other) :
    Relation.TransGen unit.Derives other name := by
  induction reached with
  | refl => exact h
  | tail _ hLink ih =>
    obtain ⟨next, hNext, hBack⟩ := Relation.TransGen.head'_iff.mp ih
    obtain rfl := Option.some.inj (hNext.symm.trans hLink)
    rcases Relation.reflTransGen_iff_eq_or_transGen.mp hBack with rfl | hBack
    · exact h
    · exact hBack

/-- Different declared names are no more than there are records. -/
theorem length_le_of_nodup {unit : CompilationUnit} {names : List String} (nodup : names.Nodup)
    (declared : ∀ name ∈ names, unit.Declares name) : names.length ≤ unit.records.length := by
  have hLength := (List.subperm_of_subset nodup declared).length_le
  rwa [List.length_map] at hLength

end Decl.CompilationUnit

namespace CheckUnit

def ancestor? (unit : CompilationUnit) : Nat → String → Option String
  | 0, name => some name
  | distance + 1, name => (baseOf? unit name).bind (ancestor? unit distance)

variable {unit : CompilationUnit}

theorem ancestor?_add (near far : Nat) (name : String) :
    ancestor? unit (near + far) name = (ancestor? unit near name).bind (ancestor? unit far) := by
  induction near generalizing name with
  | zero => simp [ancestor?]
  | succ near ih =>
    rw [Nat.add_right_comm, ancestor?, ancestor?, Option.bind_assoc]
    exact Option.bind_congr fun base _ => ih base

theorem mem_ancestors_iff {fuel : Nat} {name other : String} :
    other ∈ ancestors unit fuel name ↔ ∃ distance < fuel, ancestor? unit (distance + 1) name = some other := by
  induction fuel generalizing name with
  | zero => simp [ancestors]
  | succ fuel ih =>
    rw [ancestors]
    simp only [ancestor?]
    cases hBase : baseOf? unit name with
    | none => simp
    | some base =>
      rw [List.mem_cons, ih]
      constructor
      · rintro (rfl | ⟨distance, hDistance, h⟩)
        · exact ⟨0, Nat.succ_pos fuel, rfl⟩
        · exact ⟨distance + 1, Nat.succ_lt_succ hDistance, h⟩
      · rintro ⟨distance, hDistance, h⟩
        cases distance with
        | zero => exact .inl (Option.some.inj h).symm
        | succ distance => exact .inr ⟨distance, Nat.lt_of_succ_lt_succ hDistance, h⟩

theorem transGen_iff {name other : String} :
    Relation.TransGen unit.Derives name other ↔ ∃ distance, ancestor? unit (distance + 1) name = some other := by
  constructor
  · intro h
    induction h using Relation.TransGen.head_induction_on with
    | single hLink => exact ⟨0, by simp [ancestor?, show baseOf? unit _ = some _ from hLink]⟩
    | head hLink _ ih =>
      obtain ⟨distance, hDistance⟩ := ih
      exact ⟨distance + 1, by rw [ancestor?, show baseOf? unit _ = some _ from hLink]; exact hDistance⟩
  · rintro ⟨distance, h⟩
    induction distance generalizing name with
    | zero =>
      obtain ⟨base, hLink, hSame⟩ := Option.bind_eq_some_iff.mp h
      cases hSame
      exact .single hLink
    | succ distance ih =>
      obtain ⟨base, hLink, hRest⟩ := Option.bind_eq_some_iff.mp h
      exact .head hLink (ih hRest)

/-- The names on the way up are all different until the first of them comes back. -/
theorem path_nodup {name : String} {distance : Nat} (back : ancestor? unit (distance + 1) name = some name)
    (shortest : ∀ shorter < distance, ancestor? unit (shorter + 1) name ≠ some name) :
    ((List.range (distance + 1)).map fun step => ancestor? unit step name).Nodup := by
  refine List.Nodup.map_on ?_ List.nodup_range
  -- Two equal names on the way would cut the stretch between them out of the cycle.
  have hCut : ∀ i j, i < j → j < distance + 1 → ancestor? unit i name ≠ ancestor? unit j name := by
    intro i j hij hj hSame
    refine shortest (i + (distance - j)) (by omega) ?_
    have hi : i + (distance - j) + 1 = i + (distance + 1 - j) := by omega
    have hBack : distance + 1 = j + (distance + 1 - j) := by omega
    rw [hi, ancestor?_add, hSame, ← ancestor?_add, ← hBack, back]
  intro i hi j hj hSame
  rw [List.mem_range] at hi hj
  rcases Nat.lt_trichotomy i j with hij | hij | hij
  · exact absurd hSame (hCut i j hij hj)
  · exact hij
  · exact absurd hSame.symm (hCut j i hij hi)

/-- Every name below the end of a way up is declared. -/
theorem ancestor?_declared {name other : String} {near far : Nat}
    (h : ancestor? unit (near + (far + 1)) name = some other) :
    ∃ below, ancestor? unit near name = some below ∧ unit.Declares below := by
  rw [ancestor?_add] at h
  obtain ⟨below, hBelow, hRest⟩ := Option.bind_eq_some_iff.mp h
  obtain ⟨base, hLink, -⟩ := Option.bind_eq_some_iff.mp hRest
  exact ⟨below, hBelow, CompilationUnit.Derives.declares hLink⟩

theorem isCyclic_iff {name : String} : isCyclic unit name = true ↔ unit.IsOnCycle name := by
  rw [isCyclic, List.contains_iff_mem, mem_ancestors_iff, CompilationUnit.IsOnCycle, transGen_iff]
  constructor
  · rintro ⟨distance, -, h⟩
    exact ⟨distance, h⟩
  · intro hBack
    have back := Nat.find_spec hBack
    have nodup := path_nodup back fun shorter h => Nat.find_min hBack h
    refine ⟨Nat.find hBack, ?_, back⟩
    have hDeclared : ((List.range (Nat.find hBack + 1)).map fun step => ancestor? unit step name) ⊆
        unit.records.map fun record => some record.name := by
      intro found hFound
      obtain ⟨step, hStep, rfl⟩ := List.mem_map.mp hFound
      have hRest : step + (Nat.find hBack - step + 1) = Nat.find hBack + 1 := by
        have := List.mem_range.mp hStep
        omega
      obtain ⟨below, hBelow, hName⟩ := ancestor?_declared (hRest ▸ back)
      obtain ⟨record, hMem, rfl⟩ := List.mem_map.mp hName
      exact List.mem_map.mpr ⟨record, hMem, hBelow.symm⟩
    have hLength := (List.subperm_of_subset nodup hDeclared).length_le
    simpa [Nat.succ_le_iff] using hLength

end CheckUnit

end RecordSynthesis
