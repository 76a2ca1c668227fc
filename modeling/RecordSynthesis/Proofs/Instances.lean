import RecordSynthesis.Proofs.Dispatch
import RecordSynthesis.Proofs.EvaluationRules
import RecordSynthesis.Proofs.StatePasses

/-!
# Instances

An instance of a record holds a value for every piece of state of the record and of those above it, and each value is one
of the type of its member. What the types of members admit is left open, but for this: making further instances takes no
value from a type.
-/

namespace RecordSynthesis

set_option autoImplicit false

open Code
open Decl (CompilationUnit Record)

/-- The state of a record and of all records above it, the most distant first. -/
def RecordTable.state (table : RecordTable) (set : MemberSet) : List (EqualityStrategy × FieldRef) :=
  (table.levels set).flatMap MemberSet.visits

namespace RecordTable

variable {unit : CompilationUnit} {options : SynthesisOptions} {table : RecordTable} {set level above : MemberSet}
  {record : Record} {copy : Option CopyConstructor}

theorem Origin.state_eq_of_none (origin : Origin unit options table set record none copy) :
    table.state set = set.visits := by
  rw [state, origin.levels_eq_of_none, List.flatMap_singleton]

theorem Origin.state_eq_of_some (origin : Origin unit options table set record (some above) copy) :
    table.state set = table.state above ++ set.visits := by
  rw [state, origin.levels_eq_of_some, List.flatMap_append, List.flatMap_singleton, state]

theorem Grown.mem_levels_of_baseOf? (grown : table.Grown unit options) (mem : set ∈ table.sets)
    (h : table.baseOf? set = some above) : above ∈ table.levels set := by
  obtain ⟨_, base, _, origin⟩ := grown.exists_origin mem
  obtain rfl := origin.baseOf?_eq.symm.trans h
  exact origin.above_mem_levels

theorem mem_state (under : level ∈ table.levels set) {state : StateMember} (h : state ∈ level.state) :
    (state.equality, level.stateField state) ∈ table.state set :=
  List.mem_flatMap.mpr ⟨level, under, List.mem_map_of_mem h⟩

/-- The state of a record is state of every record below it. -/
theorem Grown.state_subset (grown : table.Grown unit options) (mem : set ∈ table.sets)
    (under : level ∈ table.levels set) : table.state level ⊆ table.state set := by
  obtain ⟨below, hBelow⟩ := grown.levels_split mem under
  intro visit hVisit
  rw [state, hBelow, List.flatMap_append]
  exact List.mem_append_left _ hVisit

/-- What has the same type as a record is an instance of it. -/
theorem Grown.owner?_of_same (grown : table.Grown unit options) (mem : set ∈ table.sets) {type : Ty}
    (h : type.same set.selfType = true) : table.owner? type = some set := by
  cases hFound : table.owner? type with
  | none =>
    have hNone := List.find?_eq_none.mp hFound set mem
    rw [Ty.same_comm, h] at hNone
    exact absurd rfl hNone
  | some found =>
    have hSame := List.find?_some hFound
    rw [grown.eq_of_same (List.mem_of_find?_eq_some hFound) mem ((Ty.same_congr h _).mp hSame)]

end RecordTable

namespace Code

structure Typing where
  inhabits : Heap → Ty → Value → Prop
  grows : ∀ heap object type value, inhabits heap type value → inhabits (heap ++ [object]) type value

def Object.read (object : Object) (field : FieldRef) : Value :=
  (object.read? field).getD .null

namespace Program

variable (program : Program)

structure Fills (typing : Typing) (heap : Heap) (set : MemberSet) (object : Object) : Prop where
  held : ∀ visit ∈ program.table.state set, (object.read? visit.2).isSome = true
  typed : ∀ visit ∈ program.table.state set, typing.inhabits heap visit.2.type (object.read visit.2)

/-- Every instance of a record of the table is filled. -/
def WellFormed (typing : Typing) (heap : Heap) : Prop :=
  ∀ object ∈ heap, ∀ set, program.table.owner? object.type = some set → program.Fills typing heap set object

/-- A value is an instance whose runtime type is the one that a record declares. -/
structure IsInstance (heap : Heap) (runtime : MemberSet) (value : Value) (object : Object) : Prop where
  found : heap.object? value = some object
  owner : program.table.owner? object.type = some runtime

/-- A value is an instance of a record or of one that derives from it. -/
def IsA (heap : Heap) (set : MemberSet) (value : Value) : Prop :=
  ∃ runtime object, program.IsInstance heap runtime value object ∧ set ∈ program.table.levels runtime

end Program

theorem Object.read?_eq {object : Object} {field : FieldRef} (h : (object.read? field).isSome = true) :
    object.read? field = some (object.read field) := by
  obtain ⟨value, hValue⟩ := Option.isSome_iff_exists.mp h
  rw [read, hValue, Option.getD_some]

theorem Heap.mem_of_object? {heap : Heap} {value : Value} {object : Object} (h : heap.object? value = some object) :
    object ∈ heap := by
  obtain ⟨address, rfl, hAt⟩ := exists_reference h
  exact List.mem_of_getElem? hAt

namespace Program

variable {unit : CompilationUnit} {options : SynthesisOptions} {program : Program} {typing : Typing} {heap : Heap}
  {set runtime level : MemberSet} {value : Value} {object : Object}

theorem mem_sets_of_owner? {type : Ty} (h : program.table.owner? type = some set) : set ∈ program.table.sets :=
  List.mem_of_find?_eq_some h

theorem IsInstance.mem (h : program.IsInstance heap runtime value object) : runtime ∈ program.table.sets :=
  mem_sets_of_owner? h.owner

theorem IsInstance.runtime? (h : program.IsInstance heap runtime value object) :
    program.runtime? heap value = some runtime := by
  rw [Program.runtime?, h.found, Option.bind_some, h.owner]

theorem Fills.of_under (grown : program.table.Grown unit options) (mem : set ∈ program.table.sets)
    (under : level ∈ program.table.levels set) (fills : program.Fills typing heap set object) :
    program.Fills typing heap level object :=
  ⟨fun visit h => fills.held visit (grown.state_subset mem under h),
    fun visit h => fills.typed visit (grown.state_subset mem under h)⟩

theorem Fills.read?_eq (fills : program.Fills typing heap set object) (under : level ∈ program.table.levels set)
    {state : StateMember} (h : state ∈ level.state) :
    object.read? (level.stateField state) = some (object.read (level.stateField state)) :=
  Object.read?_eq (fills.held _ (RecordTable.mem_state under h))

theorem WellFormed.fills (wellFormed : program.WellFormed typing heap) (grown : program.table.Grown unit options)
    (h : program.IsInstance heap runtime value object) (under : level ∈ program.table.levels runtime) :
    program.Fills typing heap level object :=
  (wellFormed object (Heap.mem_of_object? h.found) runtime h.owner).of_under grown h.mem under

/-- An instance may stand for each record that its own derives from. -/
theorem IsInstance.fits (h : program.IsInstance heap runtime value object)
    (under : level ∈ program.table.levels runtime) : program.fits heap value level.selfType = true := by
  have hUnder := RecordTable.isUnder_of_mem under
  obtain ⟨address, rfl, -⟩ := Heap.exists_reference h.found
  simp [Program.fits, h.runtime?, hUnder]

end Program

def Interpretation.plain : Interpretation where
  equals _ _ _ left right := left = right
  hash _ _ _
    | .int value => value
    | .text value => Int32.ofNat value.length
    | _ => 0
  combine left right := 31 * left + right
  typeHash type := Int32.ofNat type.canonical.length
  text _ _
    | .int value => toString value
    | .text value => value
    | _ => ""
  admits _ _ := true

def Typing.unchecked : Typing where
  inhabits _ _ _ := True
  grows _ _ _ _ _ := trivial

end Code

def person : MemberSet :=
  ((checkUnit people {}).table.get? "Person").getD default

def peopleProgram : Program where
  table := (checkUnit people {}).table
  interpretation := .plain

def namesakes : Heap :=
  let name : FieldRef × Value := (person.field "<Name>k__BackingField" Ty.string, .text "Ada")
  [{ type := person.selfType, fields := [name] },
    { type := student.selfType, fields := [name, (student.field "<Grade>k__BackingField" Ty.int, .int 3)] }]

theorem namesakes_wellFormed : peopleProgram.WellFormed .unchecked namesakes := by
  intro object hObject set hOwner
  rcases List.mem_cons.mp hObject with rfl | hObject
  · cases hOwner
    exact ⟨by decide +kernel, fun _ _ => trivial⟩
  · cases List.mem_singleton.mp hObject
    cases hOwner
    exact ⟨by decide +kernel, fun _ _ => trivial⟩

theorem person_mem : person ∈ peopleProgram.table.sets := by
  have hFound : peopleProgram.table.get? "Person" = some person := rfl
  exact (RecordTable.mem_of_get? hFound).1

theorem student_mem : student ∈ peopleProgram.table.sets := by
  have hFound : peopleProgram.table.get? "Student" = some student := rfl
  exact (RecordTable.mem_of_get? hFound).1

theorem person_above_student : person ∈ peopleProgram.table.levels student :=
  (checkUnit_grown people {}).mem_levels_of_baseOf? student_mem rfl

theorem student_isA_person : peopleProgram.IsA namesakes person (.reference 1) :=
  ⟨student, _, ⟨rfl, rfl⟩, person_above_student⟩

end RecordSynthesis
