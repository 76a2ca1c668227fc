import RecordSynthesis.Proofs.Evaluation
import RecordSynthesis.Proofs.LoweredMembers

/-!
# Dispatch

Which code a call runs. A record finds its own synthesized members by their signatures. A virtual call runs the code of
the runtime record for a method that every record overrides, and the code of the record that the method belongs to for
one that is never overridden.
-/

namespace RecordSynthesis

set_option autoImplicit false

open Code
open Decl (CompilationUnit Record)

namespace RecordTable

variable {unit : CompilationUnit} {options : SynthesisOptions} {table : RecordTable} {set level other : MemberSet}

/-- The levels of a set begin with those of each set among them. -/
theorem Grown.levels_split (grown : table.Grown unit options) (mem : set ∈ table.sets)
    (h : level ∈ table.levels set) : ∃ below, table.levels set = table.levels level ++ below := by
  refine grown.induction (P := fun set => ∀ level ∈ table.levels set,
    ∃ below, table.levels set = table.levels level ++ below) ?_ ?_ set mem level h
  · intro set record copy _ origin level hLevel
    rw [origin.levels_eq_of_none] at hLevel
    cases List.mem_singleton.mp hLevel
    exact ⟨[], (List.append_nil _).symm⟩
  · intro set record above copy _ _ origin ih level hLevel
    rw [origin.levels_eq_of_some] at hLevel
    rcases List.mem_append.mp hLevel with hAbove | hSelf
    · obtain ⟨below, hBelow⟩ := ih level hAbove
      exact ⟨below ++ [set], by rw [origin.levels_eq_of_some, hBelow, List.append_assoc]⟩
    · cases List.mem_singleton.mp hSelf
      exact ⟨[], (List.append_nil _).symm⟩

theorem Grown.levels_trans (grown : table.Grown unit options) (mem : set ∈ table.sets)
    (h : level ∈ table.levels set) (h' : other ∈ table.levels level) : other ∈ table.levels set := by
  obtain ⟨below, hBelow⟩ := grown.levels_split mem h
  rw [hBelow]
  exact List.mem_append_left _ h'

theorem Origin.above_mem_levels {record : Record} {above : MemberSet} {copy : Option CopyConstructor}
    (origin : Origin unit options table set record (some above) copy) : above ∈ table.levels set := by
  rw [origin.levels_eq_of_some]
  exact List.mem_append_left _ (table.mem_levels_self above)

/-- Code of a record that calls on the same code of the base nests one call deeper at each level, so what holds of the
base at a depth is carried to the record at the next, and holds at every depth beyond that of the record. -/
theorem Grown.levels_induction (grown : table.Grown unit options) (mem : set ∈ table.sets) {P : MemberSet → Nat → Prop}
    (root : ∀ level ∈ table.levels set, ∀ record copy depth, Origin unit options table level record none copy →
      P level (depth + 1))
    (derived : ∀ level ∈ table.levels set, ∀ record above copy depth, above ∈ table.levels set →
      Origin unit options table level record (some above) copy → P above depth → P level (depth + 1)) :
    ∀ depth > set.inheritanceDepth, P set depth := by
  refine grown.induction (P := fun level => level ∈ table.levels set → ∀ depth > level.inheritanceDepth, P level depth)
    ?_ ?_ set mem (table.mem_levels_self set)
  · intro level record copy _ origin hLevel depth hDepth
    obtain ⟨depth, rfl⟩ := Nat.exists_eq_add_one_of_ne_zero (Nat.ne_zero_of_lt hDepth)
    exact root level hLevel record copy depth origin
  · intro level record above copy _ _ origin ih hLevel depth hDepth
    obtain ⟨depth, rfl⟩ := Nat.exists_eq_add_one_of_ne_zero (Nat.ne_zero_of_lt hDepth)
    have hAbove := grown.levels_trans mem hLevel origin.above_mem_levels
    rw [origin.depth_eq rfl] at hDepth
    exact derived level hLevel record above copy depth hAbove origin (ih hAbove depth (Nat.lt_of_succ_lt_succ hDepth))

theorem Grown.depth_le (grown : table.Grown unit options) (mem : set ∈ table.sets)
    (h : level ∈ table.levels set) : level.inheritanceDepth ≤ set.inheritanceDepth := by
  refine grown.induction (P := fun set => ∀ level ∈ table.levels set, level.inheritanceDepth ≤ set.inheritanceDepth)
    ?_ ?_ set mem level h
  · intro set record copy _ origin level hLevel
    rw [origin.levels_eq_of_none] at hLevel
    exact Nat.le_of_eq (congrArg MemberSet.inheritanceDepth (List.mem_singleton.mp hLevel))
  · intro set record above copy _ _ origin ih level hLevel
    rw [origin.levels_eq_of_some] at hLevel
    rcases List.mem_append.mp hLevel with hAbove | hSelf
    · rw [origin.depth_eq rfl]
      exact Nat.le_succ_of_le (ih level hAbove)
    · exact Nat.le_of_eq (congrArg MemberSet.inheritanceDepth (List.mem_singleton.mp hSelf))

theorem Grown.levels_nodup (grown : table.Grown unit options) (mem : set ∈ table.sets) : (table.levels set).Nodup := by
  refine grown.induction (P := fun set => (table.levels set).Nodup) ?_ ?_ set mem
  · intro set record copy _ origin
    rw [origin.levels_eq_of_none]
    simp
  · intro set record above copy _ aboveMem origin ih
    rw [origin.levels_eq_of_some, List.nodup_append]
    refine ⟨ih, by simp, ?_⟩
    rintro level hLevel other hOther rfl
    have hDepth := grown.depth_le aboveMem hLevel
    rw [List.mem_singleton.mp hOther, origin.depth_eq rfl] at hDepth
    exact Nat.not_succ_le_self _ hDepth

/-- The records below one record, down to another that derives from it. -/
def beneath (table : RecordTable) (level set : MemberSet) : List MemberSet :=
  (table.levels set).drop (table.levels level).length

theorem Grown.levels_eq_append_beneath (grown : table.Grown unit options) (mem : set ∈ table.sets)
    (h : level ∈ table.levels set) : table.levels set = table.levels level ++ table.beneath level set := by
  obtain ⟨others, hOthers⟩ := grown.levels_split mem h
  rw [beneath, hOthers, List.drop_left]

theorem levels_reverse (table : RecordTable) (set : MemberSet) :
    ∃ above, (table.levels set).reverse = set :: above := by
  rw [levels, List.reverse_append]
  exact ⟨_, rfl⟩

theorem isUnder_of_mem (h : level ∈ table.levels set) : table.isUnder set level.selfType = true :=
  List.any_eq_true.mpr ⟨level, h, level.selfType.same_refl⟩

end RecordTable

/-- The code of a member is found by a test that no code of another member of the set passes. -/
theorem MemberSet.find?_functions {set : MemberSet} {member : SynthesizedMember} {function : Function}
    {test : Function → Bool} (lowered : set.lower? member = some function) (passes : test function = true)
    (only : ∀ other found, set.lower? other = some found → test found = true → other = member) :
    set.functions.find? test = some function := by
  have hMember : function ∈ set.functions :=
    List.mem_filterMap.mpr ⟨member, mem_synthesizedMembers_iff.mpr (by rw [lowered]; rfl), lowered⟩
  cases hFound : set.functions.find? test with
  | none => exact absurd passes (List.find?_eq_none.mp hFound function hMember)
  | some found =>
    obtain ⟨other, -, hOther⟩ := List.mem_filterMap.mp (List.mem_of_find?_eq_some hFound)
    cases only other found hOther (List.find?_some hFound)
    exact (hOther.symm.trans lowered)

def MemberSet.called? (set : MemberSet) : SynthesizedMember → Option (Bool × String × List Ty)
  | .clone => some (false, set.clone.name, [])
  | .typedEquals => some (false, "Equals", [set.selfType])
  | .objectEquals => some (false, "Equals", [Ty.object])
  | .hash => some (false, "GetHashCode", [])
  | .deconstruct => some (false, "Deconstruct", set.positional.map (·.type))
  | .equalityOperator => some (true, "op_Equality", [set.selfType, set.selfType])
  | .inequalityOperator => some (true, "op_Inequality", [set.selfType, set.selfType])
  | .textForm => some (false, "ToString", [])
  | .primaryConstructor | .copyConstructor | .getter _ | .initAccessor _ => none

namespace MemberSet

theorem called?_of_lower? {set : MemberSet} {member : SynthesizedMember} {function : Function}
    (lowered : set.lower? member = some function) (kind : function.kind = .method ∨ function.kind = .operator) :
    set.called? member = some (function.isStatic, function.name, function.types) := by
  cases lowers_of_lower? lowered with
  | primaryConstructor | getter | initAccessor =>
    simp [lowerPrimaryConstructor, lowerGetter, lowerInitAccessor] at kind
  | @copyConstructor copy => cases copy <;> simp [lowerCopyConstructor] at kind
  | clone | typedEquals | objectEquals | hash | equalityOperator | inequalityOperator | textForm => rfl
  | deconstruct => simp [called?, lowerDeconstruct, Function.types]

end MemberSet

namespace RecordTable.Origin

variable {unit : CompilationUnit} {options : SynthesisOptions} {table : RecordTable} {set : MemberSet}
  {record : Record} {base : Option MemberSet} {copy : Option CopyConstructor}
  (origin : Origin unit options table set record base copy)

include origin

theorem clone_name : set.clone.name = cloneMethodName := by
  rw [origin.made]
  rfl

/-- No record declares the type that all types derive from. -/
theorem not_same_object : Ty.object.same set.selfType = false ∧ set.selfType.same Ty.object = false := by
  rw [origin.made]
  exact ⟨rfl, rfl⟩

/-- Two members that are called alike, with arguments of the same types, are one. -/
theorem eq_of_called? {member other : SynthesizedMember} {isStatic : Bool} {name : String} {types others : List Ty}
    (h : set.called? member = some (isStatic, name, types)) (h' : set.called? other = some (isStatic, name, others))
    (same : Ty.sameAll others types = true) : other = member := by
  have hObject := origin.not_same_object
  have hClone := origin.clone_name
  rw [cloneMethodName] at hClone
  cases member <;> cases other <;> grind [MemberSet.called?, Ty.sameAll]

/-- A record finds the code of a member by the signature of that code. -/
theorem method?_eq {member : SynthesizedMember} {function : Function} (lowered : set.lower? member = some function)
    (kind : function.kind = .method ∨ function.kind = .operator) (owner : Ty) (returnType : Option Ty) :
    set.method? function.isStatic ⟨owner, function.name, function.types, returnType⟩ = some function := by
  refine MemberSet.find?_functions lowered (by simp [kind, Ty.sameAll_iff]) fun other found hOther hFound => ?_
  simp only [Bool.and_eq_true, Bool.or_eq_true, decide_eq_true_eq] at hFound
  obtain ⟨⟨⟨hKind, hStatic⟩, hName⟩, hTypes⟩ := hFound
  have hCalled := MemberSet.called?_of_lower? hOther hKind
  rw [hStatic, hName] at hCalled
  exact origin.eq_of_called? (MemberSet.called?_of_lower? lowered kind) hCalled hTypes

end RecordTable.Origin

def hashRef (owner : Ty) : MethodRef :=
  ⟨owner, "GetHashCode", [], some Ty.int⟩

def objectEqualsRef (owner : Ty) : MethodRef :=
  ⟨owner, "Equals", [Ty.object], some Ty.bool⟩

def cloneRef (owner : Ty) : MethodRef :=
  ⟨owner, cloneMethodName, [], some owner⟩

section

variable {unit : CompilationUnit} {options : SynthesisOptions} {table : RecordTable} {set : MemberSet}
  {record : Record} {base : Option MemberSet} {copy : Option CopyConstructor}
  (origin : RecordTable.Origin unit options table set record base copy) (owner : Ty)

include origin

theorem RecordTable.Origin.method?_typedEquals (h : set.equality.typedEquals = .synthesized) :
    set.method? false (typedEqualsRef set.selfType) = some set.lowerTypedEquals := by
  have lowered : set.lower? .typedEquals = some set.lowerTypedEquals := if_pos h
  exact origin.method?_eq lowered (.inl rfl) _ _

theorem RecordTable.Origin.method?_objectEquals (h : set.equality.objectEquals = .synthesized) :
    set.method? false (objectEqualsRef owner) = some set.lowerObjectEquals := by
  have lowered : set.lower? .objectEquals = some set.lowerObjectEquals := if_pos h
  exact origin.method?_eq lowered (.inl rfl) _ _

theorem RecordTable.Origin.method?_hash (h : set.equality.hash = .synthesized) :
    set.method? false (hashRef owner) = some set.lowerHash := by
  have lowered : set.lower? .hash = some set.lowerHash := if_pos h
  exact origin.method?_eq lowered (.inl rfl) _ _

theorem RecordTable.Origin.method?_clone : set.method? false (cloneRef owner) = some set.lowerClone := by
  have lowered : set.lower? .clone = some set.lowerClone := rfl
  have hFound := origin.method?_eq lowered (.inl rfl) owner (some owner)
  have hName : set.lowerClone.name = cloneMethodName := origin.clone_name
  rw [hName] at hFound
  exact hFound

end

namespace MemberSet

theorem overrides_hash (set : MemberSet) (owner : Ty) : set.overrides (hashRef owner) = true := by
  simp [overrides, overriding, hashRef, Ty.sameAll]

theorem overrides_objectEquals (set : MemberSet) (owner : Ty) : set.overrides (objectEqualsRef owner) = true := by
  simp [overrides, overriding, objectEqualsRef, Ty.sameAll]

end MemberSet

namespace RecordTable

variable {unit : CompilationUnit} {options : SynthesisOptions} {table : RecordTable} {set level : MemberSet}
  {method : MethodRef}

theorem Origin.overrides_clone {record : Record} {above : MemberSet} {copy : Option CopyConstructor}
    (origin : Origin unit options table set record (some above) copy) (owner : Ty) :
    set.overrides (cloneRef owner) = true := by
  have hOverridden : set.clone.overridden = some above.selfType := by
    rw [origin.made]
    rfl
  simp [MemberSet.overrides, MemberSet.overriding, hOverridden, origin.clone_name, cloneRef, Ty.sameAll]

theorem Grown.not_overrides_typedEquals (grown : table.Grown unit options) (mem : set ∈ table.sets)
    (levelMem : level ∈ table.sets) : set.overrides (typedEqualsRef level.selfType) = false := by
  obtain ⟨_, _, _, origin⟩ := grown.exists_origin mem
  obtain ⟨_, _, _, levelOrigin⟩ := grown.exists_origin levelMem
  have hClone := origin.clone_name
  have hObject := levelOrigin.not_same_object.1
  rw [MemberSet.overrides, List.any_eq_false]
  intro signature hSignature
  grind [MemberSet.overriding, typedEqualsRef, Ty.sameAll, cloneMethodName]

theorem Grown.own?_eq (grown : table.Grown unit options) (mem : set ∈ table.sets) (isStatic : Bool)
    (owner : method.owner = set.selfType) : table.own? isStatic method = set.method? isStatic method := by
  rw [own?, owner, grown.owner?_selfType mem, Option.bind_some]

/-- An instance of a record that overrides a method runs its own code. -/
theorem Grown.dispatch?_of_overrides (grown : table.Grown unit options) (mem : set ∈ table.sets)
    (under : level ∈ table.levels set) (owner : method.owner = level.selfType)
    (h : set ≠ level → set.overrides method = true) : table.dispatch? set method = set.method? false method := by
  have hLevel := grown.levels_subset mem level under
  obtain ⟨above, hReverse⟩ := table.levels_reverse set
  rw [dispatch?, owner, if_pos (isUnder_of_mem under), hReverse, List.takeWhile_cons]
  cases hSame : set.selfType.same level.selfType with
  | true =>
    obtain rfl := grown.eq_of_same mem hLevel hSame
    exact grown.own?_eq mem false owner
  | false =>
    have hNe : set ≠ level := by
      rintro rfl
      simp at hSame
    simp [h hNe]

/-- A method that nothing overrides runs as the record has it that the method belongs to. -/
theorem Grown.dispatch?_of_not_overrides (grown : table.Grown unit options) (mem : set ∈ table.sets)
    (under : level ∈ table.levels set) (owner : method.owner = level.selfType)
    (h : ∀ other ∈ table.levels set, other.overrides method = false) :
    table.dispatch? set method = level.method? false method := by
  rw [dispatch?, owner, if_pos (isUnder_of_mem under)]
  have hNone : ((table.levels set).reverse.takeWhile fun other => !other.selfType.same level.selfType).find?
      (fun other => other.overrides method) = none := by
    refine List.find?_eq_none.mpr fun other hOther => ?_
    simp [h other (List.mem_reverse.mp (List.takeWhile_subset _ hOther))]
  simp only [hNone]
  exact grown.own?_eq (grown.levels_subset mem level under) false owner

theorem Grown.dispatch?_typedEquals (grown : table.Grown unit options) (mem : set ∈ table.sets)
    (under : level ∈ table.levels set) (h : level.equality.typedEquals = .synthesized) :
    table.dispatch? set (typedEqualsRef level.selfType) = some level.lowerTypedEquals := by
  have hLevel := grown.levels_subset mem level under
  obtain ⟨_, _, _, origin⟩ := grown.exists_origin hLevel
  rw [← origin.method?_typedEquals h]
  refine grown.dispatch?_of_not_overrides mem under rfl fun other hOther => ?_
  exact grown.not_overrides_typedEquals (grown.levels_subset mem other hOther) hLevel

theorem Grown.dispatch?_objectEquals (grown : table.Grown unit options) (mem : set ∈ table.sets)
    (under : level ∈ table.levels set) (h : set.equality.objectEquals = .synthesized) :
    table.dispatch? set (objectEqualsRef level.selfType) = some set.lowerObjectEquals := by
  obtain ⟨_, _, _, origin⟩ := grown.exists_origin mem
  rw [← origin.method?_objectEquals level.selfType h]
  exact grown.dispatch?_of_overrides mem under rfl fun _ => set.overrides_objectEquals _

theorem Grown.dispatch?_hash (grown : table.Grown unit options) (mem : set ∈ table.sets)
    (under : level ∈ table.levels set) (h : set.equality.hash = .synthesized) :
    table.dispatch? set (hashRef level.selfType) = some set.lowerHash := by
  obtain ⟨_, _, _, origin⟩ := grown.exists_origin mem
  rw [← origin.method?_hash level.selfType h]
  exact grown.dispatch?_of_overrides mem under rfl fun _ => set.overrides_hash _

theorem Grown.dispatch?_clone (grown : table.Grown unit options) (mem : set ∈ table.sets)
    (under : level ∈ table.levels set) :
    table.dispatch? set (cloneRef level.selfType) = some set.lowerClone := by
  obtain ⟨record, base, copy, origin⟩ := grown.exists_origin mem
  rw [← origin.method?_clone level.selfType]
  refine grown.dispatch?_of_overrides mem under rfl fun hNe => ?_
  cases base with
  | none =>
    rw [origin.levels_eq_of_none] at under
    exact absurd (List.mem_singleton.mp under).symm hNe
  | some above => exact origin.overrides_clone level.selfType

end RecordTable

end RecordSynthesis
