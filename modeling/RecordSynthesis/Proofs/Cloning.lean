import RecordSynthesis.Proofs.Account
import RecordSynthesis.Proofs.ClosedCode
import RecordSynthesis.Proofs.StructuralEquality

/-!
# Cloning

The clone method of a reference record makes an instance of the runtime type at the end of the heap. The copy
constructor first has the base take over its state and then takes over its own, so the new instance ends up with the
state of all levels and is equal to the original, which nothing writes to. The clone method of a value record returns the
receiver, and no code of a value record makes an instance.
-/

namespace RecordSynthesis

set_option autoImplicit false

open Code
open Decl (CompilationUnit Record)

namespace Code

theorem FieldRef.names_congr {field other : FieldRef} (h : field.names other = true) (first : FieldRef) :
    first.names field = first.names other := by
  obtain ⟨hOwner, hName⟩ := Bool.and_eq_true_iff.mp h
  rw [names, names, of_decide_eq_true hName, Bool.eq_iff_iff.mpr (Ty.same_congr hOwner first.owner)]

namespace Object

theorem read?_congr (object : Object) {field other : FieldRef} (h : field.names other = true) :
    object.read? field = object.read? other := by
  simp only [read?, FieldRef.names_congr h]

theorem read?_write (object : Object) (field other : FieldRef) (value : Value) :
    (object.write field value).read? other = if field.names other then some value else object.read? other := by
  rw [read?, write, List.find?_cons]
  cases field.names other <;> rfl

def adopt (object source : Object) (fields : List FieldRef) : Object :=
  fields.foldl (fun object field => object.write field (source.read field)) object

@[simp] theorem type_adopt (object source : Object) (fields : List FieldRef) :
    (object.adopt source fields).type = object.type := by
  induction fields generalizing object with
  | nil => rfl
  | cons field fields ih => exact ih (object.write field (source.read field))

theorem adopt_append (object source : Object) (fields others : List FieldRef) :
    object.adopt source (fields ++ others) = (object.adopt source fields).adopt source others :=
  List.foldl_append

theorem read?_adopt (object source : Object) (fields : List FieldRef) (field : FieldRef) :
    (object.adopt source fields).read? field =
      if fields.any fun other => other.names field then some (source.read field) else object.read? field := by
  induction fields generalizing object with
  | nil => rfl
  | cons first fields ih =>
    have hRest := ih (object.write first (source.read first))
    rw [read?_write] at hRest
    rw [List.any_cons, adopt, List.foldl_cons, ← adopt, hRest]
    cases hNames : first.names field with
    | false => simp
    | true => simp [read, source.read?_congr hNames]

end Object

namespace Heap

theorem object?_append {heap : Heap} {value : Value} {object : Object} (found : heap.object? value = some object)
    (others : Heap) : Heap.object? (heap ++ others) value = some object := by
  obtain ⟨address, rfl, hAt⟩ := exists_reference found
  obtain ⟨hBound, -⟩ := List.getElem?_eq_some_iff.mp hAt
  rw [object?, List.getElem?_append_left hBound, hAt]

theorem object?_last (heap : Heap) (object : Object) :
    Heap.object? (heap ++ [object]) (.reference heap.length) = some object := by
  simp [object?]

theorem object?_length (heap : Heap) : heap.object? (.reference heap.length) = none := by
  simp [object?]

theorem modify_last (heap : Heap) (object : Object) (f : Object → Object) :
    (heap ++ [object]).modify heap.length f = heap ++ [f object] := by
  simp [List.modify_eq_set_getElem?]

end Heap

end Code

theorem Signature.ofTypes_eq_of_sameAll {types others : List Ty} (h : Ty.sameAll types others = true) :
    Signature.ofTypes types = Signature.ofTypes others := by
  induction types generalizing others with
  | nil =>
    cases others with
    | nil => rfl
    | cons => simp [Ty.sameAll] at h
  | cons type types ih =>
    cases others with
    | nil => simp [Ty.sameAll] at h
    | cons other others =>
      obtain ⟨hType, hTypes⟩ := Bool.and_eq_true_iff.mp h
      have hCanonical : type.canonical = other.canonical := by
        rw [← type.canonical_unkinded, (Ty.same_iff type other).mp hType, other.canonical_unkinded]
      rw [ofTypes, List.map_cons, hCanonical]
      exact congrArg _ (ih hTypes)

namespace RecordTable

/-- No record of the table declares a constructor that repeats another one. -/
def CollisionFree (unit : CompilationUnit) (table : RecordTable) : Prop :=
  ∀ set ∈ table.sets, ∀ record, unit.find? set.recordName = some record → record.collisions = []

theorem collisionFree_checkUnit {unit : CompilationUnit} {options : SynthesisOptions}
    (quiet : (checkUnit unit options).diagnostics = []) : (checkUnit unit options).table.CollisionFree unit := by
  intro set mem record declared
  obtain ⟨made, hMade, hOutcome⟩ := CheckUnit.mem_sets_iff.mp mem
  rw [← CheckUnit.outcome_attempt] at hOutcome
  rcases CheckUnit.attempt_cases (checkUnit_grown unit options) made with
    ⟨other, hName, hAttempt, -⟩ | ⟨fault, -, -, hAttempt⟩
  · rw [hAttempt] at hOutcome
    cases hOutcome
    obtain rfl : record = made := by
      rw [hName, hMade] at declared
      exact (Option.some.inj declared).symm
    refine List.eq_nil_iff_forall_not_mem.mpr fun diagnostic hDiagnostic => ?_
    have hReported : diagnostic ∈ (checkUnit unit options).diagnostics :=
      CheckUnit.mem_diagnostics_iff.mpr ⟨record, hMade, by rw [hAttempt]; exact hDiagnostic⟩
    rw [quiet] at hReported
    cases hReported
  · rw [hAttempt] at hOutcome
    cases hOutcome

namespace Origin

variable {unit : CompilationUnit} {options : SynthesisOptions} {table : RecordTable} {set : MemberSet}
  {record : Record} {base : Option MemberSet} {copy : Option CopyConstructor}
  (origin : Origin unit options table set record base copy)

include origin

theorem isValueType_of_hasSynthesizedCopy (h : set.hasSynthesizedCopy = true) : record.isValueType = false := by
  have hCopy : set.copyConstructor = copy := by
    rw [origin.made]
    rfl
  have hCopied := origin.copied
  rw [← hCopy, origin.copyConstructor_eq h] at hCopied
  exact hCopied.1

theorem primarySignature?_eq {primary : PrimaryConstructor} (h : set.primaryConstructor = some primary) :
    record.primarySignature? = some (Signature.ofTypes (primary.parameters.map (·.type))) := by
  rw [origin.made] at h
  obtain ⟨hPositional, ⟨⟩⟩ := Option.ite_none_right_eq_some.mp h
  rw [Decl.Record.primarySignature?, if_pos hPositional, Decl.Record.parameterTypes]

/-- A record whose constructors do not collide finds its synthesized copy constructor by its own type. -/
theorem constructor?_copy (quiet : record.collisions = []) (h : set.hasSynthesizedCopy = true) :
    set.constructor? [set.selfType] =
      some (set.lowerCopyConstructor (.synthesized (.copying copyParameterName base))) := by
  have lowered : set.lower? .copyConstructor =
      some (set.lowerCopyConstructor (.synthesized (.copying copyParameterName base))) := by
    rw [MemberSet.lower?, origin.copyConstructor_eq h, Option.map_some]
  refine MemberSet.find?_functions lowered (by simp [MemberSet.lowerCopyConstructor, Function.types, Ty.sameAll]) ?_
  intro other found hOther hFound
  obtain ⟨hKind, hTypes⟩ := Bool.and_eq_true_iff.mp hFound
  cases other with
  | copyConstructor => rfl
  | primaryConstructor =>
    obtain ⟨primary, hPrimary, rfl⟩ := Option.map_eq_some_iff.mp hOther
    have hSelf : set.selfType = record.selfType := by
      rw [origin.made]
      rfl
    have hSame : record.primarySignature? = some record.copySignature := by
      rw [origin.primarySignature?_eq hPrimary, Decl.Record.copySignature, ← hSelf,
        ← Signature.ofTypes_eq_of_sameAll hTypes]
      simp [MemberSet.lowerPrimaryConstructor, Function.types, Function.comp_def]
    have hDistinct := ((Decl.Record.collisions_eq_nil_iff record).mp quiet).2
    exact absurd ⟨origin.isValueType_of_hasSynthesizedCopy h, hSame⟩ hDistinct
  | getter _ | initAccessor _ =>
    obtain ⟨_, -, rfl⟩ := Option.map_eq_some_iff.mp hOther
    simp [MemberSet.lowerGetter, MemberSet.lowerInitAccessor] at hKind
  | clone =>
    cases hOther
    simp [MemberSet.lowerClone] at hKind
  | typedEquals | objectEquals | hash | deconstruct | equalityOperator | inequalityOperator | textForm =>
    obtain ⟨-, ⟨⟩⟩ := Option.ite_none_right_eq_some.mp hOther
    cases hKind

end Origin

end RecordTable

def MemberSet.transfer (set : MemberSet) (state : StateMember) : Stmt :=
  .storeField .this (set.stateField state) (.loadField (.parameter copyParameterName) (set.stateField state))

/-- An instance of a record that has taken over all state of another one. -/
def RecordTable.twin (table : RecordTable) (set : MemberSet) (object : Object) : Object :=
  Object.adopt { type := set.selfType } object ((table.state set).map (·.2))

namespace Code.Program

variable {unit : CompilationUnit} {options : SynthesisOptions} {program : Program} {typing : Typing} {heap : Heap}
  {set : MemberSet} {value : Value} {object target : Object}

/-- What a copy constructor sees: the new instance at the end of the heap, and the original. -/
def copyFrame (heap : Heap) (value : Value) : Frame :=
  ⟨some (.reference heap.length), [(copyParameterName, value)]⟩

theorem eval_original {invoke : Function → Option Value → List Value → Run Outcome} (heap' : Heap) :
    program.eval invoke (copyFrame heap value) (.parameter copyParameterName) heap' = .ok (value, heap') :=
  eval_parameter List.lookup_cons_self

theorem execAll_transfers (found : heap.object? value = some object) (states : List StateMember)
    (held : ∀ state ∈ states, object.read? (set.stateField state) = some (object.read (set.stateField state)))
    {invoke : Function → Option Value → List Value → Run Outcome} :
    program.execAll invoke (copyFrame heap value) (states.map set.transfer) (heap ++ [target]) =
      .ok ({}, heap ++ [target.adopt object (states.map set.stateField)]) := by
  induction states generalizing target with
  | nil =>
    rw [List.map_nil, execAll]
    rfl
  | cons state states ih =>
    obtain ⟨hState, hStates⟩ := List.forall_mem_cons.mp held
    have hLoad : program.eval invoke (copyFrame heap value)
        (.loadField (.parameter copyParameterName) (set.stateField state)) (heap ++ [target]) =
          .ok (object.read (set.stateField state), heap ++ [target]) :=
      eval_loadField (eval_original _) (Heap.object?_append found [target]) hState
    have hStore : program.exec invoke (copyFrame heap value) (set.transfer state) (heap ++ [target]) =
        .ok ({}, heap ++ [target.write (set.stateField state) (object.read (set.stateField state))]) := by
      refine (exec_storeField (eval_this rfl) (Heap.object?_last heap target) hLoad).trans ?_
      rw [Heap.modify_last]
    exact execAll_next hStore (ih hStates)

/-- A copy constructor takes over the own state of its record after the base has done its part. -/
theorem construct_copy_of_base {record : Record} {base : Option MemberSet} {copy : Option CopyConstructor}
    (origin : RecordTable.Origin unit options program.table set record base copy) (quiet : record.collisions = [])
    (synthesized : set.hasSynthesizedCopy = true) (owner : program.table.owner? set.selfType = some set)
    (found : heap.object? value = some object) (fills : program.Fills typing heap set object) {call : Stmt}
    (hCall : (ConstructorChain.copying copyParameterName base).toStmts = [call]) {depth : Nat} {target' : Object}
    (h : program.exec (program.invoke depth) (copyFrame heap value) call (heap ++ [target]) =
      .ok ({}, heap ++ [target'])) :
    program.construct (program.invoke (depth + 1)) (some (.reference heap.length)) set.selfType [set.selfType] [value]
        (heap ++ [target]) =
      .ok ((), heap ++ [target'.adopt object (set.visits.map (·.2))]) := by
  have hFields : set.visits.map (·.2) = set.state.map set.stateField := by
    rw [MemberSet.visits, List.map_map]
    rfl
  have hBody : program.invoke (depth + 1)
      (set.lowerCopyConstructor (.synthesized (.copying copyParameterName base))) (some (.reference heap.length)) [value]
      (heap ++ [target]) = .ok ({}, heap ++ [target'.adopt object (set.state.map set.stateField)]) := by
    rw [invoke, MemberSet.lowerCopyConstructor, hCall]
    exact execAll_next h (execAll_transfers found set.state fun state hState =>
      fills.read?_eq (program.table.mem_levels_self set) hState)
  rw [hFields]
  exact construct_ok owner (origin.constructor?_copy quiet synthesized) hBody

/-- The synthesized copy constructors of a record and of those above it take over the state of all of them. -/
theorem construct_copy (grown : program.table.Grown unit options) (quiet : program.table.CollisionFree unit)
    (mem : set ∈ program.table.sets)
    (copies : ∀ level ∈ program.table.levels set, level.hasSynthesizedCopy = true)
    (found : heap.object? value = some object) (fills : program.Fills typing heap set object) :
    ∀ depth > set.inheritanceDepth,
      program.construct (program.invoke depth) (some (.reference heap.length)) set.selfType [set.selfType] [value]
          (heap ++ [target]) =
        .ok ((), heap ++ [target.adopt object ((program.table.state set).map (·.2))]) := by
  have inTable := grown.levels_subset mem
  refine grown.levels_induction mem (P := fun level depth =>
    program.construct (program.invoke depth) (some (.reference heap.length)) level.selfType [level.selfType] [value]
        (heap ++ [target]) =
      .ok ((), heap ++ [target.adopt object ((program.table.state level).map (·.2))])) ?_ ?_
  · intro level hLevel record copy depth origin
    rw [origin.state_eq_of_none]
    exact construct_copy_of_base origin (quiet level (inTable level hLevel) record origin.find?_eq) (copies level hLevel)
      (grown.owner?_selfType (inTable level hLevel)) found (fills.of_under grown mem hLevel) rfl
      (exec_callBaseConstructor_object evalAll_nil)
  · intro level hLevel record above copy depth _ origin hAbove
    rw [origin.state_eq_of_some, List.map_append, Object.adopt_append]
    exact construct_copy_of_base origin (quiet level (inTable level hLevel) record origin.find?_eq) (copies level hLevel)
      (grown.owner?_selfType (inTable level hLevel)) found (fills.of_under grown mem hLevel) rfl
      (exec_callBaseConstructor_record (evalAll_singleton (eval_original _)) hAbove)

/-- The clone method of a reference record leaves a twin of the receiver at the end of the heap. -/
theorem answers_clone (grown : program.table.Grown unit options) (quiet : program.table.CollisionFree unit)
    (reference : set.isValueType = false)
    (copies : ∀ level ∈ program.table.levels set, level.hasSynthesizedCopy = true)
    (hInstance : program.IsInstance heap set value object) (fills : program.Fills typing heap set object)
    {level : MemberSet} (under : level ∈ program.table.levels set) :
    program.Answers value (cloneRef level.selfType) [] heap (.reference heap.length)
      (heap ++ [program.table.twin set object]) := by
  have hClone : ∀ depth > set.inheritanceDepth + 1, program.invoke depth set.lowerClone (some value) [] heap =
      .ok (.returned (.reference heap.length), heap ++ [program.table.twin set object]) := by
    refine forall_invoke fun depth hDepth => ?_
    rw [MemberSet.lowerClone, reference]
    exact execAll_exit (eval_create (evalAll_singleton (eval_this rfl))
      (construct_copy grown quiet hInstance.mem copies hInstance.found fills depth hDepth))
  exact ⟨_, fun depth hDepth =>
    send_ok hInstance.found hInstance.owner (grown.dispatch?_clone hInstance.mem under) (hClone depth hDepth)⟩

/-- The clone method of a value record leaves everything as it is. -/
theorem answers_clone_value (grown : program.table.Grown unit options) (valueType : set.isValueType = true)
    (hInstance : program.IsInstance heap set value object) :
    program.Answers value (cloneRef set.selfType) [] heap value heap := by
  have hClone : ∀ depth > 0, program.invoke depth set.lowerClone (some value) [] heap =
      .ok (.returned value, heap) := by
    refine forall_invoke fun depth _ => ?_
    rw [MemberSet.lowerClone, valueType]
    exact execAll_exit (eval_this rfl)
  have hCode := grown.dispatch?_clone hInstance.mem (program.table.mem_levels_self set)
  exact ⟨_, fun depth hDepth => send_ok hInstance.found hInstance.owner hCode (hClone depth hDepth)⟩

/-- What a clone of an instance is, where the heap was one before the clone was made and is another after: a new instance
of just the runtime type, with the state of the original. No instance from before has changed. -/
structure IsClone (program : Program) (heap heap' : Heap) (set : MemberSet) (value clone : Value)
    (object twin : Object) : Prop where
  fresh : heap.object? clone = none
  distinct : clone ≠ value
  found : heap'.object? clone = some twin
  exact : twin.type = set.selfType
  copied : ∀ level ∈ program.table.levels set, ∀ state ∈ level.state,
    twin.read? (level.stateField state) = object.read? (level.stateField state)
  kept : ∀ other earlier, heap.object? other = some earlier → heap'.object? other = some earlier

/-- Whatever a member holds, it compares equal to itself. -/
def ComparesReflexively (program : Program) (typing : Typing) (visit : EqualityStrategy × FieldRef) : Prop :=
  ∀ heap value, typing.inhabits heap visit.2.type value →
    program.interpretation.equals heap visit.1 visit.2.type value value = true

theorem Fills.read?_twin (fills : program.Fills typing heap set object) {visit : EqualityStrategy × FieldRef}
    (mem : visit ∈ program.table.state set) :
    (program.table.twin set object).read? visit.2 = object.read? visit.2 := by
  have hAdopted : ((program.table.state set).map (·.2)).any (fun other => other.names visit.2) = true :=
    List.any_eq_true.mpr ⟨visit.2, List.mem_map_of_mem mem, by simp [FieldRef.names]⟩
  rw [RecordTable.twin, Object.read?_adopt, if_pos hAdopted, Object.read?_eq (fills.held visit mem)]

theorem Fills.read_twin (fills : program.Fills typing heap set object) {visit : EqualityStrategy × FieldRef}
    (mem : visit ∈ program.table.state set) :
    (program.table.twin set object).read visit.2 = object.read visit.2 := by
  rw [Object.read, fills.read?_twin mem, Object.read]

theorem Fills.twin (fills : program.Fills typing heap set object) :
    program.Fills typing heap set (program.table.twin set object) where
  held visit h := by
    rw [fills.read?_twin h]
    exact fills.held visit h
  typed visit h := by
    rw [fills.read_twin h]
    exact fills.typed visit h

theorem Fills.append (fills : program.Fills typing heap set object) (new : Object) :
    program.Fills typing (heap ++ [new]) set object :=
  ⟨fills.held, fun visit h => typing.grows heap new _ _ (fills.typed visit h)⟩

theorem isClone_twin (found : heap.object? value = some object) (fills : program.Fills typing heap set object) :
    program.IsClone heap (heap ++ [program.table.twin set object]) set value (.reference heap.length) object
      (program.table.twin set object) where
  fresh := heap.object?_length
  distinct := by
    rintro rfl
    rw [heap.object?_length] at found
    cases found
  found := heap.object?_last _
  exact := Object.type_adopt _ _ _
  copied level hLevel state hState :=
    fills.read?_twin (RecordTable.mem_state hLevel hState)
  kept _ _ h := Heap.object?_append h _

/-- An instance finds its clone equal. -/
theorem answers_objectEquals_twin (grown : program.table.Grown unit options)
    (typed : ∀ level ∈ program.table.levels set, level.equality.typedEquals = .synthesized)
    (any : set.equality.objectEquals = .synthesized)
    (reflexive : ∀ visit ∈ program.table.state set, program.ComparesReflexively typing visit)
    (hInstance : program.IsInstance heap set value object) (fills : program.Fills typing heap set object)
    {level : MemberSet} (under : level ∈ program.table.levels set) :
    let heap' := heap ++ [program.table.twin set object]
    program.Answers value (objectEqualsRef level.selfType) [.reference heap.length] heap' (.bool true) heap' := by
  intro heap'
  have fills' : program.Fills typing heap' set object := fills.append _
  have hInstance' : program.IsInstance heap' set value object :=
    ⟨Heap.object?_append hInstance.found _, hInstance.owner⟩
  have hAgree : program.agree heap' set object (program.table.twin set object) = true := by
    refine List.all_eq_true.mpr fun visit hVisit => ?_
    rw [fills.read_twin hVisit]
    exact reflexive visit hVisit heap' _ (fills'.typed visit hVisit)
  have hExact : (program.table.twin set object).type.same set.selfType = true := by
    rw [RecordTable.twin, Object.type_adopt, Ty.same_refl]
  have hEquals := invoke_objectEquals_of_exact grown hInstance.mem typed hInstance'
    (program.table.mem_levels_self set) fills' (heap.object?_last _) hExact fills'.twin
  rw [hAgree] at hEquals
  refine ⟨set.inheritanceDepth + 2, fun depth hDepth => ?_⟩
  exact send_ok hInstance'.found hInstance'.owner (grown.dispatch?_objectEquals hInstance.mem under any)
    (hEquals depth hDepth)

end Code.Program

def Code.Scope.withoutCreation : Scope where
  parameter _ := True
  output _ := True
  field _ := True
  property _ _ _ := True
  method _ _ := True
  constructor _ _ := False

def Code.Function.CreatesNothing (function : Function) : Prop :=
  Stmt.AllWithin .withoutCreation function.body

theorem MemberRead.load_createsNothing (read : MemberRead) : (read.load .this).Within .withoutCreation := by
  rw [load]
  cases read.access <;> exact ⟨trivial, trivial⟩

theorem ConstructorChain.createsNothing (chain : ConstructorChain) : Stmt.AllWithin .withoutCreation chain.toStmts :=
  toStmts_within fun _ _ => trivial

namespace MemberSet

variable (set : MemberSet)

theorem lowerCopyConstructor_createsNothing (copy : CopyConstructor) :
    (set.lowerCopyConstructor copy).CreatesNothing := by
  cases copy with
  | synthesized chain =>
    refine Stmt.allWithin_append.mpr ⟨chain.createsNothing, (Stmt.allWithin_iff _ _).mpr ?_⟩
    exact List.forall_mem_map.mpr fun state _ => ⟨trivial, trivial, trivial, trivial⟩
  | adopted position parameter body chain =>
    exact Stmt.allWithin_append.mpr ⟨chain.createsNothing, trivial, trivial⟩

theorem lowerTypedEquals_createsNothing : set.lowerTypedEquals.CreatesNothing := by
  have hTerms : ∀ term ∈ set.equalityTerms, term.Within .withoutCreation := by
    refine List.forall_mem_append.mpr ⟨?_, List.forall_mem_map.mpr fun state _ => ?_⟩
    · cases set.base with
      | none => nofun
      | some base => exact List.forall_mem_singleton.mpr ⟨trivial, trivial, trivial⟩
    · exact ⟨⟨trivial, trivial⟩, trivial, trivial⟩
  refine Stmt.allWithin_append.mpr ⟨?_, conjunction_within hTerms, trivial⟩
  cases set.isValueType with
  | true => trivial
  | false => exact ⟨⟨trivial, trivial, trivial⟩, trivial⟩

theorem lowerHash_createsNothing : set.lowerHash.CreatesNothing := by
  have hSeed : set.hashSeed.Within .withoutCreation := by
    rw [hashSeed]
    cases set.base with
    | none => trivial
    | some base => exact ⟨trivial, trivial⟩
  refine ⟨List.foldlRecOn (motive := Expr.Within .withoutCreation) set.state _ hSeed ?_, trivial⟩
  intro hash hHash state _
  exact ⟨hHash, trivial, trivial⟩

theorem lowerEqualityOperator_createsNothing : set.lowerEqualityOperator.CreatesNothing := by
  refine ⟨?_, trivial⟩
  rw [Stmt.Within]
  split
  · exact ⟨trivial, trivial, trivial, trivial⟩
  · exact ⟨⟨trivial, trivial⟩, trivial, trivial, trivial, trivial, trivial⟩

theorem lowerDeconstruct_createsNothing : set.lowerDeconstruct.CreatesNothing :=
  (Stmt.allWithin_iff _ _).mpr (List.forall_mem_map.mpr fun read _ => ⟨trivial, read.load_createsNothing⟩)

theorem lowerTextForm_createsNothing : set.lowerTextForm.CreatesNothing := by
  have hMember : ∀ (lead : String) (read : MemberRead), ∀ part ∈ printedMember lead read,
      part.Within .withoutCreation := by
    intro lead read
    exact List.forall_mem_cons.mpr ⟨trivial, List.forall_mem_singleton.mpr read.load_createsNothing⟩
  have hParts : ∀ part ∈ set.printedParts, part.Within .withoutCreation := by
    rw [printedParts]
    split
    · exact List.forall_mem_singleton.mpr trivial
    · rename_i read others _
      refine List.forall_mem_append.mpr ⟨List.forall_mem_append.mpr ⟨hMember _ read, ?_⟩,
        List.forall_mem_singleton.mpr trivial⟩
      exact List.forall_mem_flatMap.mpr fun other _ => hMember ", " other
  exact ⟨(Expr.allWithin_iff _ _).mpr hParts, trivial⟩

variable {set} {member : SynthesizedMember} {function : Function}

/-- Only the clone method of a reference record creates an instance. -/
theorem createsNothing_of_isValueType (valueType : set.isValueType = true) (h : set.lower? member = some function) :
    function.CreatesNothing := by
  cases lowers_of_lower? h with
  | @primaryConstructor primary =>
    refine Stmt.allWithin_append.mpr ⟨(Stmt.allWithin_iff _ _).mpr ?_, primary.chain.createsNothing⟩
    exact List.forall_mem_map.mpr fun store _ => ⟨trivial, trivial, trivial⟩
  | @copyConstructor copy => exact set.lowerCopyConstructor_createsNothing copy
  | getter => exact ⟨⟨trivial, trivial⟩, trivial⟩
  | initAccessor => exact ⟨⟨trivial, trivial, trivial⟩, trivial⟩
  | clone =>
    rw [Function.CreatesNothing, lowerClone, valueType]
    exact ⟨trivial, trivial⟩
  | typedEquals => exact set.lowerTypedEquals_createsNothing
  | objectEquals => exact ⟨⟨trivial, trivial, trivial, trivial, trivial⟩, trivial⟩
  | hash => exact set.lowerHash_createsNothing
  | deconstruct => exact set.lowerDeconstruct_createsNothing
  | equalityOperator => exact set.lowerEqualityOperator_createsNothing
  | inequalityOperator => exact ⟨⟨trivial, trivial, trivial, trivial⟩, trivial⟩
  | textForm => exact set.lowerTextForm_createsNothing

end MemberSet

/-- In a unit without diagnostics, a reference record whose copying and equality are synthesized at every level answers the
clone method, through whichever level it is called, with a clone that the original finds equal. A value record answers
with the receiver itself, and none of its lowered code creates an instance. -/
theorem clone_equal_and_fresh (unit : CompilationUnit) (options : SynthesisOptions) (interpretation : Interpretation)
    (quiet : (checkUnit unit options).diagnostics = []) :
    let program : Program := ⟨(checkUnit unit options).table, interpretation⟩
    ∀ set ∈ program.table.sets,
      (set.isValueType = false →
        (∀ level ∈ program.table.levels set, level.hasSynthesizedCopy = true ∧
          level.equality.typedEquals = .synthesized ∧ level.equality.objectEquals = .synthesized) →
        ∀ typing, (∀ visit ∈ program.table.state set, program.ComparesReflexively typing visit) →
        ∀ heap value object, program.IsInstance heap set value object → program.Fills typing heap set object →
        ∃ clone twin heap', program.IsClone heap heap' set value clone object twin ∧
          ∀ level ∈ program.table.levels set,
            program.Answers value (cloneRef level.selfType) [] heap clone heap' ∧
            program.Answers value (objectEqualsRef level.selfType) [clone] heap' (.bool true) heap') ∧
      (set.isValueType = true →
        (∀ heap value object, program.IsInstance heap set value object →
          program.Answers value (cloneRef set.selfType) [] heap value heap) ∧
        ∀ member function, set.lower? member = some function → function.CreatesNothing) := by
  intro program set mem
  have grown : program.table.Grown unit options := checkUnit_grown unit options
  have collisionFree : program.table.CollisionFree unit := RecordTable.collisionFree_checkUnit quiet
  refine ⟨?_, fun valueType => ⟨?_, ?_⟩⟩
  · intro reference synthesized typing reflexive heap value object hInstance fills
    refine ⟨_, _, _, Program.isClone_twin hInstance.found fills, fun level under => ⟨?_, ?_⟩⟩
    · exact Program.answers_clone grown collisionFree reference (fun level h => (synthesized level h).1) hInstance fills
        under
    · exact Program.answers_objectEquals_twin grown (fun level h => (synthesized level h).2.1)
        (synthesized set (program.table.mem_levels_self set)).2.2 reflexive hInstance fills under
  · intro heap value object hInstance
    exact Program.answers_clone_value grown valueType hInstance
  · intro member function lowered
    exact MemberSet.createsNothing_of_isValueType valueType lowered

def points : CompilationUnit where
  records := [{ name := "Point", isValueType := true, parameters := [{ name := "X", type := Ty.int }] }]

/-- A student is cloned as a person, and a point by itself. -/
theorem clone_equal_and_fresh_student :
    ((checkUnit people {}).diagnostics = [] ∧ student ∈ (checkUnit people {}).table.sets ∧
      ∃ clone twin heap',
        peopleProgram.IsClone namesakes heap' student (.reference 1) clone (namesakes[1]) twin ∧
        peopleProgram.Answers (.reference 1) (cloneRef person.selfType) [] namesakes clone heap' ∧
        peopleProgram.Answers (.reference 1) (objectEqualsRef person.selfType) [clone] heap' (.bool true) heap') ∧
    ∃ point, point ∈ (checkUnit points {}).table.sets ∧ point.isValueType = true ∧
      Program.Answers ⟨(checkUnit points {}).table, .plain⟩ (.reference 0) (cloneRef point.selfType) []
        [{ type := point.selfType }] (.reference 0) [{ type := point.selfType }] ∧
      ∀ member function, point.lower? member = some function → function.CreatesNothing := by
  refine ⟨?_, ?_⟩
  · have hInstance : peopleProgram.IsInstance namesakes student (.reference 1) (namesakes[1]) := ⟨rfl, rfl⟩
    have fills := namesakes_wellFormed _ (Heap.mem_of_object? hInstance.found) student hInstance.owner
    obtain ⟨clone, twin, heap', hClone, answers⟩ :=
      (clone_equal_and_fresh people {} .plain rfl student student_mem).1 rfl (by decide +kernel) .unchecked
        (fun _ _ _ _ _ => decide_eq_true rfl) namesakes _ _ hInstance fills
    exact ⟨rfl, student_mem, clone, twin, heap', hClone, answers person person_above_student⟩
  · have hFound : (checkUnit points {}).table.get? "Point" = some _ := rfl
    have mem := (RecordTable.mem_of_get? hFound).1
    obtain ⟨receiver, nothing⟩ := (clone_equal_and_fresh points {} .plain rfl _ mem).2 rfl
    exact ⟨_, mem, rfl, receiver _ _ _ ⟨rfl, rfl⟩, nothing⟩

end RecordSynthesis
