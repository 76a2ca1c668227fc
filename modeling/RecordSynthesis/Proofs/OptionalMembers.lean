import RecordSynthesis.Members.Table
import RecordSynthesis.Proofs.LoweredMembers
import RecordSynthesis.Proofs.ViewGroups

/-!
# Optional members

The options decide about the optional members of each record and about nothing else. Checking a unit under some options
is checking it with everything switched on and then cutting every set down: whatever a record takes from the set of its
base is the same before and after the cut.
-/

namespace RecordSynthesis

set_option autoImplicit false

open Decl (CompilationUnit Record)

def MemberSet.under (options : SynthesisOptions) (set : MemberSet) : MemberSet :=
  { set with
    deconstruct := if options.deconstruct then set.deconstruct else none
    operators := options.operators && set.operators
    textForm := if options.textForm then set.textForm else none }

def Synthesis.under (options : SynthesisOptions) (synthesis : Synthesis) : Synthesis :=
  { synthesis with outcome := synthesis.outcome.map (MemberSet.under options) }

def RecordTable.under (options : SynthesisOptions) (table : RecordTable) : RecordTable :=
  ⟨table.sets.map (MemberSet.under options)⟩

def UnitResult.under (options : SynthesisOptions) (result : UnitResult) : UnitResult :=
  { result with table := result.table.under options }

theorem MemberSet.hasParameterlessConstructor_under (options : SynthesisOptions) (set : MemberSet) :
    (set.under options).hasParameterlessConstructor = set.hasParameterlessConstructor := by
  rw [hasParameterlessConstructor, hasParameterlessConstructor, constructors_eq_group, constructors_eq_group]
  rfl

theorem RecordTable.get?_under (options : SynthesisOptions) (table : RecordTable) (name : String) :
    (table.under options).get? name = (table.get? name).map (MemberSet.under options) := by
  rw [get?, under, ← List.map_reverse, List.find?_map]
  rfl

namespace Decl.Record

variable (record : Record) (options : SynthesisOptions)

theorem resolveBase_under (given : Option MemberSet) :
    record.resolveBase (given.map (MemberSet.under options)) =
      (record.resolveBase given).map (Option.map (MemberSet.under options)) := by
  rw [resolveBase.eq_def, resolveBase.eq_def]
  cases record.base with
  | none => rfl
  | some name =>
    cases given with
    | none =>
      dsimp only [Option.map_none]
      split <;> rfl
    | some set =>
      dsimp only [Option.map_some, MemberSet.under]
      split
      · rfl
      split
      · rfl
      split
      · rfl
      split <;> rfl

theorem copyConstructor_under (base : Option MemberSet) :
    record.copyConstructor (base.map (MemberSet.under options)) = record.copyConstructor base := by
  cases base with
  | none => rfl
  | some set =>
    rw [copyConstructor.eq_def, copyConstructor.eq_def, Option.map_some]
    simp only [MemberSet.hasParameterlessConstructor_under]
    rfl

/-- The optional members of the base leave no trace in a set, and the options only cut the set down. -/
theorem memberSet_under (effective : List EffectiveMember) (base : Option MemberSet) (copy : Option CopyConstructor) :
    record.memberSet effective (base.map (MemberSet.under options)) copy options =
      (record.memberSet effective base copy {}).under options := by
  have hBase : record.memberSet effective (base.map (MemberSet.under options)) copy options =
      record.memberSet effective base copy options := by
    cases base <;> rfl
  rw [hBase]
  obtain ⟨deconstruct, operators, textForm⟩ := options
  cases deconstruct <;> cases operators <;> cases textForm <;> rfl

theorem synthesize_under (effective : List EffectiveMember) (given : Option MemberSet) :
    record.synthesize effective (given.map (MemberSet.under options)) options =
      (record.synthesize effective given {}).under options := by
  rw [synthesize, synthesize, resolveBase_under]
  cases record.resolveBase given with
  | error fault => rfl
  | ok base =>
    dsimp only [Except.map]
    rw [copyConstructor_under]
    split
    · rw [memberSet_under]
      rfl
    · cases record.copyConstructor base with
      | error fault => rfl
      | ok copy =>
        dsimp only
        rw [memberSet_under]
        rfl

end Decl.Record

namespace CheckUnit

theorem finish_under (unit : CompilationUnit) (options : SynthesisOptions) (result : UnitResult) (name : String) :
    finish unit options (result.under options) name = (finish unit {} result name).under options := by
  rw [finish, finish]
  cases unit.find? name with
  | none => rfl
  | some record =>
    dsimp only
    split
    · rfl
    · have hBase : record.base.bind (result.under options).table.get? =
          (record.base.bind result.table.get?).map (MemberSet.under options) := by
        cases record.base with
        | none => rfl
        | some base => exact result.table.get?_under options base
      rw [hBase, Record.synthesize_under]
      cases hOutcome : (record.synthesize record.effectiveMembers (record.base.bind result.table.get?) {}).outcome with
      | error fault => simp [Synthesis.under, hOutcome, Except.map, UnitResult.under]
      | ok set =>
        simp [Synthesis.under, hOutcome, Except.map, UnitResult.under, RecordTable.under, RecordTable.insert]

theorem foldl_finish_under (unit : CompilationUnit) (options : SynthesisOptions) (names : List String)
    (start : UnitResult) :
    names.foldl (finish unit options) (start.under options) = (names.foldl (finish unit {}) start).under options :=
  List.foldl_hom (UnitResult.under options) (finish_under unit options)

end CheckUnit

/-- Every unit under some options is that unit with all options on, cut down. -/
theorem checkUnit_under (unit : CompilationUnit) (options : SynthesisOptions) :
    checkUnit unit options = (checkUnit unit {}).under options :=
  CheckUnit.foldl_finish_under unit options (CheckUnit.order unit)
    { faults := (CheckUnit.repeated unit).map .duplicateRecord }

def SynthesizedMember.isMandatory : SynthesizedMember → Bool
  | .deconstruct | .equalityOperator | .inequalityOperator | .textForm => false
  | .primaryConstructor | .copyConstructor | .getter _ | .initAccessor _ | .clone | .typedEquals | .objectEquals
  | .hash => true

namespace MemberSet

def mandatoryMembers (set : MemberSet) : List SynthesizedMember :=
  set.synthesizedMembers.filter SynthesizedMember.isMandatory

/-- Two sets agree in everything but their optional members, down to the code of the others. -/
structure SameButOptional (set other : MemberSet) : Prop where
  fields : other =
    { set with deconstruct := other.deconstruct, operators := other.operators, textForm := other.textForm }
  mandatoryMembers_eq : other.mandatoryMembers = set.mandatoryMembers
  code : ∀ member, member.isMandatory = true → other.lower member = set.lower member

theorem mandatoryMembers_under (options : SynthesisOptions) (set : MemberSet) :
    (set.under options).mandatoryMembers = set.mandatoryMembers := by
  have hOptional : ∀ deconstruct operators textForm,
      mandatoryMembers { set with deconstruct, operators, textForm } = set.mandatoryMembers := by
    intro deconstruct operators textForm
    simp only [mandatoryMembers, synthesizedMembers, List.filter_append, apply_ite (List.filter _)]
    simp [SynthesizedMember.isMandatory]
  exact hOptional _ _ _

theorem lower_under (options : SynthesisOptions) (set : MemberSet) {member : SynthesizedMember}
    (mandatory : member.isMandatory = true) : (set.under options).lower member = set.lower member := by
  cases member with
  | deconstruct | equalityOperator | inequalityOperator | textForm => cases mandatory
  | primaryConstructor | copyConstructor | getter _ | initAccessor _ | clone | typedEquals | objectEquals | hash => rfl

theorem sameButOptional_under (first second : SynthesisOptions) (set : MemberSet) :
    (set.under first).SameButOptional (set.under second) where
  fields := rfl
  mandatoryMembers_eq := by rw [mandatoryMembers_under, mandatoryMembers_under]
  code _ mandatory := by rw [lower_under second set mandatory, lower_under first set mandatory]

end MemberSet

/-- The options only switch the optional members: under any two of them a unit has the same faults, the same diagnostics
and the same records, whose sets differ in nothing else. -/
theorem options_switch_only_optional_members (unit : CompilationUnit) (first second : SynthesisOptions) :
    (checkUnit unit first).faults = (checkUnit unit second).faults ∧
    (checkUnit unit first).diagnostics = (checkUnit unit second).diagnostics ∧
    List.Forall₂ MemberSet.SameButOptional (checkUnit unit first).table.sets (checkUnit unit second).table.sets := by
  rw [checkUnit_under unit first, checkUnit_under unit second]
  refine ⟨rfl, rfl, ?_⟩
  refine List.forall₂_map_left_iff.mpr (List.forall₂_map_right_iff.mpr (List.forall₂_same.mpr fun set _ => ?_))
  exact set.sameButOptional_under first second

end RecordSynthesis
