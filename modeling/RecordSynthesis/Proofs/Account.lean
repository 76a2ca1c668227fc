import RecordSynthesis.Proofs.ConstructorCollisions
import RecordSynthesis.Proofs.Outcomes

/-!
# The account of a unit

What checking a unit yields is what its declarations come to, one after the other, over the finished table: their sets,
diagnostics and faults stand in one order. Once the base of a record has been found fit no step of its synthesis fails,
so a record that is at fault reports nothing.
-/

namespace RecordSynthesis

set_option autoImplicit false

open Decl (CompilationUnit Record)

namespace Synthesis

def set? (synthesis : Synthesis) : Option MemberSet :=
  synthesis.outcome.toOption

def fault? (synthesis : Synthesis) : Option Fault :=
  match synthesis.outcome with
  | .ok _ => none
  | .error fault => some fault

theorem set?_eq_some_iff {synthesis : Synthesis} {set : MemberSet} :
    synthesis.set? = some set ↔ synthesis.outcome = .ok set := by
  rw [set?]
  cases synthesis.outcome <;> simp [Except.toOption]

theorem fault?_eq_some_iff {synthesis : Synthesis} {fault : Fault} :
    synthesis.fault? = some fault ↔ synthesis.outcome = .error fault := by
  rw [fault?]
  cases synthesis.outcome <;> simp

end Synthesis

namespace UnitResult

def add (result : UnitResult) (synthesis : Synthesis) : UnitResult where
  table := ⟨result.table.sets ++ synthesis.set?.toList⟩
  diagnostics := result.diagnostics ++ synthesis.diagnostics
  faults := result.faults ++ synthesis.fault?.toList

theorem foldl_add (syntheses : List Synthesis) (result : UnitResult) :
    syntheses.foldl add result =
      { table := ⟨result.table.sets ++ syntheses.filterMap Synthesis.set?⟩
        diagnostics := result.diagnostics ++ syntheses.flatMap Synthesis.diagnostics
        faults := result.faults ++ syntheses.filterMap Synthesis.fault? } := by
  induction syntheses generalizing result with
  | nil => simp
  | cons synthesis syntheses ih =>
    rw [List.foldl_cons, ih, add]
    cases hSet : synthesis.set? <;> cases hFault : synthesis.fault? <;> simp [hSet, hFault]

end UnitResult

namespace CheckUnit

variable {unit : CompilationUnit} {options : SynthesisOptions} {table : RecordTable} {record : Record}
  {result : UnitResult} {name : String}

theorem finish_eq_add (declared : unit.find? name = some record) :
    finish unit options result name = result.add (attempt unit options result.table record) := by
  have hName := CompilationUnit.name_of_find? declared
  rw [finish, attempt, hName]
  simp only [declared]
  split
  · simp [UnitResult.add, Synthesis.set?, Synthesis.fault?, Except.toOption]
  · cases hOutcome : (record.synthesize record.effectiveMembers (record.base.bind result.table.get?) options).outcome <;>
      simp [hOutcome, UnitResult.add, Synthesis.set?, Synthesis.fault?, Except.toOption, RecordTable.insert]

/-- Records finished in order add up what they come to over the table at the end. -/
theorem BasesFirst.foldl_finish (options : SynthesisOptions) {names : List String} (h : BasesFirst unit names)
    (start : UnitResult) :
    let result := names.foldl (finish unit options) start
    result = ((names.filterMap unit.find?).map (attempt unit options result.table)).foldl UnitResult.add start := by
  induction h with
  | nil => rfl
  | @snoc names name before declared fresh ready ih =>
    obtain ⟨record, hRecord⟩ := CompilationUnit.declares_iff.mp declared
    have hEarlier : ∀ other ∈ names.filterMap unit.find?,
        attempt unit options (finish unit options (names.foldl (finish unit options) start) name).table other =
          attempt unit options (names.foldl (finish unit options) start).table other := by
      intro other hOther
      obtain ⟨waiting, hWaiting, hFound⟩ := List.mem_filterMap.mp hOther
      exact attempt_finish hRecord fresh hFound (before.isReady waiting hWaiting)
    have hOwn : attempt unit options (finish unit options (names.foldl (finish unit options) start) name).table record =
        attempt unit options (names.foldl (finish unit options) start).table record :=
      attempt_finish hRecord fresh hRecord ready
    simp only [List.foldl_append, List.foldl_cons, List.foldl_nil, List.filterMap_append, List.map_append]
    rw [List.map_congr_left hEarlier, ← ih, List.filterMap_cons_some hRecord, List.filterMap_nil, List.map_singleton,
      List.foldl_cons, List.foldl_nil, hOwn, finish_eq_add hRecord]

def declarations (unit : CompilationUnit) : List Record :=
  (order unit).filterMap unit.find?

theorem mem_declarations_iff : record ∈ declarations unit ↔ unit.find? record.name = some record := by
  rw [declarations, List.mem_filterMap]
  constructor
  · rintro ⟨name, -, hFound⟩
    rwa [CompilationUnit.name_of_find? hFound]
  · intro hFound
    exact ⟨record.name, mem_order_iff.mpr (CompilationUnit.declares_iff.mpr ⟨record, hFound⟩), hFound⟩

def syntheses (unit : CompilationUnit) (options : SynthesisOptions) : List Synthesis :=
  (declarations unit).map (attempt unit options (checkUnit unit options).table)

/-- The result of a checked unit is the sum of what its declarations come to over that very result. -/
theorem checkUnit_eq (unit : CompilationUnit) (options : SynthesisOptions) :
    checkUnit unit options =
      { table := ⟨(syntheses unit options).filterMap Synthesis.set?⟩
        diagnostics := (syntheses unit options).flatMap Synthesis.diagnostics
        faults := (repeated unit).map .duplicateRecord ++ (syntheses unit options).filterMap Synthesis.fault? } := by
  have h := (order_basesFirst unit).foldl_finish options { faults := (repeated unit).map .duplicateRecord }
  exact h.trans (UnitResult.foldl_add _ _)

theorem sets_checkUnit (unit : CompilationUnit) (options : SynthesisOptions) :
    (checkUnit unit options).table.sets = (syntheses unit options).filterMap Synthesis.set? :=
  congrArg (fun result => result.table.sets) (checkUnit_eq unit options)

theorem diagnostics_checkUnit (unit : CompilationUnit) (options : SynthesisOptions) :
    (checkUnit unit options).diagnostics = (syntheses unit options).flatMap Synthesis.diagnostics :=
  congrArg UnitResult.diagnostics (checkUnit_eq unit options)

theorem mem_sets_iff {set : MemberSet} :
    set ∈ (checkUnit unit options).table.sets ↔
      ∃ record, unit.find? record.name = some record ∧
        outcome unit options (checkUnit unit options).table record = .ok set := by
  rw [sets_checkUnit, syntheses, List.filterMap_map, List.mem_filterMap]
  simp only [mem_declarations_iff, Function.comp_apply, Synthesis.set?_eq_some_iff, outcome_attempt]

theorem mem_diagnostics_iff {diagnostic : Diagnostic} :
    diagnostic ∈ (checkUnit unit options).diagnostics ↔
      ∃ record, unit.find? record.name = some record ∧
        diagnostic ∈ (attempt unit options (checkUnit unit options).table record).diagnostics := by
  rw [diagnostics_checkUnit, syntheses, List.flatMap_map, List.mem_flatMap]
  simp only [mem_declarations_iff]

theorem mem_faults_iff {fault : Fault} :
    fault ∈ (checkUnit unit options).faults ↔
      (∃ name ∈ repeated unit, .duplicateRecord name = fault) ∨
      ∃ record, unit.find? record.name = some record ∧
        outcome unit options (checkUnit unit options).table record = .error fault := by
  have hFaults := congrArg UnitResult.faults (checkUnit_eq unit options)
  rw [hFaults, List.mem_append, List.mem_map, syntheses, List.filterMap_map, List.mem_filterMap]
  simp only [mem_declarations_iff, Function.comp_apply, Synthesis.fault?_eq_some_iff, outcome_attempt]

end CheckUnit

namespace Decl.Record

/-- The chain of the primary constructor, refused if an argument for the base is no parameter. -/
def checkedChain (record : Record) (base : Option MemberSet) : Except Fault ConstructorChain :=
  if record.isValueType then .ok .absent
  else match base with
    | none => .ok .object
    | some set => do
      let types ← record.baseArguments.mapM fun argument =>
        match record.parameters.find? fun p => p.name = argument with
        | some p => .ok p.type
        | none => .error (.unknownBaseArgument record.name argument)
      return .base set.selfType types record.baseArguments

variable {record : Record} {given base : Option MemberSet}

/-- Over a base that has been found fit the chain is never refused. -/
theorem checkedChain_eq_ok (resolved : record.resolveBase given = .ok base) :
    record.checkedChain base = .ok (record.primaryChain base) := by
  rcases resolveBase_eq_ok_iff.mp resolved with ⟨-, rfl⟩ | ⟨set, -, -, rfl, hKind, -, hDeclared⟩
  · rw [checkedChain, primaryChain]
    split <;> rfl
  · have hTypes : ∀ arguments : List String, (∀ argument ∈ arguments, ∃ p ∈ record.parameters, p.name = argument) →
        arguments.mapM (fun argument =>
          match record.parameters.find? fun p => p.name = argument with
          | some p => (.ok p.type : Except Fault Ty)
          | none => .error (.unknownBaseArgument record.name argument)) =
        .ok (arguments.filterMap fun argument =>
          (record.parameters.find? fun p => p.name = argument).map (·.type)) := by
      intro arguments hAll
      induction arguments with
      | nil => rfl
      | cons argument arguments ih =>
        obtain ⟨hFirst, hOthers⟩ := List.forall_mem_cons.mp hAll
        obtain ⟨p, hFound⟩ : ∃ p, record.parameters.find? (fun p => p.name = argument) = some p := by
          rw [← Option.isSome_iff_exists, List.find?_isSome]
          simpa using hFirst
        rw [List.mapM_cons, ih hOthers]
        simp [hFound, bind, Except.bind, pure, Except.pure]
    rw [checkedChain, primaryChain, hKind]
    simp only [hTypes _ hDeclared]
    rfl

theorem collisions_record : ∀ diagnostic ∈ record.collisions, diagnostic.record = record.name := by
  intro diagnostic h
  rw [collisions_eq] at h
  rcases List.mem_append.mp h with h | h
  · obtain ⟨c, -, rfl⟩ := List.mem_map.mp h
    rfl
  · rw [copyCollision] at h
    split at h
    · rw [List.mem_singleton.mp h]
      rfl
    · cases h

theorem resolveBase_ne_missingCopyConstructorShape {name : String} :
    record.resolveBase given ≠ .error (.missingCopyConstructorShape name) := by
  intro h
  obtain ⟨base, -, hFault | hFault | hFault | ⟨argument, hFault⟩⟩ := resolveBase_eq_error h <;> cases hFault

end Decl.Record

/-- The record that a set stands for is synthesized to that set over the table, with these reports. -/
def RecordTable.Reports (unit : CompilationUnit) (options : SynthesisOptions) (table : RecordTable) (set : MemberSet)
    (reported : List Diagnostic) : Prop :=
  ∃ record, unit.find? set.recordName = some record ∧
    record.synthesize record.effectiveMembers (record.base.bind table.get?) options = ⟨reported, .ok set⟩

namespace CheckUnit

variable {unit : CompilationUnit} {options : SynthesisOptions} {table : RecordTable}

/-- A declaration comes to a set and reports its collisions, or it comes to a fault and reports nothing. -/
theorem attempt_cases (grown : table.Grown unit options) (record : Record) :
    (∃ set, set.recordName = record.name ∧ attempt unit options table record = ⟨record.collisions, .ok set⟩ ∧
      record.synthesize record.effectiveMembers (record.base.bind table.get?) options =
        ⟨record.collisions, .ok set⟩) ∨
    ∃ fault, fault.Stops record.name ∧ (∀ name, fault ≠ .missingCopyConstructorShape name) ∧
      attempt unit options table record = ⟨[], .error fault⟩ := by
  rw [attempt]
  split
  · exact .inr ⟨_, ⟨rfl, by simp⟩, by simp, rfl⟩
  · rcases synthesize_outcome grown record with ⟨set, -, hOutcome, -⟩ | ⟨fault, -, hBase⟩
    · have hSynthesis : record.synthesize record.effectiveMembers (record.base.bind table.get?) options =
          ⟨record.collisions, .ok set⟩ := by
        rw [← Record.diagnostics_of_synthesize hOutcome, ← hOutcome]
      exact .inl ⟨set, Record.recordName_of_synthesize hOutcome, hSynthesis, hSynthesis⟩
    · refine .inr ⟨fault, Record.stops_of_resolveBase hBase, ?_, by rw [Record.synthesize, hBase]⟩
      rintro name rfl
      exact Record.resolveBase_ne_missingCopyConstructorShape hBase

theorem record_of_mem_attempt (grown : table.Grown unit options) {record : Record} {diagnostic : Diagnostic}
    (h : diagnostic ∈ (attempt unit options table record).diagnostics) : diagnostic.record = record.name := by
  rcases attempt_cases grown record with ⟨set, -, hAttempt, -⟩ | ⟨fault, -, -, hAttempt⟩
  · rw [hAttempt] at h
    exact Record.collisions_record diagnostic h
  · rw [hAttempt] at h
    cases h

theorem exists_reports (grown : table.Grown unit options) (records : List Record)
    (declared : ∀ record ∈ records, unit.find? record.name = some record) :
    ∃ reports,
      List.Forall₂ (table.Reports unit options)
        ((records.map (attempt unit options table)).filterMap Synthesis.set?) reports ∧
      (records.map (attempt unit options table)).flatMap Synthesis.diagnostics = reports.flatten := by
  induction records with
  | nil => exact ⟨[], .nil, rfl⟩
  | cons record records ih =>
    obtain ⟨hRecord, hRecords⟩ := List.forall_mem_cons.mp declared
    obtain ⟨reports, hReports, hDiagnostics⟩ := ih hRecords
    rw [List.map_cons, List.flatMap_cons, hDiagnostics]
    rcases attempt_cases grown record with ⟨set, hName, hAttempt, hSynthesis⟩ | ⟨fault, -, -, hAttempt⟩
    · have hOwn : table.Reports unit options set record.collisions := ⟨record, hName ▸ hRecord, hSynthesis⟩
      rw [hAttempt, List.filterMap_cons_some (Synthesis.set?_eq_some_iff.mpr rfl)]
      exact ⟨record.collisions :: reports, .cons hOwn hReports, rfl⟩
    · rw [hAttempt, List.filterMap_cons_none rfl]
      exact ⟨reports, hReports, rfl⟩

theorem missingCopyConstructorShape_not_mem_faults {name : String} :
    .missingCopyConstructorShape name ∉ (checkUnit unit options).faults := by
  intro h
  rcases mem_faults_iff.mp h with ⟨_, -, hRepeated⟩ | ⟨record, -, hOutcome⟩
  · cases hRepeated
  · rw [← outcome_attempt] at hOutcome
    rcases attempt_cases (checkUnit_grown unit options) record with ⟨set, -, hAttempt, -⟩ | ⟨fault, -, hOther, hAttempt⟩
    · cases hAttempt ▸ hOutcome
    · exact hOther name (Except.error.inj (hAttempt ▸ hOutcome))

/-- Where something is reported about a record, the record has come to a set. -/
theorem exists_outcomesOf_of_mem_diagnostics {diagnostic : Diagnostic}
    (h : diagnostic ∈ (checkUnit unit options).diagnostics) :
    ∃ set, (checkUnit unit options).outcomesOf diagnostic.record = [.ok set] := by
  have grown := checkUnit_grown unit options
  obtain ⟨record, hRecord, hReported⟩ := mem_diagnostics_iff.mp h
  rw [record_of_mem_attempt grown hReported, outcomesOf_checkUnit options hRecord, ← outcome_attempt]
  rcases attempt_cases grown record with ⟨set, -, hAttempt, -⟩ | ⟨fault, -, -, hAttempt⟩
  · exact ⟨set, by rw [hAttempt]⟩
  · cases hAttempt ▸ hReported

end CheckUnit

open CheckUnit in
/-- Synthesis never comes to the fault that stands for a broken promise of its own. A diagnostic is about a record with a
set, which no fault stops; all diagnostics are what the syntheses of the sets report, in the order of the table. Whatever
a record needs after its base has been found fit can be made. -/
theorem faults_are_atomic (unit : CompilationUnit) (options : SynthesisOptions) :
    let result := checkUnit unit options
    (∀ name, .missingCopyConstructorShape name ∉ result.faults) ∧
    (∀ diagnostic ∈ result.diagnostics,
      (∃ set ∈ result.table.sets, set.recordName = diagnostic.record) ∧ result.faultsOf diagnostic.record = []) ∧
    (∃ reports, List.Forall₂ (result.table.Reports unit options) result.table.sets reports ∧
      result.diagnostics = reports.flatten) ∧
    ∀ (record : Record) (base : Option MemberSet),
      record.resolveBase (record.base.bind result.table.get?) = .ok base →
      record.checkedChain base = .ok (record.primaryChain base) ∧
      (record.isValueType = false → ∃ copy, record.copyConstructor base = .ok copy) := by
  intro result
  have grown : result.table.Grown unit options := checkUnit_grown unit options
  refine ⟨fun _ => missingCopyConstructorShape_not_mem_faults, ?_, ?_, ?_⟩
  · intro diagnostic h
    obtain ⟨set, hOutcomes⟩ := exists_outcomesOf_of_mem_diagnostics h
    obtain ⟨hSets, hFaults⟩ := UnitResult.outcomesOf_eq_ok_iff.mp hOutcomes
    have hSet : set ∈ result.setsOf diagnostic.record := hSets ▸ List.mem_singleton_self set
    obtain ⟨hMem, hName⟩ := List.mem_filter.mp hSet
    exact ⟨⟨set, hMem, of_decide_eq_true hName⟩, hFaults⟩
  · rw [sets_checkUnit, diagnostics_checkUnit]
    exact exists_reports grown _ fun record => mem_declarations_iff.mp
  · intro record base resolved
    refine ⟨Record.checkedChain_eq_ok resolved, fun hKind => ?_⟩
    obtain ⟨copy, hCopy⟩ := exists_hasCopy grown resolved
    cases copy with
    | none =>
      rw [Record.HasCopy, hKind] at hCopy
      cases hCopy
    | some made => exact ⟨made, hCopy.2⟩

def astray : CompilationUnit where
  records := [{ node with name := "Lost", base := some "Nowhere" }, node]

theorem faults_are_atomic_astray :
    (checkUnit astray {}).faults = [.unresolvedBase "Lost" "Nowhere"] ∧
    .duplicatePrimaryConstructor "Node" [node.selfType] ⟨20, 40⟩ ⟨11, 22⟩ ∈ (checkUnit astray {}).diagnostics ∧
    (∃ set ∈ (checkUnit astray {}).table.sets, set.recordName = "Node") ∧
    node.checkedChain none = .ok (node.primaryChain none) ∧ ∃ copy, node.copyConstructor none = .ok copy := by
  have hReported : .duplicatePrimaryConstructor "Node" [node.selfType] ⟨20, 40⟩ ⟨11, 22⟩ ∈
      (checkUnit astray {}).diagnostics := List.mem_of_getElem? (i := 0) rfl
  obtain ⟨-, hSets, -, hSteps⟩ := faults_are_atomic astray {}
  obtain ⟨hChain, hCopy⟩ := hSteps node none rfl
  exact ⟨rfl, hReported, (hSets _ hReported).1, hChain, hCopy rfl⟩

end RecordSynthesis
