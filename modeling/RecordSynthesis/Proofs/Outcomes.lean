import Mathlib.Data.List.Count
import RecordSynthesis.Proofs.SynthesisOrder

/-!
# The outcome of every record

Each declared name comes to one outcome: a set in the table, or a fault that stops it. The outcome is what the first
declaration of the name comes to over the finished table, for when its turn came its base was settled already or it is
on a cycle.
-/

namespace RecordSynthesis

set_option autoImplicit false

open Decl (CompilationUnit Record)

/-- A fault for which the record of a name gets no set; a repeated declaration is none. -/
def Fault.Stops (name : String) (fault : Fault) : Prop :=
  fault.record = name ∧ fault ≠ .duplicateRecord name

instance (name : String) : DecidablePred (Fault.Stops name) :=
  fun fault => inferInstanceAs (Decidable (fault.record = name ∧ fault ≠ .duplicateRecord name))

theorem Fault.Stops.ne_duplicateRecord {name : String} {fault : Fault} (h : fault.Stops name) (other : String) :
    fault ≠ .duplicateRecord other := by
  rintro rfl
  obtain ⟨rfl, hDistinct⟩ := h
  exact hDistinct rfl

namespace UnitResult

def setsOf (result : UnitResult) (name : String) : List MemberSet :=
  result.table.sets.filter fun set => set.recordName = name

def faultsOf (result : UnitResult) (name : String) : List Fault :=
  result.faults.filter (Fault.Stops name)

def outcomesOf (result : UnitResult) (name : String) : List (Except Fault MemberSet) :=
  (result.setsOf name).map .ok ++ (result.faultsOf name).map .error

theorem get?_eq_none_iff {result : UnitResult} {name : String} :
    result.table.get? name = none ↔ result.setsOf name = [] := by
  simp [RecordTable.get?, setsOf]

theorem outcomesOf_eq_ok_iff {result : UnitResult} {name : String} {set : MemberSet} :
    result.outcomesOf name = [.ok set] ↔ result.setsOf name = [set] ∧ result.faultsOf name = [] := by
  rw [outcomesOf]
  cases result.setsOf name <;> cases result.faultsOf name <;> simp

theorem outcomesOf_eq_error_iff {result : UnitResult} {name : String} {fault : Fault} :
    result.outcomesOf name = [.error fault] ↔ result.setsOf name = [] ∧ result.faultsOf name = [fault] := by
  rw [outcomesOf]
  cases result.setsOf name <;> cases result.faultsOf name <;> simp

theorem count_faultsOf {result : UnitResult} {name : String} {fault : Fault} (h : fault.Stops name) :
    (result.faultsOf name).count fault = result.faults.count fault :=
  List.count_filter (decide_eq_true h)

theorem outcomesOf_of_insert {result after : UnitResult} {set : MemberSet}
    (hTable : after.table = result.table.insert set) (hFaults : after.faults = result.faults)
    (fresh : result.faultsOf set.recordName = []) (name : String) :
    after.outcomesOf name = result.outcomesOf name ++ if set.recordName = name then [.ok set] else [] := by
  have hSets : after.setsOf name = result.setsOf name ++ if set.recordName = name then [set] else [] := by
    rw [setsOf, hTable, RecordTable.insert, List.filter_append, ← setsOf]
    simp [List.filter_cons]
  have hSame : after.faultsOf name = result.faultsOf name := by
    rw [faultsOf, hFaults, ← faultsOf]
  rw [outcomesOf, outcomesOf, hSets, hSame]
  split
  · rename_i hName
    rw [← hName, fresh]
    simp
  · simp

theorem outcomesOf_of_fault {result after : UnitResult} {fault : Fault} {stopped : String}
    (hTable : after.table = result.table) (hFaults : after.faults = result.faults ++ [fault])
    (stops : fault.Stops stopped) (name : String) :
    after.outcomesOf name = result.outcomesOf name ++ if stopped = name then [.error fault] else [] := by
  have hSets : after.setsOf name = result.setsOf name := by
    rw [setsOf, hTable, ← setsOf]
  have hAdded : after.faultsOf name = result.faultsOf name ++ if stopped = name then [fault] else [] := by
    rw [faultsOf, hFaults, List.filter_append, ← faultsOf, List.filter_singleton]
    have hStops : fault.Stops name ↔ stopped = name :=
      ⟨fun h => stops.1.symm.trans h.1, fun h => h ▸ stops⟩
    simp [hStops]
  rw [outcomesOf, outcomesOf, hSets, hAdded, List.map_append, List.append_assoc]
  split <;> rfl

end UnitResult

/-- A base is found unfit for one of four reasons. -/
theorem Decl.Record.resolveBase_eq_error {record : Record} {given : Option MemberSet} {fault : Fault}
    (h : record.resolveBase given = .error fault) :
    ∃ base, record.base = some base ∧
      (fault = .valueTypeWithBase record.name base ∨ fault = .unresolvedBase record.name base ∨
        fault = .valueTypeBase record.name base ∨ ∃ argument, fault = .unknownBaseArgument record.name argument) := by
  rw [resolveBase.eq_def] at h
  split at h
  · cases h
  · rename_i base hBase
    refine ⟨base, hBase, ?_⟩
    repeat' split at h
    all_goals cases h <;> simp

theorem Decl.Record.stops_of_resolveBase {record : Record} {given : Option MemberSet} {fault : Fault}
    (h : record.resolveBase given = .error fault) : fault.Stops record.name := by
  obtain ⟨base, -, rfl | rfl | rfl | ⟨argument, rfl⟩⟩ := resolveBase_eq_error h <;> exact ⟨rfl, by simp⟩

theorem MemberSet.copyChain_eq_ok {set : MemberSet} (h : set.copyConstructor.isSome = true) (parameter : String) :
    set.copyChain parameter = .ok (.copying parameter (some set)) := by
  rw [copyChain, if_neg (by simpa [Option.isNone_iff_eq_none, Option.isSome_iff_ne_none] using h)]
  rfl

/-- Over a base that can be copied, a copy constructor is always found. -/
theorem Decl.Record.exists_copyConstructor {record : Record} {base : Option MemberSet}
    (copied : ∀ set ∈ base, set.copyConstructor.isSome = true) : ∃ copy, record.copyConstructor base = .ok copy := by
  rw [copyConstructor.eq_def]
  cases hFirst : (ConstructorIndex.ofMembers record.members).first? record.copySignature with
  | none =>
    cases base with
    | none => exact ⟨_, rfl⟩
    | some set =>
      dsimp only
      rw [MemberSet.copyChain_eq_ok (copied set rfl)]
      exact ⟨_, rfl⟩
  | some position =>
    obtain ⟨c, hMember, hSignature⟩ := ConstructorIndex.first?_ofMembers hFirst
    simp only [hMember]
    cases hParameters : c.parameters with
    | nil => simp [Constructor.types, hParameters, copySignature, Signature.ofTypes] at hSignature
    | cons p others =>
      cases base with
      | none => exact ⟨_, rfl⟩
      | some set =>
        dsimp only
        split
        · exact ⟨_, rfl⟩
        · rw [MemberSet.copyChain_eq_ok (copied set rfl)]
          exact ⟨_, rfl⟩

namespace CheckUnit

def outcome (unit : CompilationUnit) (options : SynthesisOptions) (table : RecordTable) (record : Record) :
    Except Fault MemberSet :=
  if isCyclic unit record.name then .error (.inheritanceCycle record.name)
  else (record.synthesize record.effectiveMembers (record.base.bind table.get?) options).outcome

def attempt (unit : CompilationUnit) (options : SynthesisOptions) (table : RecordTable) (record : Record) : Synthesis :=
  if isCyclic unit record.name then ⟨[], .error (.inheritanceCycle record.name)⟩
  else record.synthesize record.effectiveMembers (record.base.bind table.get?) options

variable {unit : CompilationUnit} {options : SynthesisOptions} {table : RecordTable} {record : Record}

theorem outcome_attempt : (attempt unit options table record).outcome = outcome unit options table record := by
  rw [attempt, outcome]
  split <;> rfl

theorem copyConstructor_isSome (grown : table.Grown unit options) {set : MemberSet} (mem : set ∈ table.sets)
    (kind : set.isValueType = false) : set.copyConstructor.isSome = true := by
  obtain ⟨record, base, copy, origin⟩ := grown.exists_origin mem
  cases copy with
  | none =>
    have hValue : record.isValueType = true := origin.copied
    have hKind : record.isValueType = false := by
      rwa [origin.made] at kind
    simp [hValue] at hKind
  | some copy => rw [origin.made]; rfl

theorem exists_hasCopy (grown : table.Grown unit options) {base : Option MemberSet}
    (resolved : record.resolveBase (record.base.bind table.get?) = .ok base) : ∃ copy, record.HasCopy base copy := by
  cases hKind : record.isValueType with
  | true => exact ⟨none, hKind⟩
  | false =>
    have hCopied : ∀ set ∈ base, set.copyConstructor.isSome = true := by
      rintro set ⟨⟩
      rcases Record.resolveBase_eq_ok_iff.mp resolved with ⟨-, hNone⟩ | ⟨above, hName, hGiven, hSame, -, hAbove, -⟩
      · cases hNone
      · cases hSame
        rw [hName] at hGiven
        exact copyConstructor_isSome grown (RecordTable.mem_of_get? hGiven).1 hAbove
    obtain ⟨copy, hMade⟩ := record.exists_copyConstructor hCopied
    exact ⟨some copy, hKind, hMade⟩

/-- Over a table that synthesis has made, a record is stopped by nothing but its base. -/
theorem synthesize_outcome (grown : table.Grown unit options) (record : Record) :
    (∃ set base, (record.synthesize record.effectiveMembers (record.base.bind table.get?) options).outcome = .ok set ∧
      record.resolveBase (record.base.bind table.get?) = .ok base) ∨
    ∃ fault, (record.synthesize record.effectiveMembers (record.base.bind table.get?) options).outcome = .error fault ∧
      record.resolveBase (record.base.bind table.get?) = .error fault := by
  cases hBase : record.resolveBase (record.base.bind table.get?) with
  | error fault => exact .inr ⟨fault, by rw [Record.synthesize, hBase], rfl⟩
  | ok base =>
    obtain ⟨copy, hCopy⟩ := exists_hasCopy grown hBase
    exact .inl ⟨_, base, Record.synthesize_eq_ok_iff.mpr ⟨base, copy, hBase, hCopy, rfl⟩, rfl⟩

theorem outcome_eq_ok {set : MemberSet} (h : outcome unit options table record = .ok set) :
    set.recordName = record.name := by
  rw [outcome] at h
  split at h
  · cases h
  · exact Record.recordName_of_synthesize h

theorem outcome_eq_error (grown : table.Grown unit options) {fault : Fault}
    (h : outcome unit options table record = .error fault) : fault.Stops record.name := by
  rw [outcome] at h
  split at h
  · cases h
    exact ⟨rfl, by simp⟩
  · rcases synthesize_outcome grown record with ⟨set, -, hOutcome, -⟩ | ⟨other, hOutcome, hBase⟩
    · rw [hOutcome] at h
      cases h
    · rw [hOutcome] at h
      cases h
      exact Record.stops_of_resolveBase hBase

/-- A synthesis depends on the entry of the base alone, and on a cycle not even on that. -/
theorem attempt_congr {otherUnit : CompilationUnit} {other : RecordTable}
    (cycle : otherUnit.IsOnCycle record.name ↔ unit.IsOnCycle record.name)
    (h : ∀ base, record.base = some base → other.get? base = table.get? base ∨ unit.IsOnCycle record.name) :
    attempt otherUnit options other record = attempt unit options table record := by
  rw [← isCyclic_iff, ← isCyclic_iff, ← Bool.eq_iff_iff] at cycle
  rw [attempt, attempt, cycle]
  split
  · rfl
  · rename_i hCycle
    rw [isCyclic_iff] at hCycle
    rw [Option.bind_congr fun base hBase => (h base hBase).resolve_right hCycle]

variable {result : UnitResult} {name : String}

theorem finish_of_ok {set : MemberSet} (declared : unit.find? name = some record)
    (h : outcome unit options result.table record = .ok set) :
    (finish unit options result name).table = result.table.insert set ∧
      (finish unit options result name).faults = result.faults := by
  have hName := CompilationUnit.name_of_find? declared
  rw [outcome, hName] at h
  rw [finish]
  simp only [declared]
  split at h
  · cases h
  · rename_i hCycle
    simp [hCycle, h]

theorem finish_of_error {fault : Fault} (declared : unit.find? name = some record)
    (h : outcome unit options result.table record = .error fault) :
    (finish unit options result name).table = result.table ∧
      (finish unit options result name).faults = result.faults ++ [fault] := by
  have hName := CompilationUnit.name_of_find? declared
  rw [outcome, hName] at h
  rw [finish]
  simp only [declared]
  split at h
  · rename_i hCycle
    cases h
    simp [hCycle]
  · rename_i hCycle
    simp [hCycle, h]

/-- Finishing a record adds its outcome and changes nothing for other names. -/
theorem finish_outcomesOf (grown : result.table.Grown unit options) (declared : unit.find? name = some record)
    (fresh : result.outcomesOf name = []) (other : String) :
    (finish unit options result name).outcomesOf other =
        result.outcomesOf other ++ (if name = other then [outcome unit options result.table record] else []) ∧
      (finish unit options result name).faults.count (.duplicateRecord other) =
        result.faults.count (.duplicateRecord other) := by
  have hName := CompilationUnit.name_of_find? declared
  cases hOutcome : outcome unit options result.table record with
  | ok set =>
    obtain ⟨hTable, hFaults⟩ := finish_of_ok declared hOutcome
    have hSet : set.recordName = name := (outcome_eq_ok hOutcome).trans hName
    have hFresh : result.faultsOf set.recordName = [] := by
      rw [hSet]
      exact List.map_eq_nil_iff.mp (List.append_eq_nil_iff.mp fresh).2
    refine ⟨?_, by rw [hFaults]⟩
    rw [UnitResult.outcomesOf_of_insert hTable hFaults hFresh, hSet]
  | error fault =>
    obtain ⟨hTable, hFaults⟩ := finish_of_error declared hOutcome
    have hStops : fault.Stops name := hName ▸ outcome_eq_error grown hOutcome
    refine ⟨UnitResult.outcomesOf_of_fault hTable hFaults hStops other, ?_⟩
    rw [hFaults, List.count_append, List.count_singleton]
    simp [hStops.ne_duplicateRecord other]

theorem finish_get? {other : String} (h : other ≠ name) :
    (finish unit options result name).table.get? other = result.table.get? other := by
  rcases finish_table unit options result name with hTable | ⟨record, set, hRecord, hSet, hTable⟩
  · rw [hTable]
  · have hName := (Record.recordName_of_synthesize hSet).trans (CompilationUnit.name_of_find? hRecord)
    rw [hTable, RecordTable.get?_insert, hName, if_neg h.symm]

/-- Of these names, each has come to the outcome of its first declaration, and no other name to any. -/
structure Settled (unit : CompilationUnit) (options : SynthesisOptions) (names : List String) (result : UnitResult) :
    Prop where
  grown : result.table.Grown unit options
  outcomes : ∀ name record, unit.find? name = some record →
    result.outcomesOf name = if name ∈ names then [outcome unit options result.table record] else []
  duplicates : ∀ name, result.faults.count (.duplicateRecord name) = (repeated unit).count name

theorem BasesFirst.isReady {names : List String} (h : BasesFirst unit names) :
    ∀ name ∈ names, IsReady unit names name := by
  induction h with
  | nil => simp
  | snoc _ _ _ ready ih =>
    intro name hName base hLink hDeclared
    have hReady := (List.mem_append.mp hName).elim (fun h => ih name h) fun h => List.mem_singleton.mp h ▸ ready
    exact (hReady base hLink hDeclared).imp_left (List.mem_append_left _)

theorem settled_nil : Settled unit options [] { faults := (repeated unit).map .duplicateRecord } where
  grown := .empty
  outcomes := by
    intro name record _
    rw [if_neg List.not_mem_nil, UnitResult.outcomesOf, List.append_eq_nil_iff, List.map_eq_nil_iff,
      List.map_eq_nil_iff, UnitResult.faultsOf, List.filter_eq_nil_iff]
    refine ⟨rfl, ?_⟩
    simp only [List.mem_map, decide_eq_true_eq]
    rintro _ ⟨other, -, rfl⟩ hStops
    exact hStops.ne_duplicateRecord other rfl
  duplicates := fun name => List.count_map_of_injective _ _ (fun _ _ h => Fault.duplicateRecord.inj h) name

/-- What is settled does not wait for a record that is finished after it, so its synthesis stays what it was. -/
theorem attempt_finish {names : List String} {other : String} {waiting : Record}
    (declared : unit.find? name = some record) (fresh : name ∉ names) (found : unit.find? other = some waiting)
    (ready : IsReady unit names other) :
    attempt unit options (finish unit options result name).table waiting = attempt unit options result.table waiting := by
  refine attempt_congr Iff.rfl fun base hBase => ?_
  by_cases hName : base = name
  · subst hName
    have hLink : unit.Derives other base := CompilationUnit.derives_iff.mpr ⟨waiting, found, hBase⟩
    have hCycle := (ready base hLink (CompilationUnit.declares_iff.mpr ⟨record, declared⟩)).resolve_left fresh
    rw [CompilationUnit.name_of_find? found]
    exact .inr hCycle
  · exact .inl (finish_get? hName)

theorem outcome_finish {names : List String} {other : String} {waiting : Record}
    (declared : unit.find? name = some record) (fresh : name ∉ names) (found : unit.find? other = some waiting)
    (ready : IsReady unit names other) :
    outcome unit options (finish unit options result name).table waiting = outcome unit options result.table waiting := by
  rw [← outcome_attempt, attempt_finish declared fresh found ready, outcome_attempt]

theorem Settled.snoc {names : List String} (settled : Settled unit options names result)
    (before : BasesFirst unit names) (fresh : name ∉ names) (ready : IsReady unit names name)
    (declared : unit.find? name = some record) :
    Settled unit options (names ++ [name]) (finish unit options result name) := by
  have hFresh : result.outcomesOf name = [] := by
    rw [settled.outcomes name record declared, if_neg fresh]
  have hNone : result.table.get? name = none :=
    UnitResult.get?_eq_none_iff.mpr (List.map_eq_nil_iff.mp (List.append_eq_nil_iff.mp hFresh).1)
  refine ⟨(finish_grown settled.grown hNone).1, ?_, ?_⟩
  · intro other otherRecord hOther
    rw [(finish_outcomesOf settled.grown declared hFresh other).1, settled.outcomes other otherRecord hOther]
    by_cases hName : name = other
    · subst hName
      obtain rfl : record = otherRecord := Option.some.inj (declared.symm.trans hOther)
      rw [if_neg fresh, if_pos rfl, if_pos (List.mem_append_right _ List.mem_cons_self),
        outcome_finish declared fresh declared ready, List.nil_append]
    · rw [if_neg hName, List.append_nil]
      by_cases hMem : other ∈ names
      · rw [if_pos hMem, if_pos (List.mem_append_left _ hMem),
          outcome_finish declared fresh hOther (before.isReady other hMem)]
      · rw [if_neg hMem, if_neg (by simpa [hMem] using Ne.symm hName)]
  · intro other
    rw [(finish_outcomesOf settled.grown declared hFresh other).2, settled.duplicates other]

theorem BasesFirst.settled {names : List String} (h : BasesFirst unit names) :
    Settled unit options names
      (names.foldl (finish unit options) { faults := (repeated unit).map .duplicateRecord }) := by
  induction h with
  | nil => exact settled_nil
  | snoc before declared fresh ready ih =>
    obtain ⟨record, hRecord⟩ := CompilationUnit.declares_iff.mp declared
    rw [List.foldl_append]
    exact ih.snoc before fresh ready hRecord

theorem checkUnit_settled (unit : CompilationUnit) (options : SynthesisOptions) :
    Settled unit options (order unit) (checkUnit unit options) :=
  (order_basesFirst unit).settled

/-- The outcome that a checked unit has for a name. -/
theorem outcomesOf_checkUnit (options : SynthesisOptions) (declared : unit.find? name = some record) :
    (checkUnit unit options).outcomesOf name = [outcome unit options (checkUnit unit options).table record] := by
  rw [(checkUnit_settled unit options).outcomes name record declared, if_pos]
  exact mem_order_iff.mpr (CompilationUnit.declares_iff.mpr ⟨record, declared⟩)

theorem not_isOnCycle_of_base_eq_none (declared : unit.find? name = some record) (root : record.base = none) :
    ¬unit.IsOnCycle name := by
  intro hCycle
  obtain ⟨base, hLink, -⟩ := Relation.TransGen.head'_iff.mp hCycle
  obtain ⟨other, hOther, hBase⟩ := CompilationUnit.derives_iff.mp hLink
  obtain rfl : record = other := Option.some.inj (declared.symm.trans hOther)
  simp [root] at hBase

theorem exists_outcome_ok_iff (grown : table.Grown unit options) :
    (∃ set, outcome unit options table record = .ok set) ↔
      ¬unit.IsOnCycle record.name ∧ ∃ base, record.resolveBase (record.base.bind table.get?) = .ok base := by
  rw [outcome, ← isCyclic_iff]
  split
  · simp [*]
  · rename_i hCycle
    rcases synthesize_outcome grown record with ⟨set, base, hOutcome, hBase⟩ | ⟨fault, hOutcome, hBase⟩
    · simp [hCycle, hOutcome, hBase]
    · simp [hOutcome, hBase]

/-- The entry of a base is the set of a declared record, and a value type as that is. -/
theorem declaration_of_get? (grown : table.Grown unit options) {set : MemberSet} (h : table.get? name = some set) :
    set.recordName = name ∧
      ∃ above, unit.find? name = some above ∧ above.name = name ∧ above.isValueType = set.isValueType := by
  obtain ⟨hMem, hName⟩ := RecordTable.mem_of_get? h
  obtain ⟨above, base, copy, origin⟩ := grown.exists_origin hMem
  obtain rfl : above.name = name := by
    rw [← hName, origin.made]
    rfl
  exact ⟨hName, above, origin.declared, rfl, by rw [origin.made]; rfl⟩

theorem exists_outcome_ok_iff_base (grown : table.Grown unit options) (declared : unit.find? name = some record) :
    (∃ set, outcome unit options table record = .ok set) ↔
      record.base = none ∨
      ¬unit.IsOnCycle name ∧ record.isValueType = false ∧
      ∃ above, record.base = some above.name ∧ unit.find? above.name = some above ∧ table.get? above.name ≠ none ∧
        above.isValueType = false ∧
        ∀ argument ∈ record.baseArguments, ∃ p ∈ record.parameters, p.name = argument := by
  have hName := CompilationUnit.name_of_find? declared
  rw [exists_outcome_ok_iff grown, hName]
  constructor
  · rintro ⟨hCycle, base, hResolved⟩
    rcases Record.resolveBase_eq_ok_iff.mp hResolved with
      ⟨hRoot, -⟩ | ⟨set, hBase, hGiven, -, hKind, hAbove, hArguments⟩
    · exact .inl hRoot
    · rw [hBase, Option.bind_some] at hGiven
      obtain ⟨-, above, hFound, hSame, hSetKind⟩ := declaration_of_get? grown hGiven
      rw [← hSame] at hBase hFound hGiven
      exact .inr ⟨hCycle, hKind, above, hBase, hFound, by simp [hGiven], hSetKind.trans hAbove, hArguments⟩
  · rintro (hRoot | ⟨hCycle, hKind, above, hBase, hFound, hEntered, hAbove, hArguments⟩)
    · exact ⟨not_isOnCycle_of_base_eq_none declared hRoot, none, Record.resolveBase_eq_ok_iff.mpr (.inl ⟨hRoot, rfl⟩)⟩
    · obtain ⟨set, hSet⟩ := Option.ne_none_iff_exists'.mp hEntered
      obtain ⟨hSetName, other, hOther, -, hSetKind⟩ := declaration_of_get? grown hSet
      obtain rfl : above = other := Option.some.inj (hFound.symm.trans hOther)
      refine ⟨hCycle, some set, Record.resolveBase_eq_ok_iff.mpr (.inr ⟨set, ?_, ?_, rfl, hKind, ?_, hArguments⟩)⟩
      · rw [hBase, hSetName]
      · rw [hBase, Option.bind_some, hSet]
      · rw [← hSetKind, hAbove]

end CheckUnit

/-- Each name that a unit declares has exactly one set and no fault, or no set and exactly one fault, beside the faults for
its further declarations. It has a set exactly if its first declaration names no base or can derive from the set of the
base that it names. -/
theorem one_outcome_each (unit : CompilationUnit) (options : SynthesisOptions) (name : String) (record : Record)
    (declared : unit.find? name = some record) :
    let result := checkUnit unit options
    ((∃ set, result.setsOf name = [set] ∧ result.faultsOf name = []) ∨
      ∃ fault, result.setsOf name = [] ∧ result.faultsOf name = [fault]) ∧
    result.faults.count (.duplicateRecord name) + 1 = (unit.records.map (·.name)).count name ∧
    (result.setsOf name ≠ [] ↔
      record.base = none ∨
      ¬unit.IsOnCycle name ∧ record.isValueType = false ∧
      ∃ above, record.base = some above.name ∧ unit.find? above.name = some above ∧ result.setsOf above.name ≠ [] ∧
        above.isValueType = false ∧
        ∀ argument ∈ record.baseArguments, ∃ p ∈ record.parameters, p.name = argument) := by
  intro result
  have grown : result.table.Grown unit options := checkUnit_grown unit options
  have hOutcomes : result.outcomesOf name = [CheckUnit.outcome unit options result.table record] :=
    CheckUnit.outcomesOf_checkUnit options declared
  have hRepeated : result.faults.count (.duplicateRecord name) = (CheckUnit.repeated unit).count name :=
    (CheckUnit.checkUnit_settled unit options).duplicates name
  have hMade : result.setsOf name ≠ [] ↔ ∃ set, CheckUnit.outcome unit options result.table record = .ok set := by
    cases hOutcome : CheckUnit.outcome unit options result.table record with
    | ok set => simp [(UnitResult.outcomesOf_eq_ok_iff.mp (hOutcome ▸ hOutcomes)).1]
    | error fault => simp [(UnitResult.outcomesOf_eq_error_iff.mp (hOutcome ▸ hOutcomes)).1]
  refine ⟨?_, ?_, ?_⟩
  · cases hOutcome : CheckUnit.outcome unit options result.table record with
    | ok set => exact .inl ⟨set, UnitResult.outcomesOf_eq_ok_iff.mp (hOutcome ▸ hOutcomes)⟩
    | error fault => exact .inr ⟨fault, UnitResult.outcomesOf_eq_error_iff.mp (hOutcome ▸ hOutcomes)⟩
  · rw [hRepeated]
    exact CheckUnit.count_repeated (CompilationUnit.declares_iff.mpr ⟨record, declared⟩)
  · rw [hMade, CheckUnit.exists_outcome_ok_iff_base grown declared]
    simp only [ne_eq, UnitResult.get?_eq_none_iff]

def circle : Record where
  name := "Circle"
  base := some "Shape"

def shapes : CompilationUnit where
  records := [circle, { name := "Snake", base := some "Snake" }, { name := "Tail", base := some "Snake" },
    { name := "Shape" }, { name := "Circle" }]

theorem one_outcome_each_shapes :
    shapes.find? "Circle" = some circle ∧
    (∃ set, (checkUnit shapes {}).setsOf "Circle" = [set] ∧ (checkUnit shapes {}).faultsOf "Circle" = []) ∧
    (checkUnit shapes {}).faults.count (.duplicateRecord "Circle") = 1 ∧
    ∃ fault, (checkUnit shapes {}).setsOf "Tail" = [] ∧ (checkUnit shapes {}).faultsOf "Tail" = [fault] := by
  obtain ⟨-, -, hShape⟩ := one_outcome_each shapes {} "Shape" _ rfl
  obtain ⟨hCircle, hAgain, hMade⟩ := one_outcome_each shapes {} "Circle" circle rfl
  obtain ⟨-, -, hSnake⟩ := one_outcome_each shapes {} "Snake" _ rfl
  obtain ⟨hTail, -, hTailMade⟩ := one_outcome_each shapes {} "Tail" _ rfl
  have hOpen : ¬shapes.IsOnCycle "Circle" := mt CheckUnit.isCyclic_iff.mpr (by decide)
  have hClosed : shapes.IsOnCycle "Snake" := CheckUnit.isCyclic_iff.mp (by decide)
  have hCircleMade := hMade.mpr
    (.inr ⟨hOpen, rfl, { name := "Shape" }, rfl, rfl, hShape.mpr (.inl rfl), rfl, by simp [circle]⟩)
  have hSnakeMissing : (checkUnit shapes {}).setsOf "Snake" = [] := by
    by_contra hSome
    rcases hSnake.mp hSome with hRoot | ⟨hFree, -⟩
    · cases hRoot
    · exact hFree hClosed
  have hTailMissing : (checkUnit shapes {}).setsOf "Tail" = [] := by
    by_contra hSome
    rcases hTailMade.mp hSome with hRoot | ⟨-, -, above, hBase, -, hAbove, -⟩
    · cases hRoot
    · rw [← Option.some.inj hBase] at hAbove
      exact hAbove hSnakeMissing
  refine ⟨rfl, hCircle.resolve_right ?_, Nat.succ.inj hAgain, hTail.resolve_left ?_⟩
  · rintro ⟨_, hNone, -⟩
    exact hCircleMade hNone
  · rintro ⟨_, hSome, -⟩
    simp [hTailMissing] at hSome

end RecordSynthesis
