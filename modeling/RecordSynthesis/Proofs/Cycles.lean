import RecordSynthesis.Proofs.Traversal

/-!
# Faults on cycles

A record is at fault for an inheritance cycle exactly if its base links lead back to it. A record that leads into a cycle
without being on it has a base that never gets a set, and its fault says no more than that.
-/

namespace RecordSynthesis

set_option autoImplicit false

open Decl (CompilationUnit Record)

theorem Decl.Record.resolveBase_of_missing {record : Record} {base : String} (derived : record.base = some base) :
    record.resolveBase none =
      .error (if record.isValueType then .valueTypeWithBase record.name base else .unresolvedBase record.name base) := by
  rw [resolveBase, derived]
  dsimp only
  split <;> rfl

namespace CheckUnit

variable {unit : CompilationUnit} {options : SynthesisOptions} {table : RecordTable} {record : Record} {name : String}

theorem outcome_of_cycle (h : unit.IsOnCycle record.name) :
    outcome unit options table record = .error (.inheritanceCycle record.name) := by
  rw [outcome, if_pos (isCyclic_iff.mpr h)]

theorem outcome_of_missing {base : String} (h : ¬unit.IsOnCycle record.name) (derived : record.base = some base)
    (missing : table.get? base = none) :
    outcome unit options table record =
      .error (if record.isValueType then .valueTypeWithBase record.name base else .unresolvedBase record.name base) := by
  rw [outcome, if_neg (mt isCyclic_iff.mp h), Record.synthesize, derived, Option.bind_some, missing,
    Record.resolveBase_of_missing derived]

theorem outcome_eq_inheritanceCycle_iff (grown : table.Grown unit options) :
    outcome unit options table record = .error (.inheritanceCycle name) ↔ record.name = name ∧ unit.IsOnCycle name := by
  constructor
  · intro h
    by_cases hCycle : unit.IsOnCycle record.name
    · rw [outcome_of_cycle hCycle] at h
      cases h
      exact ⟨rfl, hCycle⟩
    · rw [outcome, if_neg (mt isCyclic_iff.mp hCycle)] at h
      rcases synthesize_outcome grown record with ⟨set, -, hOutcome, -⟩ | ⟨fault, hOutcome, hBase⟩
      · rw [hOutcome] at h
        cases h
      · rw [hOutcome] at h
        cases h
        obtain ⟨_, -, hFault | hFault | hFault | ⟨_, hFault⟩⟩ := Record.resolveBase_eq_error hBase <;> cases hFault
  · rintro ⟨rfl, hCycle⟩
    exact outcome_of_cycle hCycle

theorem outcomesOf_of_cycle (options : SynthesisOptions) (cycle : unit.IsOnCycle name) :
    (checkUnit unit options).outcomesOf name = [.error (.inheritanceCycle name)] := by
  obtain ⟨record, declared⟩ := CompilationUnit.declares_iff.mp cycle.declares
  obtain rfl := CompilationUnit.name_of_find? declared
  rw [outcomesOf_checkUnit options declared, outcome_of_cycle cycle]

theorem outcomesOf_of_missing (options : SynthesisOptions) {base : String} (declared : unit.find? name = some record)
    (derived : record.base = some base) (h : ¬unit.IsOnCycle name)
    (missing : (checkUnit unit options).setsOf base = []) :
    (checkUnit unit options).outcomesOf name =
      [.error (if record.isValueType then .valueTypeWithBase name base else .unresolvedBase name base)] := by
  obtain rfl := CompilationUnit.name_of_find? declared
  rw [outcomesOf_checkUnit options declared, outcome_of_missing h derived (UnitResult.get?_eq_none_iff.mpr missing)]

/-- What leads into a cycle has no set. -/
theorem setsOf_of_leads (options : SynthesisOptions) {looped : String} (cycle : unit.IsOnCycle looped)
    (leads : Relation.ReflTransGen unit.Derives name looped) : (checkUnit unit options).setsOf name = [] := by
  induction leads using Relation.ReflTransGen.head_induction_on with
  | refl => exact (UnitResult.outcomesOf_eq_error_iff.mp (outcomesOf_of_cycle options cycle)).1
  | @head name base hLink _ ih =>
    by_cases hCycle : unit.IsOnCycle name
    · exact (UnitResult.outcomesOf_eq_error_iff.mp (outcomesOf_of_cycle options hCycle)).1
    · obtain ⟨record, declared, derived⟩ := CompilationUnit.derives_iff.mp hLink
      exact (UnitResult.outcomesOf_eq_error_iff.mp (outcomesOf_of_missing options declared derived hCycle ih)).1

theorem inheritanceCycle_mem_faults_iff :
    .inheritanceCycle name ∈ (checkUnit unit options).faults ↔ unit.IsOnCycle name := by
  constructor
  · intro h
    rcases mem_faults_iff.mp h with ⟨_, -, hRepeated⟩ | ⟨record, -, hOutcome⟩
    · cases hRepeated
    · exact ((outcome_eq_inheritanceCycle_iff (checkUnit_grown unit options)).mp hOutcome).2
  · intro hCycle
    have hFaults := (UnitResult.outcomesOf_eq_error_iff.mp (outcomesOf_of_cycle options hCycle)).2
    exact List.mem_of_mem_filter (hFaults ▸ List.mem_cons_self : _ ∈ (checkUnit unit options).faultsOf name)

theorem count_inheritanceCycle_le (unit : CompilationUnit) (options : SynthesisOptions) (name : String) :
    (checkUnit unit options).faults.count (.inheritanceCycle name) ≤ 1 := by
  by_cases hCycle : unit.IsOnCycle name
  · have hFaults := (UnitResult.outcomesOf_eq_error_iff.mp (outcomesOf_of_cycle options hCycle)).2
    have hStops : Fault.Stops name (.inheritanceCycle name) := ⟨rfl, by simp⟩
    rw [← UnitResult.count_faultsOf hStops, hFaults, List.count_singleton_self]
  · rw [List.count_eq_zero.mpr (mt inheritanceCycle_mem_faults_iff.mp hCycle)]
    exact Nat.zero_le 1

end CheckUnit

open CheckUnit in
/-- A traversal that keeps the waiting records apart ends with every declared record finished once, the records on cycles
marked and the result of checking the unit. That result has the fault of an inheritance cycle for exactly the records to
which their base links lead back, once for each; a record that only leads into a cycle is at fault for its base. -/
theorem cycle_faults_exact (unit : CompilationUnit) (options : SynthesisOptions) :
    let result := checkUnit unit options
    let traversal := Traversal.run unit options
    (traversal.result = result ∧ traversal.finished.Nodup ∧
      (∀ name, name ∈ traversal.finished ↔ unit.Declares name) ∧
      ∀ name, name ∈ traversal.marked ↔ unit.IsOnCycle name) ∧
    (∀ name, .inheritanceCycle name ∈ result.faults ↔ unit.IsOnCycle name) ∧
    (∀ name, result.faults.count (.inheritanceCycle name) ≤ 1) ∧
    ∀ name record base looped, unit.find? name = some record → record.base = some base →
      ¬unit.IsOnCycle name → Relation.TransGen unit.Derives name looped → unit.IsOnCycle looped →
      result.setsOf name = [] ∧
      result.faultsOf name =
        [if record.isValueType then .valueTypeWithBase name base else .unresolvedBase name base] := by
  intro result traversal
  obtain ⟨hFinished, hResult, hMarked⟩ := Traversal.passes_run unit options
  refine ⟨⟨hResult, ?_, ?_, hMarked⟩, fun _ => inheritanceCycle_mem_faults_iff, count_inheritanceCycle_le unit options, ?_⟩
  · rw [hFinished]
    exact order_nodup unit
  · intro name
    rw [hFinished, mem_order_iff]
  · intro name record base looped declared derived hOff leads cycle
    obtain ⟨next, hLink, hLeads⟩ := Relation.TransGen.head'_iff.mp leads
    obtain rfl : base = next := Option.some.inj
      (derived.symm.trans ((CompilationUnit.derives_iff_base declared).mp hLink))
    have hMissing := setsOf_of_leads options cycle hLeads
    exact UnitResult.outcomesOf_eq_error_iff.mp (outcomesOf_of_missing options declared derived hOff hMissing)

def roost : CompilationUnit where
  records := [{ name := "Rope", base := some "Hen" }, { name := "Hen", base := some "Egg" },
    { name := "Nest", isValueType := true, base := some "Rope" }, { name := "Egg", base := some "Hen" }]

theorem cycle_faults_exact_nest :
    "Egg" ∈ (Traversal.run roost {}).marked ∧ "Nest" ∉ (Traversal.run roost {}).marked ∧
    Fault.inheritanceCycle "Egg" ∈ (checkUnit roost {}).faults ∧
    ¬roost.IsOnCycle "Nest" ∧ Relation.TransGen roost.Derives "Nest" "Hen" ∧ roost.IsOnCycle "Hen" ∧
    (checkUnit roost {}).setsOf "Nest" = [] ∧
    (checkUnit roost {}).faultsOf "Nest" = [.valueTypeWithBase "Nest" "Rope"] := by
  have hOff : ¬roost.IsOnCycle "Nest" := mt CheckUnit.isCyclic_iff.mpr (by decide)
  have hLeads : Relation.TransGen roost.Derives "Nest" "Hen" := .head (b := "Rope") rfl (.single rfl)
  have hHen : roost.IsOnCycle "Hen" := CheckUnit.isCyclic_iff.mp (by decide)
  have hEgg : roost.IsOnCycle "Egg" := CheckUnit.isCyclic_iff.mp (by decide)
  obtain ⟨⟨-, -, -, hMarked⟩, hFault, -, hMissing⟩ := cycle_faults_exact roost {}
  obtain ⟨hSets, hFaults⟩ := hMissing "Nest" _ "Rope" "Hen" rfl rfl hOff hLeads hHen
  exact ⟨(hMarked "Egg").mpr hEgg, mt (hMarked "Nest").mp hOff, (hFault "Egg").mpr hEgg, hOff, hLeads, hHen, hSets,
    hFaults⟩

end RecordSynthesis
