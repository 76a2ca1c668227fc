import RecordSynthesis.Proofs.Account
import RecordSynthesis.Proofs.DecodedTypes
import RecordSynthesis.Proofs.SelectedSets

/-!
# Failed runs

A run that has read its inputs fails for nothing but the diagnostics and faults of the whole unit, while it reports those
of the wanted record alone. So a failed run has reported a reason unless a record is wanted and only others have given
one, or what it has to report first cannot be shown. Over a report that cannot be shown the run breaks off.
-/

namespace RecordSynthesis

set_option autoImplicit false

open Decl (CompilationUnit)

theorem UnitResult.hasErrors_eq_false_iff {result : UnitResult} :
    result.hasErrors = false ↔ result.diagnostics = [] ∧ result.faults = [] := by
  rw [hasErrors, Bool.or_eq_false_iff]
  refine and_congr ?_ (by simp)
  cases result.diagnostics with
  | nil => simp
  | cons diagnostic others => cases diagnostic; simp [Diagnostic.isError]

/-- A declared record without a set has a fault of its own, and no diagnostic. -/
theorem CheckUnit.exists_fault_of_get?_eq_none {unit : CompilationUnit} {options : SynthesisOptions} {name : String}
    (declared : unit.Declares name) (lost : (checkUnit unit options).table.get? name = none) :
    (∀ diagnostic ∈ (checkUnit unit options).diagnostics, diagnostic.record ≠ name) ∧
      ∃ fault ∈ (checkUnit unit options).faults, fault.record = name := by
  obtain ⟨record, hRecord⟩ := CompilationUnit.declares_iff.mp declared
  have hOutcome := outcomesOf_checkUnit options hRecord
  have hSets : (checkUnit unit options).setsOf name = [] := UnitResult.get?_eq_none_iff.mp lost
  constructor
  · rintro diagnostic mem rfl
    obtain ⟨set, hOutcomes⟩ := exists_outcomesOf_of_mem_diagnostics mem
    rw [(UnitResult.outcomesOf_eq_ok_iff.mp hOutcomes).1] at hSets
    cases hSets
  · rw [UnitResult.outcomesOf, hSets, List.map_nil, List.nil_append] at hOutcome
    obtain ⟨fault, hFault, -⟩ := List.map_eq_singleton_iff.mp hOutcome
    obtain ⟨mem, hStops⟩ := List.mem_filter.mp (hFault ▸ List.mem_singleton_self fault)
    exact ⟨fault, mem, (of_decide_eq_true hStops).1⟩

/-- How a run ends: what it has reported on its unit, and what it fails with then. -/
structure Ending where
  reports : List Notice
  failure : Option Failure

namespace Ending

def status (ending : Ending) : Nat :=
  (ending.failure.map Failure.status).getD 0

/-- A run that fails for its unit has reported a reason, and one without reports does not fail. -/
structure ShowsWhy (ending : Ending) : Prop where
  reported : ending.failure = some .synthesis → ending.reports ≠ []
  silent : ending.reports = [] → ending.status = 0

theorem status_eq_zero_iff {ending : Ending} : ending.status = 0 ↔ ending.failure = none := by
  obtain ⟨reports, failure⟩ := ending
  cases failure with
  | none => exact iff_of_true rfl rfl
  | some failure =>
    refine iff_of_false (fun h => ?_) nofun
    rw [status, Option.map_some, Option.getD_some, Failure.status] at h
    split_ifs at h

theorem showsWhy_iff {ending : Ending} : ending.ShowsWhy ↔ ending.failure = none ∨ ending.reports ≠ [] := by
  rw [← status_eq_zero_iff]
  constructor
  · intro shows
    exact or_iff_not_imp_right.mpr fun silent => shows.silent (not_not.mp silent)
  · rintro (ended | reported)
    · refine ⟨fun failed => ?_, fun _ => ended⟩
      cases failed.symm.trans (status_eq_zero_iff.mp ended)
    · exact ⟨fun _ => reported, fun silent => absurd silent reported⟩

end Ending

namespace Invocation

/-- What a run fails with once it has a result. -/
def failure? (invocation : Invocation) (inputs : Inputs) (result : UnitResult) : Option Failure :=
  if none ∈ invocation.reports inputs result then some .overflow
  else if result.hasErrors then some .synthesis
  else none

def ending (files : FileView) (environment : LogSettings) (invocation : Invocation) : Ending :=
  match invocation.load files environment with
  | .error failure => ⟨[], some failure⟩
  | .ok inputs =>
    let result := checkUnit inputs.unit inputs.options
    ⟨Notice.written (invocation.reports inputs result), invocation.failure? inputs result⟩

section

variable {invocation : Invocation} {inputs : Inputs} {result : UnitResult}

theorem failure?_eq_overflow_iff :
    invocation.failure? inputs result = some .overflow ↔ none ∈ invocation.reports inputs result := by
  rw [failure?]
  split_ifs with hLost <;> simp [hLost]

theorem failure?_eq_synthesis_iff :
    invocation.failure? inputs result = some .synthesis ↔
      result.hasErrors = true ∧ none ∉ invocation.reports inputs result := by
  rw [failure?]
  split_ifs with hLost hErrors
  · simp [hLost]
  · simp [hLost, hErrors]
  · simp [hErrors]

/-- Over the reports a run can only break off if there is something to report. -/
theorem failure?_eq_none_iff : invocation.failure? inputs result = none ↔ result.hasErrors = false := by
  rw [failure?]
  split_ifs with hLost hErrors
  · obtain ⟨diagnostic, mem, -⟩ := UnitResult.none_mem_reports_iff.mp hLost
    exact iff_of_false nofun fun none => List.ne_nil_of_mem mem (UnitResult.hasErrors_eq_false_iff.mp none).1
  · exact iff_of_false nofun (by simp [hErrors])
  · exact iff_of_true rfl (by simpa using hErrors)

theorem finish_ending (invocation : Invocation) (inputs : Inputs) (result : UnitResult) :
    (invocation.finish inputs result).notices = Notice.written (invocation.reports inputs result) ++
        ((invocation.failure? inputs result).bind (Failure.notice? invocation.json invocation.unit)).toList ∧
      (invocation.finish inputs result).status = ((invocation.failure? inputs result).map Failure.status).getD 0 := by
  rw [failure?]
  split_ifs with hLost hErrors
  · rw [finish_of_mem hLost]
    exact ⟨(List.append_nil _).symm, rfl⟩
  · rw [finish_of_notMem hLost, if_pos hErrors]
    exact ⟨rfl, rfl⟩
  · rw [finish_of_notMem hLost, if_neg hErrors]
    exact ⟨(List.append_nil _).symm, rfl⟩

end

variable {files : FileView} {environment : LogSettings} {invocation : Invocation}

/-- A run shows its reports and then its failure, which decides the status. -/
theorem run_ending (files : FileView) (environment : LogSettings) (invocation : Invocation) :
    let ending := invocation.ending files environment
    (invocation.run files environment).notices =
        ending.reports ++ (ending.failure.bind (Failure.notice? invocation.json invocation.unit)).toList ∧
      (invocation.run files environment).status = ending.status := by
  dsimp only
  rw [run, ending]
  cases invocation.load files environment with
  | error failure => exact ⟨rfl, rfl⟩
  | ok inputs => exact finish_ending invocation inputs _

/-- A record can only be wanted of a unit that declares it. -/
theorem declares_of_load {inputs : Inputs} {name : String} (loaded : invocation.load files environment = .ok inputs)
    (wanted : invocation.record = some name) : inputs.unit.Declares name := by
  rw [load, wanted] at loaded
  simp only [bind_eq_ok_iff] at loaded
  obtain ⟨config, -, fileLog, -, unit, -, hUnit⟩ := loaded
  split at hUnit
  · cases hUnit
  · rename_i hDeclared
    cases hUnit
    exact CompilationUnit.declares_iff.mpr (Option.ne_none_iff_exists'.mp (by simpa using hDeclared))

end Invocation

/-- A run that has read its inputs ends well exactly if its unit has no diagnostics and no faults. Otherwise it shows why
exactly if the first thing to report on what is wanted can be shown: the first wanted diagnostic, or a wanted fault where
no diagnostic is wanted. If a wanted diagnostic cannot be shown, the run breaks off with status 101 and writes nothing
more. A wanted record without a set is never lost in silence. -/
theorem shows_why_iff (files : FileView) (environment : LogSettings) (invocation : Invocation)
    (inputs : Invocation.Inputs) (loaded : invocation.load files environment = .ok inputs) :
    let result := checkUnit inputs.unit inputs.options
    let ending := invocation.ending files environment
    let source := inputs.unit.source.getD ""
    let breaks := ∃ diagnostic ∈ result.diagnostics, isWanted invocation.record diagnostic.record = true ∧
      ¬diagnostic.IsShown invocation.style source
    (ending.ShowsWhy ↔ (result.diagnostics = [] ∧ result.faults = []) ∨
      (∃ diagnostic, (result.diagnostics.filter fun d => isWanted invocation.record d.record).head? = some diagnostic ∧
        diagnostic.IsShown invocation.style source) ∨
      (∀ diagnostic ∈ result.diagnostics, isWanted invocation.record diagnostic.record = false) ∧
        ∃ fault ∈ result.faults, isWanted invocation.record fault.record = true) ∧
    (∀ name, invocation.record = some name → result.table.get? name = none → ending.reports ≠ []) ∧
    (ending.failure = some .overflow ↔ breaks) ∧
    (ending.failure = some .synthesis ↔ ¬(result.diagnostics = [] ∧ result.faults = []) ∧ ¬breaks) ∧
    (ending.status = 0 ↔ result.diagnostics = [] ∧ result.faults = []) ∧
    (breaks → ending.status = 101 ∧ (invocation.run files environment).output = "" ∧
      (invocation.run files environment).notices = ending.reports) ∧
    (invocation.run files environment).notices =
      ending.reports ++ (ending.failure.bind (Failure.notice? invocation.json invocation.unit)).toList ∧
    (invocation.run files environment).status = ending.status := by
  intro result ending source breaks
  have hEnding : ending = ⟨Notice.written (invocation.reports inputs result), invocation.failure? inputs result⟩ := by
    simp only [ending, Invocation.ending, loaded, result]
  have hBreaks : none ∈ invocation.reports inputs result ↔ breaks := UnitResult.none_mem_reports_iff
  have hErrors : result.hasErrors = false ↔ result.diagnostics = [] ∧ result.faults = [] :=
    UnitResult.hasErrors_eq_false_iff
  have hEnds : ending.failure = none ↔ result.diagnostics = [] ∧ result.faults = [] := by
    rw [hEnding, ← hErrors]
    exact Invocation.failure?_eq_none_iff
  refine ⟨?_, fun name wanted lost => ?_, ?_, ?_, ?_, fun broken => ?_, Invocation.run_ending files environment invocation⟩
  · rw [Ending.showsWhy_iff, hEnds, hEnding]
    exact or_congr_right UnitResult.written_reports_ne_nil_iff
  · obtain ⟨hOther, fault, mem, hFault⟩ :=
      CheckUnit.exists_fault_of_get?_eq_none (Invocation.declares_of_load loaded wanted) lost
    rw [hEnding]
    refine UnitResult.written_reports_ne_nil_iff.mpr (.inr ⟨fun diagnostic mem => ?_, fault, mem, ?_⟩)
    · simpa [isWanted, wanted] using (hOther diagnostic mem).symm
    · simp [isWanted, wanted, hFault]
  · rw [hEnding, ← hBreaks]
    exact Invocation.failure?_eq_overflow_iff
  · rw [hEnding, ← hErrors, ← hBreaks, Bool.not_eq_false]
    exact Invocation.failure?_eq_synthesis_iff
  · rw [Ending.status_eq_zero_iff, hEnds]
  · have hLost := hBreaks.mpr broken
    have hRun : invocation.run files environment =
        { status := 101, notices := Notice.written (invocation.reports inputs result) } := by
      rw [Invocation.run, loaded]
      exact Invocation.finish_of_mem hLost
    rw [hEnding, hRun, Ending.status, Invocation.failure?_eq_overflow_iff.mpr hLost]
    exact ⟨rfl, rfl, rfl⟩

def lostBase : FileView := fun path =>
  if path = "unit.json" then
    .file (.ok "\x7b\"records\":[\x7b\"name\":\"Good\"\x7d,\x7b\"name\":\"Lost\",\"base\":\"Gone\"\x7d]\x7d")
  else .noFile .notFound

def checkOf (name : String) : Invocation := { task := .check, unit := "unit.json", record := some name }

/-- Only the record in order is wanted, so the fault of the other one fails the run and is not reported. -/
theorem not_shows_why_good :
    ((checkOf "Good").load lostBase {}).isOk = true ∧
    ((checkOf "Good").run lostBase {}).notices = [.text "error: synthesis failed due to errors above\n"] ∧
    ((checkOf "Good").run lostBase {}).status = 1 ∧
    ¬((checkOf "Good").ending lostBase {}).ShowsWhy := by
  have hStatus : ((checkOf "Good").run lostBase {}).status = 1 := by decide +kernel
  have hReports : ((checkOf "Good").ending lostBase {}).reports = [] := by decide +kernel
  refine ⟨by decide +kernel, by decide +kernel, hStatus, fun shows => ?_⟩
  have hEnding := (Invocation.run_ending lostBase {} (checkOf "Good")).2
  rw [hStatus, shows.silent hReports] at hEnding
  cases hEnding

/-- If the record at fault is wanted, its fault is reported. -/
theorem shows_why_iff_lost :
    ∃ inputs, (checkOf "Lost").load lostBase {} = .ok inputs ∧
      (checkUnit inputs.unit inputs.options).faults = [.unresolvedBase "Lost" "Gone"] ∧
      ((checkOf "Lost").ending lostBase {}).ShowsWhy ∧
      ((checkOf "Lost").ending lostBase {}).reports.length = 1 := by
  have hResult : (((checkOf "Lost").load lostBase {}).toOption.map fun inputs =>
      let result := checkUnit inputs.unit inputs.options
      (result.diagnostics.length, result.faults)) = some (0, [.unresolvedBase "Lost" "Gone"]) := by decide +kernel
  obtain ⟨inputs, hLoaded, hCheck⟩ := exists_ok_of_map_toOption hResult
  obtain ⟨hLength, hLost⟩ := Prod.mk.inj hCheck
  obtain ⟨hShows, -⟩ := shows_why_iff lostBase {} (checkOf "Lost") inputs hLoaded
  have hNone : ∀ diagnostic ∈ (checkUnit inputs.unit inputs.options).diagnostics,
      isWanted (checkOf "Lost").record diagnostic.record = false := by
    rw [List.eq_nil_of_length_eq_zero hLength]
    exact fun _ mem => absurd mem List.not_mem_nil
  have hFault : .unresolvedBase "Lost" "Gone" ∈ (checkUnit inputs.unit inputs.options).faults := by
    rw [hLost]
    exact List.mem_singleton_self _
  exact ⟨inputs, hLoaded, hLost, hShows.mpr (.inr (.inr ⟨hNone, _, hFault, rfl⟩)), by decide +kernel⟩

end RecordSynthesis
