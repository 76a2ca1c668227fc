import Mathlib.Data.List.Basic
import RecordSynthesis.Command.Run

/-!
# Reports of a run

A run reports on its unit before it writes anything. It breaks off at the first report that cannot be shown, which is a
line of JSON with a label whose line or column no word holds. A run that shows all its reports goes on to its output.
-/

namespace RecordSynthesis

set_option autoImplicit false

theorem isSome_mapM_iff {α β : Type} {f : α → Option β} {items : List α} :
    (items.mapM f).isSome = true ↔ ∀ item ∈ items, (f item).isSome = true := by
  induction items with
  | nil => simp
  | cons item items ih =>
    rw [List.mapM_cons, List.forall_mem_cons, ← ih]
    cases f item <;> cases items.mapM f <;> simp

theorem exists_ok_of_map_toOption {ε α β : Type} {result : Except ε α} {f : α → β} {b : β}
    (h : result.toOption.map f = some b) : ∃ a, result = .ok a ∧ f a = b := by
  cases result with
  | error => cases h
  | ok a => exact ⟨a, rfl, Option.some.inj h⟩

theorem Notice.written_ne_nil_iff {reports : List (Option Notice)} :
    written reports ≠ [] ↔ ∃ notice, reports.head? = some (some notice) := by
  cases reports with
  | nil => simp [written]
  | cons report others => cases report <;> simp [written]

/-- In JSON a diagnostic is shown with the line and the column of each of its labels, so all of them must have one. -/
def Diagnostic.IsShown (style : NoticeStyle) (source : String) (diagnostic : Diagnostic) : Prop :=
  style = .json → ∀ label ∈ diagnostic.labels, (label.toDatum? (LineIndex.ofText source)).isSome = true

theorem Diagnostic.isSome_notice?_iff {style : NoticeStyle} {source : String} (file : String)
    {diagnostic : Diagnostic} :
    (diagnostic.notice? style source file).isSome = true ↔ diagnostic.IsShown style source := by
  rw [notice?, IsShown]
  split_ifs with hJson hSource
  · rw [Option.isSome_map, ← isSome_mapM_iff, toDatum?]
    cases diagnostic.labels.mapM (Label.toDatum? (LineIndex.ofText source)) <;> simp [hJson]
  all_goals exact ⟨fun _ json => absurd json hJson, fun _ => rfl⟩

namespace UnitResult

variable {result : UnitResult} {style : NoticeStyle} {source file : String} {only : Option String}

theorem none_mem_reports_iff :
    none ∈ result.reports style source file only ↔
      ∃ diagnostic ∈ result.diagnostics, isWanted only diagnostic.record = true ∧ ¬diagnostic.IsShown style source := by
  simp [reports, ← Diagnostic.isSome_notice?_iff file, and_assoc]

/-- What is shown first is the first wanted diagnostic, or a wanted fault where no diagnostic is wanted. -/
theorem written_reports_ne_nil_iff :
    Notice.written (result.reports style source file only) ≠ [] ↔
      (∃ diagnostic, (result.diagnostics.filter fun d => isWanted only d.record).head? = some diagnostic ∧
        diagnostic.IsShown style source) ∨
      (∀ diagnostic ∈ result.diagnostics, isWanted only diagnostic.record = false) ∧
        ∃ fault ∈ result.faults, isWanted only fault.record = true := by
  rw [Notice.written_ne_nil_iff, reports]
  cases hWanted : result.diagnostics.filter fun d => isWanted only d.record with
  | nil =>
    have hNone : ∀ diagnostic ∈ result.diagnostics, isWanted only diagnostic.record = false := by
      simpa using hWanted
    cases hFaults : result.faults.filter fun f => isWanted only f.record with
    | nil => simpa using fun _ => hFaults
    | cons fault others =>
      have hFault : fault ∈ result.faults ∧ isWanted only fault.record = true :=
        List.mem_filter.mp (hFaults ▸ List.mem_cons_self)
      exact iff_of_true ⟨_, rfl⟩ (.inr ⟨hNone, fault, hFault⟩)
  | cons diagnostic others =>
    have hDiagnostic : diagnostic ∈ result.diagnostics ∧ isWanted only diagnostic.record = true :=
      List.mem_filter.mp (hWanted ▸ List.mem_cons_self)
    have hSome : ¬∀ other ∈ result.diagnostics, isWanted only other.record = false := fun hNone => by
      simp [hNone _ hDiagnostic.1] at hDiagnostic
    simp [hSome, ← Diagnostic.isSome_notice?_iff file, Option.isSome_iff_exists]

end UnitResult

namespace Invocation

variable {invocation : Invocation} {inputs : Inputs} {result : UnitResult}

theorem any_isNone_iff {reports : List (Option Notice)} : reports.any (·.isNone) = true ↔ none ∈ reports := by
  simp

/-- A run that breaks off has shown the reports up to there, and nothing else is written. -/
theorem finish_of_mem (lost : none ∈ invocation.reports inputs result) :
    invocation.finish inputs result = { status := 101, notices := Notice.written (invocation.reports inputs result) } := by
  rw [finish, if_pos (any_isNone_iff.mpr lost), failed]
  simp [Failure.status, Failure.notice?, Failure.breaksOff]

end Invocation

end RecordSynthesis
