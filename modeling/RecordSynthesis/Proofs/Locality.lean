import RecordSynthesis.Proofs.Account

/-!
# Locality

What a checked unit says of a name depends on the first declarations of the names that base links lead to from it, and on
nothing else. So the records of a unit may change places, and records may come, go and change as long as no links lead to
them, without a change to what is said of a name.
-/

namespace RecordSynthesis

set_option autoImplicit false

open Decl (CompilationUnit Record)

namespace UnitResult

def diagnosticsOf (result : UnitResult) (name : String) : List Diagnostic :=
  result.diagnostics.filter fun diagnostic => diagnostic.record = name

/-- Two results say the same of a name. -/
structure Agree (result other : UnitResult) (name : String) : Prop where
  outcomes : result.outcomesOf name = other.outcomesOf name
  diagnostics : result.diagnosticsOf name = other.diagnosticsOf name

end UnitResult

namespace CheckUnit

variable {unit : CompilationUnit} {options : SynthesisOptions} {record : Record} {name : String}

theorem get?_checkUnit (options : SynthesisOptions) (declared : unit.find? name = some record) :
    (checkUnit unit options).table.get? name =
      (outcome unit options (checkUnit unit options).table record).toOption := by
  have hOutcomes := outcomesOf_checkUnit options declared
  cases hOutcome : outcome unit options (checkUnit unit options).table record with
  | ok set =>
    have hSet := mem_sets_iff.mpr ⟨record, CompilationUnit.name_of_find? declared ▸ declared, hOutcome⟩
    rw [← CompilationUnit.name_of_find? declared, ← outcome_eq_ok hOutcome]
    exact (checkUnit_grown unit options).get?_of_mem hSet
  | error fault =>
    exact UnitResult.get?_eq_none_iff.mpr (UnitResult.outcomesOf_eq_error_iff.mp (hOutcome ▸ hOutcomes)).1

theorem of_undeclared (options : SynthesisOptions) (undeclared : ¬unit.Declares name) :
    (checkUnit unit options).setsOf name = [] ∧ (checkUnit unit options).faultsOf name = [] ∧
      (checkUnit unit options).diagnosticsOf name = [] := by
  have hOther : ∀ {record : Record}, unit.find? record.name = some record → record.name ≠ name := by
    rintro record declared rfl
    exact undeclared (CompilationUnit.declares_iff.mpr ⟨record, declared⟩)
  refine ⟨?_, ?_, ?_⟩
  · refine List.filter_eq_nil_iff.mpr fun set h => ?_
    obtain ⟨record, declared, hOutcome⟩ := mem_sets_iff.mp h
    simpa [outcome_eq_ok hOutcome] using hOther declared
  · refine List.filter_eq_nil_iff.mpr fun fault h => ?_
    rw [decide_eq_true_eq]
    intro hStops
    rcases mem_faults_iff.mp h with ⟨repeated, -, rfl⟩ | ⟨record, declared, hOutcome⟩
    · exact hStops.ne_duplicateRecord repeated rfl
    · have hOwn := outcome_eq_error (checkUnit_grown unit options) hOutcome
      exact hOther declared (hOwn.1.symm.trans hStops.1)
  · refine List.filter_eq_nil_iff.mpr fun diagnostic h => ?_
    obtain ⟨record, declared, hReported⟩ := mem_diagnostics_iff.mp h
    simpa [record_of_mem_attempt (checkUnit_grown unit options) hReported] using hOther declared

theorem declarations_names (unit : CompilationUnit) : (declarations unit).map (·.name) = order unit := by
  have hName : ∀ name ∈ order unit, (unit.find? name).map (·.name) = some name := by
    intro name hMem
    obtain ⟨record, hRecord⟩ := CompilationUnit.declares_iff.mp (mem_order_iff.mp hMem)
    rw [hRecord, Option.map_some, CompilationUnit.name_of_find? hRecord]
  rw [declarations, List.map_filterMap, List.filterMap_congr hName, List.filterMap_some]

theorem diagnosticsOf_checkUnit (options : SynthesisOptions) (declared : unit.find? name = some record) :
    (checkUnit unit options).diagnosticsOf name =
      (attempt unit options (checkUnit unit options).table record).diagnostics := by
  obtain rfl := CompilationUnit.name_of_find? declared
  have grown := checkUnit_grown unit options
  obtain ⟨before, after, hSplit⟩ := List.append_of_mem (mem_declarations_iff.mpr declared)
  have hNodup := order_nodup unit
  rw [← declarations_names, hSplit, List.map_append, List.map_cons, List.nodup_middle, List.nodup_cons,
    ← List.map_append] at hNodup
  have hOthers : ∀ others : List Record, (∀ other ∈ others, other.name ≠ record.name) →
      (others.flatMap fun other => (attempt unit options (checkUnit unit options).table other).diagnostics).filter
        (fun diagnostic => diagnostic.record = record.name) = [] := by
    intro others h
    refine List.filter_eq_nil_iff.mpr fun diagnostic hMem => ?_
    obtain ⟨other, hOther, hReported⟩ := List.mem_flatMap.mp hMem
    simpa [record_of_mem_attempt grown hReported] using h other hOther
  have hOwn : ((attempt unit options (checkUnit unit options).table record).diagnostics.filter
      fun diagnostic => diagnostic.record = record.name) =
        (attempt unit options (checkUnit unit options).table record).diagnostics :=
    List.filter_eq_self.mpr fun diagnostic h => by simp [record_of_mem_attempt grown h]
  have hApart : ∀ other ∈ before ++ after, other.name ≠ record.name := by
    intro other hOther hSame
    exact hNodup.1 (hSame ▸ List.mem_map_of_mem hOther)
  rw [UnitResult.diagnosticsOf, diagnostics_checkUnit, syntheses, List.flatMap_map, hSplit, List.flatMap_append,
    List.flatMap_cons, List.filter_append, List.filter_append, hOwn,
    hOthers before fun other h => hApart other (List.mem_append_left _ h),
    hOthers after fun other h => hApart other (List.mem_append_right _ h), List.nil_append, List.append_nil]

end CheckUnit

namespace Decl.CompilationUnit

/-- The names to which base links lead from a name have the same first declarations in both units, or none in either. -/
def Alike (unit other : CompilationUnit) (name : String) : Prop :=
  ∀ above, Relation.ReflTransGen unit.Derives name above → unit.find? above = other.find? above

variable {unit other : CompilationUnit} {name base : String}

theorem Alike.derives_iff (alike : Alike unit other name) {above : String}
    (reached : Relation.ReflTransGen unit.Derives name above) : unit.Derives above base ↔ other.Derives above base := by
  rw [Derives, Derives, CheckUnit.baseOf?, CheckUnit.baseOf?, alike above reached]

theorem Alike.declares_iff (alike : Alike unit other name) : other.Declares name ↔ unit.Declares name := by
  rw [CompilationUnit.declares_iff, CompilationUnit.declares_iff, alike name .refl]

theorem Alike.next (alike : Alike unit other name) (link : unit.Derives name base) : Alike unit other base :=
  fun above reached => alike above (.head link reached)

theorem Alike.reaches_iff (alike : Alike unit other name) {above : String} :
    Relation.ReflTransGen other.Derives name above ↔ Relation.ReflTransGen unit.Derives name above := by
  constructor
  · intro reached
    induction reached with
    | refl => exact .refl
    | tail _ hLink ih => exact ih.tail ((alike.derives_iff ih).mpr hLink)
  · intro reached
    induction reached with
    | refl => exact .refl
    | tail hBelow hLink ih => exact ih.tail ((alike.derives_iff hBelow).mp hLink)

theorem Alike.isOnCycle_iff (alike : Alike unit other name) : other.IsOnCycle name ↔ unit.IsOnCycle name := by
  simp only [IsOnCycle, Relation.TransGen.tail'_iff, alike.reaches_iff]
  exact exists_congr fun above => and_congr_right fun reached => (alike.derives_iff reached).symm

/-- Under distinct names a name has one declaration, wherever it stands. -/
theorem find?_eq_some_iff_of_nodup {record : Record} (distinct : (unit.records.map (·.name)).Nodup) :
    unit.find? name = some record ↔ record ∈ unit.records ∧ record.name = name := by
  constructor
  · intro h
    exact ⟨List.mem_of_find?_eq_some h, name_of_find? h⟩
  · rintro ⟨hMem, rfl⟩
    obtain ⟨first, hFirst⟩ := declares_iff.mp (List.mem_map_of_mem hMem : unit.Declares record.name)
    rw [hFirst, List.inj_on_of_nodup_map distinct (List.mem_of_find?_eq_some hFirst) hMem (name_of_find? hFirst)]

theorem find?_of_perm (moved : unit.records.Perm other.records) (distinct : (unit.records.map (·.name)).Nodup)
    (name : String) : unit.find? name = other.find? name := by
  have hDistinct := (moved.map (·.name)).nodup_iff.mp distinct
  ext record
  rw [find?_eq_some_iff_of_nodup distinct, find?_eq_some_iff_of_nodup hDistinct, moved.mem_iff]

theorem names_resolve (unit : CompilationUnit) :
    unit.resolve.records.map (·.name) = unit.records.map (·.name) := by
  rw [resolve, List.map_map]
  rfl

theorem resolve_perm (moved : unit.records.Perm other.records) (distinct : (unit.records.map (·.name)).Nodup) :
    unit.resolve.records.Perm other.resolve.records := by
  have hKinds : unit.kindOf? = other.kindOf? := by
    funext name
    rw [kindOf?, kindOf?, find?_of_perm moved distinct]
  rw [resolve, resolve, hKinds]
  exact moved.map _

/-- Only the records matter whose names are among those that links lead to. -/
theorem Alike.of_filter {related : String → Bool} (own : related name = true)
    (closed : ∀ below above, unit.Derives below above → related below = true → related above = true)
    (same : (unit.records.filter fun record => related record.name) =
      other.records.filter fun record => related record.name) : Alike unit other name := by
  have hFind : ∀ {unit : CompilationUnit} {above : String}, related above = true →
      unit.find? above = (unit.records.filter fun record => related record.name).find? fun record =>
        record.name = above := by
    intro unit above hRelated
    rw [find?, List.find?_filter]
    congr 1
    funext record
    by_cases hName : record.name = above <;> simp [hName, hRelated]
  intro above reached
  have hRelated : related above = true := by
    induction reached with
    | refl => exact own
    | tail _ hLink ih => exact closed _ _ hLink ih
  rw [hFind hRelated, hFind hRelated, same]

end Decl.CompilationUnit

namespace CheckUnit

open Decl.CompilationUnit (Alike)

variable {unit other : CompilationUnit} {record : Record} {name : String}

theorem attempt_of_alike (options : SynthesisOptions) (alike : Alike unit other name)
    (declared : unit.find? name = some record)
    (h : ∀ base, unit.Derives name base →
      (checkUnit other options).table.get? base = (checkUnit unit options).table.get? base ∨ unit.IsOnCycle name) :
    attempt other options (checkUnit other options).table record =
      attempt unit options (checkUnit unit options).table record := by
  obtain rfl := CompilationUnit.name_of_find? declared
  exact attempt_congr alike.isOnCycle_iff fun base hBase =>
    h base ((CompilationUnit.derives_iff_base declared).mpr hBase)

theorem get?_of_undeclared (options : SynthesisOptions) (undeclared : ¬unit.Declares name) :
    (checkUnit unit options).table.get? name = none :=
  UnitResult.get?_eq_none_iff.mpr (of_undeclared options undeclared).1

/-- A step up the order of synthesis: the entry of a base is settled before its record needs it. -/
theorem BasesFirst.get?_of_alike (options : SynthesisOptions) {names : List String} (h : BasesFirst unit names) :
    ∀ name ∈ names, Alike unit other name →
      (checkUnit other options).table.get? name = (checkUnit unit options).table.get? name := by
  induction h with
  | nil => simp
  | @snoc names last before declared fresh ready ih =>
    intro name hName alike
    rcases List.mem_append.mp hName with hEarlier | hLast
    · exact ih name hEarlier alike
    · obtain rfl := List.mem_singleton.mp hLast
      obtain ⟨record, hRecord⟩ := CompilationUnit.declares_iff.mp declared
      have hOther : other.find? name = some record := (alike name .refl).symm.trans hRecord
      rw [get?_checkUnit options hOther, get?_checkUnit options hRecord, ← outcome_attempt, ← outcome_attempt,
        attempt_of_alike options alike hRecord]
      intro base hLink
      have hAbove := alike.next hLink
      by_cases hBase : unit.Declares base
      · exact (ready base hLink hBase).imp_left fun hMem => ih base hMem hAbove
      · have hNeither := mt hAbove.declares_iff.mp hBase
        rw [get?_of_undeclared options hNeither, get?_of_undeclared options hBase]
        exact .inl rfl

theorem get?_of_alike (options : SynthesisOptions) (alike : Alike unit other name) :
    (checkUnit other options).table.get? name = (checkUnit unit options).table.get? name := by
  by_cases hDeclared : unit.Declares name
  · exact (order_basesFirst unit).get?_of_alike options name (mem_order_iff.mpr hDeclared) alike
  · have hNeither := mt alike.declares_iff.mp hDeclared
    rw [get?_of_undeclared options hNeither, get?_of_undeclared options hDeclared]

theorem agree_of_alike (options : SynthesisOptions) (alike : Alike unit other name) :
    (checkUnit unit options).Agree (checkUnit other options) name := by
  by_cases hDeclared : unit.Declares name
  · obtain ⟨record, hRecord⟩ := CompilationUnit.declares_iff.mp hDeclared
    have hOther : other.find? name = some record := (alike name .refl).symm.trans hRecord
    have hAttempt := attempt_of_alike options alike hRecord fun base hLink =>
      .inl (get?_of_alike options (alike.next hLink))
    refine ⟨?_, ?_⟩
    · rw [outcomesOf_checkUnit options hRecord, outcomesOf_checkUnit options hOther, ← outcome_attempt, ← outcome_attempt,
        hAttempt]
    · rw [diagnosticsOf_checkUnit options hRecord, diagnosticsOf_checkUnit options hOther, hAttempt]
  · obtain ⟨hSets, hFaults, hDiagnostics⟩ := of_undeclared options hDeclared
    obtain ⟨hOtherSets, hOtherFaults, hOtherDiagnostics⟩ := of_undeclared options (mt alike.declares_iff.mp hDeclared)
    refine ⟨?_, hDiagnostics.trans hOtherDiagnostics.symm⟩
    rw [UnitResult.outcomesOf, UnitResult.outcomesOf, hSets, hFaults, hOtherSets, hOtherFaults]

end CheckUnit

/-- What is said of a name is the same in two units if the names to which base links lead from it have the same first
declarations, or none. So records of different names may change places, before or after the names in their types get
their meaning, and whatever is declared under names that the links do not lead to may come, go, break or move. -/
theorem checking_is_local (unit other : CompilationUnit) (options : SynthesisOptions) (name : String) :
    ((∀ above, Relation.ReflTransGen unit.Derives name above → unit.find? above = other.find? above) →
      (checkUnit unit options).Agree (checkUnit other options) name) ∧
    (unit.records.Perm other.records → (unit.records.map (·.name)).Nodup →
      (checkUnit unit options).Agree (checkUnit other options) name ∧
      (checkUnit unit.resolve options).Agree (checkUnit other.resolve options) name) ∧
    ∀ related : String → Bool, related name = true →
      (∀ below above, unit.Derives below above → related below = true → related above = true) →
      (unit.records.filter fun record => related record.name) =
        (other.records.filter fun record => related record.name) →
      (checkUnit unit options).Agree (checkUnit other options) name := by
  refine ⟨CheckUnit.agree_of_alike options, ?_, ?_⟩
  · intro moved distinct
    have hDistinct : (unit.resolve.records.map (·.name)).Nodup := unit.names_resolve ▸ distinct
    have hMoved := CompilationUnit.resolve_perm moved distinct
    exact ⟨CheckUnit.agree_of_alike options fun above _ => CompilationUnit.find?_of_perm moved distinct above,
      CheckUnit.agree_of_alike options fun above _ => CompilationUnit.find?_of_perm hMoved hDistinct above⟩
  · intro related own closed same
    exact CheckUnit.agree_of_alike options (.of_filter own closed same)

def gallery : CompilationUnit where
  records := [{ name := "Frame", base := some "Wall" }, circle, { name := "Tail" }, { name := "Shape" },
    { name := "Circle" }, { name := "Snake", base := some "Snake" }]

theorem checking_is_local_gallery :
    (checkUnit shapes {}).Agree (checkUnit gallery {}) "Snake" ∧
    ((checkUnit { records := [circle, { name := "Shape" }] } {}).Agree
        (checkUnit { records := [{ name := "Shape" }, circle] } {}) "Circle" ∧
      (checkUnit (CompilationUnit.resolve { records := [circle, { name := "Shape" }] }) {}).Agree
        (checkUnit (CompilationUnit.resolve { records := [{ name := "Shape" }, circle] }) {}) "Circle") ∧
    (checkUnit shapes {}).Agree (checkUnit gallery {}) "Circle" ∧
    (checkUnit shapes {}).faultsOf "Tail" ≠ (checkUnit gallery {}).faultsOf "Tail" := by
  have hSnake : ∀ above, Relation.ReflTransGen shapes.Derives "Snake" above → shapes.find? above = gallery.find? above := by
    intro above reached
    have hAbove : above = "Snake" := by
      induction reached with
      | refl => rfl
      | tail _ hLink ih =>
        rw [ih] at hLink
        exact (Option.some.inj hLink).symm
    rw [hAbove]
    rfl
  have hClosed : ∀ below above, shapes.Derives below above → decide (below ∈ ["Circle", "Shape"]) = true →
      decide (above ∈ ["Circle", "Shape"]) = true := by
    intro below above hLink hBelow
    rw [decide_eq_true_eq, List.mem_pair] at hBelow
    rcases hBelow with rfl | rfl
    · rw [← Option.some.inj hLink]
      rfl
    · cases hLink
  obtain ⟨hAlike, -, -⟩ := checking_is_local shapes gallery {} "Snake"
  obtain ⟨-, hMoved, -⟩ := checking_is_local { records := [circle, { name := "Shape" }] }
    { records := [{ name := "Shape" }, circle] } {} "Circle"
  obtain ⟨-, -, hOthers⟩ := checking_is_local shapes gallery {} "Circle"
  refine ⟨hAlike hSnake, hMoved (.swap _ _ _) (by decide), hOthers _ rfl hClosed rfl, ?_⟩
  decide

end RecordSynthesis
