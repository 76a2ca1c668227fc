import Mathlib.Data.List.Nodup
import RecordSynthesis.Proofs.ViewGroups

/-!
# Collisions of constructors

The diagnostics of a record tell exactly whether two of its constructors have one signature, provided that the declared
ones differ among themselves. A declared constructor that repeats the primary one is reported first and once; a primary
constructor with the signature of a copy constructor is reported after it.
-/

namespace RecordSynthesis

set_option autoImplicit false

open Decl (Record Member)

theorem ConstructorIndex.first?_ofMembers_eq_none {record : Record} {signature : Signature}
    (h : (ofMembers record.members).first? signature = none) : signature ∉ record.declaredSignatures := by
  intro hMem
  obtain ⟨c, hMember, hSignature⟩ := Record.mem_declaredSignatures.mp hMem
  obtain ⟨position, hPosition⟩ := List.mem_iff_getElem?.mp hMember
  have hEntry : (signature, position) ∈ (ofMembers record.members).entries := by
    refine List.mem_filterMap.mpr ⟨(.constructor c, position), ?_, by rw [← hSignature]⟩
    exact List.mem_zipIdx_iff_getElem?.mpr hPosition
  have hDistinct := List.lookup_eq_none_iff.mp h _ hEntry
  simp at hDistinct

namespace Decl.Record

variable {record : Record} {base : Option MemberSet}

theorem first?_eq_none_of_synthesized {chain : ConstructorChain}
    (h : record.copyConstructor base = .ok (.synthesized chain)) :
    (ConstructorIndex.ofMembers record.members).first? record.copySignature = none := by
  cases hFirst : (ConstructorIndex.ofMembers record.members).first? record.copySignature with
  | none => rfl
  | some position =>
    obtain ⟨c, hMember, -⟩ := ConstructorIndex.first?_ofMembers hFirst
    rw [copyConstructor.eq_def, hFirst] at h
    simp only [hMember] at h
    split at h
    · cases h
    · cases base with
      | none => cases h
      | some set =>
        dsimp only at h
        split at h
        · cases h
        · cases MemberSet.map_copyChain_eq_ok h

/-- A copy constructor is synthesized for a reference record that declares none. -/
theorem synthesizedCopySignature?_eq {copy : Option CopyConstructor} (h : record.HasCopy base copy) :
    record.synthesizedCopySignature? copy =
      if record.isValueType = true ∨ record.copySignature ∈ record.declaredSignatures then none
      else some record.copySignature := by
  cases copy with
  | none =>
    have hValue : record.isValueType = true := h
    simp [synthesizedCopySignature?, hValue]
  | some made =>
    obtain ⟨hKind, hMade⟩ := h
    cases made with
    | synthesized chain =>
      have hNone := ConstructorIndex.first?_ofMembers_eq_none (first?_eq_none_of_synthesized hMade)
      simp [synthesizedCopySignature?, hKind, hNone]
    | adopted position parameter body chain =>
      rcases copyConstructor_eq_ok hMade with hSynthesized | ⟨_, c, _, _, hMember, _, hSignature, _⟩
      · cases hSynthesized
      · have hDeclared : record.copySignature ∈ record.declaredSignatures :=
          mem_declaredSignatures.mpr ⟨c, List.mem_of_getElem? hMember, hSignature⟩
        simp [synthesizedCopySignature?, hDeclared]

def collision (record : Record) (c : Constructor) : Diagnostic :=
  .duplicatePrimaryConstructor record.name c.types c.span record.parameterListSpan

/-- The report on a primary constructor that repeats the copy constructor. -/
def copyCollision (record : Record) : List Diagnostic :=
  if record.isValueType = false ∧ record.primarySignature? = some record.copySignature then
    [.duplicatePrimaryConstructor record.name [record.selfType] record.parameterListSpan record.parameterListSpan]
  else []

theorem collisions_eq (record : Record) :
    record.collisions =
      ((record.declaredConstructors.filter fun c => record.primarySignature? = some (Signature.ofTypes c.types)).map
        record.collision) ++ record.copyCollision := by
  rw [collisions, copyCollision]
  congr 1
  · rw [declaredConstructors, ← List.filterMap_eq_map, List.filterMap_filter, List.filterMap_filterMap]
    apply List.filterMap_congr
    intro member _
    cases member with
    | constructor c =>
      simp only [Constructor.conflictWith, Member.constructor?, Option.bind_some]
      cases record.primarySignature? <;> simp [eq_comm, collision]
    | field _ | property _ | event _ | indexer _ | method _ => rfl
  · simp

theorem diagnostics_of_synthesize {effective : List EffectiveMember} {given : Option MemberSet}
    {options : SynthesisOptions} {set : MemberSet}
    (made : (record.synthesize effective given options).outcome = .ok set) :
    (record.synthesize effective given options).diagnostics = record.collisions := by
  rw [synthesize] at made ⊢
  split at made
  · cases made
  · split
    · rfl
    · split <;> rfl

theorem collisions_eq_nil_iff (record : Record) :
    record.collisions = [] ↔
      (∀ signature ∈ record.primarySignature?, signature ∉ record.declaredSignatures) ∧
      ¬(record.isValueType = false ∧ record.primarySignature? = some record.copySignature) := by
  have hCopy : record.copyCollision = [] ↔
      ¬(record.isValueType = false ∧ record.primarySignature? = some record.copySignature) := by
    rw [copyCollision]
    split <;> simp_all
  rw [collisions_eq, List.append_eq_nil_iff, hCopy, List.map_eq_nil_iff, List.filter_eq_nil_iff]
  refine and_congr_left' ⟨?_, ?_⟩
  · intro h signature hPrimary hMem
    obtain ⟨c, hMember, hSignature⟩ := mem_declaredSignatures.mp hMem
    have hDistinct := h c (mem_declaredConstructors.mpr hMember)
    simp [hSignature, Option.mem_def.mp hPrimary] at hDistinct
  · intro h c hMember hSame
    exact h _ (by simpa using hSame) (mem_declaredSignatures.mpr ⟨c, mem_declaredConstructors.mp hMember, rfl⟩)

/-- Declared constructors that differ from each other collide only with synthesized ones. -/
theorem collisions_eq_nil_iff_nodup {copy : Option CopyConstructor} (h : record.HasCopy base copy)
    (distinct : record.declaredSignatures.Nodup) :
    record.collisions = [] ↔
      (record.primarySignature?.toList ++ (record.synthesizedCopySignature? copy).toList
        ++ record.declaredSignatures).Nodup := by
  rw [collisions_eq_nil_iff, synthesizedCopySignature?_eq h]
  by_cases hCopy : record.isValueType = true ∨ record.copySignature ∈ record.declaredSignatures
  · rw [if_pos hCopy]
    cases hPrimary : record.primarySignature? with
    | none => simpa using distinct
    | some primary =>
      have hCovered : primary ∉ record.declaredSignatures →
          ¬(record.isValueType = false ∧ primary = record.copySignature) := by
        rintro hNew ⟨hKind, rfl⟩
        rcases hCopy with hValue | hDeclared
        · simp [hKind] at hValue
        · exact hNew hDeclared
      simpa [distinct] using hCovered
  · rw [if_neg hCopy]
    rw [not_or, Bool.not_eq_true] at hCopy
    cases hPrimary : record.primarySignature? with
    | none => simp [distinct, hCopy.2]
    | some primary => simp [distinct, hCopy, and_comm]

/-- Declared constructors that differ from each other repeat the primary one once at most. -/
theorem collisions_of_mem {c : Constructor} (distinct : record.declaredSignatures.Nodup)
    (declared : .constructor c ∈ record.members)
    (repeats : record.primarySignature? = some (Signature.ofTypes c.types)) :
    record.collisions = record.collision c :: record.copyCollision := by
  have hOnly : (record.declaredConstructors.filter fun other =>
      record.primarySignature? = some (Signature.ofTypes other.types)) = [c] := by
    obtain ⟨before, after, hSplit⟩ := List.append_of_mem (mem_declaredConstructors.mpr declared)
    rw [declaredSignatures, hSplit, List.map_append, List.map_cons, List.nodup_middle, List.nodup_cons,
      ← List.map_append] at distinct
    have hOthers : (before ++ after).filter (fun other =>
        record.primarySignature? = some (Signature.ofTypes other.types)) = [] := by
      refine List.filter_eq_nil_iff.mpr fun other hMem hSame => distinct.1 (List.mem_map.mpr ⟨other, hMem, ?_⟩)
      simpa [repeats, eq_comm] using hSame
    rw [List.filter_append, List.append_eq_nil_iff] at hOthers
    rw [hSplit, List.filter_append, List.filter_cons_of_pos (by simpa using repeats), hOthers.1, hOthers.2,
      List.nil_append]
  rw [collisions_eq, hOnly]
  rfl

end Decl.Record

/-- Provided that the declared constructors of a record differ from each other, nothing is reported exactly if all its
constructors do, and a declared constructor that repeats the primary one is reported once, before what is reported on
the primary one itself. In any case a reference record has a constructor that takes its own type, and a value record
gets no copy constructor. -/
theorem reports_exactly_collisions (record : Record) (effective : List EffectiveMember) (given : Option MemberSet)
    (options : SynthesisOptions) (set : MemberSet)
    (made : (record.synthesize effective given options).outcome = .ok set) :
    let diagnostics := (record.synthesize effective given options).diagnostics
    (record.declaredSignatures.Nodup →
      (diagnostics = [] ↔ (set.constructors.map fun symbol => Signature.ofTypes symbol.types).Nodup) ∧
      ∀ c, .constructor c ∈ record.members → record.primarySignature? = some (Signature.ofTypes c.types) →
        diagnostics = .duplicatePrimaryConstructor record.name c.types c.span record.parameterListSpan
          :: record.copyCollision) ∧
    (record.isValueType = false → set.HasConstructor (Signature.ofTypes [record.selfType])) ∧
    (record.isValueType = true → set.copyConstructor = none) := by
  intro diagnostics
  have hDiagnostics : diagnostics = record.collisions := Record.diagnostics_of_synthesize made
  obtain ⟨base, copy, -, hCopy, rfl⟩ := Record.synthesize_eq_ok_iff.mp made
  refine ⟨?_, ?_, ?_⟩
  · intro distinct
    rw [hDiagnostics, Record.constructor_signatures]
    exact ⟨Record.collisions_eq_nil_iff_nodup hCopy distinct, fun c => Record.collisions_of_mem distinct⟩
  · exact record.hasConstructor_copy _ _ _ _ hCopy
  · intro hValue
    cases copy with
    | none => rfl
    | some made => simp [Record.HasCopy, hValue] at hCopy

def node : Record where
  name := "Node"
  parameters := [{ name := "Next", type := .named "Node" [] .reference }]
  members := [.constructor
    { parameters := [{ name := "original", type := .named "Node" [] .reference }], span := ⟨20, 40⟩ }]
  parameterListSpan := ⟨11, 22⟩

theorem reports_exactly_collisions_node :
    ∃ set, (node.synthesize node.effectiveMembers none {}).outcome = .ok set ∧ node.declaredSignatures.Nodup ∧
      (node.synthesize node.effectiveMembers none {}).diagnostics.map Diagnostic.span = [⟨20, 40⟩, ⟨11, 22⟩] ∧
      ¬(set.constructors.map fun symbol => Signature.ofTypes symbol.types).Nodup ∧
      set.HasConstructor (Signature.ofTypes [node.selfType]) := by
  have made : (node.synthesize node.effectiveMembers none {}).outcome = .ok _ := rfl
  have distinct : node.declaredSignatures.Nodup := by decide
  obtain ⟨hCollisions, hCopy, -⟩ := reports_exactly_collisions node _ none {} _ made
  obtain ⟨hNodup, hReported⟩ := hCollisions distinct
  have hDiagnostics := hReported _ List.mem_cons_self rfl
  refine ⟨_, made, distinct, by rw [hDiagnostics]; rfl, ?_, hCopy rfl⟩
  rw [← hNodup, hDiagnostics]
  exact List.cons_ne_nil _ _

end RecordSynthesis
