import RecordSynthesis.Proofs.ParameterClaims
import RecordSynthesis.Proofs.Synthesis

/-!
# Storage of the own state

Every piece of own state is held by a field of this record. Pieces that are declared under different names have different
fields, but a primary parameter and an auto-property of the same name have one backing field between them: where the
property does not claim the parameter, both stand in the state and share it.
-/

namespace RecordSynthesis

set_option autoImplicit false

open Decl (Record Member)

/-- A name that a program can spell, as any identifier is; no backing field has one. -/
def IsWritable (name : String) : Prop :=
  '<' ∉ name.toList

instance (name : String) : Decidable (IsWritable name) :=
  inferInstanceAs (Decidable ('<' ∉ name.toList))

theorem backingFieldName_injective {name other : String} (h : backingFieldName name = backingFieldName other) :
    name = other := by
  have hList := congrArg String.toList h
  simp only [backingFieldName, String.toList_append, List.append_assoc] at hList
  exact String.toList_inj.mp (List.append_cancel_right (List.append_cancel_left hList))

theorem backingFieldName_not_writable (name : String) : ¬IsWritable (backingFieldName name) := by
  simp [IsWritable, backingFieldName]

def Decl.Member.instanceName? : Member → Option String
  | .field f => if f.isStatic then none else some f.name
  | .property q => if q.isStatic then none else some q.name
  | .event e => if e.isStatic then none else some e.name
  | .indexer _ | .method _ | .constructor _ => none

theorem Decl.Member.storage_cases {member : Member} {m : EffectiveMember} (h : member.toEffective? = some m) :
    member.instanceName? = some m.name ∧
      (m.storage = m.name ∨
        ∃ q, member = .property q ∧ q.isStatic = false ∧ q.isAuto = true ∧ m.storage = backingFieldName q.name) := by
  cases member with
  | field f =>
    simp only [toEffective?] at h
    split at h
    · cases h
    · rename_i hStatic
      cases h
      exact ⟨by simp [instanceName?, hStatic], .inl rfl⟩
  | event e =>
    simp only [toEffective?, Bool.or_eq_true] at h
    split at h
    · cases h
    · rename_i hStored
      cases h
      exact ⟨by simp_all [instanceName?], .inl rfl⟩
  | property q =>
    simp only [toEffective?] at h
    split at h
    · cases h
    · rename_i hStored
      cases h
      simp only [Bool.or_eq_true, Bool.not_eq_true', not_or, Bool.not_eq_true, Bool.not_eq_false] at hStored
      exact ⟨by simp [instanceName?, hStored], .inr ⟨q, rfl, hStored.1, hStored.2, rfl⟩⟩
  | indexer _ | method _ | constructor _ => cases h

/-- Different names for the parameters, and different names that a program can spell for the members with a place in every
instance. -/
structure Decl.Record.HasDistinctNames (record : Record) : Prop where
  parameters : (record.parameters.map (·.name)).Nodup
  members : (record.members.filterMap Member.instanceName?).Nodup
  writable : ∀ name ∈ record.members.filterMap Member.instanceName?, IsWritable name

namespace Decl.Record.HasDistinctNames

variable {record : Record} (distinct : record.HasDistinctNames)

include distinct

theorem member_eq {member other : Member} (mem : member ∈ record.members) (otherMem : other ∈ record.members)
    {name : String} (h : member.instanceName? = some name) (otherH : other.instanceName? = some name) :
    member = other := by
  have hPairwise := List.pairwise_filterMap.mp distinct.members
  have hSame : record.members.Pairwise fun a b =>
      ∀ name, a.instanceName? = some name → b.instanceName? = some name → a = b :=
    hPairwise.imp fun hab name ha hb => absurd rfl (hab name ha name hb)
  have hFlip : record.members.Pairwise (flip fun a b =>
      ∀ name, a.instanceName? = some name → b.instanceName? = some name → a = b) :=
    hPairwise.imp fun hab name hb ha => absurd rfl (hab name ha name hb)
  exact hSame.forall_of_forall_of_flip (fun _ _ _ _ _ => rfl) hFlip mem otherMem name h otherH

theorem writable_of_mem {member : Member} (mem : member ∈ record.members) {name : String}
    (h : member.instanceName? = some name) : IsWritable name :=
  distinct.writable name (List.mem_filterMap.mpr ⟨member, mem, h⟩)

theorem members_storage_nodup :
    ((record.members.filterMap Member.toEffective?).map (·.storage)).Nodup := by
  rw [List.Nodup, List.pairwise_map, List.pairwise_filterMap]
  refine (List.pairwise_filterMap.mp distinct.members).imp_of_mem ?_
  intro member other mem otherMem hNames m hm n hn hStorage
  obtain ⟨hName, hCases⟩ := Member.storage_cases hm
  obtain ⟨otherName, otherCases⟩ := Member.storage_cases hn
  refine hNames m.name hName n.name otherName ?_
  have hWritable := distinct.writable_of_mem mem hName
  have otherWritable := distinct.writable_of_mem otherMem otherName
  rcases hCases with hOwn | ⟨q, rfl, hStatic, _, hBacking⟩
  · rcases otherCases with otherOwn | ⟨r, _, _, _, otherBacking⟩
    · rw [← hOwn, hStorage, otherOwn]
    · rw [← hOwn, hStorage, otherBacking] at hWritable
      exact absurd hWritable (backingFieldName_not_writable r.name)
  · rcases otherCases with otherOwn | ⟨r, rfl, otherStatic, _, otherBacking⟩
    · rw [← otherOwn, ← hStorage, hBacking] at otherWritable
      exact absurd otherWritable (backingFieldName_not_writable q.name)
    · have hSame : q.name = r.name := by
        apply backingFieldName_injective
        rw [← hBacking, hStorage, otherBacking]
      simp only [Member.instanceName?, hStatic, otherStatic, Bool.false_eq_true, if_false, Option.some.injEq] at hName otherName
      rw [← hName, hSame, otherName]

end Decl.Record.HasDistinctNames

/-- A public property of this name is to be had from the base. -/
def Decl.Record.InheritsProperty (record : Record) (given : Option MemberSet) (name : String) : Prop :=
  ∃ above, record.base = some above.recordName ∧ given = some above ∧
    ∃ read ∈ above.printable, read.name = name ∧ read.access = .property

theorem storage_of_ownState (record : Record) (base : Option MemberSet) :
    (record.ownState base record.effectiveMembers).map (·.member.storage) =
      (record.unclaimed base).map (fun p => backingFieldName p.name) ++
        (record.members.filterMap Member.toEffective?).map (·.storage) := by
  rw [← List.filterMap_eq_map, Record.filterMap_ownState _ _ _ fun _ _ _ => rfl, Record.stateSources,
    List.filterMap_append, List.filterMap_map, ← List.filterMap_eq_map, ← List.filterMap_eq_map]
  rfl

theorem mem_unclaimed {record : Record} {base : Option MemberSet} {p : Decl.PrimaryParameter} :
    p ∈ record.unclaimed base ↔ p ∈ record.parameters ∧ record.claim? base p.name = none := by
  simp [Record.unclaimed]

theorem storage_nodup_iff_no_shared {record : Record} (base : Option MemberSet) (distinct : record.HasDistinctNames) :
    ((record.ownState base record.effectiveMembers).map (·.member.storage)).Nodup ↔
      ∀ p ∈ record.unclaimed base, ∀ q, Member.property q ∈ record.members → q.isStatic = false → q.isAuto = true →
        q.name ≠ p.name := by
  have hParameters : ((record.unclaimed base).map fun p => backingFieldName p.name).Nodup := by
    have hNames : ((record.unclaimed base).map (·.name)).Nodup :=
      distinct.parameters.sublist (List.filter_sublist.map _)
    have hFields := hNames.map_on fun _ _ _ _ h => backingFieldName_injective h
    rwa [List.map_map] at hFields
  rw [storage_of_ownState, List.nodup_append]
  constructor
  · rintro ⟨_, _, hDisjoint⟩ p hp q hq hStatic hAuto hName
    obtain ⟨m, hEffective, hStorage, _⟩ := Member.toEffective?_autoProperty hStatic hAuto
    have hMem : m ∈ record.members.filterMap Member.toEffective? := List.mem_filterMap.mpr ⟨.property q, hq, hEffective⟩
    refine hDisjoint (backingFieldName p.name) (List.mem_map.mpr ⟨p, hp, rfl⟩) m.storage
      (List.mem_map.mpr ⟨m, hMem, rfl⟩) ?_
    rw [hStorage, hName]
  · intro hNames
    refine ⟨hParameters, distinct.members_storage_nodup, ?_⟩
    intro field hField other hOther hSame
    obtain ⟨p, hp, rfl⟩ := List.mem_map.mp hField
    obtain ⟨m, hm, rfl⟩ := List.mem_map.mp hOther
    obtain ⟨member, hMember, hEffective⟩ := List.mem_filterMap.mp hm
    obtain ⟨hName, hOwn | ⟨q, rfl, hStatic, hAuto, hBacking⟩⟩ := Member.storage_cases hEffective
    · have hWritable := distinct.writable_of_mem hMember hName
      rw [← hOwn, ← hSame] at hWritable
      exact backingFieldName_not_writable p.name hWritable
    · rw [hBacking] at hSame
      exact hNames p hp q hMember hStatic hAuto (backingFieldName_injective hSame).symm

/-- No two pieces of own state share a field exactly if every primary parameter that has an auto-property of the record
beside it under its name is claimed: the property has its type, or the base has a public property of the name. -/
theorem storage_nodup_iff (record : Record) (given : Option MemberSet) (options : SynthesisOptions) (set : MemberSet)
    (made : (record.synthesize record.effectiveMembers given options).outcome = .ok set)
    (distinct : record.HasDistinctNames) :
    (set.state.map (·.member.storage)).Nodup ↔
      ∀ p ∈ record.parameters, ∀ q, Member.property q ∈ record.members → q.isStatic = false → q.isAuto = true →
        q.name = p.name → p.type.same q.type = true ∨ record.InheritsProperty given p.name := by
  obtain ⟨base, copy, hBase, -, rfl⟩ := Record.synthesize_eq_ok_iff.mp made
  have hInherits : ∀ name, record.InheritsProperty given name ↔
      ∃ above read, base = some above ∧ read ∈ above.printable ∧ read.name = name ∧ read.access = .property := by
    intro name
    rcases Record.resolveBase_eq_ok_iff.mp hBase with ⟨hNone, rfl⟩ | ⟨above, hSome, rfl, rfl, _⟩
    · simp [Record.InheritsProperty, hNone]
    · simp [Record.InheritsProperty, hSome]
  refine (storage_nodup_iff_no_shared base distinct).trans ⟨?_, ?_⟩
  · intro hShared p hp q hq hStatic hAuto hName
    by_contra hUnlike
    rw [not_or, hInherits] at hUnlike
    refine hShared p (mem_unclaimed.mpr ⟨hp, ?_⟩) q hq hStatic hAuto hName
    rw [Record.claim?_eq_none_iff distinct.parameters hp]
    intro claim laid
    have hInstance : (Member.property q).instanceName? = some p.name := by
      simp [Member.instanceName?, hStatic, hName]
    cases laid with
    | field hField ofInstance named typed =>
      have hEq := distinct.member_eq hField hq (by simp [Member.instanceName?, ofInstance, named]) hInstance
      cases hEq
    | property hProperty ofInstance named typed =>
      have hEq := distinct.member_eq hProperty hq (by simp [Member.instanceName?, ofInstance, named]) hInstance
      cases hEq
      exact hUnlike.1 typed
    | inherited derived hRead named access => exact hUnlike.2 ⟨_, _, derived, hRead, named, access⟩
  · intro hClaimed p hp q hq hStatic hAuto hName
    obtain ⟨hMem, hNone⟩ := mem_unclaimed.mp hp
    have hUnlaid := (Record.claim?_eq_none_iff distinct.parameters hMem).mp hNone
    rcases hClaimed p hMem q hq hStatic hAuto hName with hType | hInherited
    · exact hUnlaid _ (.property hq hStatic hName hType)
    · obtain ⟨above, read, hAbove, hRead, hReadName, hAccess⟩ := (hInherits p.name).mp hInherited
      exact hUnlaid _ (.inherited hAbove hRead hReadName hAccess)

def mislabelled : Record where
  name := "Tag"
  parameters := [{ name := "Label", type := Ty.int }]
  members := [.ofAutoProperty "Label" Ty.string]

/-- Distinct names alone do not keep the fields apart, and nothing is reported. -/
theorem not_storage_nodup_mislabelled :
    ∃ set, (mislabelled.synthesize mislabelled.effectiveMembers none {}).outcome = .ok set ∧
      (mislabelled.synthesize mislabelled.effectiveMembers none {}).diagnostics.isEmpty = true ∧
      mislabelled.HasDistinctNames ∧ ¬(set.state.map (·.member.storage)).Nodup :=
  ⟨_, rfl, rfl, ⟨by decide, by decide, by decide⟩, by decide⟩

def labelled : Record where
  name := "Thing"
  parameters := [{ name := "Label", type := Ty.int }]

def labelledSet : MemberSet :=
  labelled.memberSet labelled.effectiveMembers none (some (.synthesized .object)) {}

theorem storage_nodup_mislabelled_inherited :
    let record : Record := { mislabelled with base := some "Thing" }
    ∃ set, (record.synthesize record.effectiveMembers (some labelledSet) {}).outcome = .ok set ∧
      record.HasDistinctNames ∧ (set.state.map (·.member.storage)).Nodup := by
  intro record
  have distinct : record.HasDistinctNames := ⟨by decide, by decide, by decide⟩
  refine ⟨_, rfl, distinct, (storage_nodup_iff record (some labelledSet) {} _ rfl distinct).mpr ?_⟩
  intro p hp q _ _ _ _
  rw [List.mem_singleton.mp hp]
  exact .inr ⟨labelledSet, rfl, rfl, _, List.mem_cons_self, rfl, rfl⟩

end RecordSynthesis
