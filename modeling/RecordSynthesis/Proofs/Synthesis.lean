import RecordSynthesis.Members.Synthesis

/-!
# What synthesis makes

When a record gets a member set, and which one: the base that the record names has been found fit, and the copy
constructor is the one decided on.
-/

namespace RecordSynthesis

set_option autoImplicit false

open Decl (Record)

def Decl.Record.HasCopy (record : Record) (base : Option MemberSet) : Option CopyConstructor → Prop
  | none => record.isValueType = true
  | some copy => record.isValueType = false ∧ record.copyConstructor base = .ok copy

theorem Decl.Record.resolveBase_eq_ok_iff {record : Record} {given base : Option MemberSet} :
    record.resolveBase given = .ok base ↔
      (record.base = none ∧ base = none) ∨
      ∃ set, record.base = some set.recordName ∧ given = some set ∧ base = some set ∧
        record.isValueType = false ∧ set.isValueType = false ∧
        ∀ argument ∈ record.baseArguments, ∃ p ∈ record.parameters, p.name = argument := by
  have arguments_declared : record.baseArguments.find?
      (fun argument => !record.parameters.any fun p => p.name = argument) = none ↔
      ∀ argument ∈ record.baseArguments, ∃ p ∈ record.parameters, p.name = argument := by
    simp
  rw [resolveBase.eq_def]
  constructor
  · intro h
    split at h
    case h_1 hBase =>
      cases h
      exact .inl ⟨hBase, rfl⟩
    case h_2 name hBase =>
      split at h
      · cases h
      split at h
      · cases h
      split at h
      · cases h
      split at h
      · cases h
      split at h
      · cases h
      rename_i hKind _ set hName hSet _ hFind
      cases h
      refine .inr ⟨set, ?_, rfl, rfl, ?_, ?_, arguments_declared.mp hFind⟩
      · simpa [hBase, eq_comm] using hName
      · simpa using hKind
      · simpa using hSet
  · rintro (⟨hBase, rfl⟩ | ⟨set, hBase, rfl, rfl, hKind, hSet, hArguments⟩)
    · simp [hBase]
    · simp [hBase, hKind, hSet, arguments_declared.mpr hArguments]

theorem Decl.Record.synthesize_eq_ok_iff {record : Record} {effective : List EffectiveMember}
    {given : Option MemberSet} {options : SynthesisOptions} {set : MemberSet} :
    (record.synthesize effective given options).outcome = .ok set ↔
      ∃ base copy, record.resolveBase given = .ok base ∧ record.HasCopy base copy ∧
        set = record.memberSet effective base copy options := by
  rw [synthesize]
  cases hBase : record.resolveBase given with
  | error fault => simp
  | ok base =>
    cases hKind : record.isValueType with
    | true => simp [HasCopy, hKind, Option.exists, eq_comm]
    | false => cases hMade : record.copyConstructor base <;> simp [HasCopy, hKind, hMade, Option.exists, eq_comm]

theorem Decl.Record.recordName_of_synthesize {record : Record} {effective : List EffectiveMember}
    {given : Option MemberSet} {options : SynthesisOptions} {set : MemberSet}
    (h : (record.synthesize effective given options).outcome = .ok set) : set.recordName = record.name := by
  obtain ⟨base, copy, -, -, rfl⟩ := synthesize_eq_ok_iff.mp h
  rfl

theorem ConstructorIndex.first?_ofMembers {members : List Decl.Member} {signature : Signature} {position : Nat}
    (h : (ofMembers members).first? signature = some position) :
    ∃ c, members[position]? = some (.constructor c) ∧ Signature.ofTypes c.types = signature := by
  obtain ⟨before, after, hEntries, -⟩ := List.lookup_eq_some_iff.mp h
  have hEntry : (signature, position) ∈ (ofMembers members).entries := by
    rw [hEntries]
    exact List.mem_append_right _ List.mem_cons_self
  obtain ⟨⟨member, index⟩, hMember, hSome⟩ := List.mem_filterMap.mp hEntry
  have hAt : members[index]? = some member := by
    simpa using List.mem_zipIdx_iff_getElem?.mp hMember
  cases member with
  | constructor c =>
    cases hSome
    exact ⟨c, hAt, rfl⟩
  | field _ | property _ | event _ | indexer _ | method _ => cases hSome

def ConstructorChain.copying (parameter : String) : Option MemberSet → ConstructorChain
  | some set => .base set.selfType [set.selfType] [parameter]
  | none => .object

def ConstructorChain.adopting (parameter : String) : Option MemberSet → ConstructorChain
  | some set => if set.hasParameterlessConstructor then .base set.selfType [] [] else copying parameter (some set)
  | none => .object

theorem MemberSet.map_copyChain_eq_ok {set : MemberSet} {parameter : String} {make : ConstructorChain → CopyConstructor}
    {copy : CopyConstructor} (h : (set.copyChain parameter).map make = .ok copy) :
    copy = make (.copying parameter (some set)) := by
  rw [copyChain] at h
  split at h <;> cases h
  rfl

theorem Decl.Record.copyConstructor_eq_ok {record : Record} {base : Option MemberSet} {copy : CopyConstructor}
    (h : record.copyConstructor base = .ok copy) :
    copy = .synthesized (.copying copyParameterName base) ∨
      ∃ position c p others, record.members[position]? = some (.constructor c) ∧ c.parameters = p :: others ∧
        Signature.ofTypes c.types = record.copySignature ∧
        copy = .adopted position p.name c.body (.adopting p.name base) := by
  rw [copyConstructor.eq_def] at h
  split at h
  · left
    split at h
    · cases h
      rfl
    · exact MemberSet.map_copyChain_eq_ok h
  · right
    rename_i position hFirst
    obtain ⟨c, hMember, hSignature⟩ := ConstructorIndex.first?_ofMembers hFirst
    rw [hMember] at h
    dsimp only at h
    split at h
    · cases h
    · rename_i p others hParameters
      refine ⟨position, c, p, others, hMember, hParameters, hSignature, ?_⟩
      cases base with
      | none =>
        cases h
        rfl
      | some set =>
        dsimp only at h
        split at h
        · rename_i hNone
          cases h
          simp [ConstructorChain.adopting, hNone]
        · rename_i hNone
          rw [MemberSet.map_copyChain_eq_ok h]
          simp [ConstructorChain.adopting, hNone]

end RecordSynthesis
