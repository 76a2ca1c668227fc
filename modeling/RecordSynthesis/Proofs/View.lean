import RecordSynthesis.Members.View
import RecordSynthesis.Proofs.ParameterClaims
import RecordSynthesis.Proofs.Synthesis
import RecordSynthesis.Proofs.TypeIdentity

/-!
# The member view of a synthesized set

What the merged view is sure to hold: an equality, a hash and, for reference types, a copy constructor, synthesized or
declared, and a property for every parameter that nothing claims.
-/

namespace RecordSynthesis

set_option autoImplicit false

open Decl (Record Member)

theorem MemberKind.mem_all (kind : MemberKind) : kind ∈ MemberKind.all := by
  cases kind <;> decide

namespace MemberSet

theorem mem_members_of_synthesizedOf {set : MemberSet} {kind : MemberKind} {symbol : MemberSymbol}
    (h : symbol ∈ set.synthesizedOf kind) : symbol ∈ set.members :=
  List.mem_flatMap.mpr ⟨kind, kind.mem_all, List.mem_append_left _ h⟩

theorem mem_members_of_userMembers {set : MemberSet} {position : Nat} {member : Member}
    (h : set.userMembers[position]? = some member) :
    MemberSymbol.ofMember set.recordName position member ∈ set.members := by
  have hSymbol : MemberSymbol.ofMember set.recordName position member ∈ set.userSymbols := by
    refine List.mem_iff_getElem?.mpr ⟨position, ?_⟩
    rw [userSymbols, List.getElem?_mapIdx, h]
    rfl
  exact List.mem_flatMap.mpr ⟨(MemberSymbol.ofMember set.recordName position member).kind, MemberKind.mem_all _,
    List.mem_append_right _ (List.mem_filter.mpr ⟨hSymbol, by simp⟩)⟩

end MemberSet

def MemberSet.HasMethod (set : MemberSet) (isStatic : Bool) (name : String) (signature : Signature) : Prop :=
  ∃ symbol ∈ set.members, (symbol.kind = .method ∨ symbol.kind = .operator) ∧ symbol.name = name ∧
    Signature.ofTypes symbol.types = signature ∧ symbol.isStatic = isStatic

def MemberSet.HasProperty (set : MemberSet) (name : String) (type : Ty) : Prop :=
  ∃ symbol ∈ set.members, symbol.kind = .property ∧ symbol.isStatic = false ∧ symbol.name = name ∧
    symbol.returnType = some type

def MemberSet.HasConstructor (set : MemberSet) (signature : Signature) : Prop :=
  ∃ symbol ∈ set.constructors, Signature.ofTypes symbol.types = signature

def MemberSet.HasStorage (set : MemberSet) (storage : String) (type : Ty) : Prop :=
  ∃ m ∈ set.effectiveMembers, m.storage = storage ∧ type.same m.type = true

theorem Decl.Member.implements_method_iff {m : Decl.Method} {name : String} {signature : Signature} :
    (Member.method m).implements name signature = true ↔
      m.isStatic = false ∧ m.name = name ∧ Signature.ofTypes m.types = signature ∧
        (name = "Deconstruct" → ∀ p ∈ m.parameters, p.mode = .byOut) := by
  simp only [implements, Bool.and_eq_true, Bool.not_eq_true', decide_eq_true_eq, Bool.or_eq_true, List.all_eq_true,
    and_assoc, ne_eq, ← imp_iff_not_or]

theorem Decl.Record.implements_of_slot {record : Record} {name : String} {signature : Signature} {position : Nat}
    (h : record.slot name signature = .user position) :
    ∃ m, record.members[position]? = some (.method m) ∧ (Member.method m).implements name signature = true := by
  rw [slot] at h
  split at h
  · rename_i found hFound
    cases h
    obtain ⟨hBound, hImplements, -⟩ := List.findIdx?_eq_some_iff_getElem.mp hFound
    cases hMember : record.members[position] with
    | method m =>
      rw [hMember] at hImplements
      exact ⟨m, by rw [← hMember]; exact List.getElem?_eq_getElem hBound, hImplements⟩
    | field _ | property _ | event _ | indexer _ | constructor _ =>
      rw [hMember] at hImplements
      cases hImplements
  · cases h

theorem Decl.Record.implements_eq_false_of_slot {record : Record} {name : String} {signature : Signature}
    (h : record.slot name signature = .synthesized) {member : Member} (mem : member ∈ record.members) :
    member.implements name signature = false := by
  rw [slot] at h
  split at h
  · cases h
  · rename_i hNone
    exact List.findIdx?_eq_none_iff.mp hNone member mem

theorem Decl.Record.slot_eq_user {record : Record} {name : String} {signature : Signature} {position : Nat}
    (h : record.slot name signature = .user position) :
    ∃ m, record.members[position]? = some (.method m) ∧ m.isStatic = false ∧ m.name = name ∧
      Signature.ofTypes m.types = signature := by
  obtain ⟨m, hMember, hImplements⟩ := implements_of_slot h
  obtain ⟨hStatic, hName, hSignature, -⟩ := Member.implements_method_iff.mp hImplements
  exact ⟨m, hMember, hStatic, hName, hSignature⟩

section

variable (record : Record) (effective : List EffectiveMember) (base : Option MemberSet) (copy : Option CopyConstructor)
  (options : SynthesisOptions)

theorem Decl.Record.hasMethod_of_slot {name : String} {signature : Signature}
    (synthesized : record.slot name signature = .synthesized →
      ∃ symbol ∈ (record.memberSet effective base copy options).synthesizedMethods, symbol.kind = .method ∧
        symbol.name = name ∧ Signature.ofTypes symbol.types = signature ∧ symbol.isStatic = false) :
    (record.memberSet effective base copy options).HasMethod false name signature := by
  cases hSlot : record.slot name signature with
  | synthesized =>
    obtain ⟨symbol, hSymbol, hKind, hRest⟩ := synthesized hSlot
    have hMethod : symbol ∈ (record.memberSet effective base copy options).synthesizedOf .method := hSymbol
    exact ⟨symbol, MemberSet.mem_members_of_synthesizedOf hMethod, .inl hKind, hRest⟩
  | user position =>
    obtain ⟨m, hMember, hStatic, hName, hSignature⟩ := slot_eq_user hSlot
    exact ⟨_, MemberSet.mem_members_of_userMembers hMember, .inl rfl, hName, hSignature, hStatic⟩

theorem Decl.Record.hasMethod_equals :
    (record.memberSet effective base copy options).HasMethod false "Equals" (Signature.ofTypes [record.selfType]) := by
  refine record.hasMethod_of_slot effective base copy options fun h =>
    ⟨{ name := "Equals", kind := .method, types := [record.selfType], returnType := some Ty.bool }, ?_, rfl, rfl, rfl, rfl⟩
  simp [MemberSet.synthesizedMethods, memberSet, h]

theorem Decl.Record.hasMethod_hash :
    (record.memberSet effective base copy options).HasMethod false "GetHashCode" [] := by
  refine record.hasMethod_of_slot effective base copy options fun h =>
    ⟨{ name := "GetHashCode", kind := .method, returnType := some Ty.int, isOverride := true }, ?_, rfl, rfl, rfl, rfl⟩
  simp [MemberSet.synthesizedMethods, memberSet, h]

theorem Decl.Record.hasConstructor_copy (h : record.HasCopy base copy) (reference : record.isValueType = false) :
    (record.memberSet effective base copy options).HasConstructor record.copySignature := by
  cases copy with
  | none => simp [HasCopy, reference] at h
  | some made =>
    rcases copyConstructor_eq_ok h.2 with rfl | ⟨position, c, p, others, hMember, _, hSignature, rfl⟩
    · refine ⟨{ name := record.name, kind := .constructor, types := [record.selfType], visibility := .isProtected },
        List.mem_filter.mpr ⟨?_, by simp⟩, rfl⟩
      refine MemberSet.mem_members_of_synthesizedOf (show _ ∈ MemberSet.synthesizedOf _ .constructor from ?_)
      simp [MemberSet.synthesizedOf, MemberSet.synthesizedConstructors, memberSet]
    · exact ⟨_, List.mem_filter.mpr ⟨MemberSet.mem_members_of_userMembers hMember, rfl⟩, hSignature⟩

theorem Decl.Record.hasProperty_of_unclaimed {p : Decl.PrimaryParameter} (h : p ∈ record.unclaimed base) :
    (record.memberSet effective base copy options).HasProperty p.name p.type := by
  refine ⟨{ name := p.name, kind := .property, returnType := some p.type, accessors := some ⟨true, .init⟩ }, ?_,
    rfl, rfl, rfl, rfl⟩
  refine MemberSet.mem_members_of_synthesizedOf (show _ ∈ MemberSet.synthesizedOf _ .property from ?_)
  exact List.mem_map.mpr ⟨p.toProperty, List.mem_map.mpr ⟨p, h, rfl⟩, rfl⟩

theorem MemberSet.hasProperty_of_declared {set : MemberSet} {q : Decl.Property}
    (mem : Member.property q ∈ set.userMembers) (ofInstance : q.isStatic = false) : set.HasProperty q.name q.type := by
  obtain ⟨position, hPosition⟩ := List.mem_iff_getElem?.mp mem
  exact ⟨_, MemberSet.mem_members_of_userMembers hPosition, rfl, ofInstance, rfl, rfl⟩

theorem Decl.Record.hasProperty_of_member {q : Decl.Property} (h : Member.property q ∈ record.members)
    (ofInstance : q.isStatic = false) :
    (record.memberSet effective base copy options).HasProperty q.name q.type :=
  MemberSet.hasProperty_of_declared h ofInstance

theorem Decl.Record.exists_effectiveMember {m : EffectiveMember}
    (h : m ∈ record.parameters.map PrimaryParameter.toEffective ++ record.members.filterMap Member.toEffective?) :
    ∃ n ∈ record.effectiveMembers, n.storage = m.storage ∧ n.type = m.type := by
  obtain ⟨order, hBound, hAt⟩ := List.mem_iff_getElem.mp h
  exact ⟨{ m with order }, List.mem_mapIdx.mpr ⟨order, hBound, by rw [hAt]⟩, rfl, rfl⟩

theorem Decl.Record.hasStorage_of_source {m : EffectiveMember} {type : Ty} (typed : type.same m.type = true)
    (h : m ∈ record.parameters.map PrimaryParameter.toEffective ++ record.members.filterMap Member.toEffective?) :
    (record.memberSet record.effectiveMembers base copy options).HasStorage m.storage type := by
  obtain ⟨n, hMem, hStorage, hType⟩ := record.exists_effectiveMember h
  exact ⟨n, hMem, hStorage, hType ▸ typed⟩

theorem Decl.Record.hasStorage_of_parameter {p : Decl.PrimaryParameter} (h : p ∈ record.parameters) :
    (record.memberSet record.effectiveMembers base copy options).HasStorage (backingFieldName p.name) p.type :=
  record.hasStorage_of_source base copy options p.type.same_refl
    (List.mem_append_left _ (List.mem_map.mpr ⟨p, h, rfl⟩))

theorem Decl.Record.hasStorage_of_field {f : Decl.Field} (h : Member.field f ∈ record.members)
    (ofInstance : f.isStatic = false) {type : Ty} (typed : type.same f.type = true) :
    (record.memberSet record.effectiveMembers base copy options).HasStorage f.name type := by
  obtain ⟨m, hEffective, hStorage, hType⟩ := Member.toEffective?_field ofInstance
  rw [← hStorage]
  exact record.hasStorage_of_source base copy options (hType ▸ typed)
    (List.mem_append_right _ (List.mem_filterMap.mpr ⟨_, h, hEffective⟩))

theorem Decl.Record.hasStorage_of_autoProperty {q : Decl.Property} (h : Member.property q ∈ record.members)
    (ofInstance : q.isStatic = false) (auto : q.isAuto = true) {type : Ty} (typed : type.same q.type = true) :
    (record.memberSet record.effectiveMembers base copy options).HasStorage (backingFieldName q.name) type := by
  obtain ⟨m, hEffective, hStorage, hType⟩ := Member.toEffective?_autoProperty ofInstance auto
  rw [← hStorage]
  exact record.hasStorage_of_source base copy options (hType ▸ typed)
    (List.mem_append_right _ (List.mem_filterMap.mpr ⟨_, h, hEffective⟩))

end

end RecordSynthesis
