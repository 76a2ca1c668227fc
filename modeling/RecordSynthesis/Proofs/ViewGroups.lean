import RecordSynthesis.Proofs.View

/-!
# The groups of the member view

Each group of the merged view holds the entries of one kind, so the constructors of a record are the first group: the
primary constructor, a synthesized copy constructor, and then the declared ones.
-/

namespace RecordSynthesis

set_option autoImplicit false

open Decl (Record Member)

namespace MemberSet

theorem of_mem_synthesizedOf {set : MemberSet} {kind : MemberKind} {symbol : MemberSymbol}
    (h : symbol ∈ set.synthesizedOf kind) : symbol.kind = kind ∧ symbol.origin = .synthesized := by
  cases kind with
  | constructor =>
    simp only [synthesizedOf, synthesizedConstructors, List.mem_append] at h
    rcases h with h | h <;> split at h <;> simp_all
  | property | field =>
    obtain ⟨_, _, rfl⟩ := List.mem_map.mp h
    exact ⟨rfl, rfl⟩
  | method =>
    simp only [synthesizedOf, synthesizedMethods, List.mem_append, List.mem_ite_nil_right, List.mem_singleton] at h
    rcases h with ((((rfl | ⟨_, rfl⟩) | ⟨_, rfl⟩) | ⟨_, rfl⟩) | ⟨_, rfl⟩) | ⟨_, rfl⟩ <;> exact ⟨rfl, rfl⟩
  | operator =>
    rw [synthesizedOf, synthesizedOperators] at h
    split at h
    · obtain ⟨_, _, rfl⟩ := List.mem_map.mp h
      exact ⟨rfl, rfl⟩
    · cases h
  | event | indexer => cases h

theorem kind_of_mem_group {set : MemberSet} {kind : MemberKind} {symbol : MemberSymbol} (h : symbol ∈ set.group kind) :
    symbol.kind = kind := by
  rcases List.mem_append.mp h with h | h
  · exact (of_mem_synthesizedOf h).1
  · simpa using (List.mem_filter.mp h).2

theorem filter_members (set : MemberSet) (kind : MemberKind) :
    (set.members.filter fun symbol => symbol.kind = kind) = set.group kind := by
  have hGroup : ∀ other, ((set.group other).filter fun symbol => symbol.kind = kind) =
      if other = kind then set.group other else [] := by
    intro other
    split
    · rename_i hKind
      exact List.filter_eq_self.mpr fun symbol h => by simp [kind_of_mem_group h, hKind]
    · rename_i hKind
      exact List.filter_eq_nil_iff.mpr fun symbol h => by simp [kind_of_mem_group h, hKind]
  rw [members, List.filter_flatMap]
  simp only [hGroup]
  cases kind <;> simp [MemberKind.all]

theorem constructors_eq_group (set : MemberSet) : set.constructors = set.group .constructor :=
  set.filter_members .constructor

theorem mem_userSymbols {set : MemberSet} {symbol : MemberSymbol} (h : symbol ∈ set.userSymbols) :
    ∃ position member, set.userMembers[position]? = some member ∧
      symbol = .ofMember set.recordName position member := by
  obtain ⟨position, hBound, rfl⟩ := List.mem_mapIdx.mp h
  exact ⟨position, set.userMembers[position], List.getElem?_eq_getElem hBound, rfl⟩

theorem filter_members_synthesized (set : MemberSet) (kind : MemberKind) :
    (set.members.filter fun symbol => symbol.kind = kind && symbol.origin = .synthesized) = set.synthesizedOf kind := by
  have hSplit : (set.members.filter fun symbol => symbol.kind = kind && symbol.origin = .synthesized) =
      (set.group kind).filter fun symbol => symbol.origin = .synthesized := by
    rw [← filter_members, List.filter_filter]
    exact List.filter_congr fun symbol _ => Bool.and_comm ..
  have hDeclared : ((set.userSymbols.filter fun symbol => symbol.kind = kind).filter
      fun symbol => symbol.origin = .synthesized) = [] := by
    refine List.filter_eq_nil_iff.mpr fun symbol h => ?_
    obtain ⟨position, member, -, rfl⟩ := mem_userSymbols (List.mem_of_mem_filter h)
    cases member <;> simp [MemberSymbol.ofMember]
  rw [hSplit, group, List.filter_append, hDeclared, List.append_nil]
  exact List.filter_eq_self.mpr fun symbol h => by simp [(of_mem_synthesizedOf h).2]

/-- What does not look at the positions sees the declared members themselves. -/
theorem filterMap_userSymbols {α : Type} (set : MemberSet) (view : MemberSymbol → Option α)
    (blind : ∀ position member,
      view (.ofMember set.recordName position member) = view (.ofMember set.recordName 0 member)) :
    set.userSymbols.filterMap view =
      set.userMembers.filterMap fun member => view (.ofMember set.recordName 0 member) := by
  rw [userSymbols, List.mapIdx_eq_zipIdx_map, List.filterMap_map]
  calc
    set.userMembers.zipIdx.filterMap _ =
        set.userMembers.zipIdx.filterMap ((fun member => view (.ofMember set.recordName 0 member)) ∘ Prod.fst) :=
      List.filterMap_congr fun entry _ => blind entry.2 entry.1
    _ = (set.userMembers.zipIdx.map Prod.fst).filterMap _ := (List.filterMap_map ..).symm
    _ = _ := by rw [List.zipIdx_map_fst]

end MemberSet

def Decl.Member.constructor? : Member → Option Decl.Constructor
  | .constructor c => some c
  | _ => none

def Decl.Record.declaredConstructors (record : Record) : List Decl.Constructor :=
  record.members.filterMap Member.constructor?

theorem Decl.Record.mem_declaredConstructors {record : Record} {c : Decl.Constructor} :
    c ∈ record.declaredConstructors ↔ .constructor c ∈ record.members := by
  rw [declaredConstructors, List.mem_filterMap]
  constructor
  · rintro ⟨member, hMember, hSome⟩
    cases member <;> cases hSome
    exact hMember
  · intro h
    exact ⟨_, h, rfl⟩

def Decl.Record.declaredSignatures (record : Record) : List Signature :=
  record.declaredConstructors.map fun c => Signature.ofTypes c.types

theorem Decl.Record.mem_declaredSignatures {record : Record} {signature : Signature} :
    signature ∈ record.declaredSignatures ↔
      ∃ c, .constructor c ∈ record.members ∧ Signature.ofTypes c.types = signature := by
  simp [declaredSignatures, mem_declaredConstructors]

def Decl.Record.synthesizedCopySignature? (record : Record) : Option CopyConstructor → Option Signature
  | some (.synthesized _) => some record.copySignature
  | _ => none

theorem Decl.Record.constructor_signatures (record : Record) (effective : List EffectiveMember)
    (base : Option MemberSet) (copy : Option CopyConstructor) (options : SynthesisOptions) :
    ((record.memberSet effective base copy options).constructors.map fun symbol => Signature.ofTypes symbol.types) =
      record.primarySignature?.toList ++ (record.synthesizedCopySignature? copy).toList
        ++ record.declaredSignatures := by
  have hDeclared : ∀ set : MemberSet,
      (set.userSymbols.filter fun symbol => symbol.kind = .constructor).map
          (fun symbol => Signature.ofTypes symbol.types) =
        (set.userMembers.filterMap Member.constructor?).map fun c => Signature.ofTypes c.types := by
    intro set
    rw [← List.filterMap_eq_map, List.filterMap_filter, MemberSet.filterMap_userSymbols]
    · rw [List.map_filterMap]
      apply List.filterMap_congr
      intro member _
      cases member <;> rfl
    · intro position member
      cases member <;> rfl
  rw [MemberSet.constructors_eq_group, MemberSet.group, List.map_append, hDeclared]
  congr 1
  rw [MemberSet.synthesizedOf, MemberSet.synthesizedConstructors, List.map_append]
  congr 1
  · simp only [primarySignature?, memberSet]
    cases record.isPositional <;> rfl
  · simp only [memberSet]
    rcases copy with _ | _ | _ <;> rfl

end RecordSynthesis
