import RecordSynthesis.Proofs.CodeTypes
import RecordSynthesis.Proofs.Lineage
import RecordSynthesis.Proofs.LoweredMembers
import RecordSynthesis.Proofs.SignatureIdentity

/-!
# Scopes of type parameters

A declaration brings the type parameters that its types may mention. A set takes types from its own declaration, from
the type that its base declares and from the reads of public state that it inherits; these come unchanged, so type
parameters of an ancestor come with them.
-/

namespace RecordSynthesis

set_option autoImplicit false

open Code
open Decl (CompilationUnit Record Member PrimaryParameter)

namespace Ty

mutual

def mentions : Ty → List String
  | .primitive _ => []
  | .named _ arguments _ => mentionsAll arguments
  | .parameter name => [name]
  | .array element => mentions element
  | .nullable underlying => mentions underlying

def mentionsAll : List Ty → List String
  | [] => []
  | type :: others => mentions type ++ mentionsAll others

end

def ScopedIn (scope : List String) (type : Ty) : Prop :=
  ∀ name ∈ type.mentions, name ∈ scope

instance (scope : List String) (type : Ty) : Decidable (type.ScopedIn scope) :=
  inferInstanceAs (Decidable (∀ name ∈ type.mentions, name ∈ scope))

theorem mentionsAll_parameters (names : List String) : mentionsAll (names.map .parameter) = names := by
  induction names with
  | nil => rfl
  | cons name names ih => rw [List.map_cons, mentionsAll, mentions, ih, List.singleton_append]

section

variable (lookup : String → Option TypeKind)

mutual

theorem mentions_resolveKinds : ∀ type : Ty, (type.resolveKinds lookup).mentions = type.mentions
  | .primitive _ | .parameter _ => rfl
  | .named _ arguments _ => mentionsAll_resolveKinds arguments
  | .array element => mentions_resolveKinds element
  | .nullable underlying => mentions_resolveKinds underlying

theorem mentionsAll_resolveKinds : ∀ types : List Ty, mentionsAll (resolveKindsAll lookup types) = mentionsAll types
  | [] => rfl
  | type :: others => by
    rw [resolveKindsAll, mentionsAll, mentionsAll, mentions_resolveKinds type, mentionsAll_resolveKinds others]

end

end

section

variable (scope : List String)

mutual

/-- Binding adds no type parameters but those in scope. -/
theorem mentions_bind : ∀ type : Ty, ∀ name ∈ (type.bind scope).mentions, name ∈ scope ∨ name ∈ type.mentions
  | .primitive _, _, h => .inr h
  | .named bound [] _, name, h => by
    rw [bind] at h
    split at h
    · rename_i hScope
      rw [List.mem_singleton.mp h]
      exact .inl (List.contains_iff_mem.mp hScope)
    · exact .inr h
  | .named _ (argument :: others) _, name, h => by
    rcases List.mem_append.mp h with hArgument | hOthers
    · exact (mentions_bind argument name hArgument).imp_right (List.mem_append_left _)
    · exact (mentionsAll_bind others name hOthers).imp_right (List.mem_append_right _)
  | .parameter _, _, h => .inr h
  | .array element, name, h => mentions_bind element name h
  | .nullable underlying, name, h => mentions_bind underlying name h

theorem mentionsAll_bind : ∀ types : List Ty, ∀ name ∈ mentionsAll (bindAll scope types),
    name ∈ scope ∨ name ∈ mentionsAll types
  | [], _, h => .inr h
  | type :: others, name, h => by
    rcases List.mem_append.mp h with hType | hOthers
    · exact (mentions_bind type name hType).imp_right (List.mem_append_left _)
    · exact (mentionsAll_bind others name hOthers).imp_right (List.mem_append_right _)

end

end

section

variable {scope : List String}

mutual

theorem scopedIn_of_writtenIn : ∀ type : Ty, type.WrittenIn scope → type.ScopedIn scope
  | .primitive _, _, _, h => by cases h
  | .named _ arguments _, written, name, h => scopedIn_of_allWrittenIn arguments written.2.2.2 name h
  | .parameter _, written, _, h => List.mem_singleton.mp h ▸ written.2
  | .array element, written, name, h => scopedIn_of_writtenIn element written name h
  | .nullable underlying, written, name, h => scopedIn_of_writtenIn underlying written name h

theorem scopedIn_of_allWrittenIn : ∀ types : List Ty, AllWrittenIn scope types →
    ∀ name ∈ mentionsAll types, name ∈ scope
  | [], _, _, h => by cases h
  | type :: others, written, name, h => by
    rcases List.mem_append.mp h with hType | hOthers
    · exact scopedIn_of_writtenIn type written.1 name hType
    · exact scopedIn_of_allWrittenIn others written.2 name hOthers

end

end

theorem ScopedIn.resolved {scope : List String} {type : Ty} (h : type.ScopedIn scope)
    (lookup : String → Option TypeKind) : ((type.bind scope).resolveKinds lookup).ScopedIn scope := by
  intro name hName
  rw [mentions_resolveKinds] at hName
  exact (mentions_bind scope type name hName).elim id (h name)

end Ty

theorem Decl.Record.mentions_selfType (record : Record) : record.selfType.mentions = record.typeParameters :=
  Ty.mentionsAll_parameters record.typeParameters

/-- No declaration of the unit mentions a type parameter that it does not bring itself. -/
def Decl.CompilationUnit.ScopesTypes (unit : CompilationUnit) : Prop :=
  ∀ record ∈ unit.records, ∀ type ∈ record.types, type.ScopedIn record.typeParameters

instance (unit : CompilationUnit) : Decidable unit.ScopesTypes :=
  inferInstanceAs (Decidable (∀ record ∈ unit.records, ∀ type ∈ record.types, type.ScopedIn record.typeParameters))

/-- Decoding reads types with no type parameters in scope, so it gives no foreign ones. -/
theorem Decl.CompilationUnit.scopesTypes_of_ofDatum {reading : Reading} {datum : Datum} {unit : CompilationUnit}
    (h : CompilationUnit.ofDatum reading datum = .ok unit) : unit.ScopesTypes := by
  intro record hRecord type hType name hName
  cases Ty.scopedIn_of_writtenIn type (writtenIn_of_ofDatum h record hRecord type hType) name hName

theorem Decl.CompilationUnit.ScopesTypes.resolve {unit : CompilationUnit} (h : unit.ScopesTypes) :
    unit.resolve.ScopesTypes := by
  refine List.forall_mem_map.mpr fun record hRecord => ?_
  rw [Record.types_mapTypes]
  exact List.forall_mem_map.mpr fun type hType => (h record hRecord type hType).resolved _

theorem ConstructorChain.eq_of_mem_copying_allTypes {parameter : String} {base : Option MemberSet} {type : Ty}
    (h : type ∈ (copying parameter base).allTypes) : ∃ above, base = some above ∧ type = above.selfType := by
  cases base with
  | none => cases h
  | some above =>
    refine ⟨above, rfl, ?_⟩
    simpa [copying, allTypes] using h

theorem ConstructorChain.eq_of_mem_adopting_allTypes {parameter : String} {base : Option MemberSet} {type : Ty}
    (h : type ∈ (adopting parameter base).allTypes) : ∃ above, base = some above ∧ type = above.selfType := by
  cases base with
  | none => cases h
  | some above =>
    rw [adopting] at h
    split at h
    · exact ⟨above, rfl, List.mem_singleton.mp h⟩
    · exact eq_of_mem_copying_allTypes h

theorem MemberSet.of_mem_ownReads {set : MemberSet} {read : MemberRead} (h : read ∈ set.ownReads) :
    (∃ state ∈ set.state, read.type = state.member.type) ∧ read.owner = set.selfType := by
  obtain ⟨state, hState, rfl⟩ := List.mem_map.mp h
  exact ⟨⟨state, List.mem_of_mem_filter hState, rfl⟩, rfl⟩

theorem Decl.Member.type_mem_of_toEffective? {member : Member} {m : EffectiveMember}
    (h : member.toEffective? = some m) : m.type ∈ member.types := by
  cases member with
  | field _ | property _ | event _ =>
    simp only [Member.toEffective?] at h
    split at h
    · cases h
    · cases h
      exact List.mem_singleton_self _
  | indexer _ | method _ | constructor _ => cases h

namespace Decl.Record

variable {record : Record}

theorem type_mem_of_parameter {p : PrimaryParameter} (h : p ∈ record.parameters) : p.type ∈ record.types :=
  List.mem_append_left _ (List.mem_map_of_mem h)

theorem type_mem_of_member {member : Member} (h : member ∈ record.members) {type : Ty} (hType : type ∈ member.types) :
    type ∈ record.types :=
  List.mem_append_right _ (List.mem_flatMap.mpr ⟨member, h, hType⟩)

theorem type_mem_of_effectiveMember {m : EffectiveMember} (h : m ∈ record.effectiveMembers) :
    m.type ∈ record.types := by
  obtain ⟨order, hBound, rfl⟩ := List.mem_mapIdx.mp h
  rcases List.mem_append.mp (List.getElem_mem hBound) with hParameter | hMember
  · obtain ⟨p, hp, hEq⟩ := List.mem_map.mp hParameter
    exact hEq ▸ type_mem_of_parameter hp
  · obtain ⟨member, hDeclared, hEffective⟩ := List.mem_filterMap.mp hMember
    have hType := Member.type_mem_of_toEffective? hEffective
    exact type_mem_of_member hDeclared hType

theorem type_mem_of_ownState {base : Option MemberSet} {state : StateMember}
    (h : state ∈ record.ownState base record.effectiveMembers) : state.member.type ∈ record.types := by
  obtain ⟨m, hm, rfl⟩ := List.mem_map.mp h
  exact type_mem_of_effectiveMember (List.mem_of_mem_filter hm)

theorem type_mem_of_store {base : Option MemberSet} {p : PrimaryParameter} (hp : p ∈ record.parameters)
    {store : FieldStore} (h : record.store? base p = some store) : store.type ∈ record.types := by
  rw [store?] at h
  split at h
  · obtain ⟨_, -, rfl⟩ := Option.map_eq_some_iff.mp h
    exact type_mem_of_parameter hp
  · cases h
    exact type_mem_of_parameter hp

/-- What is true of the types that the declaration writes and of those that it takes from its base is true of all types
of its set. -/
theorem typesSatisfy {P : Ty → Prop} {base : Option MemberSet} {copy : Option CopyConstructor}
    (options : SynthesisOptions) (copied : record.HasCopy base copy) (self : P record.selfType)
    (written : ∀ type ∈ record.types, P type) (linked : ∀ above, base = some above → P above.selfType)
    (inherited : ∀ above, base = some above → ∀ read ∈ above.printable, P read.type ∧ P read.owner) :
    (record.memberSet record.effectiveMembers base copy options).TypesSatisfy P where
  selfType := self
  base link h := by
    obtain ⟨above, hBase, rfl⟩ := Option.map_eq_some_iff.mp h
    exact linked above hBase
  effectiveMembers m h := written _ (type_mem_of_effectiveMember h)
  state state h := written _ (type_mem_of_ownState h)
  fields field h := by
    obtain ⟨p, hp, rfl⟩ := List.mem_map.mp h
    exact written _ (type_mem_of_parameter (List.mem_of_mem_filter hp))
  properties property h := by
    obtain ⟨p, hp, rfl⟩ := List.mem_map.mp h
    exact written _ (type_mem_of_parameter (List.mem_of_mem_filter hp))
  parameters primary h p hp := by
    obtain ⟨-, ⟨⟩⟩ := Option.ite_none_right_eq_some.mp h
    exact written _ (type_mem_of_parameter hp)
  stores primary h store hStore := by
    obtain ⟨-, ⟨⟩⟩ := Option.ite_none_right_eq_some.mp h
    obtain ⟨p, hp, hStored⟩ := List.mem_filterMap.mp hStore
    exact written _ (type_mem_of_store hp hStored)
  primaryChain primary h type hType := by
    obtain ⟨-, ⟨⟩⟩ := Option.ite_none_right_eq_some.mp h
    dsimp only [primaryChain] at hType
    split at hType
    · cases hType
    split at hType
    · cases hType
    · rcases List.mem_cons.mp hType with rfl | hForwarded
      · exact linked _ rfl
      · obtain ⟨argument, -, hFound⟩ := List.mem_filterMap.mp hForwarded
        obtain ⟨p, hp, rfl⟩ := Option.map_eq_some_iff.mp hFound
        exact written _ (type_mem_of_parameter (List.mem_of_find?_eq_some hp))
  copyChain made h type hType := by
    obtain rfl : copy = some made := h
    rcases copyConstructor_eq_ok copied.2 with rfl | ⟨position, c, p, others, -, -, -, rfl⟩
    · obtain ⟨above, hBase, rfl⟩ := ConstructorChain.eq_of_mem_copying_allTypes hType
      exact linked above hBase
    · obtain ⟨above, hBase, rfl⟩ := ConstructorChain.eq_of_mem_adopting_allTypes hType
      exact linked above hBase
  clone := self
  overridden type h := by
    obtain ⟨above, hBase, rfl⟩ := Option.map_eq_some_iff.mp h
    exact linked above hBase
  positional read h := by
    obtain ⟨p, hp, rfl⟩ := List.mem_map.mp h
    rw [positionalRead]
    split
    · rename_i claim hClaim
      obtain ⟨_, -, laid⟩ := claim?_laid hClaim
      cases laid with
      | field hField _ _ _ => exact ⟨written _ (type_mem_of_member hField (List.mem_singleton_self _)), self⟩
      | property hProperty _ _ _ => exact ⟨written _ (type_mem_of_member hProperty (List.mem_singleton_self _)), self⟩
      | @inherited above source derived hRead _ _ => exact inherited above derived source hRead
    · exact ⟨written _ (type_mem_of_parameter hp), self⟩
  printable read h := by
    rcases List.mem_append.mp h with hInherited | hOwn
    · split at hInherited
      · exact inherited _ rfl read hInherited
      · cases hInherited
    · have hReads := (record.memberSet record.effectiveMembers base copy options).ownReads_eq
      obtain ⟨⟨state, hState, hType⟩, hOwner⟩ := MemberSet.of_mem_ownReads (hReads ▸ hOwn)
      exact ⟨hType ▸ written _ (type_mem_of_ownState hState), hOwner ▸ self⟩
  userMembers member h type hType := written _ (type_mem_of_member h hType)

end Decl.Record

theorem Decl.CompilationUnit.ScopesTypes.of_find? {unit : CompilationUnit} (scopes : unit.ScopesTypes) {name : String}
    {record : Record} (h : unit.find? name = some record) :
    ∀ type ∈ record.types, type.ScopedIn record.typeParameters :=
  scopes record (List.mem_of_find?_eq_some h)

namespace RecordTable

variable {unit : CompilationUnit} {options : SynthesisOptions} {table : RecordTable} {set : MemberSet}
  {record : Record} {scope : List String}

theorem Origin.selfType_scoped_iff {base : Option MemberSet} {copy : Option CopyConstructor}
    (origin : Origin unit options table set record base copy) :
    set.selfType.ScopedIn scope ↔ ∀ name ∈ record.typeParameters, name ∈ scope := by
  have hSelf : set.selfType = record.selfType := by
    rw [origin.made]
    rfl
  rw [Ty.ScopedIn, hSelf, record.mentions_selfType]

theorem Grown.ownReads_scoped (grown : table.Grown unit options) (scopes : unit.ScopesTypes) (mem : set ∈ table.sets)
    (self : set.selfType.ScopedIn scope) :
    ∀ read ∈ set.ownReads, read.type.ScopedIn scope ∧ read.owner.ScopedIn scope := by
  intro read hRead
  obtain ⟨record, base, copy, origin⟩ := grown.exists_origin mem
  obtain ⟨⟨state, hState, hType⟩, hOwner⟩ := MemberSet.of_mem_ownReads hRead
  have hWritten : state.member.type ∈ record.types := by
    rw [origin.made] at hState
    exact Record.type_mem_of_ownState hState
  refine ⟨fun name hName => ?_, hOwner ▸ self⟩
  exact origin.selfType_scoped_iff.mp self name (scopes.of_find? origin.declared _ hWritten name (hType ▸ hName))

theorem Grown.typesSatisfy_scopedIn_iff (grown : table.Grown unit options) (scopes : unit.ScopesTypes)
    (mem : set ∈ table.sets) (declared : unit.find? set.recordName = some record) :
    set.TypesSatisfy (Ty.ScopedIn record.typeParameters) ↔
      ∀ level ∈ table.levels set, table.baseOf? set = some level ∨ level.ownReads ≠ [] →
        level.selfType.ScopedIn record.typeParameters := by
  obtain ⟨base, copy, origin⟩ := grown.exists_origin_of_find? mem declared
  constructor
  · -- The link to the base and the owners of the printed reads show the types of the levels themselves.
    intro types level hLevel hReaches
    rcases hReaches with hBase | hReads
    · obtain rfl : base = some level := origin.baseOf?_eq.symm.trans hBase
      exact types.base ⟨level.recordName, level.selfType, level.inheritanceDepth⟩ (by rw [origin.made]; rfl)
    · obtain ⟨ancestors, -, hLevels, -, hPrintable⟩ := grown.exists_ancestry mem
      obtain ⟨read, hRead⟩ := List.exists_mem_of_ne_nil _ hReads
      have hPrinted : read ∈ set.printable := by
        rw [hPrintable, ← hLevels]
        exact List.mem_flatMap.mpr ⟨level, hLevel, hRead⟩
      exact (MemberSet.of_mem_ownReads hRead).2 ▸ (types.printable read hPrinted).2
  · intro h
    rw [origin.made]
    refine Record.typesSatisfy options origin.copied ?_ (scopes.of_find? origin.declared) ?_ ?_
    · rw [Ty.ScopedIn, record.mentions_selfType]
      exact fun _ hName => hName
    · rintro above rfl
      refine h above ?_ (.inl origin.baseOf?_eq)
      rw [origin.levels_eq_of_some]
      exact List.mem_append_left _ (table.mem_levels_self above)
    · rintro above rfl read hRead
      obtain ⟨ancestors, -, hLevels, -, hPrintable⟩ := grown.exists_ancestry (origin.base_mem rfl).1
      rw [hPrintable, ← hLevels] at hRead
      obtain ⟨level, hLevel, hOwn⟩ := List.mem_flatMap.mp hRead
      have hLevelMem : level ∈ table.levels set := by
        rw [origin.levels_eq_of_some]
        exact List.mem_append_left _ hLevel
      refine grown.ownReads_scoped scopes (grown.levels_subset mem level hLevelMem) ?_ read hOwn
      exact h level hLevelMem (.inr (List.ne_nil_of_mem hOwn))

end RecordTable

/-- All types of a set and of its code stay with the type parameters of the declaration exactly if the base, and every
further ancestor whose public state the set reads, brings none of another name. -/
theorem types_scoped_iff (unit : CompilationUnit) (options : SynthesisOptions) (scopes : unit.ScopesTypes)
    (set : MemberSet) (mem : set ∈ (checkUnit unit.resolve options).table.sets) (record : Record)
    (declared : unit.resolve.find? set.recordName = some record) :
    let table := (checkUnit unit.resolve options).table
    ∃ module, set.lowerAll = .ok module ∧
      ((set.TypesSatisfy (Ty.ScopedIn record.typeParameters) ∧
          ∀ function ∈ module.functions, ∀ type ∈ function.allTypes, type.ScopedIn record.typeParameters) ↔
        ∀ level ∈ table.levels set, table.baseOf? set = some level ∨ level.ownReads ≠ [] →
          ∀ above, unit.resolve.find? level.recordName = some above →
            ∀ name ∈ above.typeParameters, name ∈ record.typeParameters) := by
  intro table
  have grown : table.Grown unit.resolve options := checkUnit_grown unit.resolve options
  have hLevels : (∀ level ∈ table.levels set, table.baseOf? set = some level ∨ level.ownReads ≠ [] →
      ∀ above, unit.resolve.find? level.recordName = some above →
        ∀ name ∈ above.typeParameters, name ∈ record.typeParameters) ↔
      ∀ level ∈ table.levels set, table.baseOf? set = some level ∨ level.ownReads ≠ [] →
        level.selfType.ScopedIn record.typeParameters := by
    refine forall₃_congr fun level hLevel _ => ?_
    obtain ⟨above, base, copy, origin⟩ := grown.exists_origin (grown.levels_subset mem level hLevel)
    rw [origin.selfType_scoped_iff, origin.find?_eq]
    simp
  refine ⟨⟨set.recordName, set.synthesizedMembers.filterMap set.lower?⟩, set.lowerAll_eq, ?_⟩
  rw [hLevels, ← grown.typesSatisfy_scopedIn_iff scopes.resolve mem declared]
  refine ⟨And.left, fun types => ⟨types, fun function hFunction => ?_⟩⟩
  obtain ⟨member, -, hLowered⟩ := List.mem_filterMap.mp hFunction
  exact types.lower? (fun _ _ hName => by cases hName) hLowered

def boxes (parameter : String) : CompilationUnit where
  records :=
    [{ name := "Box", typeParameters := ["T"], parameters := [{ name := "Value", type := .named "T" [] .reference }] },
      { name := "Crate", typeParameters := [parameter]
        parameters := [{ name := "Value", type := .named parameter [] .reference }], base := some "Box"
        baseArguments := ["Value"] }]

/-- Nothing is reported, and yet the base, a positional read and the code of a crate of `U` mention `T`. -/
theorem not_types_scoped_crate :
    let result := checkUnit (boxes "U").resolve {}
    (boxes "U").ScopesTypes ∧ result.diagnostics.isEmpty = true ∧ result.faults = [] ∧
    ∃ set ∈ result.table.sets, ∃ record module, (boxes "U").resolve.find? set.recordName = some record ∧
      set.lowerAll = .ok module ∧
      (∃ link, set.base = some link ∧ ¬link.selfType.ScopedIn record.typeParameters) ∧
      (∃ read ∈ set.positional, ¬read.type.ScopedIn record.typeParameters) ∧
      ∃ function ∈ module.functions, ∃ type ∈ function.allTypes, ¬type.ScopedIn record.typeParameters := by
  intro result
  have hCrate : result.table.sets[1]? = some _ := rfl
  refine ⟨by decide, rfl, rfl, _, List.mem_of_getElem? hCrate, _, _, rfl, MemberSet.lowerAll_eq _, ⟨_, rfl, by decide⟩,
    ⟨_, List.mem_of_getElem? (i := 0) rfl, by decide⟩, _, List.mem_of_getElem? (i := 0) rfl, _,
    List.mem_of_getElem? (i := 2) rfl, by decide⟩

def crate : MemberSet :=
  ((checkUnit (boxes "T").resolve {}).table.get? "Crate").getD default

theorem types_scoped_iff_crate :
    (boxes "T").ScopesTypes ∧ crate ∈ (checkUnit (boxes "T").resolve {}).table.sets ∧
    ∃ record module, (boxes "T").resolve.find? crate.recordName = some record ∧ crate.lowerAll = .ok module ∧
      crate.TypesSatisfy (Ty.ScopedIn record.typeParameters) ∧
      ∀ function ∈ module.functions, ∀ type ∈ function.allTypes, type.ScopedIn record.typeParameters := by
  have scopes : (boxes "T").ScopesTypes := by decide
  have hFound : (checkUnit (boxes "T").resolve {}).table.get? "Crate" = some crate := rfl
  have mem := (RecordTable.mem_of_get? hFound).1
  have declared : (boxes "T").resolve.find? crate.recordName = some _ := rfl
  obtain ⟨module, hModule, hScoped⟩ := types_scoped_iff (boxes "T") {} scopes crate mem _ declared
  refine ⟨scopes, mem, _, module, declared, hModule, hScoped.mpr ?_⟩
  intro level _ _ above hAbove
  have hOnlyT : ∀ record ∈ (boxes "T").resolve.records, ∀ name ∈ record.typeParameters, name ∈ ["T"] := by decide
  exact hOnlyT above (List.mem_of_find?_eq_some hAbove)

end RecordSynthesis
