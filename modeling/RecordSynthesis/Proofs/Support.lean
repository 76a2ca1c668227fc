import RecordSynthesis.Proofs.ClosedCode
import RecordSynthesis.Proofs.LoweredMembers

/-!
# Synthesized sets support lowering

Every set of a table holds what its lowered code names. The reads of a record reach its own members or, through the
claims and the printed state that it inherits, those of its ancestors; this goes from the base on. With it all lowered
code of a unit is closed.
-/

namespace RecordSynthesis

set_option autoImplicit false

open Code
open Decl (CompilationUnit Record Member)

theorem Decl.Member.printable?_cases {member : Member} {m : EffectiveMember} {equality : EqualityStrategy} {owner : Ty}
    {read : MemberRead} (h : member.toEffective? = some m) (hRead : StateMember.printable? owner ⟨m, equality⟩ = some read) :
    (∃ f, member = .field f ∧ f.isStatic = false ∧ read = ⟨f.name, f.type, .field, owner⟩) ∨
      ∃ q, member = .property q ∧ q.isStatic = false ∧ read = ⟨q.name, q.type, .property, owner⟩ := by
  cases member with
  | field f =>
    simp only [toEffective?] at h
    split at h
    · cases h
    · rename_i hStatic
      cases h
      obtain ⟨_, ⟨⟩⟩ := Option.ite_none_right_eq_some.mp hRead
      exact .inl ⟨f, rfl, by simpa using hStatic, rfl⟩
  | property q =>
    simp only [toEffective?] at h
    split at h
    · cases h
    · rename_i hStored
      rw [Bool.or_eq_true, not_or] at hStored
      cases h
      obtain ⟨_, ⟨⟩⟩ := Option.ite_none_right_eq_some.mp hRead
      exact .inr ⟨q, rfl, by simpa using hStored.1, rfl⟩
  | event e =>
    simp only [toEffective?] at h
    split at h
    · cases h
    · cases h
      obtain ⟨_, ⟨⟩⟩ := Option.ite_none_right_eq_some.mp hRead
  | indexer _ | method _ | constructor _ => cases h

namespace ConstructorChain

/-- The chain of a copy constructor hands on the copied instance and nothing else. -/
theorem eq_of_mem_copying {parameter argument : String} {base : Option MemberSet}
    (h : argument ∈ (copying parameter base).arguments) : argument = parameter := by
  cases base with
  | none => cases h
  | some above => exact List.mem_singleton.mp h

theorem eq_of_mem_adopting {parameter argument : String} {base : Option MemberSet}
    (h : argument ∈ (adopting parameter base).arguments) : argument = parameter := by
  cases base with
  | none => cases h
  | some above =>
    rw [adopting] at h
    split at h
    · cases h
    · exact eq_of_mem_copying h

end ConstructorChain

namespace RecordTable

variable {unit : CompilationUnit} {options : SynthesisOptions} {table : RecordTable}

section

variable {set : MemberSet} {record : Record} {base : Option MemberSet} {copy : Option CopyConstructor}
  (origin : Origin unit options table set record base copy)

include origin

theorem Origin.finds_own {read : MemberRead}
    (h : read ∈ set.state.filterMap (StateMember.printable? record.selfType)) : table.Finds set read := by
  rw [origin.made] at h ⊢
  obtain ⟨m, hSource, hRead⟩ := List.mem_filterMap.mp
    ((record.filterMap_ownState base (StateMember.printable? record.selfType) fun _ _ _ => rfl) ▸ h)
  rcases List.mem_append.mp hSource with hParameter | hMember
  · obtain ⟨p, hUnclaimed, rfl⟩ := List.mem_map.mp hParameter
    cases hRead
    exact .self (record.hasProperty_of_unclaimed _ _ _ _ hUnclaimed)
  · obtain ⟨member, hMem, hEffective⟩ := List.mem_filterMap.mp hMember
    rcases Member.printable?_cases hEffective hRead with ⟨f, rfl, hStatic, rfl⟩ | ⟨q, rfl, hStatic, rfl⟩
    · exact .self (record.hasStorage_of_field _ _ _ hMem hStatic f.type.same_refl)
    · exact .self (record.hasProperty_of_member _ _ _ _ hMem hStatic)

theorem Origin.hasMethods :
    set.HasMethod false "Equals" (Signature.ofTypes [set.selfType]) ∧ set.HasMethod false "GetHashCode" [] := by
  rw [origin.made]
  exact ⟨record.hasMethod_equals _ _ _ _, record.hasMethod_hash _ _ _ _⟩

theorem Origin.stored (nodup : (record.parameters.map (·.name)).Nodup) {p : Decl.PrimaryParameter}
    (mem : p ∈ record.parameters) {store : FieldStore} (h : record.store? base p = some store) :
    store.parameter = p.name ∧ set.HasStorage store.field store.type := by
  rw [origin.made]
  rw [Record.store?] at h
  split at h
  · rename_i claim hClaim
    obtain ⟨type, hType, laid⟩ := Record.claim?_laid hClaim
    rw [Record.parameterType?_of_mem nodup mem] at hType
    cases hType
    cases laid with
    | field hField ofInstance named typed =>
      cases h
      exact ⟨rfl, record.hasStorage_of_field _ _ _ hField ofInstance typed⟩
    | @property q hProperty ofInstance named typed =>
      cases hAuto : q.isAuto with
      | true =>
        rw [hAuto] at h
        cases h
        exact ⟨rfl, record.hasStorage_of_autoProperty _ _ _ hProperty ofInstance hAuto typed⟩
      | false =>
        rw [hAuto] at h
        cases h
    | inherited _ _ _ _ => cases h
  · cases h
    exact ⟨rfl, record.hasStorage_of_parameter _ _ _ mem⟩

omit origin in
theorem Grown.finds_printable (grown : table.Grown unit options) (mem : set ∈ table.sets) :
    ∀ read ∈ set.printable, table.Finds set read := by
  refine grown.induction (P := fun set => ∀ read ∈ set.printable, table.Finds set read) ?_ ?_ set mem
  · intro set record copy mem origin read hRead
    have hPrintable : set.printable = set.state.filterMap (StateMember.printable? record.selfType) := by
      rw [origin.made]
      rfl
    exact origin.finds_own (hPrintable ▸ hRead)
  · intro set record above copy mem aboveMem origin ih read hRead
    have hPrintable :
        set.printable = above.printable ++ set.state.filterMap (StateMember.printable? record.selfType) := by
      rw [origin.made]
      rfl
    rcases List.mem_append.mp (hPrintable ▸ hRead) with hInherited | hOwn
    · exact Finds.derived origin (ih read hInherited)
    · exact origin.finds_own hOwn

theorem Origin.finds_positional (grown : table.Grown unit options)
    (nodup : (record.parameters.map (·.name)).Nodup) {p : Decl.PrimaryParameter} (mem : p ∈ record.parameters) :
    table.Finds set (record.positionalRead base p) := by
  have hSelf : record.selfType = set.selfType := by
    rw [origin.made]
    rfl
  rw [Record.positionalRead]
  split
  · rename_i claim hClaim
    obtain ⟨type, hType, laid⟩ := Record.claim?_laid hClaim
    rw [Record.parameterType?_of_mem nodup mem] at hType
    cases hType
    cases laid with
    | @field f hField ofInstance named typed =>
      have hStorage : set.HasStorage p.name f.type := by
        rw [origin.made, ← named]
        exact record.hasStorage_of_field _ _ _ hField ofInstance f.type.same_refl
      rw [hSelf]
      exact .self hStorage
    | @property q hProperty ofInstance named typed =>
      have hRead : set.HasProperty p.name q.type := by
        rw [origin.made, ← named]
        exact record.hasProperty_of_member _ _ _ _ hProperty ofInstance
      rw [hSelf]
      exact .self hRead
    | @inherited above read derived hMem named access =>
      subst derived
      have hFinds := grown.finds_printable (origin.base_mem rfl).1 read hMem
      rw [← named, ← access]
      exact Finds.derived origin hFinds
  · rename_i hClaim
    have hUnclaimed : p ∈ record.unclaimed base := List.mem_filter.mpr ⟨mem, by rw [hClaim]; rfl⟩
    have hRead : set.HasProperty p.name p.type := by
      rw [origin.made]
      exact record.hasProperty_of_unclaimed _ _ _ _ hUnclaimed
    rw [hSelf]
    exact .self hRead

omit origin in
theorem Grown.hasMethods (grown : table.Grown unit options) (mem : set ∈ table.sets) :
    set.HasMethod false "Equals" (Signature.ofTypes [set.selfType]) ∧ set.HasMethod false "GetHashCode" [] := by
  obtain ⟨record, base, copy, origin⟩ := grown.exists_origin mem
  exact origin.hasMethods

theorem Origin.copyable (reference : set.isValueType = false) :
    set.HasConstructor (Signature.ofTypes [set.selfType]) := by
  rw [origin.made] at reference ⊢
  exact record.hasConstructor_copy _ _ _ _ origin.copied reference

theorem Origin.atBase {link : BaseRecord} (h : set.base = some link) {has : MemberSet → Prop}
    (every : ∀ level ∈ table.sets, level.selfType = link.selfType → has level) : table.AtLevel set link.selfType has := by
  rw [origin.made] at h
  obtain ⟨above, rfl, rfl⟩ := Option.map_eq_some_iff.mp h
  exact AtLevel.derived origin (.self (every above (origin.base_mem rfl).1 rfl))

theorem Origin.supports (grown : table.Grown unit options) (mem : set ∈ table.sets)
    (nodup : (record.parameters.map (·.name)).Nodup) : table.Supports set where
  stored primary hPrimary store hStore := by
    rw [origin.made] at hPrimary
    obtain ⟨-, ⟨⟩⟩ := Option.ite_none_right_eq_some.mp hPrimary
    obtain ⟨p, hp, hStored⟩ := List.mem_filterMap.mp hStore
    obtain ⟨hParameter, hStorage⟩ := origin.stored nodup hp hStored
    exact ⟨⟨p, hp, hParameter.symm⟩, hStorage⟩
  chained primary hPrimary argument hArgument := by
    rw [origin.made] at hPrimary
    obtain ⟨-, ⟨⟩⟩ := Option.ite_none_right_eq_some.mp hPrimary
    rcases Record.resolveBase_eq_ok_iff.mp origin.resolved with ⟨_, rfl⟩ | ⟨above, _, _, rfl, _, _, hDeclared⟩
    · rw [Record.primaryChain] at hArgument
      split at hArgument <;> cases hArgument
    · rw [origin.primaryChain_eq rfl] at hArgument
      exact hDeclared argument hArgument
  copied made hMade argument hArgument := by
    have hCopied := origin.copied
    rw [origin.made] at hMade
    cases hMade
    rcases Record.copyConstructor_eq_ok hCopied.2 with rfl | ⟨position, c, p, others, _, _, _, rfl⟩
    · exact ConstructorChain.eq_of_mem_copying hArgument
    · exact ConstructorChain.eq_of_mem_adopting hArgument
  state state hState := by
    have hRecord := origin.made
    rw [hRecord] at hState ⊢
    obtain ⟨m, hm, rfl⟩ := List.mem_map.mp hState
    exact ⟨m, List.mem_of_mem_filter hm, rfl, m.type.same_refl⟩
  properties property hProperty := by
    rw [origin.made] at hProperty ⊢
    obtain ⟨p, hp, rfl⟩ := List.mem_map.mp hProperty
    exact record.hasStorage_of_parameter _ _ _ (List.mem_of_mem_filter hp)
  positional read hRead := by
    rw [origin.made] at hRead
    obtain ⟨p, hp, rfl⟩ := List.mem_map.mp hRead
    exact origin.finds_positional grown nodup hp
  printable := grown.finds_printable mem
  equals := origin.hasMethods.1
  baseEquals link hBase := origin.atBase hBase fun level hLevel hSelf => hSelf ▸ (grown.hasMethods hLevel).1
  baseHash link hBase := origin.atBase hBase fun level hLevel _ => (grown.hasMethods hLevel).2
  copyable := origin.copyable

end

end RecordTable

/-- Lowering all members of a record of a unit succeeds, and every name in the code means something: parameters are the
function's own, fields are the storage of effective members, and properties, methods and constructors stand in the view
of the record or of the ancestor that they name. -/
theorem lowered_code_closed (unit : CompilationUnit) (options : SynthesisOptions)
    (nodup : ∀ record ∈ unit.records, (record.parameters.map (·.name)).Nodup) (set : MemberSet)
    (mem : set ∈ (checkUnit unit options).table.sets) :
    ∃ module, set.lowerAll = .ok module ∧
      ∀ function ∈ module.functions, (checkUnit unit options).table.Closed set function := by
  have grown := checkUnit_grown unit options
  obtain ⟨record, base, copy, origin⟩ := grown.exists_origin mem
  have hRecord : record ∈ unit.records := List.mem_of_find?_eq_some origin.declared
  have supports := origin.supports grown mem (nodup record hRecord)
  refine ⟨_, set.lowerAll_eq, ?_⟩
  intro function hFunction
  obtain ⟨member, _, hLowered⟩ := List.mem_filterMap.mp hFunction
  exact supports.lower? hLowered

def school : CompilationUnit where
  records :=
    [{ name := "Person", parameters := [{ name := "Name", type := Ty.string }] },
      { name := "Student", parameters := [{ name := "Name", type := Ty.string }, { name := "Grade", type := Ty.int }]
        members := [.ofField "Grade" Ty.int], base := some "Person", baseArguments := ["Name"] }]

def schoolStudent : MemberSet :=
  ((checkUnit school {}).table.get? "Student").getD default

theorem lowered_code_closed_student :
    (∀ record ∈ school.records, (record.parameters.map (·.name)).Nodup) ∧
    schoolStudent ∈ (checkUnit school {}).table.sets ∧
    schoolStudent.positional.map (fun read => (read.name, read.access, read.owner.canonical)) =
      [("Name", .property, "Person"), ("Grade", .field, "Student")] ∧
    ∃ module, schoolStudent.lowerAll = .ok module ∧
      ∀ function ∈ module.functions, (checkUnit school {}).table.Closed schoolStudent function := by
  have hFound : (checkUnit school {}).table.get? "Student" = some schoolStudent := rfl
  have nodup : ∀ record ∈ school.records, (record.parameters.map (·.name)).Nodup := by decide
  have mem := (RecordTable.mem_of_get? hFound).1
  exact ⟨nodup, mem, by decide +kernel, lowered_code_closed school {} nodup schoolStudent mem⟩

end RecordSynthesis
