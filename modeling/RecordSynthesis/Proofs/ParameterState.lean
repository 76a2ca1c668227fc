import RecordSynthesis.Proofs.ParameterValues
import RecordSynthesis.Proofs.Storage

/-!
# The state of primary parameters

The stores of a primary constructor go into the own state of the record, one at most for each parameter. A parameter that
stands in the own state itself has its field, its property and its store to itself; one without a store is left to a
computed property of the record or to the base.
-/

namespace RecordSynthesis

set_option autoImplicit false

open Decl (Record Member Property PrimaryParameter)

/-- One store, one field and one property are there for a piece of state, and they agree on the field. -/
structure MemberSet.Backs (set : MemberSet) (primary : PrimaryConstructor) (m : EffectiveMember) : Prop where
  store : primary.stores.filter (fun store => store.parameter = m.name) = [⟨m.name, m.storage, m.type⟩]
  field : set.fields.filter (fun field => field.property = m.name) = [⟨m.storage, m.type, m.name⟩]
  property : set.properties.filter (fun property => property.name = m.name) = [⟨m.name, m.type, m.storage, .init⟩]

def EffectiveMember.held (m : EffectiveMember) : String × Ty × Origin × String :=
  (m.name, m.type, m.origin, m.storage)

theorem Decl.Member.name_of_toEffective? {member : Member} {m : EffectiveMember} (h : member.toEffective? = some m) :
    m.name = member.name := by
  cases member with
  | field _ | property _ | event _ =>
    obtain ⟨-, ⟨⟩⟩ := Option.ite_none_left_eq_some.mp h
    rfl
  | indexer _ | method _ | constructor _ => cases h

namespace Decl.Record

variable {record : Record} {base : Option MemberSet} {p : PrimaryParameter}

theorem map_held_ownState (record : Record) (base : Option MemberSet) :
    (record.ownState base record.effectiveMembers).map (fun state => state.member.held) =
      (record.stateSources base).map EffectiveMember.held := by
  rw [← List.filterMap_eq_map, filterMap_ownState _ _ _ fun _ _ _ => rfl, ← List.filterMap_eq_map]
  rfl

theorem exists_state_of_source {m : EffectiveMember} (h : m ∈ record.stateSources base) :
    ∃ state ∈ record.ownState base record.effectiveMembers, state.member.held = m.held := by
  have hHeld : m.held ∈ (record.stateSources base).map EffectiveMember.held := List.mem_map_of_mem h
  rwa [← map_held_ownState, List.mem_map] at hHeld

theorem exists_source_of_state {state : StateMember} (h : state ∈ record.ownState base record.effectiveMembers) :
    ∃ m ∈ record.stateSources base, m.held = state.member.held := by
  have hHeld : state.member.held ∈ (record.ownState base record.effectiveMembers).map fun state => state.member.held :=
    List.mem_map_of_mem h
  rwa [map_held_ownState, List.mem_map] at hHeld

theorem source_of_member {member : Member} {m : EffectiveMember} {name : String} (hMember : member ∈ record.members)
    (hEffective : member.toEffective? = some m) (named : member.name = name) :
    m ∈ record.stateSources base ∧ m.name = name :=
  ⟨List.mem_append_right _ (List.mem_filterMap.mpr ⟨member, hMember, hEffective⟩),
    (Member.name_of_toEffective? hEffective).trans named⟩

/-- A store goes into the state of the parameter itself or of the member that claims it. -/
theorem exists_source_of_store (nodup : (record.parameters.map (·.name)).Nodup) (mem : p ∈ record.parameters)
    {store : FieldStore} (h : record.store? base p = some store) :
    ∃ m ∈ record.stateSources base, m.storage = store.field ∧ m.name = p.name ∧ p.type.same m.type = true := by
  have settled := record.claim?_settled base (parameterType?_of_mem nodup mem)
  rw [store?] at h
  cases hClaim : record.claim? base p.name with
  | none =>
    rw [hClaim] at h
    cases h
    exact ⟨p.toEffective, List.mem_append_left _ (List.mem_map_of_mem (mem_unclaimed.mpr ⟨mem, hClaim⟩)), rfl, rfl,
      p.type.same_refl⟩
  | some claim =>
    rw [hClaim] at h settled
    cases settled with
    | field first =>
      cases h
      obtain ⟨hMember, hClaims⟩ := claimant?_eq_some first
      obtain ⟨ofInstance, named, typed⟩ := Member.claims_field.mp hClaims
      obtain ⟨m, hEffective, hStorage, hType⟩ := Member.toEffective?_field ofInstance
      obtain ⟨hSource, hName⟩ := source_of_member hMember hEffective named
      exact ⟨m, hSource, hStorage, hName, hType ▸ typed⟩
    | @property q first =>
      obtain ⟨hMember, hClaims⟩ := claimant?_eq_some first
      obtain ⟨ofInstance, named, typed⟩ := Member.claims_property.mp hClaims
      cases hAuto : q.isAuto with
      | false =>
        rw [hAuto] at h
        cases h
      | true =>
        rw [hAuto] at h
        cases h
        obtain ⟨m, hEffective, hStorage, hType⟩ := Member.toEffective?_autoProperty ofInstance hAuto
        obtain ⟨hSource, hName⟩ := source_of_member hMember hEffective named
        exact ⟨m, hSource, hStorage, hName, hType ▸ typed⟩
    | inherited => cases h

theorem filter_parameters (nodup : (record.parameters.map (·.name)).Nodup) (mem : p ∈ record.parameters) :
    record.parameters.filter (fun q => q.name = p.name) = [p] := by
  rw [← List.filterMap_eq_filter, filterMap_parameters nodup mem]
  · simp [Option.guard]
  · intro q hOther
    simp [Option.guard, hOther]

theorem filter_unclaimed (nodup : (record.parameters.map (·.name)).Nodup) (h : p ∈ record.unclaimed base) :
    (record.unclaimed base).filter (fun q => q.name = p.name) = [p] := by
  obtain ⟨mem, hClaim⟩ := mem_unclaimed.mp h
  rw [unclaimed, List.filter_comm, filter_parameters nodup mem]
  simp [hClaim]

theorem filter_stores (nodup : (record.parameters.map (·.name)).Nodup) (mem : p ∈ record.parameters) :
    (record.parameters.filterMap (record.store? base)).filter (fun store => store.parameter = p.name) =
      (record.store? base p).toList := by
  rw [List.filter_filterMap, filterMap_parameters nodup mem]
  · cases hStore : record.store? base p with
    | none => rfl
    | some store => simp [(store?_eq_some hStore).1]
  · intro q hOther
    cases hStore : record.store? base q with
    | none => rfl
    | some store => simp [(store?_eq_some hStore).1, hOther]

theorem stores_in_order (record : Record) (base : Option MemberSet) :
    ((record.parameters.filterMap (record.store? base)).map (·.parameter)).Sublist (record.parameters.map (·.name)) := by
  induction record.parameters with
  | nil => exact .slnil
  | cons p others ih =>
    rw [List.filterMap_cons]
    cases hStore : record.store? base p with
    | none => exact ih.cons _
    | some store =>
      rw [List.map_cons, List.map_cons, (store?_eq_some hStore).1]
      exact ih.cons_cons _

theorem isSome_store?_iff (nodup : (record.parameters.map (·.name)).Nodup) (mem : p ∈ record.parameters) :
    p.name ∈ (record.parameters.filterMap (record.store? base)).map (·.parameter) ↔
      (record.store? base p).isSome = true := by
  have hStores : (record.parameters.filterMap (record.store? base)).filter (fun store => store.parameter = p.name) =
      (record.store? base p).toList := filter_stores nodup mem
  constructor
  · intro h
    obtain ⟨store, hStore, hName⟩ := List.mem_map.mp h
    have hFound : store ∈ (record.store? base p).toList := by
      rw [← hStores]
      exact List.mem_filter.mpr ⟨hStore, decide_eq_true hName⟩
    rw [Option.mem_toList] at hFound
    rw [hFound]
    rfl
  · intro h
    obtain ⟨store, hStore⟩ := Option.isSome_iff_exists.mp h
    exact List.mem_map.mpr ⟨store, List.mem_filterMap.mpr ⟨p, mem, hStore⟩, (store?_eq_some hStore).1⟩

theorem backs_of_state {copy : Option CopyConstructor} {options : SynthesisOptions}
    (nodup : (record.parameters.map (·.name)).Nodup) {state : StateMember}
    (h : state ∈ record.ownState base record.effectiveMembers) (ofParameter : state.member.origin = .primaryParameter) :
    (record.memberSet record.effectiveMembers base copy options).Backs
      ⟨record.parameters, record.parameters.filterMap (record.store? base), record.primaryChain base⟩ state.member := by
  obtain ⟨m, hSource, hHeld⟩ := exists_source_of_state h
  simp only [EffectiveMember.held, Prod.mk.injEq] at hHeld
  obtain ⟨hName, hType, hOrigin, hStorage⟩ := hHeld
  rcases List.mem_append.mp hSource with hUnclaimed | hMember
  · obtain ⟨p, hp, rfl⟩ := List.mem_map.mp hUnclaimed
    obtain ⟨mem, hClaim⟩ := mem_unclaimed.mp hp
    constructor <;> rw [← hName, ← hType, ← hStorage]
    case store =>
      refine (filter_stores nodup mem).trans ?_
      rw [store?, hClaim]
      rfl
    case field => exact List.filter_map.trans (congrArg _ (filter_unclaimed nodup hp))
    case property => exact List.filter_map.trans (congrArg _ (filter_unclaimed nodup hp))
  · obtain ⟨member, -, hEffective⟩ := List.mem_filterMap.mp hMember
    rw [← hOrigin] at ofParameter
    exact absurd ofParameter (origin_ne_of_toEffective? hEffective)

end Decl.Record

theorem Decl.Record.inheritsProperty_iff {record : Record} {given base : Option MemberSet}
    (resolved : record.resolveBase given = .ok base) {name : String} :
    record.InheritsProperty given name ↔ ∃ above read, base = some above ∧ above.shown? name = some read := by
  have hShown : ∀ above : MemberSet, (∃ read ∈ above.printable, read.name = name ∧ read.access = .property) ↔
      ∃ read, above.shown? name = some read := by
    intro above
    rw [← Option.isSome_iff_exists, MemberSet.shown?, List.find?_isSome]
    simp
  rcases resolveBase_eq_ok_iff.mp resolved with ⟨hNone, rfl⟩ | ⟨above, hSome, rfl, rfl, _⟩
  · simp [InheritsProperty, hNone]
  · simp [InheritsProperty, hSome, hShown]

/-- Stores stand in the order of the parameters and go into own state of the parameter's name and type; what a parameter
itself puts into the state has a field, a property and a store of its own. A parameter goes without a store exactly if the
first member that claims it is a computed property, or no member claims it and the base does. -/
theorem primary_constructor_fills_state (record : Record) (given : Option MemberSet) (options : SynthesisOptions)
    (set : MemberSet) (made : (record.synthesize record.effectiveMembers given options).outcome = .ok set)
    (positional : record.isPositional = true) (distinct : (record.parameters.map (·.name)).Nodup) :
    ∃ primary, set.primaryConstructor = some primary ∧
      (primary.stores.map (·.parameter)).Sublist (record.parameters.map (·.name)) ∧
      (∀ store ∈ primary.stores, ∃ p ∈ record.parameters, store.parameter = p.name ∧ store.type = p.type ∧
        ∃ state ∈ set.state, state.member.storage = store.field ∧ state.member.name = p.name ∧
          p.type.same state.member.type = true) ∧
      (∀ state ∈ set.state, state.member.origin = .primaryParameter → set.Backs primary state.member) ∧
      ∀ p ∈ record.parameters, p.name ∉ primary.stores.map (·.parameter) ↔
        (∃ q, record.claimant? p.name p.type = some (.property q) ∧ q.isAuto = false) ∨
          record.claimant? p.name p.type = none ∧ record.InheritsProperty given p.name := by
  obtain ⟨base, copy, hBase, -, rfl⟩ := Record.synthesize_eq_ok_iff.mp made
  refine ⟨_, if_pos positional, record.stores_in_order base, ?_, ?_, ?_⟩
  · intro store hStore
    obtain ⟨p, mem, hStore⟩ := List.mem_filterMap.mp hStore
    obtain ⟨m, hSource, hStorage, hName, hTyped⟩ := Record.exists_source_of_store distinct mem hStore
    obtain ⟨state, hState, hHeld⟩ := Record.exists_state_of_source hSource
    simp only [EffectiveMember.held, Prod.mk.injEq] at hHeld
    obtain ⟨hSameName, hSameType, -, hSameStorage⟩ := hHeld
    exact ⟨p, mem, (Record.store?_eq_some hStore).1, (Record.store?_eq_some hStore).2, state, hState,
      hSameStorage.trans hStorage, hSameName.trans hName, hSameType ▸ hTyped⟩
  · exact fun state hState ofParameter => Record.backs_of_state distinct hState ofParameter
  · intro p mem
    rw [Record.isSome_store?_iff distinct mem, Bool.not_eq_true, Option.isSome_eq_false_iff, Option.isNone_iff_eq_none,
      Record.store?_eq_none_iff (Record.parameterType?_of_mem distinct mem),
      Record.inheritsProperty_iff hBase]

def enrolled : Record where
  name := "Student"
  parameters :=
    [{ name := "Label", type := Ty.int }, { name := "Grade", type := Ty.int }, { name := "Rank", type := Ty.int },
      { name := "Id", type := Ty.int }]
  members :=
    [.property { name := "Rank", type := Ty.int, isAuto := false }, .ofField "Rank" Ty.int, .ofField "Grade" Ty.int,
      .ofAutoProperty "Id" Ty.string]
  base := some "Thing"
  baseArguments := ["Label"]

theorem primary_constructor_fills_state_enrolled :
    ∃ set primary, (enrolled.synthesize enrolled.effectiveMembers (some labelledSet) {}).outcome = .ok set ∧
      enrolled.isPositional = true ∧ (enrolled.parameters.map (·.name)).Nodup ∧ set.primaryConstructor = some primary ∧
      primary.stores.map (fun store => (store.parameter, store.field)) =
        [("Grade", "Grade"), ("Id", "<Id>k__BackingField")] ∧
      ∀ state ∈ set.state, state.member.origin = .primaryParameter → set.Backs primary state.member := by
  have distinct : (enrolled.parameters.map (·.name)).Nodup := by decide
  obtain ⟨primary, hPrimary, -, -, hBacks, -⟩ :=
    primary_constructor_fills_state enrolled (some labelledSet) {} _ rfl rfl distinct
  cases hPrimary
  exact ⟨_, _, rfl, rfl, distinct, rfl, rfl, hBacks⟩

end RecordSynthesis
