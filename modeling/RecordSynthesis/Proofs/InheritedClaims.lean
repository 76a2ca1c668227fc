import RecordSynthesis.Proofs.Deconstruction
import RecordSynthesis.Proofs.Lineage
import RecordSynthesis.Proofs.ParameterValues

/-!
# Claims of the base

A primary parameter that no member of its record claims is left to the base if the base shows a property of its name.
What a base shows is the printed state, from the most distant ancestor on, while a lookup goes through the properties
that the ancestors have, from the nearest on. So computed properties lay no claim, and of several properties with storage
the one that the others hide has it.
-/

namespace RecordSynthesis

set_option autoImplicit false

open Decl (CompilationUnit Record Member PrimaryParameter)

def MemberSymbol.isPublicProperty (symbol : MemberSymbol) (name : String) : Bool :=
  symbol.kind = .property && symbol.visibility = .isPublic && !symbol.isStatic && symbol.name = name

namespace MemberSet

def backs (set : MemberSet) (symbol : MemberSymbol) : Bool :=
  match symbol.origin with
  | .synthesized => true
  | .user position =>
    match set.userMembers[position]? with
    | some (.property q) => q.isAuto
    | _ => false

/-- Whether the view has a public property of this name, for instances. -/
def exposes (set : MemberSet) (name : String) : Bool :=
  set.members.any fun symbol => symbol.isPublicProperty name

def exposesStored (set : MemberSet) (name : String) : Bool :=
  set.members.any fun symbol => symbol.isPublicProperty name && set.backs symbol

/-- A record gets nothing of its own for the primary parameters of a name. -/
structure LeavesToBase (set : MemberSet) (name : String) : Prop where
  property : ∀ property ∈ set.properties, property.name ≠ name
  field : ∀ field ∈ set.fields, field.property ≠ name
  store : ∀ primary, set.primaryConstructor = some primary → ∀ store ∈ primary.stores, store.parameter ≠ name
  state : ∀ state ∈ set.state, state.member.origin = .primaryParameter → state.member.name ≠ name

/-- A record gets all that a primary parameter of its own may have. -/
structure Holds (set : MemberSet) (p : PrimaryParameter) : Prop where
  property : p.toProperty ∈ set.properties
  field : p.toField ∈ set.fields
  store : ∃ primary, set.primaryConstructor = some primary ∧ ⟨p.name, backingFieldName p.name, p.type⟩ ∈ primary.stores
  state : ∃ order, ⟨{ p.toEffective with order }, EqualityStrategy.ofType p.type⟩ ∈ set.state

theorem Holds.not_leavesToBase {set : MemberSet} {p : PrimaryParameter} (holds : set.Holds p) :
    ¬set.LeavesToBase p.name := fun leaves =>
  leaves.property _ holds.property rfl

/-- The base claims a parameter of a name as a lookup in the views of its ancestors would: whenever one has a public
property of the name, and the parameter is then read through the property that is found. -/
structure FollowsLookup (set : MemberSet) (found : Option MemberSet) (name : String) (read : MemberRead) : Prop where
  left : set.LeavesToBase name ↔ found.isSome = true
  owner : ∀ above, found = some above → read.owner = above.selfType

/-- The base follows lookup if the set that makes the claim is the one that is found. -/
theorem followsLookup_iff {set : MemberSet} {storing? found? : Option MemberSet} {name : String} {read : MemberRead}
    (kept : storing? = none → ¬set.LeavesToBase name)
    (left : ∀ above, storing? = some above → set.LeavesToBase name ∧ read.owner = above.selfType)
    (same : ∀ above nearest, storing? = some above → found? = some nearest → above.selfType = nearest.selfType →
      above = nearest) :
    set.FollowsLookup found? name read ↔ storing? = found? := by
  constructor
  · intro follows
    cases hFound : found? with
    | none =>
      have hKept : ¬set.LeavesToBase name := by simp [follows.left, hFound]
      cases hStoring : storing? with
      | none => rfl
      | some above => exact absurd (left above hStoring).1 hKept
    | some nearest =>
      have hLeft : set.LeavesToBase name := by simp [follows.left, hFound]
      cases hStoring : storing? with
      | none => exact absurd hLeft (kept hStoring)
      | some above =>
        have hOwner := (left above hStoring).2.symm.trans (follows.owner nearest hFound)
        rw [same above nearest hStoring hFound hOwner]
  · intro hSame
    rw [← hSame]
    cases hStoring : storing? with
    | none => exact ⟨by simp [kept hStoring], by simp⟩
    | some above =>
      obtain ⟨hLeft, hOwner⟩ := left above hStoring
      refine ⟨by simp [hLeft], ?_⟩
      rintro _ ⟨⟩
      exact hOwner

theorem property_cases {set : MemberSet} {symbol : MemberSymbol} (mem : symbol ∈ set.members)
    (kind : symbol.kind = .property) :
    (∃ property ∈ set.properties, symbol =
      { name := property.name, kind := .property, returnType := some property.type
        accessors := some ⟨true, property.setter⟩ }) ∨
    ∃ position q, set.userMembers[position]? = some (.property q) ∧
      symbol = .ofMember set.recordName position (.property q) := by
  have hGroup : symbol ∈ set.group .property := by
    rw [← filter_members]
    exact List.mem_filter.mpr ⟨mem, by simpa using kind⟩
  rcases List.mem_append.mp hGroup with hSynthesized | hDeclared
  · obtain ⟨property, hProperty, rfl⟩ := List.mem_map.mp hSynthesized
    exact .inl ⟨property, hProperty, rfl⟩
  · obtain ⟨position, member, hMember, rfl⟩ := mem_userSymbols (List.mem_of_mem_filter hDeclared)
    cases member with
    | property q => exact .inr ⟨position, q, hMember, rfl⟩
    | field _ | event _ | indexer _ | method _ | constructor _ => cases kind

/-- The properties with storage in the view, named: those that are synthesized and the declared auto properties. -/
theorem exposesStored_iff {set : MemberSet} {name : String} :
    set.exposesStored name = true ↔
      (∃ property ∈ set.properties, property.name = name) ∨
        ∃ q, .property q ∈ set.userMembers ∧ q.isStatic = false ∧ q.isAuto = true ∧ q.visibility = .isPublic ∧
          q.name = name := by
  simp only [exposesStored, MemberSymbol.isPublicProperty, List.any_eq_true, Bool.and_eq_true, decide_eq_true_eq,
    Bool.not_eq_true', and_assoc]
  constructor
  · rintro ⟨symbol, hSymbol, hKind, hPublic, hStatic, rfl, hBacked⟩
    rcases property_cases hSymbol hKind with ⟨property, hProperty, rfl⟩ | ⟨position, q, hMember, rfl⟩
    · exact .inl ⟨property, hProperty, rfl⟩
    · have hAuto : q.isAuto = true := by simpa [backs, MemberSymbol.ofMember, hMember] using hBacked
      exact .inr ⟨q, List.mem_of_getElem? hMember, hStatic, hAuto, hPublic, rfl⟩
  · rintro (⟨property, hProperty, rfl⟩ | ⟨q, hMember, hStatic, hAuto, hPublic, rfl⟩)
    · have hSymbol : _ ∈ set.synthesizedOf .property := List.mem_map_of_mem hProperty
      exact ⟨_, mem_members_of_synthesizedOf hSymbol, rfl, rfl, rfl, rfl, rfl⟩
    · obtain ⟨position, hAt⟩ := List.mem_iff_getElem?.mp hMember
      refine ⟨_, mem_members_of_userMembers hAt, rfl, hPublic, hStatic, rfl, ?_⟩
      simpa [backs, MemberSymbol.ofMember, hAt] using hAuto

end MemberSet

/-- The property reads that a set adds to those of its base: of what is synthesized, and of what is declared as public,
for instances and with storage. -/
inductive MemberSet.Prints (set : MemberSet) : MemberRead → Prop
  | synthesized {property : SynthesizedProperty} (mem : property ∈ set.properties) :
      Prints set ⟨property.name, property.type, .property, set.selfType⟩
  | declared {q : Decl.Property} (mem : .property q ∈ set.userMembers) (ofInstance : q.isStatic = false)
      (stored : q.isAuto = true) (shown : q.visibility = .isPublic) :
      Prints set ⟨q.name, q.type, .property, set.selfType⟩

theorem Decl.Member.shows_property_iff {member : Member} {owner : Ty} {read : MemberRead} :
    (∃ m, member.toEffective? = some m ∧
        StateMember.printable? owner ⟨m, EqualityStrategy.ofType m.type⟩ = some read ∧ read.access = .property) ↔
      ∃ q, member = .property q ∧ q.isStatic = false ∧ q.isAuto = true ∧ q.visibility = .isPublic ∧
        read = ⟨q.name, q.type, .property, owner⟩ := by
  constructor
  · rintro ⟨m, hEffective, hRead, hAccess⟩
    rcases printable?_cases hEffective hRead with ⟨f, -, -, rfl⟩ | ⟨q, rfl, hStatic, rfl⟩
    · cases hAccess
    · rw [toEffective?] at hEffective
      split at hEffective
      · cases hEffective
      · rename_i hStored
        cases hEffective
        obtain ⟨hPublic, -⟩ := Option.ite_none_right_eq_some.mp hRead
        exact ⟨q, rfl, hStatic, by simpa [hStatic] using hStored, hPublic, rfl⟩
  · rintro ⟨q, rfl, hStatic, hAuto, hPublic, rfl⟩
    refine ⟨_, if_neg (by simp [hStatic, hAuto]), if_pos hPublic, rfl⟩

namespace RecordTable

variable {unit : CompilationUnit} {options : SynthesisOptions} {table : RecordTable} {set : MemberSet}

theorem Origin.mem_ownReads_iff {record : Record} {base : Option MemberSet} {copy : Option CopyConstructor}
    (origin : Origin unit options table set record base copy) {read : MemberRead} :
    read ∈ set.ownReads ∧ read.access = .property ↔ set.Prints read := by
  rw [MemberSet.ownReads_eq, origin.made]
  simp only [Record.memberSet]
  rw [record.filterMap_ownState base (StateMember.printable? record.selfType) fun _ _ _ => rfl, Record.stateSources,
    List.filterMap_append]
  constructor
  · rintro ⟨hRead, hAccess⟩
    rcases List.mem_append.mp hRead with hParameter | hMember
    · obtain ⟨_, hEffective, hShown⟩ := List.mem_filterMap.mp hParameter
      obtain ⟨p, hUnclaimed, rfl⟩ := List.mem_map.mp hEffective
      cases hShown
      exact @MemberSet.Prints.synthesized _ p.toProperty (List.mem_map_of_mem hUnclaimed)
    · obtain ⟨m, hEffective, hShown⟩ := List.mem_filterMap.mp hMember
      obtain ⟨member, hDeclared, hEffective⟩ := List.mem_filterMap.mp hEffective
      obtain ⟨q, rfl, hStatic, hAuto, hPublic, rfl⟩ :=
        Member.shows_property_iff.mp ⟨m, hEffective, hShown, hAccess⟩
      exact .declared hDeclared hStatic hAuto hPublic
  · rintro (hProperty | ⟨hMember, hStatic, hAuto, hPublic⟩)
    · obtain ⟨p, hUnclaimed, rfl⟩ := List.mem_map.mp hProperty
      exact ⟨List.mem_append_left _ (List.mem_filterMap.mpr ⟨_, List.mem_map_of_mem hUnclaimed, rfl⟩), rfl⟩
    · obtain ⟨m, hEffective, hShown, hAccess⟩ :=
        Member.shows_property_iff.mpr ⟨_, rfl, hStatic, hAuto, hPublic, rfl⟩
      exact ⟨List.mem_append_right _
        (List.mem_filterMap.mpr ⟨m, List.mem_filterMap.mpr ⟨_, hMember, hEffective⟩, hShown⟩), hAccess⟩

theorem Origin.isSome_shown {record : Record} {base : Option MemberSet} {copy : Option CopyConstructor}
    (origin : Origin unit options table set record base copy) (name : String) :
    (set.ownReads.find? fun read => read.name = name && read.access = .property).isSome =
      set.exposesStored name := by
  rw [Bool.eq_iff_iff, MemberSet.exposesStored_iff]
  simp only [List.find?_isSome, Bool.and_eq_true, decide_eq_true_eq]
  constructor
  · rintro ⟨read, hRead, hName, hAccess⟩
    cases origin.mem_ownReads_iff.mp ⟨hRead, hAccess⟩ with
    | synthesized mem => exact .inl ⟨_, mem, hName⟩
    | declared mem ofInstance stored shown => exact .inr ⟨_, mem, ofInstance, stored, shown, hName⟩
  · rintro (⟨property, mem, hName⟩ | ⟨q, mem, ofInstance, stored, shown, hName⟩)
    · obtain ⟨hRead, hAccess⟩ := origin.mem_ownReads_iff.mpr (.synthesized mem)
      exact ⟨_, hRead, hName, hAccess⟩
    · obtain ⟨hRead, hAccess⟩ := origin.mem_ownReads_iff.mpr (.declared mem ofInstance stored shown)
      exact ⟨_, hRead, hName, hAccess⟩

theorem find?_flatMap_ownReads {levels : List MemberSet} {q : MemberRead → Bool} {shows : MemberSet → Bool}
    (h : ∀ level ∈ levels, (level.ownReads.find? q).isSome = shows level) :
    ((levels.flatMap MemberSet.ownReads).find? q).map (·.owner) = (levels.find? shows).map (·.selfType) := by
  induction levels with
  | nil => rfl
  | cons level levels ih =>
    obtain ⟨hLevel, hLevels⟩ := List.forall_mem_cons.mp h
    rw [List.flatMap_cons, List.find?_append, List.find?_cons, ← hLevel]
    cases hRead : level.ownReads.find? q with
    | none => exact ih hLevels
    | some read =>
      obtain ⟨state, -, rfl⟩ := List.mem_map.mp (List.mem_of_find?_eq_some hRead)
      rfl

/-- A set shows a property of a name through the most distant of its levels that has one with storage. -/
theorem Grown.owner_shown? (grown : table.Grown unit options) (mem : set ∈ table.sets) (name : String) :
    (set.shown? name).map (·.owner) =
      ((table.levels set).find? fun level => level.exposesStored name).map (·.selfType) := by
  obtain ⟨ancestors, -, hLevels, -, hPrintable⟩ := grown.exists_ancestry mem
  rw [MemberSet.shown?, hPrintable, ← hLevels]
  refine find?_flatMap_ownReads fun level hLevel => ?_
  obtain ⟨_, _, _, origin⟩ := grown.exists_origin (grown.levels_subset mem level hLevel)
  exact origin.isSome_shown name

end RecordTable

/-- The member of a record that claims the primary parameters of a name, if one does. -/
def Decl.Record.ownClaimant? (record : Record) (name : String) : Option Member :=
  (record.parameterType? name).bind (record.claimant? name)

theorem Decl.Record.claim?_of_unclaimed {record : Record} {p : PrimaryParameter} (mem : p ∈ record.parameters)
    (unclaimed : record.ownClaimant? p.name = none) (above : MemberSet) :
    record.claim? (some above) p.name =
      (above.shown? p.name).map fun read => ⟨none, read.type, .property, read.owner⟩ := by
  obtain ⟨type, hType⟩ := exists_parameterType? mem
  rw [ownClaimant?, hType, Option.bind_some] at unclaimed
  have settled := record.claim?_settled (some above) hType
  generalize record.claim? (some above) p.name = claim at settled
  cases settled with
  | field first | property first => rw [unclaimed] at first; cases first
  | inherited _ derived shown =>
    cases derived
    rw [shown]
    rfl
  | nobody _ hidden => rw [hidden above rfl, Option.map_none]

namespace RecordTable.Origin

variable {unit : CompilationUnit} {options : SynthesisOptions} {table : RecordTable} {set : MemberSet}
  {record : Record} {base : Option MemberSet} {copy : Option CopyConstructor}

theorem holds (origin : Origin unit options table set record base copy) {p : PrimaryParameter}
    (mem : p ∈ record.parameters) (h : record.claim? base p.name = none) : set.Holds p := by
  have hUnclaimed : p ∈ record.unclaimed base := List.mem_filter.mpr ⟨mem, by simp [h]⟩
  have hPositional : record.isPositional = true := by
    rw [Record.isPositional]
    cases hParameters : record.parameters with
    | nil => simp [hParameters] at mem
    | cons _ _ => rfl
  rw [origin.made]
  refine ⟨List.mem_map_of_mem hUnclaimed, List.mem_map_of_mem hUnclaimed, ⟨_, if_pos hPositional, ?_⟩, ?_⟩
  · exact List.mem_filterMap.mpr ⟨p, mem, by rw [Record.store?, h]⟩
  · obtain ⟨order, hOrder, hAt⟩ := List.getElem_of_mem mem
    refine ⟨order, List.mem_map.mpr ⟨{ p.toEffective with order }, List.mem_filter.mpr ⟨?_, ?_⟩, rfl⟩⟩
    · refine List.mem_mapIdx.mpr ⟨order, by simp; omega, ?_⟩
      simp [List.getElem_append_left, hOrder, hAt]
    · simp [PrimaryParameter.toEffective, h]

theorem leavesToBase (origin : Origin unit options table set record base copy) {name : String} {claim : Claim}
    (h : record.claim? base name = some claim) (storage : claim.storage = none) : set.LeavesToBase name := by
  have apart : ∀ p ∈ record.unclaimed base, p.name ≠ name := by
    rintro p hp rfl
    have hNone := (List.mem_filter.mp hp).2
    rw [h] at hNone
    cases hNone
  rw [origin.made]
  refine ⟨?_, ?_, ?_, ?_⟩
  · intro property hProperty
    obtain ⟨p, hp, rfl⟩ := List.mem_map.mp hProperty
    exact apart p hp
  · intro field hField
    obtain ⟨p, hp, rfl⟩ := List.mem_map.mp hField
    exact apart p hp
  · intro primary hPrimary store hStore
    obtain ⟨-, ⟨⟩⟩ := Option.ite_none_right_eq_some.mp hPrimary
    obtain ⟨p, -, hStore⟩ := List.mem_filterMap.mp hStore
    rintro rfl
    rw [(Record.store?_eq_some hStore).1] at h
    simp [Record.store?, h, storage] at hStore
  · intro state hState hOrigin
    obtain ⟨m, hm, rfl⟩ := List.mem_map.mp hState
    rintro rfl
    have hFree := (List.mem_filter.mp hm).2
    have hParameter : m.origin = .primaryParameter := hOrigin
    have hClaimed : record.claim? base m.name = some claim := h
    simp [hParameter, hClaimed] at hFree

theorem holds_of_hidden {above : MemberSet} (origin : Origin unit options table set record (some above) copy)
    {p : PrimaryParameter} (mem : p ∈ record.parameters) (unclaimed : record.ownClaimant? p.name = none)
    (h : above.shown? p.name = none) :
    set.Holds p ∧ (record.positionalRead (some above) p).owner = set.selfType := by
  have hClaim := Record.claim?_of_unclaimed mem unclaimed above
  rw [h, Option.map_none] at hClaim
  refine ⟨origin.holds mem hClaim, ?_⟩
  rw [Record.positionalRead, hClaim, origin.made]
  rfl

theorem leavesToBase_of_shown {above : MemberSet} (origin : Origin unit options table set record (some above) copy)
    {p : PrimaryParameter} (mem : p ∈ record.parameters) (unclaimed : record.ownClaimant? p.name = none)
    {read : MemberRead} (h : above.shown? p.name = some read) :
    set.LeavesToBase p.name ∧ (record.positionalRead (some above) p).access = .property ∧
      (record.positionalRead (some above) p).owner = read.owner := by
  have hClaim := Record.claim?_of_unclaimed mem unclaimed above
  rw [h, Option.map_some] at hClaim
  refine ⟨origin.leavesToBase hClaim rfl, ?_⟩
  rw [Record.positionalRead, hClaim]
  exact ⟨rfl, rfl⟩

end RecordTable.Origin

/-- A primary parameter that its record does not claim is left to the base exactly if an ancestor has a public property
of its name with storage, and is read through the most distant such ancestor. So the claim of the base goes by member
lookup exactly if that is also the nearest ancestor with any public property of the name, or there is none at all. -/
theorem base_claims_iff (unit : CompilationUnit) (options : SynthesisOptions) (set : MemberSet)
    (mem : set ∈ (checkUnit unit options).table.sets) (record : Record)
    (declared : unit.find? set.recordName = some record) (named : String) (derived : record.base = some named) (i : Nat)
    (p : PrimaryParameter) (parameter : record.parameters[i]? = some p)
    (unclaimed : record.ownClaimant? p.name = none) :
    let table := (checkUnit unit options).table
    ∃ base read, table.baseOf? set = some base ∧ set.positional[i]? = some read ∧ read.name = p.name ∧
      let ancestors := table.levels base
      let storing? := ancestors.find? fun level => level.exposesStored p.name
      let found? := ancestors.reverse.find? fun level => level.exposes p.name
      (storing? = none → set.Holds p ∧ read.owner = set.selfType) ∧
      (∀ above, storing? = some above →
        set.LeavesToBase p.name ∧ read.access = .property ∧ read.owner = above.selfType) ∧
      (set.FollowsLookup found? p.name read ↔ storing? = found?) := by
  intro table
  have grown : table.Grown unit options := checkUnit_grown unit options
  obtain ⟨above?, copy, origin⟩ := grown.exists_origin_of_find? mem declared
  have hParameter := List.mem_of_getElem? parameter
  cases hAbove : above? with
  | none =>
    rw [hAbove] at origin
    rcases Record.resolveBase_eq_ok_iff.mp origin.resolved with ⟨hNone, -⟩ | ⟨_, _, _, hSome, _⟩
    · rw [derived] at hNone
      cases hNone
    · cases hSome
  | some base =>
    subst hAbove
    have hRead : set.positional[i]? = some (record.positionalRead (some base) p) := by
      rw [origin.made]
      simp [Record.memberSet, parameter]
    refine ⟨base, _, origin.baseOf?_eq, hRead, Record.name_positionalRead p, ?_⟩
    intro ancestors storing? found?
    have inTable : ∀ level ∈ ancestors, level ∈ table.sets := grown.levels_subset (origin.base_mem rfl).1
    have hOwner : (base.shown? p.name).map (·.owner) = storing?.map (·.selfType) :=
      grown.owner_shown? (origin.base_mem rfl).1 p.name
    have held : storing? = none →
        set.Holds p ∧ (record.positionalRead (some base) p).owner = set.selfType := by
      intro hNone
      rw [hNone, Option.map_none, Option.map_eq_none_iff] at hOwner
      exact origin.holds_of_hidden hParameter unclaimed hOwner
    have left : ∀ above, storing? = some above → set.LeavesToBase p.name ∧
        (record.positionalRead (some base) p).access = .property ∧
        (record.positionalRead (some base) p).owner = above.selfType := by
      intro above hSome
      rw [hSome, Option.map_some, Option.map_eq_some_iff] at hOwner
      obtain ⟨read, hShown, hOwner⟩ := hOwner
      rw [← hOwner]
      exact origin.leavesToBase_of_shown hParameter unclaimed hShown
    refine ⟨held, left, MemberSet.followsLookup_iff (fun hNone => (held hNone).1.not_leavesToBase) ?_ ?_⟩
    · intro above hSome
      exact ⟨(left above hSome).1, (left above hSome).2.2⟩
    · intro above nearest hStoring hFound hSame
      have hNearest : nearest ∈ ancestors := List.mem_reverse.mp (List.mem_of_find?_eq_some hFound)
      exact grown.eq_of_same (inTable _ (List.mem_of_find?_eq_some hStoring)) (inTable _ hNearest)
        (hSame ▸ Ty.same_refl _)

def catalogue : CompilationUnit where
  records :=
    [{ name := "Thing"
       members := [.property { name := "Label", type := Ty.string, isAuto := false, visibility := .isPublic }] },
      { name := "Tag", parameters := [{ name := "Label", type := Ty.string }], base := some "Thing" },
      { name := "Item", members := [.ofAutoProperty "Name" Ty.string] },
      { name := "Article", members := [.ofAutoProperty "Name" Ty.string], base := some "Item" },
      { name := "Book", parameters := [{ name := "Name", type := Ty.string }], base := some "Article" }]

/-- Nothing is reported, and yet the base leaves a parameter that it has a property for, and claims another through a
property that is hidden. -/
theorem not_base_claims_catalogue :
    let result := checkUnit catalogue.resolve {}
    let lookup (base : MemberSet) (name : String) : Option MemberSet :=
      (result.table.levels base).reverse.find? fun level => level.exposes name
    result.diagnostics.isEmpty = true ∧ result.faults = [] ∧
    (∃ set ∈ result.table.sets, ∃ record base p read, catalogue.resolve.find? set.recordName = some record ∧
      result.table.baseOf? set = some base ∧ record.parameters = [p] ∧ record.ownClaimant? p.name = none ∧
      set.positional = [read] ∧ (lookup base p.name).map (·.recordName) = some "Thing" ∧ ¬set.LeavesToBase p.name) ∧
    ∃ set ∈ result.table.sets, ∃ record base p read, catalogue.resolve.find? set.recordName = some record ∧
      result.table.baseOf? set = some base ∧ record.parameters = [p] ∧ record.ownClaimant? p.name = none ∧
      set.positional = [read] ∧ (lookup base p.name).map (·.selfType.canonical) = some "Article" ∧
      read.owner.canonical = "Item" := by
  intro result lookup
  have hTag : result.table.sets[1]? = some _ := rfl
  have hBook : result.table.sets[4]? = some _ := rfl
  refine ⟨rfl, rfl, ⟨_, List.mem_of_getElem? hTag, _, _, _, _, rfl, rfl, rfl, rfl, rfl, by decide +kernel, ?_⟩,
    _, List.mem_of_getElem? hBook, _, _, _, _, rfl, rfl, rfl, rfl, rfl, by decide +kernel, by decide +kernel⟩
  intro leaves
  exact leaves.property _ List.mem_cons_self rfl

/-- A student forwards a name that the person above stores. -/
theorem base_claims_iff_student :
    schoolStudent ∈ (checkUnit school {}).table.sets ∧
    ∃ record p base read, school.find? schoolStudent.recordName = some record ∧ record.base = some "Person" ∧
      record.parameters[0]? = some p ∧ record.ownClaimant? p.name = none ∧
      (checkUnit school {}).table.baseOf? schoolStudent = some base ∧ schoolStudent.positional[0]? = some read ∧
      schoolStudent.LeavesToBase "Name" ∧ read.owner = base.selfType := by
  have hFound : (checkUnit school {}).table.get? "Student" = some schoolStudent := rfl
  have mem := (RecordTable.mem_of_get? hFound).1
  obtain ⟨base, read, hBase, hRead, -, -, left, -⟩ :=
    base_claims_iff school {} schoolStudent mem _ rfl "Person" rfl 0 _ rfl rfl
  cases hBase
  obtain ⟨hLeft, -, hOwner⟩ := left _ (by rw [RecordTable.levels]; rfl)
  exact ⟨mem, _, _, _, read, rfl, rfl, rfl, rfl, rfl, hRead, hLeft, hOwner⟩

end RecordSynthesis
