import RecordSynthesis.Code.Lowering
import RecordSynthesis.Proofs.ParameterClaims
import RecordSynthesis.Proofs.Synthesis

/-!
# Declaration style

State may be declared as primary parameters or as public properties with storage. Whatever the mix, the record compares,
hashes, copies and prints by the same code: of a piece of state, lowering looks at its storage, its type and its equality
only, and there the two ways of declaring agree.
-/

namespace RecordSynthesis

set_option autoImplicit false

open Code
open Decl (Record Member Property PrimaryParameter)

def StateMember.bare (state : StateMember) : StateMember where
  member := { (default : EffectiveMember) with type := state.member.type, storage := state.member.storage }
  equality := state.equality

/-- The members that exist for the sake of primary parameters. -/
def SynthesizedMember.isForParameters : SynthesizedMember → Bool
  | .primaryConstructor | .getter _ | .initAccessor _ | .deconstruct => true
  | .copyConstructor | .clone | .typedEquals | .objectEquals | .hash | .equalityOperator | .inequalityOperator
  | .textForm => false

namespace MemberSet

structure Alike (set other : MemberSet) : Prop where
  recordName : set.recordName = other.recordName
  selfType : set.selfType = other.selfType
  isValueType : set.isValueType = other.isValueType
  base : set.base = other.base
  state : set.state.map StateMember.bare = other.state.map StateMember.bare
  copyConstructor : set.copyConstructor = other.copyConstructor
  unadopted : ∀ position parameter body chain, set.copyConstructor ≠ some (.adopted position parameter body chain)
  clone : set.clone = other.clone
  equality : set.equality = other.equality
  operators : set.operators = other.operators
  textForm : set.textForm = other.textForm
  printable : set.printable = other.printable

namespace Alike

variable {set other : MemberSet} (alike : set.Alike other)

include alike

theorem stateField : set.stateField = other.stateField := by
  funext state
  rw [MemberSet.stateField, MemberSet.stateField, field, field, alike.selfType]

theorem map_state {α : Type} (f : StateMember → α) (blind : ∀ state, f state.bare = f state) :
    set.state.map f = other.state.map f := by
  have hBare : f ∘ StateMember.bare = f := funext blind
  rw [← hBare, ← List.map_map, ← List.map_map, alike.state]

theorem lowerCopyConstructor (chain : ConstructorChain) :
    set.lowerCopyConstructor (.synthesized chain) = other.lowerCopyConstructor (.synthesized chain) := by
  simp only [MemberSet.lowerCopyConstructor, alike.selfType, alike.stateField]
  rw [alike.map_state _ fun _ => rfl]

theorem lowerClone : set.lowerClone = other.lowerClone := by
  simp only [MemberSet.lowerClone, alike.selfType, alike.clone, alike.isValueType]

theorem equalityTerms : set.equalityTerms = other.equalityTerms := by
  simp only [MemberSet.equalityTerms, alike.base, alike.stateField]
  rw [alike.map_state _ fun _ => rfl]

theorem lowerTypedEquals : set.lowerTypedEquals = other.lowerTypedEquals := by
  simp only [MemberSet.lowerTypedEquals, alike.selfType, alike.isValueType, alike.equalityTerms]

theorem lowerObjectEquals : set.lowerObjectEquals = other.lowerObjectEquals := by
  simp only [MemberSet.lowerObjectEquals, alike.selfType]

theorem hashSeed : set.hashSeed = other.hashSeed := by
  simp only [MemberSet.hashSeed, alike.base, alike.selfType]

theorem lowerHash : set.lowerHash = other.lowerHash := by
  have hDigests : set.state.map (fun state => Expr.memberHash state.equality state.member.type
      (.loadField .this (other.stateField state))) = other.state.map fun state =>
        Expr.memberHash state.equality state.member.type (.loadField .this (other.stateField state)) :=
    alike.map_state _ fun _ => rfl
  have hFold := congrArg (List.foldl Expr.combineHashes other.hashSeed) hDigests
  rw [List.foldl_map, List.foldl_map] at hFold
  simp only [MemberSet.lowerHash, alike.selfType, alike.stateField, alike.hashSeed, hFold]

theorem lowerEqualityOperator : set.lowerEqualityOperator = other.lowerEqualityOperator := by
  simp only [MemberSet.lowerEqualityOperator, lowerOperator, alike.selfType, alike.isValueType]

theorem lowerInequalityOperator : set.lowerInequalityOperator = other.lowerInequalityOperator := by
  simp only [MemberSet.lowerInequalityOperator, lowerOperator, alike.selfType]

theorem lowerTextForm : set.lowerTextForm = other.lowerTextForm := by
  simp only [MemberSet.lowerTextForm, printedParts, alike.selfType, alike.printable, alike.recordName]

theorem lower? {member : SynthesizedMember} (h : member.isForParameters = false) :
    set.lower? member = other.lower? member := by
  cases member with
  | primaryConstructor | getter _ | initAccessor _ | deconstruct => cases h
  | copyConstructor =>
    rw [MemberSet.lower?, MemberSet.lower?, ← alike.copyConstructor]
    cases hCopy : set.copyConstructor with
    | none => rfl
    | some copy =>
      cases copy with
      | synthesized chain => exact congrArg some (alike.lowerCopyConstructor chain)
      | adopted position parameter body chain => exact absurd hCopy (alike.unadopted position parameter body chain)
  | clone => exact congrArg some alike.lowerClone
  | typedEquals => simp only [MemberSet.lower?, alike.equality, alike.lowerTypedEquals]
  | objectEquals => simp only [MemberSet.lower?, alike.equality, alike.lowerObjectEquals]
  | hash => simp only [MemberSet.lower?, alike.equality, alike.lowerHash]
  | equalityOperator => simp only [MemberSet.lower?, alike.operators, alike.lowerEqualityOperator]
  | inequalityOperator => simp only [MemberSet.lower?, alike.operators, alike.lowerInequalityOperator]
  | textForm => simp only [MemberSet.lower?, alike.textForm, alike.lowerTextForm]

theorem lower {member : SynthesizedMember} (h : member.isForParameters = false) :
    set.lower member = other.lower member := by
  rw [MemberSet.lower, MemberSet.lower, alike.lower? h, alike.recordName]

end Alike

end MemberSet

/-- A record that declares state of these names and types, the entries before the split as primary parameters and the
others as public properties with storage, and no other members. -/
structure Decl.Record.Declares (record : Record) (entries : List (String × Ty)) (split : Nat) : Prop where
  parameters : record.parameters.map (fun p => (p.name, p.type)) = entries.take split
  properties : ∃ properties : List Property, record.members = properties.map .property ∧
    properties.map (fun q => (q.name, q.type)) = entries.drop split ∧
    ∀ q ∈ properties, q.isStatic = false ∧ q.isAuto = true ∧ q.visibility = .isPublic
  arguments : ∀ argument ∈ record.baseArguments, ∃ p ∈ record.parameters, p.name = argument

/-- No property that a base prints bears the name of an entry. -/
def Decl.Record.Apart (base : Option MemberSet) (entries : List (String × Ty)) : Prop :=
  ∀ above, base = some above → ∀ read ∈ above.printable, read.access = .property → read.name ∉ entries.map Prod.fst

def bareState (entry : String × Ty) : StateMember where
  member := { (default : EffectiveMember) with type := entry.2, storage := backingFieldName entry.1 }
  equality := EqualityStrategy.ofType entry.2

namespace Decl.Record.Declares

variable {record : Record} {entries : List (String × Ty)} {split : Nat} (declares : record.Declares entries split)

include declares

theorem parameterNames : record.parameters.map (·.name) = (entries.take split).map Prod.fst := by
  rw [← declares.parameters, List.map_map]
  rfl

theorem member_cases {member : Member} (h : member ∈ record.members) :
    ∃ q, member = .property q ∧ (q.name, q.type) ∈ entries.drop split ∧ q.isStatic = false ∧ q.isAuto = true ∧
      q.visibility = .isPublic := by
  obtain ⟨properties, hMembers, hEntries, hPublic⟩ := declares.properties
  rw [hMembers] at h
  obtain ⟨q, hq, rfl⟩ := List.mem_map.mp h
  refine ⟨q, rfl, ?_, hPublic q hq⟩
  rw [← hEntries]
  exact List.mem_map.mpr ⟨q, hq, rfl⟩

theorem slot_eq (name : String) (signature : Signature) : record.slot name signature = .synthesized := by
  have hNone : record.members.findIdx? (Member.implements name signature) = none := by
    rw [List.findIdx?_eq_none_iff]
    intro member hMember
    obtain ⟨q, rfl, -⟩ := declares.member_cases hMember
    rfl
  rw [slot, hNone]

theorem copyConstructor_eq (base : Option MemberSet) :
    record.copyConstructor base =
      match base with
      | none => .ok (.synthesized .object)
      | some above => (above.copyChain copyParameterName).map .synthesized := by
  have hNone : (ConstructorIndex.ofMembers record.members).first? record.copySignature = none := by
    cases hFirst : (ConstructorIndex.ofMembers record.members).first? record.copySignature with
    | none => rfl
    | some position =>
      obtain ⟨c, hMember, _⟩ := ConstructorIndex.first?_ofMembers hFirst
      obtain ⟨q, hq, -⟩ := declares.member_cases (List.mem_of_getElem? hMember)
      cases hq
  cases base with
  | none => simp only [copyConstructor.eq_def, hNone]
  | some above => simp only [copyConstructor.eq_def, hNone]

theorem claim?_eq_none (nodup : (entries.map Prod.fst).Nodup) {base : Option MemberSet} (apart : Apart base entries)
    {p : PrimaryParameter} (mem : p ∈ record.parameters) : record.claim? base p.name = none := by
  have hNames : (record.parameters.map (·.name)).Nodup := by
    rw [declares.parameterNames]
    exact nodup.sublist ((List.take_sublist _ _).map _)
  have hName : p.name ∈ (entries.take split).map Prod.fst := by
    rw [← declares.parameterNames]
    exact List.mem_map.mpr ⟨p, mem, rfl⟩
  refine (claim?_eq_none_iff hNames mem).mpr ?_
  intro claim laid
  cases laid with
  | field hMember _ _ _ =>
    obtain ⟨q, hq, -⟩ := declares.member_cases hMember
    cases hq
  | property hMember _ named _ =>
    obtain ⟨q, hq, hEntry, -⟩ := declares.member_cases hMember
    cases hq
    have hOther : p.name ∈ (entries.drop split).map Prod.fst := named ▸ List.mem_map.mpr ⟨_, hEntry, rfl⟩
    rw [← List.take_append_drop split entries, List.map_append] at nodup
    exact (List.nodup_append.mp nodup).2.2 _ hName _ hOther rfl
  | inherited derived hRead named access =>
    refine apart _ derived _ hRead access ?_
    rw [named]
    exact ((List.take_sublist _ _).map _).subset hName

/-- A view that does not tell the two ways of declaring apart sees the entries. -/
theorem filterMap_ownState_eq {α : Type} (nodup : (entries.map Prod.fst).Nodup) {base : Option MemberSet}
    (apart : Apart base entries) (view : StateMember → Option α) (seen : String × Ty → α)
    (blind : ∀ m order equality, view ⟨{ m with order }, equality⟩ = view ⟨m, equality⟩)
    (shown : ∀ m : EffectiveMember, m.isPropertyBacked = true → m.visibility = .isPublic →
      m.storage = backingFieldName m.name → view ⟨m, EqualityStrategy.ofType m.type⟩ = some (seen (m.name, m.type))) :
    (record.ownState base record.effectiveMembers).filterMap view = entries.map seen := by
  have hUnclaimed : record.unclaimed base = record.parameters := by
    rw [unclaimed, List.filter_eq_self]
    intro p hp
    rw [declares.claim?_eq_none nodup apart hp]
    rfl
  obtain ⟨properties, hMembers, hEntries, hPublic⟩ := declares.properties
  rw [filterMap_ownState record base view blind, stateSources, hUnclaimed, List.filterMap_append, hMembers,
    ← List.take_append_drop split entries, List.map_append, ← declares.parameters, ← hEntries]
  congr 1
  · rw [List.map_map, List.filterMap_map, ← List.filterMap_eq_map]
    exact List.filterMap_congr fun p _ => shown p.toEffective rfl rfl rfl
  · rw [List.map_map, List.filterMap_map, List.filterMap_filterMap, ← List.filterMap_eq_map]
    apply List.filterMap_congr
    intro q hq
    obtain ⟨hStatic, hAuto, hVisible⟩ := hPublic q hq
    rw [Function.comp_apply, Member.toEffective?, if_neg (by simp [hStatic, hAuto]), Option.bind_some]
    exact shown _ rfl hVisible rfl

theorem map_bare_ownState (nodup : (entries.map Prod.fst).Nodup) {base : Option MemberSet}
    (apart : Apart base entries) :
    (record.ownState base record.effectiveMembers).map StateMember.bare = entries.map bareState := by
  rw [← List.filterMap_eq_map]
  refine declares.filterMap_ownState_eq nodup apart _ _ (fun _ _ _ => rfl) ?_
  intro m _ _ hStorage
  simp [StateMember.bare, bareState, hStorage]

theorem printable_ownState (nodup : (entries.map Prod.fst).Nodup) {base : Option MemberSet}
    (apart : Apart base entries) (owner : Ty) :
    (record.ownState base record.effectiveMembers).filterMap (StateMember.printable? owner) =
      entries.map fun entry => ⟨entry.1, entry.2, .property, owner⟩ := by
  refine declares.filterMap_ownState_eq nodup apart _ _ (fun _ _ _ => rfl) ?_
  intro m hBacked hVisible _
  rw [StateMember.printable?, if_pos hVisible]
  cases hOrigin : m.origin with
  | primaryParameter | nominalPropertyBacking => rfl
  | nominalField | nominalEventBacking =>
    rw [EffectiveMember.isPropertyBacked, hOrigin] at hBacked
    cases hBacked

end Decl.Record.Declares

/-- Two declarations that differ in parameters, members and base arguments at most. -/
structure Decl.Record.SameHeader (record other : Record) : Prop where
  name : record.name = other.name
  typeParameters : record.typeParameters = other.typeParameters
  isValueType : record.isValueType = other.isValueType
  base : record.base = other.base

namespace Decl.Record.SameHeader

variable {first second : Record} (header : first.SameHeader second) {entries : List (String × Ty)}
  {firstSplit secondSplit : Nat} (hFirst : first.Declares entries firstSplit)
  (hSecond : second.Declares entries secondSplit)

include header

theorem selfType : first.selfType = second.selfType := by
  rw [Record.selfType, Record.selfType, kind, kind, header.name, header.typeParameters, header.isValueType]

include hFirst hSecond

theorem resolveBase (given : Option MemberSet) : first.resolveBase given = second.resolveBase given := by
  have hFirstFound : first.baseArguments.find? (fun argument => !first.parameters.any fun p => p.name = argument) =
      none := by simpa using hFirst.arguments
  have hSecondFound : second.baseArguments.find? (fun argument => !second.parameters.any fun p => p.name = argument) =
      none := by simpa using hSecond.arguments
  simp only [Record.resolveBase, header.name, header.base, header.isValueType, hFirstFound, hSecondFound]

theorem alike (nodup : (entries.map Prod.fst).Nodup) {base : Option MemberSet} (apart : Apart base entries)
    {copy : Option CopyConstructor} (copied : first.HasCopy base copy) (options : SynthesisOptions) :
    (first.memberSet first.effectiveMembers base copy options).Alike
      (second.memberSet second.effectiveMembers base copy options) where
  recordName := header.name
  selfType := header.selfType
  isValueType := header.isValueType
  base := rfl
  state := by
    simp only [memberSet, hFirst.map_bare_ownState nodup apart, hSecond.map_bare_ownState nodup apart]
  copyConstructor := rfl
  unadopted position parameter body chain h := by
    rw [show copy = some (.adopted position parameter body chain) from h] at copied
    rcases copyConstructor_eq_ok copied.2 with hMade | ⟨_, c, _, _, hMember, _⟩
    · cases hMade
    · obtain ⟨q, hq, -⟩ := hFirst.member_cases (List.mem_of_getElem? hMember)
      cases hq
  clone := by simp only [memberSet, header.selfType]
  equality := by simp only [memberSet, hFirst.slot_eq, hSecond.slot_eq]
  operators := rfl
  textForm := by simp only [memberSet, hFirst.slot_eq, hSecond.slot_eq]
  printable := by
    simp only [memberSet, header.selfType, hFirst.printable_ownState nodup apart, hSecond.printable_ownState nodup apart]

end Decl.Record.SameHeader

/-- However a list of entries is split into primary parameters and public properties with storage, the members that are
not there for the parameters come out the same, or fail to alike: equality, hashing, copying, the operators and the text
form do not depend on the style of the declaration. -/
theorem lowering_independent_of_style {first second : Record} {entries : List (String × Ty)}
    {firstSplit secondSplit : Nat} (nodup : (entries.map Prod.fst).Nodup) (header : first.SameHeader second)
    (hFirst : first.Declares entries firstSplit) (hSecond : second.Declares entries secondSplit)
    (given : Option MemberSet) (apart : Decl.Record.Apart given entries) (options : SynthesisOptions)
    (member : SynthesizedMember) (kept : member.isForParameters = false) :
    (first.synthesize first.effectiveMembers given options).outcome.map (fun set => set.lower member) =
      (second.synthesize second.effectiveMembers given options).outcome.map (fun set => set.lower member) := by
  rw [Record.synthesize, Record.synthesize, ← header.resolveBase hFirst hSecond, ← header.isValueType]
  cases hBase : first.resolveBase given with
  | error fault => rfl
  | ok base =>
    have hApart : Decl.Record.Apart base entries := by
      rcases Record.resolveBase_eq_ok_iff.mp hBase with ⟨_, rfl⟩ | ⟨above, _, rfl, rfl, _⟩
      · intro above h
        cases h
      · exact apart
    have hAlike : ∀ copy, first.HasCopy base copy →
        (first.memberSet first.effectiveMembers base copy options).lower member =
          (second.memberSet second.effectiveMembers base copy options).lower member := fun copy copied =>
      (header.alike hFirst hSecond nodup hApart copied options).lower kept
    cases hKind : first.isValueType with
    | true => exact congrArg Except.ok (hAlike none hKind)
    | false =>
      have hSame : second.copyConstructor base = first.copyConstructor base := by
        rw [hFirst.copyConstructor_eq, hSecond.copyConstructor_eq]
      dsimp only
      rw [hSame]
      cases hCopy : first.copyConstructor base with
      | error fault => rfl
      | ok copy => exact congrArg Except.ok (hAlike (some copy) ⟨hKind, hCopy⟩)

def layeredShape : MemberSet :=
  let shape : Record := { name := "Shape", parameters := [{ name := "Layer", type := Ty.int }] }
  shape.memberSet shape.effectiveMembers none (some (.synthesized .object)) {}

def positionalPoint : Record where
  name := "Point"
  parameters := [{ name := "X", type := Ty.int }, { name := "Y", type := Ty.int }]
  base := some "Shape"
  baseArguments := ["X"]

def nominalPoint : Record where
  name := "Point"
  members := [.ofAutoProperty "X" Ty.int, .ofAutoProperty "Y" Ty.int]
  base := some "Shape"

theorem lowering_independent_of_style_point :
    let entries := [("X", Ty.int), ("Y", Ty.int)]
    (entries.map Prod.fst).Nodup ∧ positionalPoint.SameHeader nominalPoint ∧ positionalPoint.Declares entries 2 ∧
    nominalPoint.Declares entries 0 ∧ Decl.Record.Apart (some layeredShape) entries ∧
    (nominalPoint.synthesize nominalPoint.effectiveMembers (some layeredShape) {}).outcome.isOk = true ∧
    ∀ member, member.isForParameters = false →
      (positionalPoint.synthesize positionalPoint.effectiveMembers (some layeredShape) {}).outcome.map
          (fun set => set.lower member) =
        (nominalPoint.synthesize nominalPoint.effectiveMembers (some layeredShape) {}).outcome.map
          (fun set => set.lower member) := by
  intro entries
  have nodup : (entries.map Prod.fst).Nodup := by decide
  have header : positionalPoint.SameHeader nominalPoint := ⟨rfl, rfl, rfl, rfl⟩
  have hPositional : positionalPoint.Declares entries 2 := ⟨rfl, ⟨[], rfl, rfl, by simp⟩, by decide⟩
  have hNominal : nominalPoint.Declares entries 0 :=
    ⟨rfl, ⟨[{ name := "X", type := Ty.int, setter := .init, visibility := .isPublic },
      { name := "Y", type := Ty.int, setter := .init, visibility := .isPublic }], rfl, rfl, by simp⟩, by decide⟩
  have apart : Decl.Record.Apart (some layeredShape) entries := by
    rintro above ⟨⟩
    decide
  exact ⟨nodup, header, hPositional, hNominal, apart, by decide, fun member kept =>
    lowering_independent_of_style nodup header hPositional hNominal _ apart {} member kept⟩

end RecordSynthesis
