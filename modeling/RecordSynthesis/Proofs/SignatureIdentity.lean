import Mathlib.Data.List.Forall2
import RecordSynthesis.Proofs.ConstructorCollisions
import RecordSynthesis.Proofs.DecodedTypes

/-!
# Signatures and identity

In a record of a decoded and resolved unit, signatures that are compared are equal exactly if their types are the same,
one by one. So it is identity of types that decides which constructors collide, which copy constructor is adopted and
which methods take the place of synthesized ones.
-/

namespace RecordSynthesis

set_option autoImplicit false

open Decl (CompilationUnit Record Member)

namespace Ty

def IsResolved (scope : List String) (type : Ty) : Prop :=
  ∃ written : Ty, written.WrittenIn [] ∧ type.unkinded = (written.bind scope).unkinded

variable {scope : List String}

theorem WrittenIn.isResolved {written : Ty} (h : written.WrittenIn []) (lookup : String → Option TypeKind) :
    ((written.bind scope).resolveKinds lookup).IsResolved scope :=
  ⟨written, h, unkinded_resolveKinds lookup _⟩

theorem isResolved_object : object.IsResolved scope :=
  ⟨object, trivial, rfl⟩

theorem canonical_eq_iff_same {type other : Ty} (h : type.IsResolved scope) (hOther : other.IsResolved scope) :
    type.canonical = other.canonical ↔ type.same other = true := by
  obtain ⟨written, hWritten, hType⟩ := h
  obtain ⟨otherWritten, hOtherWritten, hOtherType⟩ := hOther
  rw [same_iff]
  constructor
  · intro hText
    have hTexts : written.canonical = otherWritten.canonical := by
      rw [← canonical_bind scope written, ← canonical_unkinded, ← hType, canonical_unkinded, hText,
        ← canonical_unkinded, hOtherType, canonical_unkinded, canonical_bind]
    rw [hType, hOtherType, eq_of_canonical_eq hWritten hOtherWritten hTexts]
  · intro hSame
    rw [← canonical_unkinded, hSame, canonical_unkinded]

theorem bindAll_names {names : List String} (h : ∀ name ∈ names, name ∈ scope) :
    bindAll scope (names.map fun name => .named name [] .reference) = names.map .parameter := by
  induction names with
  | nil => rfl
  | cons name names ih =>
    obtain ⟨hName, hNames⟩ := List.forall_mem_cons.mp h
    simp only [List.map_cons, bindAll, bind, ih hNames]
    rw [if_pos (List.contains_iff_mem.mpr hName)]

theorem bind_named_names {name : String} {names : List String} {kind : TypeKind} (h : ∀ name ∈ names, name ∈ scope)
    (bare : names = [] → name ∉ scope) :
    (named name (names.map fun name => .named name [] .reference) kind).bind scope =
      .named name (names.map .parameter) kind := by
  cases names with
  | nil => simp [bind, bare rfl]
  | cons first names =>
    have hAll := bindAll_names h
    simp only [List.map_cons, bindAll, bind] at hAll ⊢
    rw [hAll]

end Ty

abbrev SameTypes (types others : List Ty) : Prop :=
  List.Forall₂ (fun type other => type.same other = true) types others

theorem Signature.ofTypes_eq_iff {scope : List String} {types others : List Ty}
    (h : ∀ type ∈ types, type.IsResolved scope) (hOthers : ∀ type ∈ others, type.IsResolved scope) :
    Signature.ofTypes types = Signature.ofTypes others ↔ SameTypes types others := by
  induction types generalizing others with
  | nil => cases others <;> simp [Signature.ofTypes]
  | cons type types ih =>
    obtain ⟨hType, hTypes⟩ := List.forall_mem_cons.mp h
    cases others with
    | nil => simp [Signature.ofTypes]
    | cons other others =>
      obtain ⟨hOther, hRest⟩ := List.forall_mem_cons.mp hOthers
      have hTail := ih hTypes hRest
      simp only [Signature.ofTypes, List.map_cons, List.cons.injEq, List.forall₂_cons] at hTail ⊢
      rw [hTail, Ty.canonical_eq_iff_same hType hOther]

namespace Decl

theorem Member.types_mapTypes (f : Ty → Ty) (member : Member) : (member.mapTypes f).types = member.types.map f := by
  cases member <;> simp [mapTypes, types, Method.types, Constructor.types, Option.toList_map]

namespace Record

variable {record : Record}

theorem types_mapTypes (f : Ty → Ty) (record : Record) : (record.mapTypes f).types = record.types.map f := by
  simp [types, mapTypes, parameterTypes, Member.types_mapTypes, List.map_flatMap, List.flatMap_map]

theorem isResolved_selfType (name : Ty.IsTypeName record.name)
    (parameters : ∀ p ∈ record.typeParameters, Ty.IsTypeName p) :
    record.selfType.IsResolved record.typeParameters := by
  refine ⟨.named record.name (record.typeParameters.map fun p => .named p [] .reference) .reference, ?_, ?_⟩
  · refine ⟨name, List.not_mem_nil, rfl, Ty.allWrittenIn_iff.mpr (List.forall_mem_map.mpr ?_)⟩
    exact fun p hp => ⟨parameters p hp, List.not_mem_nil, rfl, trivial⟩
  · rw [Ty.bind_named_names (fun _ h => h) fun hNone => by simp [hNone]]
    rfl

/-- The lists of types whose signatures synthesis compares for a record. -/
inductive Compares (record : Record) : List Ty → Prop
  | primary : Compares record record.parameterTypes
  | constructor {c : Constructor} (declared : .constructor c ∈ record.members) : Compares record c.types
  | method {m : Method} (declared : .method m ∈ record.members) : Compares record m.types
  | self : Compares record [record.selfType]
  | object : Compares record [Ty.object]
  | nothing : Compares record []

end Record

structure Method.Replaces (m : Method) (name : String) (types : List Ty) : Prop where
  instanceLevel : m.isStatic = false
  named : m.name = name
  identical : SameTypes m.types types
  handsOut : name = "Deconstruct" → ∀ p ∈ m.parameters, p.mode = .byOut

/-- A slot goes to a declared method that can take it, and to synthesis only where there is none. -/
inductive Record.Decides (record : Record) (name : String) (types : List Ty) : Slot → Prop
  | user {position : Nat} {m : Method} (declared : record.members[position]? = some (.method m))
      (replaces : m.Replaces name types) : Decides record name types (.user position)
  | synthesized (none : ∀ m, .method m ∈ record.members → ¬m.Replaces name types) :
      Decides record name types .synthesized

/-- A declared constructor is adopted if it takes just the record's own type, and one is synthesized only where there is
none. -/
inductive Record.Adopts (record : Record) : CopyConstructor → Prop
  | adopted {position : Nat} {parameter : String} {body : UInt32} {chain : ConstructorChain} {c : Constructor}
      (declared : record.members[position]? = some (.constructor c)) (identical : SameTypes c.types [record.selfType]) :
      Adopts record (.adopted position parameter body chain)
  | synthesized {chain : ConstructorChain}
      (none : ∀ c, .constructor c ∈ record.members → ¬SameTypes c.types [record.selfType]) :
      Adopts record (.synthesized chain)

namespace Record

variable {record : Record}

theorem Compares.isResolved {types : List Ty} (h : record.Compares types) {scope : List String}
    (resolved : ∀ type ∈ record.types, type.IsResolved scope) (self : record.selfType.IsResolved scope) :
    ∀ type ∈ types, type.IsResolved scope := by
  have hMember : ∀ member ∈ record.members, ∀ type ∈ member.types, type.IsResolved scope :=
    fun member hMember type hType =>
      resolved type (List.mem_append_right _ (List.mem_flatMap.mpr ⟨member, hMember, hType⟩))
  cases h with
  | primary => exact fun type hType => resolved type (List.mem_append_left _ hType)
  | constructor declared => exact hMember _ declared
  | method declared => exact fun type hType => hMember _ declared type (List.mem_append_left _ hType)
  | self => exact List.forall_mem_singleton.mpr self
  | object => exact List.forall_mem_singleton.mpr Ty.isResolved_object
  | nothing => simp

def DecidesIdentity (record : Record) : Prop :=
  ∀ types others, record.Compares types → record.Compares others →
    (Signature.ofTypes types = Signature.ofTypes others ↔ SameTypes types others)

theorem conflictWith_iff (decides : record.DecidesIdentity) {c : Constructor}
    (declared : .constructor c ∈ record.members) :
    c.conflictWith record.primarySignature? = .duplicatePrimaryConstructor ↔
      record.isPositional = true ∧ SameTypes c.types record.parameterTypes := by
  rw [← decides _ _ (.constructor declared) .primary, primarySignature?]
  split
  · rename_i hPositional
    rw [Constructor.conflictWith]
    split <;> simp_all
  · rename_i hNominal
    simp [Constructor.conflictWith, hNominal]

theorem implements_iff (decides : record.DecidesIdentity) {m : Method} (declared : .method m ∈ record.members)
    {name : String} {types : List Ty} (compared : record.Compares types) :
    (Member.method m).implements name (Signature.ofTypes types) = true ↔ m.Replaces name types := by
  rw [Member.implements_method_iff, decides _ _ (.method declared) compared]
  constructor
  · rintro ⟨hStatic, hName, hSame, hOut⟩
    exact ⟨hStatic, hName, hSame, hOut⟩
  · rintro ⟨hStatic, hName, hSame, hOut⟩
    exact ⟨hStatic, hName, hSame, hOut⟩

theorem decides_slot (decides : record.DecidesIdentity) {name : String} {types : List Ty}
    (compared : record.Compares types) : record.Decides name types (record.slot name (Signature.ofTypes types)) := by
  cases hSlot : record.slot name (Signature.ofTypes types) with
  | synthesized =>
    refine .synthesized fun m hDeclared hReplaces => ?_
    have hNone := implements_eq_false_of_slot hSlot hDeclared
    rw [(implements_iff decides hDeclared compared).mpr hReplaces] at hNone
    cases hNone
  | user position =>
    obtain ⟨m, hMember, hImplements⟩ := implements_of_slot hSlot
    exact .user hMember ((implements_iff decides (List.mem_of_getElem? hMember) compared).mp hImplements)

theorem adopts_copyConstructor (decides : record.DecidesIdentity) {base : Option MemberSet} {copy : CopyConstructor}
    (h : record.copyConstructor base = .ok copy) : record.Adopts copy := by
  rcases copyConstructor_eq_ok h with rfl | ⟨position, c, p, others, hMember, -, hSignature, rfl⟩
  · refine .synthesized fun c hDeclared hSame => ?_
    have hNone := ConstructorIndex.first?_ofMembers_eq_none (first?_eq_none_of_synthesized h)
    exact hNone (mem_declaredSignatures.mpr ⟨c, hDeclared, (decides _ _ (.constructor hDeclared) .self).mpr hSame⟩)
  · exact .adopted hMember ((decides _ _ (.constructor (List.mem_of_getElem? hMember)) .self).mp hSignature)

/-- In a resolved unit that has been read, the signatures of a record decide identity if its own names can be read. -/
theorem decidesIdentity_of_ofDatum {reading : Reading} {datum : Datum} {unit : CompilationUnit}
    (decoded : CompilationUnit.ofDatum reading datum = .ok unit) (mem : record ∈ unit.resolve.records)
    (name : Ty.IsTypeName record.name) (parameters : ∀ p ∈ record.typeParameters, Ty.IsTypeName p) :
    record.DecidesIdentity := by
  have hResolved : ∀ type ∈ record.types, type.IsResolved record.typeParameters := by
    obtain ⟨written, hWritten, rfl⟩ := List.mem_map.mp mem
    rw [types_mapTypes, List.forall_mem_map]
    exact fun type hType =>
      (CompilationUnit.writtenIn_of_ofDatum decoded written hWritten type hType).isResolved unit.kindOf?
  have hSelf := isResolved_selfType name parameters
  exact fun types others hTypes hOthers =>
    Signature.ofTypes_eq_iff (hTypes.isResolved hResolved hSelf) (hOthers.isResolved hResolved hSelf)

end Record

end Decl

/-- In a resolved unit that has been read, and for a record whose own names can be read, the signatures that synthesis
compares are equal exactly if their types are the same. So it is sameness of types that makes a declared constructor
repeat the primary one, or be adopted, and that lets a declared method take a synthesized one's place. -/
theorem signatures_decide_identity (reading : Reading) (datum : Datum) (unit : CompilationUnit) (record : Record)
    (decoded : CompilationUnit.ofDatum reading datum = .ok unit) (mem : record ∈ unit.resolve.records)
    (name : Ty.IsTypeName record.name) (parameters : ∀ p ∈ record.typeParameters, Ty.IsTypeName p) :
    (∀ types others, record.Compares types → record.Compares others →
      (Signature.ofTypes types = Signature.ofTypes others ↔ SameTypes types others)) ∧
    (∀ c, .constructor c ∈ record.members →
      (c.conflictWith record.primarySignature? = .duplicatePrimaryConstructor ↔
        record.isPositional = true ∧ SameTypes c.types record.parameterTypes)) ∧
    ∀ effective given options set, (record.synthesize effective given options).outcome = .ok set →
      (∀ copy ∈ set.copyConstructor, record.Adopts copy) ∧
      record.Decides "Equals" [record.selfType] set.equality.typedEquals ∧
      record.Decides "Equals" [Ty.object] set.equality.objectEquals ∧
      record.Decides "GetHashCode" [] set.equality.hash ∧
      (∀ slot ∈ set.deconstruct, record.Decides "Deconstruct" record.parameterTypes slot) ∧
      ∀ slot ∈ set.textForm, record.Decides "ToString" [] slot := by
  have decides : record.DecidesIdentity := Record.decidesIdentity_of_ofDatum decoded mem name parameters
  refine ⟨decides, fun c => Record.conflictWith_iff decides, ?_⟩
  intro effective given options set made
  obtain ⟨base, copy, -, hCopy, rfl⟩ := Record.synthesize_eq_ok_iff.mp made
  refine ⟨?_, Record.decides_slot decides .self, Record.decides_slot decides .object,
    Record.decides_slot decides .nothing, ?_, ?_⟩
  · intro made hMade
    obtain rfl : copy = some made := hMade
    exact Record.adopts_copyConstructor decides hCopy.2
  · intro slot hSlot
    simp only [Record.memberSet] at hSlot
    split at hSlot
    · cases hSlot
      exact Record.decides_slot decides .primary
    · cases hSlot
  · intro slot hSlot
    simp only [Record.memberSet] at hSlot
    split at hSlot
    · cases hSlot
      exact Record.decides_slot decides .nothing
    · cases hSlot

def box : Record where
  name := "Box"
  typeParameters := ["T"]
  parameters := [{ name := "Value", type := .named "T" [] .reference }]
  members := [.constructor
    { parameters := [{ name := "other", type := .named "Box" [.named "T" [] .reference] .reference }], body := 7 }]

def boundBox : Record :=
  { box with
    parameters := [{ name := "Value", type := .parameter "T" }]
    members := [.constructor
      { parameters := [{ name := "other", type := .named "Box" [.parameter "T"] .reference }], body := 7 }] }

def boxDatum : Datum :=
  .table [("records", .list [.table [
    ("name", .text "Box"),
    ("type_params", .list [.text "T"]),
    ("parameters", .list [.table [("name", .text "Value"), ("type", .text "T")]]),
    ("members", .list [.table [("kind", .text "constructor"), ("body", .int 7),
      ("params", .list [.table [("name", .text "other"), ("type", .text " Box<T >")]])]])]])]

theorem signatures_decide_identity_box :
    CompilationUnit.ofDatum .tree boxDatum = .ok { records := [box] } ∧
    boundBox ∈ (CompilationUnit.resolve { records := [box] }).records ∧
    Ty.IsTypeName boundBox.name ∧ (∀ p ∈ boundBox.typeParameters, Ty.IsTypeName p) ∧
    ¬SameTypes boundBox.parameterTypes [boundBox.selfType] ∧
    ∃ set, (boundBox.synthesize boundBox.effectiveMembers none {}).outcome = .ok set ∧
      set.copyConstructor = some (.adopted 0 "other" 7 .object) ∧ boundBox.Adopts (.adopted 0 "other" 7 .object) := by
  have decoded : CompilationUnit.ofDatum .tree boxDatum = .ok { records := [box] } := rfl
  have mem : boundBox ∈ (CompilationUnit.resolve { records := [box] }).records := List.mem_cons_self
  have name : Ty.IsTypeName boundBox.name := ⟨List.cons_ne_nil _ _, List.all_eq_true.mp rfl, rfl, rfl⟩
  have parameters : ∀ p ∈ boundBox.typeParameters, Ty.IsTypeName p :=
    List.forall_mem_singleton.mpr ⟨List.cons_ne_nil _ _, List.all_eq_true.mp rfl, rfl, rfl⟩
  obtain ⟨hIdentity, -, hMade⟩ := signatures_decide_identity .tree boxDatum _ boundBox decoded mem name parameters
  have made : (boundBox.synthesize boundBox.effectiveMembers none {}).outcome = .ok _ := rfl
  refine ⟨decoded, mem, name, parameters, ?_, _, made, rfl, (hMade _ none {} _ made).1 _ rfl⟩
  rw [← hIdentity _ _ .primary .self]
  decide

end RecordSynthesis
