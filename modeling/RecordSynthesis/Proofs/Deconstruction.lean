import RecordSynthesis.Proofs.SignatureIdentity
import RecordSynthesis.Proofs.Support

/-!
# Deconstruction

A record with primary parameters is taken apart into one value for each of them, in order. Which declared `Deconstruct`
takes the place of the synthesized one goes by the types of the parameters, while the synthesized one hands values out
under the types of what they are read through. The two agree exactly if every parameter that is claimed has the type of
what claims it; a property of the base claims by its name alone.
-/

namespace RecordSynthesis

set_option autoImplicit false

open Code
open Decl (CompilationUnit Record Member)

namespace Decl.Record

/-- A primary parameter has the type of what claims it, if anything does. A claim by the record itself goes by the last
parameter of the name. -/
structure KeepsType (record : Record) (base : Option MemberSet) (p : PrimaryParameter) : Prop where
  own : ∀ type, record.parameterType? p.name = some type → (record.claimant? p.name type).isSome = true →
    p.type.same type = true
  inherited : ∀ type, record.parameterType? p.name = some type → record.claimant? p.name type = none →
    ∀ above, base = some above → ∀ read, above.shown? p.name = some read → p.type.same read.type = true

variable {record : Record} {base : Option MemberSet} {p : PrimaryParameter}

theorem exists_parameterType? (mem : p ∈ record.parameters) : ∃ type, record.parameterType? p.name = some type := by
  rw [parameterType?, ← Option.isSome_iff_exists, Option.isSome_map, List.find?_isSome]
  exact ⟨p, List.mem_reverse.mpr mem, by simp⟩

theorem positionalRead_same_iff (mem : p ∈ record.parameters) :
    p.type.same (record.positionalRead base p).type = true ↔ record.KeepsType base p := by
  obtain ⟨type, hType⟩ := exists_parameterType? mem
  have keepsType_iff : record.KeepsType base p ↔
      ((record.claimant? p.name type).isSome = true → p.type.same type = true) ∧
      (record.claimant? p.name type = none → ∀ above, base = some above → ∀ read, above.shown? p.name = some read →
        p.type.same read.type = true) := by
    constructor
    · intro h
      exact ⟨h.own type hType, h.inherited type hType⟩
    · rintro ⟨hOwn, hInherited⟩
      refine ⟨fun other hOther => ?_, fun other hOther => ?_⟩
      · rwa [Option.some.inj (hOther.symm.trans hType)]
      · rwa [Option.some.inj (hOther.symm.trans hType)]
  have settled := record.claim?_settled base hType
  rw [keepsType_iff, positionalRead]
  generalize record.claim? base p.name = claim at settled
  cases settled with
  | field first =>
    obtain ⟨-, -, typed⟩ := Member.claims_field.mp (claimant?_eq_some first).2
    simp [first, Ty.same_congr typed]
  | property first =>
    obtain ⟨-, -, typed⟩ := Member.claims_property.mp (claimant?_eq_some first).2
    simp [first, Ty.same_congr typed]
  | inherited unclaimed derived shown =>
    subst derived
    simp [unclaimed, shown]
  | nobody unclaimed hidden => simp_all

theorem positional_same_iff :
    SameTypes record.parameterTypes ((record.parameters.map (record.positionalRead base)).map (·.type)) ↔
      ∀ p ∈ record.parameters, record.KeepsType base p := by
  rw [SameTypes, parameterTypes, List.map_map, List.forall₂_map_left_iff, List.forall₂_map_right_iff, List.forall₂_same]
  exact forall₂_congr fun p mem => positionalRead_same_iff mem

theorem name_positionalRead (p : PrimaryParameter) : (record.positionalRead base p).name = p.name := by
  rw [positionalRead]
  split <;> rfl

end Decl.Record

/-- A declared method of an instance that hands values out under this signature. -/
structure Decl.Method.HandsOut (m : Decl.Method) (types : List Ty) : Prop where
  instanceLevel : m.isStatic = false
  named : m.name = "Deconstruct"
  outputs : ∀ p ∈ m.parameters, p.mode = .byOut
  signature : Signature.ofTypes m.types = Signature.ofTypes types

theorem Decl.Member.implements_deconstruct_iff {m : Decl.Method} {types : List Ty} :
    (Member.method m).implements "Deconstruct" (Signature.ofTypes types) = true ↔ m.HandsOut types := by
  rw [implements_method_iff]
  constructor
  · rintro ⟨hStatic, hName, hSignature, hOut⟩
    exact ⟨hStatic, hName, hOut rfl, hSignature⟩
  · rintro ⟨hStatic, hName, hOut, hSignature⟩
    exact ⟨hStatic, hName, hSignature, fun _ => hOut⟩

theorem Decl.Record.slot_deconstruct_iff {record : Record} {types : List Ty} :
    record.slot "Deconstruct" (Signature.ofTypes types) = .synthesized ↔
      ¬∃ m, .method m ∈ record.members ∧ m.HandsOut types := by
  constructor
  · rintro hSlot ⟨m, hMember, hOut⟩
    have hNone := implements_eq_false_of_slot hSlot hMember
    rw [Member.implements_deconstruct_iff.mpr hOut] at hNone
    cases hNone
  · intro hNone
    cases hSlot : record.slot "Deconstruct" (Signature.ofTypes types) with
    | synthesized => rfl
    | user position =>
      obtain ⟨m, hMember, hImplements⟩ := implements_of_slot hSlot
      exact absurd ⟨m, List.mem_of_getElem? hMember, Member.implements_deconstruct_iff.mp hImplements⟩ hNone

namespace MemberSet

def methodEntries (set : MemberSet) (name : String) : List MemberSymbol :=
  set.members.filter fun symbol => symbol.name = name && symbol.origin = .synthesized && symbol.kind = .method

theorem methodEntries_eq (set : MemberSet) (name : String) :
    set.methodEntries name = set.synthesizedMethods.filter fun symbol => symbol.name = name := by
  rw [methodEntries, ← synthesizedOf, ← filter_members_synthesized, List.filter_filter]
  exact List.filter_congr fun symbol _ => by rw [Bool.and_assoc, Bool.and_comm (symbol.origin = .synthesized)]

theorem types_lowerDeconstruct (set : MemberSet) :
    set.lowerDeconstruct.parameters.map (·.type) = set.positional.map (·.type) :=
  List.map_map

theorem methodEntries_deconstruct {set : MemberSet} (clone : set.clone.name = cloneMethodName) :
    (set.methodEntries "Deconstruct").map (·.types) =
      (set.lower? .deconstruct).toList.map fun function => function.parameters.map (·.type) := by
  have hEntries : set.methodEntries "Deconstruct" =
      if set.deconstruct = some .synthesized then
        [{ name := "Deconstruct", kind := .method, types := set.positional.map (·.type) }]
      else [] := by
    simp [methodEntries_eq, synthesizedMethods, List.filter_append, apply_ite (List.filter _), clone, cloneMethodName]
  rw [hEntries, lower?]
  split <;> simp [types_lowerDeconstruct]

end MemberSet

/-- The method that takes a record apart has an `out` parameter for each primary parameter, in order, and so does its entry
in the view. It is left out just for a declared method with the signature of the primary parameters. Its own types are
theirs exactly if every parameter that is claimed has the type of what claims it. -/
theorem deconstruct_types_iff (unit : CompilationUnit) (options : SynthesisOptions) (set : MemberSet)
    (mem : set ∈ (checkUnit unit options).table.sets) (record : Record)
    (declared : unit.find? set.recordName = some record) :
    let base := (checkUnit unit options).table.baseOf? set
    set.positional.map (·.name) = record.parameters.map (·.name) ∧
    (SameTypes record.parameterTypes (set.positional.map (·.type)) ↔ ∀ p ∈ record.parameters, record.KeepsType base p) ∧
    ((set.lower? .deconstruct).isSome = true ↔ options.deconstruct = true ∧ record.isPositional = true ∧
      ¬∃ m, .method m ∈ record.members ∧ m.HandsOut record.parameterTypes) ∧
    (set.methodEntries "Deconstruct").map (·.types) =
      (set.lower? .deconstruct).toList.map (fun function => function.parameters.map (·.type)) ∧
    ∀ function, set.lower? .deconstruct = some function →
      (∀ p ∈ function.parameters, p.mode = .byOut) ∧
      function.parameters.map (·.name) = record.parameters.map (·.name) ∧
      (SameTypes record.parameterTypes (function.parameters.map (·.type)) ↔
        ∀ p ∈ record.parameters, record.KeepsType base p) := by
  obtain ⟨base, copy, origin⟩ := (checkUnit_grown unit options).exists_origin_of_find? mem declared
  rw [origin.baseOf?_eq]
  have hPositional : set.positional = record.parameters.map (record.positionalRead base) := by
    rw [origin.made]
    rfl
  have hNames : set.positional.map (·.name) = record.parameters.map (·.name) := by
    rw [hPositional, List.map_map]
    exact List.map_congr_left fun p _ => Record.name_positionalRead p
  have hTypes : SameTypes record.parameterTypes (set.positional.map (·.type)) ↔
      ∀ p ∈ record.parameters, record.KeepsType base p := by
    rw [hPositional]
    exact Record.positional_same_iff
  have hClone : set.clone.name = cloneMethodName := by
    rw [origin.made]
    rfl
  refine ⟨hNames, hTypes, ?_, MemberSet.methodEntries_deconstruct hClone, ?_⟩
  · have hSlot : set.deconstruct = some .synthesized ↔
        (options.deconstruct = true ∧ record.isPositional = true) ∧
          record.slot "Deconstruct" (Signature.ofTypes record.parameterTypes) = .synthesized := by
      rw [origin.made]
      simp [Record.memberSet]
    rw [MemberSet.lower?, Option.isSome_ite, hSlot, Record.slot_deconstruct_iff, and_assoc]
  · intro function hLowered
    obtain ⟨-, ⟨⟩⟩ := Option.ite_none_right_eq_some.mp hLowered
    refine ⟨?_, ?_, ?_⟩
    · intro p hp
      obtain ⟨read, -, rfl⟩ := List.mem_map.mp hp
      rfl
    · rw [← hNames]
      exact List.map_map
    · rw [← hTypes, MemberSet.types_lowerDeconstruct]

def personnel : CompilationUnit where
  records :=
    [{ name := "Person"
       members := [.ofAutoProperty "Id" Ty.object, .ofConstructor [{ name := "text", type := Ty.string }] 1] },
      { name := "Employee", parameters := [{ name := "Id", type := Ty.string }], base := some "Person"
        baseArguments := ["Id"] }]

/-- Nothing is reported, and yet a parameter comes back under another type. -/
theorem not_deconstruct_types_employee :
    let result := checkUnit personnel.resolve {}
    result.diagnostics.isEmpty = true ∧ result.faults = [] ∧
      ∃ set ∈ result.table.sets, ∃ record function, personnel.resolve.find? set.recordName = some record ∧
        set.lower? .deconstruct = some function ∧
        ¬SameTypes record.parameterTypes (set.positional.map (·.type)) ∧
        ¬SameTypes record.parameterTypes (function.parameters.map (·.type)) ∧
        ¬∃ types ∈ (set.methodEntries "Deconstruct").map (·.types), SameTypes record.parameterTypes types := by
  intro result
  have hEmployee : result.table.sets[1]? = some _ := rfl
  have hDifferent : ¬SameTypes [Ty.string] [Ty.object] := by
    rw [SameTypes, List.forall₂_cons]
    exact fun h => absurd h.1 (by decide)
  refine ⟨rfl, rfl, _, List.mem_of_getElem? hEmployee, _, _, rfl, rfl, hDifferent, hDifferent, ?_⟩
  rintro ⟨types, hTypes, hSame⟩
  rw [MemberSet.methodEntries_deconstruct rfl] at hTypes
  rw [List.mem_singleton.mp hTypes] at hSame
  exact hDifferent hSame

theorem deconstruct_types_iff_student :
    schoolStudent ∈ (checkUnit school {}).table.sets ∧
    ∃ record function, school.find? schoolStudent.recordName = some record ∧
      schoolStudent.lower? .deconstruct = some function ∧
      SameTypes record.parameterTypes (function.parameters.map (·.type)) ∧
      function.parameters.map (·.name) = ["Name", "Grade"] ∧
      record.parameterTypes = [Ty.string, Ty.int] := by
  have hFound : (checkUnit school {}).table.get? "Student" = some schoolStudent := rfl
  have mem := (RecordTable.mem_of_get? hFound).1
  obtain ⟨-, -, -, -, hLowered⟩ := deconstruct_types_iff school {} schoolStudent mem _ rfl
  obtain ⟨-, hNames, hAlso⟩ := hLowered _ rfl
  refine ⟨mem, _, _, rfl, rfl, hAlso.mpr ?_, hNames, rfl⟩
  intro p hp
  rcases List.mem_pair.mp hp with rfl | rfl
  · refine ⟨?_, ?_⟩
    · rintro type ⟨⟩ ⟨⟩
    · rintro type ⟨⟩ - above ⟨⟩ read ⟨⟩
      rfl
  · refine ⟨?_, ?_⟩
    · rintro type ⟨⟩ -
      rfl
    · rintro type ⟨⟩ ⟨⟩

end RecordSynthesis
