import Mathlib.Data.List.Forall2
import RecordSynthesis.Proofs.ConstructorCollisions
import RecordSynthesis.Proofs.Support

/-!
# Constructors called of a base

Every constructor of a derived record calls one of its base. A copy constructor is only ever made to call one that the
base has. The call of a primary constructor is put together from the forwarded parameters alone, without a look at the
base, so it finds a constructor exactly if the declaration of the base happens to have one for their types.
-/

namespace RecordSynthesis

set_option autoImplicit false

open Decl (CompilationUnit Record Member)

namespace MemberSet

/-- Neither a primary constructor nor a declared one, so that the implicit one stands in. -/
def DeclaresNoConstructor (set : MemberSet) : Prop :=
  set.primaryConstructor = none ∧ ∀ c, .constructor c ∉ set.userMembers

/-- A derived record can call a constructor with these parameter types. -/
def Offers (set : MemberSet) (types : List Ty) : Prop :=
  set.HasConstructor (Signature.ofTypes types) ∨ (types = [] ∧ set.DeclaresNoConstructor)

theorem all_constructors_synthesized_iff {set : MemberSet} :
    (∀ symbol ∈ set.constructors, symbol.origin = .synthesized) ↔ ∀ c, .constructor c ∉ set.userMembers := by
  constructor
  · intro h c hDeclared
    obtain ⟨position, hPosition⟩ := List.mem_iff_getElem?.mp hDeclared
    have hSymbol := h _ (List.mem_filter.mpr ⟨mem_members_of_userMembers hPosition, rfl⟩)
    cases hSymbol
  · intro h symbol hSymbol
    rw [constructors_eq_group] at hSymbol
    rcases List.mem_append.mp hSymbol with hMade | hDeclared
    · exact (of_mem_synthesizedOf hMade).2
    · obtain ⟨hUser, hKind⟩ := List.mem_filter.mp hDeclared
      obtain ⟨position, member, hMember, rfl⟩ := mem_userSymbols hUser
      cases member with
      | constructor c => exact absurd (List.mem_of_getElem? hMember) (h c)
      | field _ | property _ | event _ | indexer _ | method _ => cases of_decide_eq_true hKind

theorem hasParameterlessConstructor_iff {set : MemberSet} :
    set.hasParameterlessConstructor = true ↔ set.Offers [] := by
  have hEmpty : (∃ symbol ∈ set.constructors, symbol.types.isEmpty = true) ↔ set.HasConstructor [] := by
    simp [HasConstructor, Signature.ofTypes]
  rw [hasParameterlessConstructor, Bool.or_eq_true, Bool.and_eq_true, List.any_eq_true, hEmpty, List.all_eq_true,
    Option.isNone_iff_eq_none, Offers, DeclaresNoConstructor, ← all_constructors_synthesized_iff]
  simp [Signature.ofTypes, or_comm]

end MemberSet

namespace Decl.Record

/-- The declaration has a constructor for these parameter types: its primary one, a declared one, the one that copies, or
the implicit one that stands in where there is neither of the first two. -/
def Admits (record : Record) (types : List Ty) : Prop :=
  record.primarySignature? = some (Signature.ofTypes types) ∨ Signature.ofTypes types ∈ record.declaredSignatures ∨
    Signature.ofTypes types = record.copySignature ∨
    (types = [] ∧ record.isPositional = false ∧ ∀ c, .constructor c ∉ record.members)

variable {record : Record} {base : Option MemberSet} {copy : Option CopyConstructor}

theorem hasConstructor_iff (effective : List EffectiveMember) (options : SynthesisOptions)
    (copied : record.HasCopy base copy) (reference : record.isValueType = false) {signature : Signature} :
    (record.memberSet effective base copy options).HasConstructor signature ↔
      record.primarySignature? = some signature ∨ signature ∈ record.declaredSignatures ∨
        signature = record.copySignature := by
  have hMem : (record.memberSet effective base copy options).HasConstructor signature ↔
      signature ∈ (record.memberSet effective base copy options).constructors.map
        fun symbol => Signature.ofTypes symbol.types := List.mem_map.symm
  rw [hMem, constructor_signatures, synthesizedCopySignature?_eq copied]
  by_cases hDeclared : record.copySignature ∈ record.declaredSignatures
  · -- The copy constructor is a declared one, so the list has it all the same.
    simp only [reference, hDeclared, or_true, if_true, Option.toList_none, List.append_nil, List.mem_append,
      Option.mem_toList]
    refine or_congr_right ⟨.inl, fun h => h.elim id fun hCopy => hCopy ▸ hDeclared⟩
  · simp [reference, hDeclared, or_comm, eq_comm]

theorem offers_iff (effective : List EffectiveMember) (options : SynthesisOptions) (copied : record.HasCopy base copy)
    (reference : record.isValueType = false) {types : List Ty} :
    (record.memberSet effective base copy options).Offers types ↔ record.Admits types := by
  have hNone : (record.memberSet effective base copy options).DeclaresNoConstructor ↔
      record.isPositional = false ∧ ∀ c, .constructor c ∉ record.members := by
    simp only [MemberSet.DeclaresNoConstructor, memberSet]
    cases record.isPositional <;> simp
  rw [MemberSet.Offers, hasConstructor_iff effective options copied reference, hNone, Admits]
  simp only [or_assoc]

end Decl.Record

namespace CopyConstructor

/-- The parameter of a copy constructor: that of a synthesized one, or the only one of the declared constructor that is
adopted. -/
inductive Takes (set : MemberSet) : CopyConstructor → String → Prop
  | synthesized {chain : ConstructorChain} : Takes set (.synthesized chain) copyParameterName
  | adopted {position : Nat} {c : Decl.Constructor} {p : Decl.Parameter} {chain : ConstructorChain}
      (declared : set.userMembers[position]? = some (.constructor c)) (only : c.parameters = [p])
      (typed : p.type.canonical = set.selfType.canonical) : Takes set (.adopted position p.name c.body chain) p.name

theorem Takes.parameter_eq {set : MemberSet} {copy : CopyConstructor} {parameter : String}
    (h : copy.Takes set parameter) : copy.parameter = parameter := by
  cases h <;> rfl

/-- A copy constructor with this parameter calls a constructor that the base has. -/
inductive Calls (base : MemberSet) (parameter : String) : CopyConstructor → Prop
  | copying {copy : CopyConstructor} (chained : copy.chain = .base base.selfType [base.selfType] [parameter])
      (offered : base.HasConstructor (Signature.ofTypes [base.selfType])) : Calls base parameter copy
  | withoutArguments {position : Nat} {name : String} {body : UInt32}
      (offered : base.HasConstructor [] ∨ base.DeclaresNoConstructor) :
      Calls base parameter (.adopted position name body (.base base.selfType [] []))

end CopyConstructor

theorem ConstructorChain.calls_adopting {base : MemberSet} {position : Nat} {parameter : String} {body : UInt32}
    (copyable : base.HasConstructor (Signature.ofTypes [base.selfType])) :
    CopyConstructor.Calls base parameter (.adopted position parameter body (adopting parameter (some base))) := by
  rw [adopting]
  split
  · rename_i hOffers
    have hNothing := MemberSet.hasParameterlessConstructor_iff.mp hOffers
    exact .withoutArguments (hNothing.imp_right And.right)
  · exact .copying rfl copyable

theorem Decl.Record.copyConstructor_calls {record : Record} {base : Option MemberSet} {copy : CopyConstructor}
    (made : record.copyConstructor base = .ok copy) (effective : List EffectiveMember) (options : SynthesisOptions) :
    ∃ parameter, copy.Takes (record.memberSet effective base (some copy) options) parameter ∧
      (base = none → copy.chain = .object) ∧
      ∀ above, base = some above → above.HasConstructor (Signature.ofTypes [above.selfType]) →
        copy.Calls above parameter := by
  rcases copyConstructor_eq_ok made with rfl | ⟨position, c, p, others, hMember, hParameters, hSignature, rfl⟩
  · refine ⟨copyParameterName, .synthesized, ?_, ?_⟩
    · rintro rfl
      rfl
    · rintro above rfl copyable
      exact .copying rfl copyable
  · obtain ⟨hTyped, rfl⟩ : p.type.canonical = record.selfType.canonical ∧ others = [] := by
      simpa [Constructor.types, hParameters, copySignature, Signature.ofTypes] using hSignature
    refine ⟨p.name, .adopted hMember hParameters hTyped, ?_, ?_⟩
    · rintro rfl
      rfl
    · rintro above rfl copyable
      exact ConstructorChain.calls_adopting copyable

/-- A record has a copy constructor exactly if it is a reference type. Without a base it calls the constructor of
objects; with one it hands its parameter on to the copy constructor of the base, which is there, or it is an adopted one
and calls, without arguments, a constructor that the base declares or keeps implicitly. -/
theorem copy_chain_offered (unit : CompilationUnit) (options : SynthesisOptions) :
    let table := (checkUnit unit options).table
    ∀ set ∈ table.sets,
      (set.copyConstructor.isSome = true ↔ set.isValueType = false) ∧
      ∀ copy, set.copyConstructor = some copy → ∃ parameter, copy.Takes set parameter ∧
        (set.base = none → copy.chain = .object) ∧
        ∀ link, set.base = some link → ∃ base, table.get? link.name = some base ∧ link.selfType = base.selfType ∧
          copy.Calls base parameter := by
  intro table set mem
  have grown : table.Grown unit options := checkUnit_grown unit options
  obtain ⟨record, base, copy, origin⟩ := grown.exists_origin mem
  have hCopied := origin.copied
  refine ⟨?_, ?_⟩
  · rw [origin.made]
    cases copy with
    | none => simpa [Record.memberSet, Record.HasCopy] using hCopied
    | some made => simpa [Record.memberSet] using hCopied.1
  · intro made hMade
    obtain rfl : copy = some made := by
      rw [origin.made] at hMade
      exact hMade
    obtain ⟨parameter, hTakes, hRoot, hDerived⟩ :=
      Record.copyConstructor_calls hCopied.2 record.effectiveMembers options
    rw [← origin.made] at hTakes
    refine ⟨parameter, hTakes, ?_, ?_⟩
    · intro hBase
      rw [origin.made] at hBase
      exact hRoot (Option.map_eq_none_iff.mp hBase)
    · intro link hLink
      rw [origin.made] at hLink
      obtain ⟨above, rfl, rfl⟩ := Option.map_eq_some_iff.mp hLink
      obtain ⟨aboveMem, hFound⟩ := origin.base_mem rfl
      obtain ⟨_, _, _, aboveOrigin⟩ := grown.exists_origin aboveMem
      exact ⟨above, hFound, rfl, hDerived above rfl (aboveOrigin.copyable (origin.base_reference rfl))⟩

def visitors : CompilationUnit where
  records :=
    let copying (name : String) : Member := .ofConstructor [{ name := "o", type := .named name [] .reference }] 1
    [{ name := "Person", parameters := [{ name := "Name", type := Ty.string }] },
      { name := "Student", members := [copying "Student"], base := some "Person" },
      { name := "Anonymous" },
      { name := "Guest", members := [copying "Guest"], base := some "Anonymous" }]

def visitor (name : String) : MemberSet :=
  ((checkUnit visitors {}).table.get? name).getD default

theorem copy_chain_offered_visitors :
    (∃ copy base, (visitor "Student").copyConstructor = some copy ∧
      (checkUnit visitors {}).table.get? "Person" = some base ∧ copy.Calls base "o" ∧
      copy.chain = .base base.selfType [base.selfType] ["o"]) ∧
    ∃ copy base, (visitor "Guest").copyConstructor = some copy ∧
      (checkUnit visitors {}).table.get? "Anonymous" = some base ∧ copy.Calls base "o" ∧
      copy.chain = .base base.selfType [] [] := by
  have hStudent : (checkUnit visitors {}).table.get? "Student" = some (visitor "Student") := rfl
  have hGuest : (checkUnit visitors {}).table.get? "Guest" = some (visitor "Guest") := rfl
  obtain ⟨parameter, hTakes, -, hDerived⟩ :=
    (copy_chain_offered visitors {} _ (RecordTable.mem_of_get? hStudent).1).2 _ rfl
  obtain ⟨other, hOther, -, hAlso⟩ := (copy_chain_offered visitors {} _ (RecordTable.mem_of_get? hGuest).1).2 _ rfl
  obtain ⟨person, hPerson, -, hCalls⟩ := hDerived _ rfl
  obtain ⟨anonymous, hAnonymous, -, hCallsAlso⟩ := hAlso _ rfl
  obtain rfl := hTakes.parameter_eq
  obtain rfl := hOther.parameter_eq
  cases hPerson
  cases hAnonymous
  exact ⟨⟨_, _, rfl, rfl, hCalls, rfl⟩, _, _, rfl, rfl, hCallsAlso, rfl⟩

/-- The arguments for the base are names of parameters of these types, one by one. -/
def Decl.Record.Forwards (record : Record) (arguments : List String) (types : List Ty) : Prop :=
  List.Forall₂ (fun argument type => ∃ p ∈ record.parameters, p.name = argument ∧ p.type = type) arguments types

theorem Decl.Record.forwards_filterMap {record : Record} {arguments : List String}
    (declared : ∀ argument ∈ arguments, ∃ p ∈ record.parameters, p.name = argument) :
    record.Forwards arguments (arguments.filterMap fun argument =>
      (record.parameters.find? fun p => p.name = argument).map (·.type)) := by
  induction arguments with
  | nil => exact .nil
  | cons argument arguments ih =>
    obtain ⟨hFirst, hOthers⟩ := List.forall_mem_cons.mp declared
    obtain ⟨p, hFound⟩ : ∃ p, record.parameters.find? (fun p => p.name = argument) = some p := by
      rw [← Option.isSome_iff_exists, List.find?_isSome]
      simpa using hFirst
    have hName : p.name = argument := by simpa using List.find?_some hFound
    rw [List.filterMap_cons_some (b := p.type) (by rw [hFound, Option.map_some])]
    exact .cons ⟨p, List.mem_of_find?_eq_some hFound, hName, rfl⟩ (ih hOthers)

/-- A primary constructor that calls one of the base hands the forwarded parameters on to it, under their own types. The
base has a constructor for these types exactly if its declaration does; nothing sees to it that it does. -/
theorem primary_chain_offered_iff (unit : CompilationUnit) (options : SynthesisOptions) (set : MemberSet)
    (mem : set ∈ (checkUnit unit options).table.sets) (primary : PrimaryConstructor)
    (made : set.primaryConstructor = some primary) (type : Ty) (types : List Ty) (arguments : List String)
    (chained : primary.chain = .base type types arguments) :
    ∃ record above base, unit.find? set.recordName = some record ∧
      (checkUnit unit options).table.baseOf? set = some base ∧ unit.find? base.recordName = some above ∧
      type = base.selfType ∧ arguments = record.baseArguments ∧ record.Forwards arguments types ∧
      (base.Offers types ↔ above.Admits types) := by
  have grown := checkUnit_grown unit options
  obtain ⟨record, base, copy, origin⟩ := grown.exists_origin mem
  rw [origin.made] at made
  obtain ⟨-, ⟨⟩⟩ := Option.ite_none_right_eq_some.mp made
  rcases Record.resolveBase_eq_ok_iff.mp origin.resolved with ⟨-, rfl⟩ | ⟨base, -, -, rfl, -, hBaseKind, hDeclared⟩
  · rw [Record.primaryChain] at chained
    split at chained <;> cases chained
  · rw [origin.primaryChain_eq rfl] at chained
    cases chained
    obtain ⟨above, aboveBase, aboveCopy, aboveOrigin⟩ := grown.exists_origin (origin.base_mem rfl).1
    have hOffers : ∀ types, base.Offers types ↔ above.Admits types := by
      intro types
      rw [aboveOrigin.made] at hBaseKind ⊢
      exact Record.offers_iff _ _ aboveOrigin.copied hBaseKind
    exact ⟨record, above, base, origin.find?_eq, origin.baseOf?_eq, aboveOrigin.find?_eq, rfl, rfl,
      Record.forwards_filterMap hDeclared, hOffers _⟩

def post : CompilationUnit where
  records :=
    [{ name := "Parcel", parameters := [{ name := "Content", type := Ty.object }] },
      { name := "Letter", parameters := [{ name := "Text", type := Ty.string }], base := some "Parcel"
        baseArguments := ["Text"] }]

/-- Nothing is reported, and yet the primary constructor calls one that the base does not have. -/
theorem not_primary_chain_offered_letter :
    let result := checkUnit post.resolve {}
    result.diagnostics.isEmpty = true ∧ result.faults = [] ∧
      ∃ set ∈ result.table.sets, ∃ base primary, result.table.baseOf? set = some base ∧
        set.primaryConstructor = some primary ∧ primary.chain = .base base.selfType [Ty.string] ["Text"] ∧
        ¬base.Offers [Ty.string] := by
  intro result
  have hLetter : result.table.sets[1]? = some _ := rfl
  refine ⟨rfl, rfl, _, List.mem_of_getElem? hLetter, _, _, rfl, rfl, rfl, ?_⟩
  rintro (⟨symbol, hMem, hSignature⟩ | ⟨hTypes, -⟩)
  · revert symbol
    decide
  · cases hTypes

def schoolPerson : MemberSet :=
  ((checkUnit school {}).table.get? "Person").getD default

theorem primary_chain_offered_iff_student :
    schoolStudent ∈ (checkUnit school {}).table.sets ∧
    (checkUnit school {}).table.baseOf? schoolStudent = some schoolPerson ∧
    schoolPerson.Offers [Ty.string] ∧
    ∃ primary, schoolStudent.primaryConstructor = some primary ∧
      primary.chain = .base schoolPerson.selfType [Ty.string] ["Name"] := by
  have hFound : (checkUnit school {}).table.get? "Student" = some schoolStudent := rfl
  have hBase : (checkUnit school {}).table.baseOf? schoolStudent = some schoolPerson := rfl
  have mem := (RecordTable.mem_of_get? hFound).1
  obtain ⟨-, above, base, -, hLinked, hAbove, -, -, -, hOffers⟩ :=
    primary_chain_offered_iff school {} schoolStudent mem _ rfl _ _ _ rfl
  obtain rfl : schoolPerson = base := Option.some.inj (hBase.symm.trans hLinked)
  cases hAbove
  exact ⟨mem, hBase, hOffers.mpr (.inl rfl), _, rfl, rfl⟩

end RecordSynthesis
