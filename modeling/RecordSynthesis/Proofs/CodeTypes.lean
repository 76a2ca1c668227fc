import RecordSynthesis.Proofs.ClosedCode
import RecordSynthesis.Proofs.Occurrences

/-!
# Types in code

Every type that stands in the code of a set, at any depth, is one that the set itself holds or a built-in one: lowering
puts types together with names and operations, but makes none of its own.
-/

namespace RecordSynthesis

set_option autoImplicit false

open Code
open Decl (Member)

namespace Code

def FieldRef.allTypes (field : FieldRef) : List Ty :=
  [field.owner, field.type]

def MethodRef.allTypes (method : MethodRef) : List Ty :=
  method.owner :: (method.types ++ method.returnType.toList)

def ConstructorRef.allTypes : ConstructorRef → List Ty
  | .object => []
  | .record type types => type :: types

def Expr.ownTypes : Expr → List Ty
  | .loadField _ field => field.allTypes
  | .loadProperty _ owner _ type => [owner, type]
  | .create type types _ => type :: types
  | .callInstance _ method _ | .callBase method _ | .callStatic method _ => method.allTypes
  | .memberEquals _ type _ _ | .memberHash _ type _ | .typeHash type | .isExactly _ type | .cast _ type
  | .toText _ type => [type]
  | .this | .parameter _ | .bool _ | .text _ | .combineHashes _ _ | .andAlso _ _ | .orElse _ _ | .not _ | .isNull _
  | .referenceEquals _ _ | .concat _ => []

def Stmt.ownTypes : Stmt → List Ty
  | .storeField _ field _ => field.allTypes
  | .callBaseConstructor called _ => called.allTypes
  | .storeOut _ _ | .when _ _ | .exit _ | .userBody _ => []

def Function.allTypes (function : Function) : List Ty :=
  function.owner :: (function.parameters.map (·.type) ++ function.returnType.toList
    ++ function.gather Stmt.ownTypes Expr.ownTypes)

end Code

def ConstructorChain.allTypes : ConstructorChain → List Ty
  | .absent | .object => []
  | .base type types _ => type :: types

/-- Something is true of all types that a set holds, place by place. -/
structure MemberSet.TypesSatisfy (set : MemberSet) (P : Ty → Prop) : Prop where
  selfType : P set.selfType
  base : ∀ link, set.base = some link → P link.selfType
  effectiveMembers : ∀ m ∈ set.effectiveMembers, P m.type
  state : ∀ state ∈ set.state, P state.member.type
  fields : ∀ field ∈ set.fields, P field.type
  properties : ∀ property ∈ set.properties, P property.type
  parameters : ∀ primary, set.primaryConstructor = some primary → ∀ p ∈ primary.parameters, P p.type
  stores : ∀ primary, set.primaryConstructor = some primary → ∀ store ∈ primary.stores, P store.type
  primaryChain : ∀ primary, set.primaryConstructor = some primary → ∀ type ∈ primary.chain.allTypes, P type
  copyChain : ∀ copy, set.copyConstructor = some copy → ∀ type ∈ copy.chain.allTypes, P type
  clone : P set.clone.returnType
  overridden : ∀ type, set.clone.overridden = some type → P type
  positional : ∀ read ∈ set.positional, P read.type ∧ P read.owner
  printable : ∀ read ∈ set.printable, P read.type ∧ P read.owner
  userMembers : ∀ member ∈ set.userMembers, ∀ type ∈ member.types, P type

section

variable {P : Ty → Prop}

theorem Code.Function.forall_allTypes {function : Function} :
    (∀ type ∈ function.allTypes, P type) ↔
      P function.owner ∧ (∀ p ∈ function.parameters, P p.type) ∧ (∀ type ∈ function.returnType, P type) ∧
        ∀ stmt ∈ function.body, ∀ type ∈ stmt.gather Stmt.ownTypes Expr.ownTypes, P type := by
  rw [allTypes, Function.gather, Stmt.gatherAll_eq, List.forall_mem_cons, List.forall_mem_append,
    List.forall_mem_append, List.forall_mem_map, List.forall_mem_flatMap]
  simp only [Option.mem_toList, Option.mem_def, and_assoc]

theorem ConstructorChain.forall_toStmts {chain : ConstructorChain} (h : ∀ type ∈ chain.allTypes, P type) :
    ∀ stmt ∈ chain.toStmts, ∀ type ∈ stmt.gather Stmt.ownTypes Expr.ownTypes, P type := by
  cases chain with
  | absent | object => simp [toStmts, Stmt.gather, Stmt.ownTypes, ConstructorRef.allTypes, Expr.gatherAll]
  | base type types arguments =>
    simpa [toStmts, Stmt.gather, Stmt.ownTypes, ConstructorRef.allTypes, Expr.gatherAll_eq, List.flatMap_map,
      Expr.gather, Expr.ownTypes, ConstructorChain.allTypes] using h

theorem MemberRead.forall_load {read : MemberRead} (h : P read.type ∧ P read.owner) :
    ∀ type ∈ (read.load .this).gather Expr.ownTypes, P type := by
  rw [load]
  split <;> simpa [Expr.gather, Expr.ownTypes, FieldRef.allTypes, and_comm] using h

end

namespace MemberSet.TypesSatisfy

variable {set : MemberSet} {P : Ty → Prop} (types : set.TypesSatisfy P)

include types

theorem lowerPrimaryConstructor {primary : PrimaryConstructor} (h : set.primaryConstructor = some primary) :
    ∀ type ∈ (set.lowerPrimaryConstructor primary).allTypes, P type := by
  refine Function.forall_allTypes.mpr ⟨types.selfType, ?_, by simp [MemberSet.lowerPrimaryConstructor], ?_⟩
  · exact List.forall_mem_map.mpr (types.parameters primary h)
  · refine List.forall_mem_append.mpr ⟨List.forall_mem_map.mpr fun store hStore => ?_, ?_⟩
    · simp [Stmt.gather, Stmt.ownTypes, Expr.gather, Expr.ownTypes, FieldRef.allTypes, MemberSet.field, types.selfType,
        types.stores primary h store hStore]
    · exact ConstructorChain.forall_toStmts (types.primaryChain primary h)

theorem adoptedParameterType (position : Nat) : P (set.adoptedParameterType position) := by
  rw [MemberSet.adoptedParameterType]
  split
  · rename_i c hMember
    split
    · rename_i p others hParameters
      refine types.userMembers _ (List.mem_of_getElem? hMember) _ ?_
      simp [Member.types, Decl.Constructor.types, hParameters]
    · exact types.selfType
  · exact types.selfType

theorem stateField {state : StateMember} (h : state ∈ set.state) :
    ∀ type ∈ (set.stateField state).allTypes, P type := by
  simp [FieldRef.allTypes, MemberSet.stateField, MemberSet.field, types.selfType, types.state state h]

theorem lowerCopyConstructor {copy : CopyConstructor} (h : set.copyConstructor = some copy) :
    ∀ type ∈ (set.lowerCopyConstructor copy).allTypes, P type := by
  have hChain := ConstructorChain.forall_toStmts (types.copyChain copy h)
  cases copy with
  | synthesized chain =>
    refine Function.forall_allTypes.mpr ⟨types.selfType, ?_, by simp [MemberSet.lowerCopyConstructor], ?_⟩
    · simp [MemberSet.lowerCopyConstructor, types.selfType]
    · refine List.forall_mem_append.mpr ⟨hChain, List.forall_mem_map.mpr fun state hState => ?_⟩
      have hField := types.stateField hState
      simpa [Stmt.gather, Stmt.ownTypes, Expr.gather, Expr.ownTypes, or_imp, forall_and] using hField
  | adopted position parameter body chain =>
    refine Function.forall_allTypes.mpr ⟨types.selfType, ?_, by simp [MemberSet.lowerCopyConstructor], ?_⟩
    · simp [MemberSet.lowerCopyConstructor, types.adoptedParameterType]
    · refine List.forall_mem_append.mpr ⟨hChain, ?_⟩
      simp [Stmt.gather, Stmt.ownTypes]

theorem lowerGetter {property : SynthesizedProperty} (h : property ∈ set.properties) :
    ∀ type ∈ (set.lowerGetter property).allTypes, P type := by
  simp [Function.forall_allTypes, MemberSet.lowerGetter, Stmt.gather, Stmt.ownTypes, Expr.gather, Expr.ownTypes,
    FieldRef.allTypes, MemberSet.field, types.selfType, types.properties property h]

theorem lowerInitAccessor {property : SynthesizedProperty} (h : property ∈ set.properties) :
    ∀ type ∈ (set.lowerInitAccessor property).allTypes, P type := by
  simp [Function.forall_allTypes, MemberSet.lowerInitAccessor, Stmt.gather, Stmt.ownTypes, Expr.gather, Expr.ownTypes,
    FieldRef.allTypes, MemberSet.field, types.selfType, types.properties property h]

theorem lowerClone : ∀ type ∈ set.lowerClone.allTypes, P type := by
  have hSelf := types.selfType
  have hClone := types.clone
  cases hKind : set.isValueType <;>
    simp [Function.forall_allTypes, MemberSet.lowerClone, hKind, Stmt.gather, Stmt.ownTypes, Expr.gather, Expr.ownTypes,
      Expr.gatherAll, hSelf, hClone]

theorem equalityTerms (builtIn : ∀ p, P (.primitive p)) :
    ∀ term ∈ set.equalityTerms, ∀ type ∈ term.gather Expr.ownTypes, P type := by
  refine List.forall_mem_append.mpr ⟨?_, List.forall_mem_map.mpr fun state hState => ?_⟩
  · cases hBase : set.base with
    | none => simp
    | some link =>
      have hLink := types.base link hBase
      simp [Expr.gather, Expr.ownTypes, Expr.gatherAll, MethodRef.allTypes, typedEqualsRef, hLink, Ty.bool, builtIn]
  · have hField := types.stateField hState
    have hType := types.state state hState
    simpa [Expr.gather, Expr.ownTypes, hType, or_imp, forall_and] using hField

theorem lowerTypedEquals (builtIn : ∀ p, P (.primitive p)) : ∀ type ∈ set.lowerTypedEquals.allTypes, P type := by
  have hConjunction : ∀ type ∈ (MemberSet.conjunction set.equalityTerms).gather Expr.ownTypes, P type := by
    rw [Expr.gather_conjunction Expr.ownTypes rfl fun _ _ => rfl]
    exact List.forall_mem_flatMap.mpr (types.equalityTerms builtIn)
  refine Function.forall_allTypes.mpr ⟨types.selfType, ?_, ?_, ?_⟩
  · simp [MemberSet.lowerTypedEquals, types.selfType]
  · simp [MemberSet.lowerTypedEquals, Ty.bool, builtIn]
  · refine List.forall_mem_append.mpr ⟨?_, ?_⟩
    · cases set.isValueType <;>
        simp [Stmt.gather, Stmt.ownTypes, Stmt.gatherAll, Expr.gather, Expr.ownTypes]
    · simpa [Stmt.gather, Stmt.ownTypes] using hConjunction

theorem lowerObjectEquals (builtIn : ∀ p, P (.primitive p)) : ∀ type ∈ set.lowerObjectEquals.allTypes, P type := by
  simp [Function.forall_allTypes, MemberSet.lowerObjectEquals, Stmt.gather, Stmt.ownTypes, Expr.gather, Expr.ownTypes,
    Expr.gatherAll, MethodRef.allTypes, typedEqualsRef, types.selfType, Ty.bool, Ty.object, builtIn]

theorem lowerHash (builtIn : ∀ p, P (.primitive p)) : ∀ type ∈ set.lowerHash.allTypes, P type := by
  have hSeed : ∀ type ∈ set.hashSeed.gather Expr.ownTypes, P type := by
    rw [MemberSet.hashSeed]
    cases hBase : set.base with
    | none => simp [Expr.gather, Expr.ownTypes, types.selfType]
    | some link =>
      simp [Expr.gather, Expr.ownTypes, Expr.gatherAll, MethodRef.allTypes, types.base link hBase, Ty.int, builtIn]
  have hStates : ∀ state ∈ set.state, ∀ type ∈ (Expr.memberHash state.equality state.member.type
      (.loadField .this (set.stateField state))).gather Expr.ownTypes, P type := by
    intro state hState
    have hField := types.stateField hState
    have hType := types.state state hState
    simpa [Expr.gather, Expr.ownTypes, hType] using hField
  have hBody : ∀ type ∈ set.lowerHash.gather Stmt.ownTypes Expr.ownTypes, P type := by
    rw [Function.gather_lowerHash _ _ (fun _ => rfl) fun _ _ => rfl]
    exact List.forall_mem_append.mpr ⟨hSeed, List.forall_mem_flatMap.mpr hStates⟩
  refine Function.forall_allTypes.mpr ⟨types.selfType, by simp [MemberSet.lowerHash], ?_, ?_⟩
  · simp [MemberSet.lowerHash, Ty.int, builtIn]
  · rwa [Function.gather, Stmt.gatherAll_eq, List.forall_mem_flatMap] at hBody

theorem lowerOperators (builtIn : ∀ p, P (.primitive p)) :
    (∀ type ∈ set.lowerEqualityOperator.allTypes, P type) ∧ ∀ type ∈ set.lowerInequalityOperator.allTypes, P type := by
  constructor
  · cases hKind : set.isValueType <;>
      simp [Function.forall_allTypes, MemberSet.lowerEqualityOperator, MemberSet.lowerOperator, hKind, Stmt.gather,
        Stmt.ownTypes, Expr.gather, Expr.ownTypes, Expr.gatherAll, MethodRef.allTypes, typedEqualsRef, types.selfType,
        Ty.bool, builtIn]
  · simp [Function.forall_allTypes, MemberSet.lowerInequalityOperator, MemberSet.lowerOperator, Stmt.gather,
      Stmt.ownTypes, Expr.gather, Expr.ownTypes, Expr.gatherAll, MethodRef.allTypes, types.selfType, Ty.bool, builtIn]

theorem lowerDeconstruct : ∀ type ∈ set.lowerDeconstruct.allTypes, P type := by
  refine Function.forall_allTypes.mpr ⟨types.selfType, ?_, by simp [MemberSet.lowerDeconstruct], ?_⟩
  · exact List.forall_mem_map.mpr fun read hRead => (types.positional read hRead).1
  · refine List.forall_mem_map.mpr fun read hRead => ?_
    simpa [Stmt.gather, Stmt.ownTypes] using MemberRead.forall_load (types.positional read hRead)

theorem lowerTextForm (builtIn : ∀ p, P (.primitive p)) : ∀ type ∈ set.lowerTextForm.allTypes, P type := by
  have hPrinted : ∀ lead, ∀ read ∈ set.printable, ∀ part ∈ printedMember lead read,
      ∀ type ∈ part.gather Expr.ownTypes, P type := by
    intro lead read hRead
    have hLoad := MemberRead.forall_load (types.printable read hRead)
    simpa [printedMember, Expr.gather, Expr.ownTypes, (types.printable read hRead).1] using hLoad
  have hParts : ∀ part ∈ set.printedParts, ∀ type ∈ part.gather Expr.ownTypes, P type := by
    rw [MemberSet.printedParts]
    split
    · simp [Expr.gather, Expr.ownTypes]
    · rename_i read others hPrintable
      refine List.forall_mem_append.mpr ⟨List.forall_mem_append.mpr ⟨hPrinted _ read ?_, ?_⟩, ?_⟩
      · simp [hPrintable]
      · exact List.forall_mem_flatMap.mpr fun other hOther => hPrinted _ other (by simp [hPrintable, hOther])
      · simp [Expr.gather, Expr.ownTypes]
  refine Function.forall_allTypes.mpr ⟨types.selfType, by simp [MemberSet.lowerTextForm], ?_, ?_⟩
  · simp [MemberSet.lowerTextForm, Ty.string, builtIn]
  · refine List.forall_mem_singleton.mpr ?_
    rw [Stmt.gather, Stmt.ownTypes, Expr.gather, Expr.ownTypes, Expr.gatherAll_eq]
    exact List.forall_mem_flatMap.mpr hParts

/-- What is true of all types of a set and of the built-in ones is true of all types in its code. -/
theorem lower? (builtIn : ∀ p, P (.primitive p)) {member : SynthesizedMember} {function : Function}
    (h : set.lower? member = some function) : ∀ type ∈ function.allTypes, P type := by
  cases lowers_of_lower? h with
  | primaryConstructor held => exact types.lowerPrimaryConstructor held
  | copyConstructor held => exact types.lowerCopyConstructor held
  | getter held => exact types.lowerGetter (List.mem_of_getElem? held)
  | initAccessor held => exact types.lowerInitAccessor (List.mem_of_getElem? held)
  | clone => exact types.lowerClone
  | typedEquals => exact types.lowerTypedEquals builtIn
  | objectEquals => exact types.lowerObjectEquals builtIn
  | hash => exact types.lowerHash builtIn
  | deconstruct => exact types.lowerDeconstruct
  | equalityOperator => exact (types.lowerOperators builtIn).1
  | inequalityOperator => exact (types.lowerOperators builtIn).2
  | textForm => exact types.lowerTextForm builtIn

end MemberSet.TypesSatisfy

end RecordSynthesis
