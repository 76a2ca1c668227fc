import RecordSynthesis.Proofs.Dispatch
import RecordSynthesis.Proofs.Occurrences
import RecordSynthesis.Proofs.Support
import RecordSynthesis.Proofs.ViewGroups

/-!
# Calls of the base

The code of a derived record calls its base in four places: the primary constructor and the copy constructor call a
constructor, typed equality and the hash call their namesakes. What a call names is settled by name and parameter types.
Synthesis makes nothing private that can be called so, and never looks at the visibility of what is declared; a call is
one of a private member just where the declaration of the base says private.
-/

namespace RecordSynthesis

set_option autoImplicit false

open Code
open Decl (CompilationUnit Record Member)

inductive BaseCall
  | constructor (called : ConstructorRef)
  | method (called : MethodRef)
  deriving Repr

def Code.Expr.baseCall : Expr → List BaseCall
  | .callBase called _ => [.method called]
  | _ => []

def Code.Stmt.baseCall : Stmt → List BaseCall
  | .callBaseConstructor called _ => [.constructor called]
  | _ => []

def Code.Function.baseCalls (function : Function) : List BaseCall :=
  function.gather Stmt.baseCall Expr.baseCall

def ConstructorChain.calls : ConstructorChain → List BaseCall
  | .absent => []
  | .object => [.constructor .object]
  | .base type types _ => [.constructor (.record type types)]

namespace MemberSet

def baseCallsOf (set : MemberSet) : SynthesizedMember → List BaseCall
  | .primaryConstructor => set.primaryConstructor.toList.flatMap fun primary => primary.chain.calls
  | .copyConstructor => set.copyConstructor.toList.flatMap fun copy => copy.chain.calls
  | .typedEquals => set.base.toList.map fun link => .method (typedEqualsRef link.selfType)
  | .hash => set.base.toList.map fun link => .method (hashRef link.selfType)
  | .getter _ | .initAccessor _ | .clone | .objectEquals | .deconstruct | .equalityOperator | .inequalityOperator
  | .textForm => []

end MemberSet

theorem ConstructorChain.gather_toStmts (chain : ConstructorChain) :
    chain.toStmts.flatMap (Stmt.gather Stmt.baseCall Expr.baseCall) = chain.calls := by
  cases chain with
  | absent | object => rfl
  | base type types arguments =>
    simp [toStmts, calls, Stmt.gather, Stmt.baseCall, Expr.gatherAll_eq, Expr.gather, Expr.baseCall]

theorem MemberRead.gather_load (read : MemberRead) : (read.load .this).gather Expr.baseCall = [] := by
  rw [load]
  split <;> rfl

namespace MemberSet

variable (set : MemberSet)

theorem baseCalls_lowerPrimaryConstructor (primary : PrimaryConstructor) :
    (set.lowerPrimaryConstructor primary).baseCalls = primary.chain.calls := by
  rw [Function.baseCalls, Function.gather, lowerPrimaryConstructor, Stmt.gatherAll_eq, List.flatMap_append,
    ConstructorChain.gather_toStmts]
  simp [List.flatMap_map, Stmt.gather, Stmt.baseCall, Expr.gather, Expr.baseCall]

theorem baseCalls_lowerCopyConstructor (copy : CopyConstructor) :
    (set.lowerCopyConstructor copy).baseCalls = copy.chain.calls := by
  cases copy with
  | synthesized chain =>
    rw [Function.baseCalls, Function.gather, lowerCopyConstructor, Stmt.gatherAll_eq, List.flatMap_append,
      ConstructorChain.gather_toStmts]
    simp [List.flatMap_map, Stmt.gather, Stmt.baseCall, Expr.gather, Expr.baseCall, CopyConstructor.chain]
  | adopted position parameter body chain =>
    rw [Function.baseCalls, Function.gather, lowerCopyConstructor, Stmt.gatherAll_eq, List.flatMap_append,
      ConstructorChain.gather_toStmts]
    simp [Stmt.gather, Stmt.baseCall, CopyConstructor.chain]

theorem baseCalls_lowerTypedEquals :
    set.lowerTypedEquals.baseCalls = set.base.toList.map fun link => .method (typedEqualsRef link.selfType) := by
  have hTerms : set.equalityTerms.flatMap (Expr.gather Expr.baseCall) =
      set.base.toList.map fun link => .method (typedEqualsRef link.selfType) := by
    rw [equalityTerms, List.flatMap_append]
    cases set.base <;> simp [List.flatMap_map, Expr.gather, Expr.gatherAll, Expr.baseCall]
  have hConjunction := Expr.gather_conjunction Expr.baseCall rfl (fun _ _ => rfl) set.equalityTerms
  rw [Function.baseCalls, Function.gather, lowerTypedEquals, Stmt.gatherAll_eq, List.flatMap_append, ← hTerms,
    ← hConjunction]
  cases set.isValueType <;>
    simp [Stmt.gather, Stmt.baseCall, Stmt.gatherAll, Expr.gather, Expr.baseCall]

theorem baseCalls_lowerHash :
    set.lowerHash.baseCalls = set.base.toList.map fun link => .method (hashRef link.selfType) := by
  have hSeed : set.hashSeed.gather Expr.baseCall =
      set.base.toList.map fun link => .method (hashRef link.selfType) := by
    rw [hashSeed]
    cases set.base <;> simp [Expr.gather, Expr.gatherAll, Expr.baseCall, hashRef]
  rw [Function.baseCalls, Function.gather_lowerHash _ _ (fun _ => rfl) fun _ _ => rfl, ← hSeed]
  simp [Expr.gather, Expr.baseCall]

theorem baseCalls_lowerDeconstruct : set.lowerDeconstruct.baseCalls = [] := by
  rw [Function.baseCalls, Function.gather, lowerDeconstruct, Stmt.gatherAll_eq, List.flatMap_map]
  simp [Stmt.gather, Stmt.baseCall, MemberRead.gather_load]

theorem baseCalls_lowerTextForm : set.lowerTextForm.baseCalls = [] := by
  have hPrinted : ∀ lead (read : MemberRead), (printedMember lead read).flatMap (Expr.gather Expr.baseCall) = [] := by
    intro lead read
    simp [printedMember, Expr.gather, Expr.baseCall, MemberRead.gather_load]
  have hParts : set.printedParts.flatMap (Expr.gather Expr.baseCall) = [] := by
    rw [printedParts]
    split
    · rfl
    · simp [List.flatMap_append, List.flatMap_assoc, hPrinted, Expr.gather, Expr.baseCall]
  simp [Function.baseCalls, Function.gather, lowerTextForm, Stmt.gatherAll, Stmt.gather, Stmt.baseCall, Expr.gather,
    Expr.baseCall, Expr.gatherAll_eq, hParts]

theorem baseCalls_lowerEqualityOperator : set.lowerEqualityOperator.baseCalls = [] := by
  rw [lowerEqualityOperator, lowerOperator]
  cases set.isValueType <;> rfl

theorem baseCalls_lowerClone : set.lowerClone.baseCalls = [] := by
  rw [lowerClone]
  cases set.isValueType <;> rfl

theorem baseCalls_of_lower? {set : MemberSet} {member : SynthesizedMember} {function : Function}
    (h : set.lower? member = some function) : function.baseCalls = set.baseCallsOf member := by
  cases lowers_of_lower? h with
  | primaryConstructor held => simp [baseCallsOf, held, baseCalls_lowerPrimaryConstructor]
  | copyConstructor held => simp [baseCallsOf, held, baseCalls_lowerCopyConstructor]
  | typedEquals => exact set.baseCalls_lowerTypedEquals
  | hash => exact set.baseCalls_lowerHash
  | deconstruct => exact set.baseCalls_lowerDeconstruct
  | textForm => exact set.baseCalls_lowerTextForm
  | equalityOperator => exact set.baseCalls_lowerEqualityOperator
  | clone => exact set.baseCalls_lowerClone
  | getter _ | initAccessor _ | objectEquals _ | inequalityOperator _ => rfl

end MemberSet

/-- The entry of a view that a call refers to: a constructor by its parameter types, an instance method also by its
name. -/
def MemberSymbol.answers (symbol : MemberSymbol) : BaseCall → Bool
  | .constructor .object => false
  | .constructor (.record _ types) =>
    symbol.kind = .constructor && Signature.ofTypes symbol.types = Signature.ofTypes types
  | .method called =>
    symbol.kind = .method && !symbol.isStatic && symbol.name = called.name
      && Signature.ofTypes symbol.types = Signature.ofTypes called.types

inductive BaseCall.Of (base : MemberSet) : BaseCall → Prop
  | constructor {types : List Ty} : Of base (.constructor (.record base.selfType types))
  | typedEquals : Of base (.method (typedEqualsRef base.selfType))
  | hash : Of base (.method (hashRef base.selfType))

/-- A declared member that is private and that a call refers to. -/
inductive Decl.Member.Hides : Member → BaseCall → Prop
  | constructor {c : Decl.Constructor} {type : Ty} {types : List Ty} (hidden : c.visibility = .isPrivate)
      (typed : Signature.ofTypes c.types = Signature.ofTypes types) :
      Hides (.constructor c) (.constructor (.record type types))
  | method {m : Decl.Method} {called : MethodRef} (hidden : m.visibility = .isPrivate)
      (instanceLevel : m.isStatic = false) (named : m.name = called.name)
      (typed : Signature.ofTypes m.types = Signature.ofTypes called.types) : Hides (.method m) (.method called)

theorem Decl.Member.hides_iff {record : String} {position : Nat} {member : Member} {call : BaseCall} :
    member.Hides call ↔ (MemberSymbol.ofMember record position member).answers call = true ∧
      (MemberSymbol.ofMember record position member).visibility = .isPrivate := by
  constructor
  · rintro (⟨hidden, typed⟩ | ⟨hidden, instanceLevel, named, typed⟩)
    · simp [MemberSymbol.answers, MemberSymbol.ofMember, hidden, typed]
    · simp [MemberSymbol.answers, MemberSymbol.ofMember, hidden, instanceLevel, named, typed]
  · rintro ⟨hAnswers, hidden⟩
    rcases call with (_ | ⟨type, types⟩) | called
    · cases hAnswers
    · cases member with
      | constructor c => exact .constructor hidden (of_decide_eq_true hAnswers)
      | field _ | property _ | event _ | indexer _ | method _ => cases hAnswers
    · cases member with
      | method m =>
        simp only [MemberSymbol.answers, Bool.and_eq_true, Bool.not_eq_true'] at hAnswers
        obtain ⟨⟨⟨-, instanceLevel⟩, named⟩, typed⟩ := hAnswers
        exact .method hidden instanceLevel (of_decide_eq_true named) (of_decide_eq_true typed)
      | field _ | property _ | event _ | indexer _ | constructor _ => cases hAnswers

namespace MemberSet

variable {set : MemberSet} {symbol : MemberSymbol} {call : BaseCall}

theorem visible_of_synthesized (mem : symbol ∈ set.members) (answers : symbol.answers call = true)
    (synthesized : symbol.origin = .synthesized) : symbol.visibility ≠ .isPrivate := by
  have hKind : symbol.kind = .constructor ∨ symbol.kind = .method := by
    rcases call with (_ | _) | _ <;> simp [MemberSymbol.answers] at answers <;> simp [answers]
  have hEntry : symbol ∈ set.synthesizedOf symbol.kind := by
    rw [← filter_members_synthesized]
    exact List.mem_filter.mpr ⟨mem, by simp [synthesized]⟩
  rcases hKind with hKind | hKind
  · rw [hKind] at hEntry
    simp only [synthesizedOf, synthesizedConstructors, List.mem_append] at hEntry
    rcases hEntry with h | h <;> split at h <;> simp_all
  · rw [hKind] at hEntry
    simp only [synthesizedOf, synthesizedMethods, List.mem_append, List.mem_ite_nil_right, List.mem_singleton] at hEntry
    rcases hEntry with ((((rfl | ⟨_, rfl⟩) | ⟨_, rfl⟩) | ⟨_, rfl⟩) | ⟨_, rfl⟩) | ⟨_, rfl⟩ <;> simp

/-- Only a declaration makes private what a call refers to. -/
theorem exists_private_iff :
    (∃ symbol ∈ set.members, symbol.answers call = true ∧ symbol.visibility = .isPrivate) ↔
      ∃ member ∈ set.userMembers, member.Hides call := by
  constructor
  · rintro ⟨symbol, hSymbol, hAnswers, hidden⟩
    obtain ⟨kind, -, hGroup⟩ := List.mem_flatMap.mp hSymbol
    rcases List.mem_append.mp hGroup with h | h
    · exact absurd hidden (visible_of_synthesized hSymbol hAnswers (of_mem_synthesizedOf h).2)
    · obtain ⟨position, member, hMember, rfl⟩ := mem_userSymbols (List.mem_of_mem_filter h)
      exact ⟨member, List.mem_of_getElem? hMember, Decl.Member.hides_iff.mpr ⟨hAnswers, hidden⟩⟩
  · rintro ⟨member, hMember, hHides⟩
    obtain ⟨position, hPosition⟩ := List.mem_iff_getElem?.mp hMember
    obtain ⟨hAnswers, hidden⟩ := Decl.Member.hides_iff.mp hHides
    exact ⟨_, mem_members_of_userMembers hPosition, hAnswers, hidden⟩

theorem exists_mem_baseCalls_iff {call : BaseCall} :
    (∃ function ∈ set.functions, call ∈ function.baseCalls) ↔
      ∃ member, (set.lower? member).isSome = true ∧ call ∈ set.baseCallsOf member := by
  constructor
  · rintro ⟨function, hFunction, hCall⟩
    obtain ⟨member, -, hLowered⟩ := List.mem_filterMap.mp hFunction
    exact ⟨member, by rw [hLowered]; rfl, baseCalls_of_lower? hLowered ▸ hCall⟩
  · rintro ⟨member, hSome, hCall⟩
    obtain ⟨function, hLowered⟩ := Option.isSome_iff_exists.mp hSome
    refine ⟨function, List.mem_filterMap.mpr ⟨member, mem_synthesizedMembers_iff.mpr hSome, hLowered⟩, ?_⟩
    rwa [baseCalls_of_lower? hLowered]

end MemberSet

namespace RecordTable.Origin

variable {unit : CompilationUnit} {options : SynthesisOptions} {table : RecordTable} {set above : MemberSet}
  {record : Record} {copy : Option CopyConstructor}

theorem base_eq (origin : Origin unit options table set record (some above) copy) :
    set.base = some ⟨above.recordName, above.selfType, above.inheritanceDepth⟩ := by
  rw [origin.made]
  rfl

theorem chain_eq (origin : Origin unit options table set record (some above) copy) {made : CopyConstructor}
    (h : set.copyConstructor = some made) : ∃ types arguments, made.chain = .base above.selfType types arguments := by
  obtain rfl : copy = some made := by
    rw [origin.made] at h
    exact h
  rcases Record.copyConstructor_eq_ok origin.copied.2 with rfl | ⟨position, c, p, others, -, -, -, rfl⟩
  · exact ⟨_, _, rfl⟩
  · rw [CopyConstructor.chain, ConstructorChain.adopting]
    split <;> exact ⟨_, _, rfl⟩

theorem of_mem_baseCallsOf (origin : Origin unit options table set record (some above) copy)
    {member : SynthesizedMember} {call : BaseCall} (h : call ∈ set.baseCallsOf member) : call.Of above := by
  cases member with
  | primaryConstructor =>
    obtain ⟨primary, hPrimary, hCall⟩ := List.mem_flatMap.mp h
    rw [Option.mem_toList, origin.made] at hPrimary
    obtain ⟨-, ⟨⟩⟩ := Option.ite_none_right_eq_some.mp hPrimary
    rw [origin.primaryChain_eq rfl] at hCall
    rw [List.mem_singleton.mp hCall]
    exact .constructor
  | copyConstructor =>
    obtain ⟨made, hMade, hCall⟩ := List.mem_flatMap.mp h
    obtain ⟨types, arguments, hChain⟩ := origin.chain_eq (Option.mem_toList.mp hMade)
    rw [hChain] at hCall
    rw [List.mem_singleton.mp hCall]
    exact .constructor
  | typedEquals =>
    rw [MemberSet.baseCallsOf, origin.base_eq] at h
    rw [List.mem_singleton.mp h]
    exact .typedEquals
  | hash =>
    rw [MemberSet.baseCallsOf, origin.base_eq] at h
    rw [List.mem_singleton.mp h]
    exact .hash
  | getter _ | initAccessor _ | clone | objectEquals | deconstruct | equalityOperator | inequalityOperator
  | textForm => cases h

theorem method_mem_baseCallsOf_iff (origin : Origin unit options table set record (some above) copy)
    {member : SynthesizedMember} {called : MethodRef} :
    .method called ∈ set.baseCallsOf member ↔
      (member = .typedEquals ∧ called = typedEqualsRef above.selfType) ∨
        (member = .hash ∧ called = hashRef above.selfType) := by
  have hChain : ∀ chain : ConstructorChain, .method called ∉ chain.calls := by
    rintro (_ | _ | _) <;> simp [ConstructorChain.calls]
  cases member <;> simp [MemberSet.baseCallsOf, origin.base_eq, hChain]

theorem exists_method_call_iff (origin : Origin unit options table set record (some above) copy) :
    ((∃ function ∈ set.functions, .method (typedEqualsRef above.selfType) ∈ function.baseCalls) ↔
        set.equality.typedEquals = .synthesized) ∧
      ((∃ function ∈ set.functions, .method (hashRef above.selfType) ∈ function.baseCalls) ↔
        set.equality.hash = .synthesized) := by
  simp only [MemberSet.exists_mem_baseCalls_iff, origin.method_mem_baseCallsOf_iff]
  constructor
  · simp [typedEqualsRef, hashRef, MemberSet.lower?]
  · simp [typedEqualsRef, hashRef, MemberSet.lower?]

theorem exists_copy_call (origin : Origin unit options table set record (some above) copy) {chain : ConstructorChain}
    (h : set.copyConstructor = some (.synthesized chain)) :
    ∃ function ∈ set.functions, .constructor (.record above.selfType [above.selfType]) ∈ function.baseCalls := by
  refine MemberSet.exists_mem_baseCalls_iff.mpr ⟨.copyConstructor, by simp [MemberSet.lower?, h], ?_⟩
  obtain rfl : copy = some (.synthesized chain) := by
    rw [origin.made] at h
    exact h
  rcases Record.copyConstructor_eq_ok origin.copied.2 with ⟨⟨⟩⟩ | ⟨_, _, _, _, -, -, -, ⟨⟩⟩
  rw [MemberSet.baseCallsOf, h]
  exact List.mem_singleton_self _

end RecordTable.Origin

/-- The code of a derived record calls constructors, typed equality and the hash of its base and nothing else there. No
synthesized member that a call refers to is private, and a call refers to a private one exactly if the declaration of
the base has it so. The two methods and the copy constructor are called whatever their visibility. -/
theorem base_call_private_iff (unit : CompilationUnit) (options : SynthesisOptions) (set base : MemberSet)
    (mem : set ∈ (checkUnit unit options).table.sets) (linked : (checkUnit unit options).table.baseOf? set = some base)
    (above : Record) (declared : unit.find? base.recordName = some above) :
    ∃ module, set.lowerAll = .ok module ∧
      (∀ function ∈ module.functions, ∀ call ∈ function.baseCalls,
        call.Of base ∧
        (∀ symbol ∈ base.members, symbol.answers call = true → symbol.origin = .synthesized →
          symbol.visibility ≠ .isPrivate) ∧
        ((∃ symbol ∈ base.members, symbol.answers call = true ∧ symbol.visibility = .isPrivate) ↔
          ∃ member ∈ above.members, member.Hides call)) ∧
      ((∃ function ∈ module.functions, .method (typedEqualsRef base.selfType) ∈ function.baseCalls) ↔
        set.equality.typedEquals = .synthesized) ∧
      ((∃ function ∈ module.functions, .method (hashRef base.selfType) ∈ function.baseCalls) ↔
        set.equality.hash = .synthesized) ∧
      ∀ chain, set.copyConstructor = some (.synthesized chain) → ∃ function ∈ module.functions,
        .constructor (.record base.selfType [base.selfType]) ∈ function.baseCalls := by
  have grown := checkUnit_grown unit options
  obtain ⟨record, given, copy, origin⟩ := grown.exists_origin mem
  obtain rfl : given = some base := origin.baseOf?_eq.symm.trans linked
  obtain ⟨_, _, aboveOrigin⟩ := grown.exists_origin_of_find? (origin.base_mem rfl).1 declared
  have hDeclared : base.userMembers = above.members := by
    rw [aboveOrigin.made]
    rfl
  obtain ⟨hEquals, hHash⟩ := origin.exists_method_call_iff
  refine ⟨⟨set.recordName, set.functions⟩, set.lowerAll_eq, ?_, hEquals, hHash, fun _ => origin.exists_copy_call⟩
  intro function hFunction call hCall
  obtain ⟨member, -, hMember⟩ := MemberSet.exists_mem_baseCalls_iff.mp ⟨function, hFunction, hCall⟩
  refine ⟨origin.of_mem_baseCallsOf hMember, ?_, ?_⟩
  · exact fun symbol hSymbol => MemberSet.visible_of_synthesized hSymbol
  · rw [← hDeclared]
    exact MemberSet.exists_private_iff

def guarded : CompilationUnit where
  records :=
    [{ name := "Person"
       members := [.method { name := "GetHashCode", returnType := some Ty.int },
         .constructor { parameters := [{ name := "source", type := .named "Person" [] .reference }] }] },
      { name := "Student", base := some "Person" }]

/-- Nothing is reported, and yet the code of the student calls a private hash and a private constructor. -/
theorem not_base_calls_visible_student :
    let result := checkUnit guarded.resolve {}
    result.diagnostics.isEmpty = true ∧ result.faults = [] ∧
    ∃ set ∈ result.table.sets, ∃ base module, result.table.baseOf? set = some base ∧ set.lowerAll = .ok module ∧
      ∀ call ∈ [BaseCall.method (hashRef base.selfType), .constructor (.record base.selfType [base.selfType])],
        (∃ function ∈ module.functions, call ∈ function.baseCalls) ∧
        ∃ symbol ∈ base.members, symbol.answers call = true ∧ symbol.visibility = .isPrivate := by
  intro result
  have hStudent : result.table.sets[1]? = some _ := rfl
  refine ⟨rfl, rfl, _, List.mem_of_getElem? hStudent, _, _, rfl, MemberSet.lowerAll_eq _, ?_⟩
  intro call hCall
  rcases List.mem_cons.mp hCall with rfl | hCall
  · refine ⟨⟨_, List.mem_of_getElem? (i := 4) rfl, List.mem_of_getElem? (i := 0) rfl⟩, _,
      List.mem_of_getElem? (i := 5) rfl, by decide, rfl⟩
  · rw [List.mem_singleton.mp hCall]
    refine ⟨⟨_, List.mem_of_getElem? (i := 0) rfl, List.mem_of_getElem? (i := 0) rfl⟩, _,
      List.mem_of_getElem? (i := 0) rfl, by decide, rfl⟩

def guardedSet (name : String) : MemberSet :=
  ((checkUnit guarded.resolve {}).table.get? name).getD default

theorem base_call_private_iff_student :
    guardedSet "Student" ∈ (checkUnit guarded.resolve {}).table.sets ∧
    (checkUnit guarded.resolve {}).table.baseOf? (guardedSet "Student") = some (guardedSet "Person") ∧
    (∃ above, guarded.resolve.find? (guardedSet "Person").recordName = some above ∧
      ∃ member ∈ above.members, member.Hides (.method (hashRef (guardedSet "Person").selfType))) ∧
    ∃ module, (guardedSet "Student").lowerAll = .ok module ∧
      ∃ function ∈ module.functions, .method (hashRef (guardedSet "Person").selfType) ∈ function.baseCalls := by
  have hStudent : (checkUnit guarded.resolve {}).table.get? "Student" = some (guardedSet "Student") := rfl
  have mem := (RecordTable.mem_of_get? hStudent).1
  have linked : (checkUnit guarded.resolve {}).table.baseOf? (guardedSet "Student") = some (guardedSet "Person") := rfl
  have hPerson : guarded.resolve.find? (guardedSet "Person").recordName = some _ := rfl
  obtain ⟨module, hModule, hCalls, -, hHash, -⟩ :=
    base_call_private_iff guarded.resolve {} _ _ mem linked _ hPerson
  obtain ⟨function, hFunction, hCall⟩ := hHash.mpr rfl
  have hPrivate : ∃ symbol ∈ (guardedSet "Person").members,
      symbol.answers (.method (hashRef (guardedSet "Person").selfType)) = true ∧ symbol.visibility = .isPrivate :=
    ⟨_, List.mem_of_getElem? (i := 5) rfl, by decide, rfl⟩
  exact ⟨mem, linked, ⟨_, hPerson, (hCalls function hFunction _ hCall).2.2.mp hPrivate⟩, module, hModule, function,
    hFunction, hCall⟩

end RecordSynthesis
