import RecordSynthesis.Proofs.LoweredMembers
import RecordSynthesis.Proofs.References
import RecordSynthesis.Proofs.View

/-!
# Lowered code is closed

Every name in the lowered code of a record means something: a parameter of the function it stands in, or a member that
the view of the record or of one of its ancestors holds. Synthesis provides what lowering relies on, set by set from the
base on; each lowered function then stays within its scope.
-/

namespace RecordSynthesis

set_option autoImplicit false

open Code
open Decl (CompilationUnit Record Member)

namespace RecordTable

def AtLevel (table : RecordTable) (set : MemberSet) (owner : Ty) (has : MemberSet → Prop) : Prop :=
  ∃ level ∈ table.levels set, level.selfType = owner ∧ has level

def scope (table : RecordTable) (set : MemberSet) (function : Function) : Scope where
  parameter name := ∃ p ∈ function.parameters, p.name = name
  output name := ∃ p ∈ function.parameters, p.name = name ∧ p.mode = .byOut
  field field := table.AtLevel set field.owner fun level => level.HasStorage field.name field.type
  property owner name type := table.AtLevel set owner fun level => level.HasProperty name type
  method isStatic method :=
    table.AtLevel set method.owner fun level =>
      level.HasMethod isStatic method.name (Signature.ofTypes method.types)
  constructor type types :=
    table.AtLevel set type fun level => level.HasConstructor (Signature.ofTypes types)

def Finds (table : RecordTable) (set : MemberSet) (read : MemberRead) : Prop :=
  match read.access with
  | .property => table.AtLevel set read.owner fun level => level.HasProperty read.name read.type
  | .field => table.AtLevel set read.owner fun level => level.HasStorage read.name read.type

theorem AtLevel.self {table : RecordTable} {set : MemberSet} {has : MemberSet → Prop} (h : has set) :
    table.AtLevel set set.selfType has :=
  ⟨set, table.mem_levels_self set, rfl, h⟩

variable {unit : CompilationUnit} {options : SynthesisOptions} {table : RecordTable} {set above : MemberSet}
  {record : Record} {copy : Option CopyConstructor}

theorem AtLevel.derived (origin : Origin unit options table set record (some above) copy) {owner : Ty}
    {has : MemberSet → Prop} (h : table.AtLevel above owner has) : table.AtLevel set owner has := by
  obtain ⟨level, hLevel, hOwner, hHas⟩ := h
  rw [AtLevel, origin.levels_eq_of_some]
  exact ⟨level, List.mem_append_left _ hLevel, hOwner, hHas⟩

theorem Finds.derived (origin : Origin unit options table set record (some above) copy) {read : MemberRead}
    (h : table.Finds above read) : table.Finds set read := by
  rw [Finds] at h ⊢
  cases hAccess : read.access with
  | property =>
    rw [hAccess] at h
    exact AtLevel.derived origin h
  | field =>
    rw [hAccess] at h
    exact AtLevel.derived origin h

theorem Finds.load_within {read : MemberRead} (h : table.Finds set read) (function : Function) {target : Expr}
    (hTarget : target.Within (table.scope set function)) :
    (read.load target).Within (table.scope set function) := by
  rw [Finds] at h
  rw [MemberRead.load]
  cases hAccess : read.access with
  | property =>
    rw [hAccess] at h
    exact ⟨hTarget, h⟩
  | field =>
    rw [hAccess] at h
    exact ⟨hTarget, h⟩

end RecordTable

def ConstructorChain.arguments : ConstructorChain → List String
  | .absent | .object => []
  | .base _ _ arguments => arguments

namespace CopyConstructor

def parameter : CopyConstructor → String
  | synthesized _ => copyParameterName
  | adopted _ parameter _ _ => parameter

def chain : CopyConstructor → ConstructorChain
  | synthesized chain | adopted _ _ _ chain => chain

end CopyConstructor

/-- The parameters and members that the lowered code of a set names are there to be named. -/
structure RecordTable.Supports (table : RecordTable) (set : MemberSet) : Prop where
  stored : ∀ primary, set.primaryConstructor = some primary → ∀ store ∈ primary.stores,
    (∃ p ∈ primary.parameters, p.name = store.parameter) ∧ set.HasStorage store.field store.type
  chained : ∀ primary, set.primaryConstructor = some primary → ∀ argument ∈ primary.chain.arguments,
    ∃ p ∈ primary.parameters, p.name = argument
  copied : ∀ copy, set.copyConstructor = some copy → ∀ argument ∈ copy.chain.arguments, argument = copy.parameter
  state : ∀ state ∈ set.state, set.HasStorage state.member.storage state.member.type
  properties : ∀ property ∈ set.properties, set.HasStorage property.field property.type
  positional : ∀ read ∈ set.positional, table.Finds set read
  printable : ∀ read ∈ set.printable, table.Finds set read
  equals : set.HasMethod false "Equals" (Signature.ofTypes [set.selfType])
  baseEquals : ∀ base, set.base = some base →
    table.AtLevel set base.selfType fun level => level.HasMethod false "Equals" (Signature.ofTypes [base.selfType])
  baseHash : ∀ base, set.base = some base →
    table.AtLevel set base.selfType fun level => level.HasMethod false "GetHashCode" []
  copyable : set.isValueType = false → set.HasConstructor (Signature.ofTypes [set.selfType])

section

variable {scope : Scope}

theorem ConstructorChain.toStmts_within {chain : ConstructorChain}
    (h : ∀ argument ∈ chain.arguments, scope.parameter argument) : Stmt.AllWithin scope chain.toStmts := by
  cases chain with
  | absent => trivial
  | object => simp [toStmts, Stmt.AllWithin, Stmt.Within, Expr.AllWithin]
  | base type types arguments =>
    simpa [toStmts, Stmt.AllWithin, Stmt.Within, Expr.allWithin_iff, Expr.Within, ConstructorChain.arguments] using h

theorem conjunction_within {terms : List Expr} (h : ∀ term ∈ terms, term.Within scope) :
    (MemberSet.conjunction terms).Within scope := by
  cases terms with
  | nil => trivial
  | cons term terms =>
    obtain ⟨hTerm, hTerms⟩ := List.forall_mem_cons.mp h
    refine List.foldlRecOn (motive := Expr.Within scope) terms Expr.andAlso hTerm ?_
    intro joined hJoined other hOther
    exact ⟨hJoined, hTerms other hOther⟩

end

/-- A function whose body names nothing beyond its scope. -/
def RecordTable.Closed (table : RecordTable) (set : MemberSet) (function : Function) : Prop :=
  Stmt.AllWithin (table.scope set function) function.body

namespace RecordTable.Supports

variable {table : RecordTable} {set : MemberSet} (supports : table.Supports set)

include supports

theorem stateField (function : Function) {state : StateMember} (h : state ∈ set.state) :
    (table.scope set function).field (set.stateField state) :=
  .self (supports.state state h)

theorem lowerPrimaryConstructor {primary : PrimaryConstructor} (h : set.primaryConstructor = some primary) :
    table.Closed set (set.lowerPrimaryConstructor primary) := by
  have hParameter : ∀ {name : String}, (∃ p ∈ primary.parameters, p.name = name) →
      (table.scope set (set.lowerPrimaryConstructor primary)).parameter name := by
    rintro name ⟨p, hp, rfl⟩
    exact ⟨_, List.mem_map.mpr ⟨p, hp, rfl⟩, rfl⟩
  refine Stmt.allWithin_append.mpr ⟨?_, ConstructorChain.toStmts_within ?_⟩
  · rw [Stmt.allWithin_iff]
    intro stmt hStmt
    obtain ⟨store, hStore, rfl⟩ := List.mem_map.mp hStmt
    obtain ⟨hDeclared, hStorage⟩ := supports.stored primary h store hStore
    exact ⟨trivial, .self hStorage, hParameter hDeclared⟩
  · intro argument hArgument
    exact hParameter (supports.chained primary h argument hArgument)

theorem lowerCopyConstructor {copy : CopyConstructor} (h : set.copyConstructor = some copy) :
    table.Closed set (set.lowerCopyConstructor copy) := by
  have hArguments := supports.copied copy h
  cases copy with
  | synthesized chain =>
    refine Stmt.allWithin_append.mpr ⟨ConstructorChain.toStmts_within ?_, ?_⟩
    · intro argument hArgument
      exact ⟨_, List.mem_cons_self, (hArguments argument hArgument).symm⟩
    · rw [Stmt.allWithin_iff]
      intro stmt hStmt
      obtain ⟨state, hState, rfl⟩ := List.mem_map.mp hStmt
      have hField := supports.stateField (set.lowerCopyConstructor (.synthesized chain)) hState
      exact ⟨trivial, hField, ⟨_, List.mem_cons_self, rfl⟩, hField⟩
  | adopted position parameter body chain =>
    refine Stmt.allWithin_append.mpr ⟨ConstructorChain.toStmts_within ?_, ⟨trivial, trivial⟩⟩
    intro argument hArgument
    exact ⟨_, List.mem_cons_self, (hArguments argument hArgument).symm⟩

theorem lowerGetter {property : SynthesizedProperty} (h : property ∈ set.properties) :
    table.Closed set (set.lowerGetter property) :=
  ⟨⟨trivial, .self (supports.properties property h)⟩, trivial⟩

theorem lowerInitAccessor {property : SynthesizedProperty} (h : property ∈ set.properties) :
    table.Closed set (set.lowerInitAccessor property) :=
  ⟨⟨trivial, .self (supports.properties property h), ⟨_, List.mem_cons_self, rfl⟩⟩, trivial⟩

theorem lowerClone : table.Closed set set.lowerClone := by
  refine ⟨?_, trivial⟩
  cases hKind : set.isValueType with
  | true => simp [Stmt.Within, Expr.Within]
  | false =>
    have hCopy : (table.scope set set.lowerClone).constructor set.selfType [set.selfType] :=
      .self (supports.copyable hKind)
    simpa [Stmt.Within, Expr.Within, Expr.AllWithin, hKind] using hCopy

theorem lowerTypedEquals : table.Closed set set.lowerTypedEquals := by
  have hOther : (table.scope set set.lowerTypedEquals).parameter "other" := ⟨_, List.mem_cons_self, rfl⟩
  have hTerms : ∀ term ∈ set.equalityTerms, term.Within (table.scope set set.lowerTypedEquals) := by
    intro term hTerm
    rcases List.mem_append.mp hTerm with hTerm | hTerm
    · cases hBase : set.base with
      | none =>
        rw [hBase] at hTerm
        cases hTerm
      | some base =>
        rw [hBase] at hTerm
        rw [List.mem_singleton.mp hTerm]
        exact ⟨supports.baseEquals base hBase, hOther, trivial⟩
    · obtain ⟨state, hState, rfl⟩ := List.mem_map.mp hTerm
      have hField := supports.stateField set.lowerTypedEquals hState
      exact ⟨⟨trivial, hField⟩, hOther, hField⟩
  have hReturn : (Stmt.exit (some (MemberSet.conjunction set.equalityTerms))).Within
      (table.scope set set.lowerTypedEquals) := conjunction_within hTerms
  refine Stmt.allWithin_append.mpr ⟨?_, hReturn, trivial⟩
  split
  · trivial
  · exact ⟨⟨hOther, trivial, trivial⟩, trivial⟩

theorem lowerObjectEquals : table.Closed set set.lowerObjectEquals := by
  have hObject : (table.scope set set.lowerObjectEquals).parameter "obj" := ⟨_, List.mem_cons_self, rfl⟩
  exact ⟨⟨hObject, trivial, .self supports.equals, hObject, trivial⟩, trivial⟩

theorem lowerHash : table.Closed set set.lowerHash := by
  have hSeed : set.hashSeed.Within (table.scope set set.lowerHash) := by
    rw [MemberSet.hashSeed]
    cases hBase : set.base with
    | none => trivial
    | some base => exact ⟨supports.baseHash base hBase, trivial⟩
  refine ⟨List.foldlRecOn (motive := Expr.Within (table.scope set set.lowerHash)) set.state _ hSeed ?_, trivial⟩
  intro hash hHash state hState
  exact ⟨hHash, trivial, supports.stateField _ hState⟩

theorem lowerEqualityOperator : table.Closed set set.lowerEqualityOperator := by
  have hLeft : (table.scope set set.lowerEqualityOperator).parameter "left" := ⟨_, List.mem_cons_self, rfl⟩
  have hRight : (table.scope set set.lowerEqualityOperator).parameter "right" :=
    ⟨_, List.mem_cons_of_mem _ List.mem_cons_self, rfl⟩
  have hEquals : (Expr.callInstance (.parameter "left") (typedEqualsRef set.selfType) [.parameter "right"]).Within
      (table.scope set set.lowerEqualityOperator) := ⟨hLeft, .self supports.equals, hRight, trivial⟩
  refine ⟨?_, trivial⟩
  rw [Stmt.Within]
  split
  · exact hEquals
  · exact ⟨⟨hLeft, hRight⟩, hLeft, hEquals⟩

omit supports in
theorem lowerInequalityOperator (h : set.operators = true) : table.Closed set set.lowerInequalityOperator := by
  have hLeft : (table.scope set set.lowerInequalityOperator).parameter "left" := ⟨_, List.mem_cons_self, rfl⟩
  have hRight : (table.scope set set.lowerInequalityOperator).parameter "right" :=
    ⟨_, List.mem_cons_of_mem _ List.mem_cons_self, rfl⟩
  have hOperator : set.HasMethod true "op_Equality" (Signature.ofTypes [set.selfType, set.selfType]) := by
    refine ⟨{ name := "op_Equality", kind := .operator, types := [set.selfType, set.selfType],
              returnType := some Ty.bool, isStatic := true }, ?_, .inr rfl, rfl, rfl, rfl⟩
    refine MemberSet.mem_members_of_synthesizedOf (show _ ∈ MemberSet.synthesizedOf _ .operator from ?_)
    simp [MemberSet.synthesizedOf, MemberSet.synthesizedOperators, h]
  exact ⟨⟨.self hOperator, hLeft, hRight, trivial⟩, trivial⟩

theorem lowerDeconstruct : table.Closed set set.lowerDeconstruct := by
  rw [Closed, Stmt.allWithin_iff]
  intro stmt hStmt
  obtain ⟨read, hRead, rfl⟩ := List.mem_map.mp hStmt
  have hOutput : (table.scope set set.lowerDeconstruct).output read.name :=
    ⟨_, List.mem_map.mpr ⟨read, hRead, rfl⟩, rfl, rfl⟩
  exact ⟨hOutput, (supports.positional read hRead).load_within _ trivial⟩

theorem lowerTextForm : table.Closed set set.lowerTextForm := by
  have hPrinted : ∀ lead, ∀ read ∈ set.printable, ∀ part ∈ MemberSet.printedMember lead read,
      part.Within (table.scope set set.lowerTextForm) := by
    intro lead read hRead part hPart
    rcases List.mem_cons.mp hPart with rfl | hPart
    · trivial
    · rw [List.mem_singleton.mp hPart]
      exact (supports.printable read hRead).load_within _ trivial
  have hParts : ∀ part ∈ set.printedParts, part.Within (table.scope set set.lowerTextForm) := by
    intro part hPart
    rw [MemberSet.printedParts] at hPart
    split at hPart
    · rw [List.mem_singleton.mp hPart]
      trivial
    · rename_i read others hPrintable
      rw [hPrintable] at hPrinted
      rcases List.mem_append.mp hPart with hPart | hPart
      · rcases List.mem_append.mp hPart with hPart | hPart
        · exact hPrinted _ read List.mem_cons_self part hPart
        · obtain ⟨other, hOther, hPart⟩ := List.mem_flatMap.mp hPart
          exact hPrinted _ other (List.mem_cons_of_mem _ hOther) part hPart
      · rw [List.mem_singleton.mp hPart]
        trivial
  exact ⟨(Expr.allWithin_iff _ _).mpr hParts, trivial⟩

theorem lower? {member : SynthesizedMember} {function : Function} (h : set.lower? member = some function) :
    table.Closed set function := by
  cases MemberSet.lowers_of_lower? h with
  | primaryConstructor held => exact supports.lowerPrimaryConstructor held
  | copyConstructor held => exact supports.lowerCopyConstructor held
  | getter held => exact supports.lowerGetter (List.mem_of_getElem? held)
  | initAccessor held => exact supports.lowerInitAccessor (List.mem_of_getElem? held)
  | clone => exact supports.lowerClone
  | typedEquals => exact supports.lowerTypedEquals
  | objectEquals => exact supports.lowerObjectEquals
  | hash => exact supports.lowerHash
  | deconstruct => exact supports.lowerDeconstruct
  | equalityOperator => exact supports.lowerEqualityOperator
  | inequalityOperator held => exact lowerInequalityOperator held
  | textForm => exact supports.lowerTextForm

end RecordTable.Supports

end RecordSynthesis
