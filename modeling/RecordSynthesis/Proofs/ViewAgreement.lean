import Mathlib.Data.List.Forall2
import RecordSynthesis.Proofs.LoweredMembers
import RecordSynthesis.Proofs.ViewGroups

/-!
# The view and the code agree

The view lists the members that a record gets for the users of the record; lowering holds their code. Both are spelled
out member by member, the view group by group and the code in another order, and keep the same account: every listed
constructor, method and operator has its function, and every listed property its two accessors over a listed field. An
adopted copy constructor has a function as well, but is listed as the declared constructor that it is.
-/

namespace RecordSynthesis

set_option autoImplicit false

open Code
open Decl (Record)

def Code.Stmt.isUserBody : Stmt → Bool
  | .userBody _ => true
  | .storeField .. | .storeOut .. | .callBaseConstructor .. | .when .. | .exit _ => false

def Code.Function.isAdopted (function : Function) : Bool :=
  function.body.any Stmt.isUserBody

def Code.Module.ofKind (module : Module) (kind : FunctionKind) : List Function :=
  module.functions.filter fun function => function.kind = kind

structure Code.Function.Renders (function : Function) (symbol : MemberSymbol) : Prop where
  name : function.name = if symbol.kind = .constructor then ".ctor" else symbol.name
  types : function.parameters.map (·.type) = symbol.types
  returnType : function.returnType = symbol.returnType
  isStatic : function.isStatic = symbol.isStatic
  isOverride : function.isOverride = symbol.isOverride

namespace MemberSet

def synthesizedEntries (set : MemberSet) (kind : MemberKind) : List MemberSymbol :=
  set.members.filter fun symbol => symbol.kind = kind && symbol.origin = .synthesized

structure Accesses (set : MemberSet) (type : Ty) (property field : MemberSymbol) (getter setter : Function) : Prop where
  propertyType : property.returnType = some type
  fieldType : field.returnType = some type
  isPrivate : field.visibility = .isPrivate
  getterName : getter.name = "get_" ++ property.name
  getterParameters : getter.parameters = []
  getterType : getter.returnType = some type
  reads : getter.body = [.exit (some (.loadField .this (set.field field.name type)))]
  setterName : setter.name = "set_" ++ property.name
  setterType : setter.returnType = none
  fills : ∃ p, setter.parameters = [p] ∧ p.type = type ∧
    setter.body = [.storeField .this (set.field field.name type) (.parameter p.name)]

/-- The view of a set and a module keep the same account of its synthesized members. -/
structure AgreesWith (set : MemberSet) (module : Module) : Prop where
  constructors : List.Forall₂ Function.Renders
    ((module.ofKind .constructor).filter fun function => !function.isAdopted) (set.synthesizedEntries .constructor)
  methods : List.Forall₂ Function.Renders (module.ofKind .method) (set.synthesizedEntries .method)
  operators : List.Forall₂ Function.Renders (module.ofKind .operator) (set.synthesizedEntries .operator)
  fieldCount : (set.synthesizedEntries .field).length = (set.synthesizedEntries .property).length
  getterCount : (module.ofKind .getter).length = (set.synthesizedEntries .property).length
  setterCount : (module.ofKind .initAccessor).length = (set.synthesizedEntries .property).length
  accessors : ∀ (position : Nat) (property : MemberSymbol),
    (set.synthesizedEntries .property)[position]? = some property →
    ∃ type field getter setter, (set.synthesizedEntries .field)[position]? = some field ∧
      (module.ofKind .getter)[position]? = some getter ∧ (module.ofKind .initAccessor)[position]? = some setter ∧
      set.Accesses type property field getter setter
  adopted : ∀ position parameter body chain,
    set.copyConstructor = some (.adopted position parameter body chain) →
    ∃ function, (module.ofKind .constructor).filter Function.isAdopted = [function] ∧
      set.lower .copyConstructor = .ok function ∧
      (∃! symbol, symbol ∈ set.members ∧ symbol.origin = .user position) ∧
      (∀ symbol ∈ set.members, symbol.origin = .user position →
        symbol.kind = .constructor ∧ function.parameters.map (·.type) = symbol.types) ∧
      List.Forall₂ Function.Renders (set.primaryConstructor.map set.lowerPrimaryConstructor).toList
        (set.synthesizedEntries .constructor)

theorem synthesizedEntries_eq (set : MemberSet) (kind : MemberKind) :
    set.synthesizedEntries kind = set.synthesizedOf kind :=
  set.filter_members_synthesized kind

end MemberSet

def SynthesizedMember.functionKind : SynthesizedMember → FunctionKind
  | .primaryConstructor | .copyConstructor => .constructor
  | .getter _ => .getter
  | .initAccessor _ => .initAccessor
  | .clone | .typedEquals | .objectEquals | .hash | .deconstruct | .textForm => .method
  | .equalityOperator | .inequalityOperator => .operator

namespace MemberSet

theorem kind_of_lower? {set : MemberSet} {member : SynthesizedMember} {function : Function}
    (h : set.lower? member = some function) : function.kind = member.functionKind := by
  cases lowers_of_lower? h with
  | @copyConstructor copy => cases copy <;> rfl
  | _ => rfl

def lowered (set : MemberSet) : Module :=
  ⟨set.recordName, set.synthesizedMembers.filterMap set.lower?⟩

def codedAs (set : MemberSet) : FunctionKind → List SynthesizedMember
  | .constructor =>
    (if set.primaryConstructor.isSome then [.primaryConstructor] else [])
      ++ (if set.copyConstructor.isSome then [.copyConstructor] else [])
  | .getter => (List.range set.properties.length).map .getter
  | .initAccessor => (List.range set.properties.length).map .initAccessor
  | .method =>
    [.clone]
      ++ (if set.equality.typedEquals = .synthesized then [.typedEquals] else [])
      ++ (if set.equality.objectEquals = .synthesized then [.objectEquals] else [])
      ++ (if set.equality.hash = .synthesized then [.hash] else [])
      ++ (if set.deconstruct = some .synthesized then [.deconstruct] else [])
      ++ (if set.textForm = some .synthesized then [.textForm] else [])
  | .operator => if set.operators then [.equalityOperator, .inequalityOperator] else []

theorem filter_synthesizedMembers (set : MemberSet) (kind : FunctionKind) :
    (set.synthesizedMembers.filter fun member => member.functionKind = kind) = set.codedAs kind := by
  cases kind <;>
    simp [synthesizedMembers, codedAs, List.filter_append, apply_ite (List.filter _), List.filter_flatMap,
      SynthesizedMember.functionKind, List.map_eq_flatMap]

theorem ofKind_lowered (set : MemberSet) (kind : FunctionKind) :
    set.lowered.ofKind kind = (set.codedAs kind).filterMap set.lower? := by
  rw [Module.ofKind, lowered, ← filter_synthesizedMembers, List.filter_filterMap, List.filterMap_filter]
  refine List.filterMap_congr fun member _ => ?_
  cases h : set.lower? member with
  | none => simp
  | some function => simp [Option.filter, kind_of_lower? h]

theorem filterMap_range_getElem? {α β : Type} (entries : List α) (view : α → β) :
    ((List.range entries.length).filterMap fun position => entries[position]?.map view) = entries.map view := by
  induction entries with
  | nil => rfl
  | cons entry entries ih =>
    rw [List.length_cons, List.range_succ_eq_map, List.filterMap_cons, List.filterMap_map, List.map_cons, ← ih]
    rfl

theorem ofKind_getter (set : MemberSet) : set.lowered.ofKind .getter = set.properties.map set.lowerGetter := by
  rw [ofKind_lowered, codedAs, List.filterMap_map]
  exact filterMap_range_getElem? set.properties set.lowerGetter

theorem ofKind_initAccessor (set : MemberSet) :
    set.lowered.ofKind .initAccessor = set.properties.map set.lowerInitAccessor := by
  rw [ofKind_lowered, codedAs, List.filterMap_map]
  exact filterMap_range_getElem? set.properties set.lowerInitAccessor

theorem ofKind_constructor (set : MemberSet) :
    set.lowered.ofKind .constructor =
      (set.primaryConstructor.map set.lowerPrimaryConstructor).toList
        ++ (set.copyConstructor.map set.lowerCopyConstructor).toList := by
  rw [ofKind_lowered, codedAs, List.filterMap_append]
  cases hPrimary : set.primaryConstructor <;> cases hCopy : set.copyConstructor <;> simp [lower?, hPrimary, hCopy]

theorem renders_lowerPrimaryConstructor (set : MemberSet) (primary : PrimaryConstructor) :
    (set.lowerPrimaryConstructor primary).Renders
      { name := set.recordName, kind := .constructor, types := primary.parameters.map (·.type) } where
  name := rfl
  types := List.map_map
  returnType := rfl
  isStatic := rfl
  isOverride := rfl

theorem renders_lowerDeconstruct (set : MemberSet) :
    set.lowerDeconstruct.Renders
      { name := "Deconstruct", kind := .method, types := set.positional.map (·.type) } where
  name := rfl
  types := List.map_map
  returnType := rfl
  isStatic := rfl
  isOverride := rfl

theorem isUserBody_toStmts (chain : ConstructorChain) : chain.toStmts.any Stmt.isUserBody = false := by
  cases chain <;> rfl

theorem isAdopted_lowerPrimaryConstructor (set : MemberSet) (primary : PrimaryConstructor) :
    (set.lowerPrimaryConstructor primary).isAdopted = false := by
  simp [Function.isAdopted, lowerPrimaryConstructor, isUserBody_toStmts, Stmt.isUserBody]

theorem isAdopted_lowerCopyConstructor_synthesized (set : MemberSet) (chain : ConstructorChain) :
    (set.lowerCopyConstructor (.synthesized chain)).isAdopted = false := by
  simp [Function.isAdopted, lowerCopyConstructor, isUserBody_toStmts, Stmt.isUserBody]

theorem isAdopted_lowerCopyConstructor_adopted (set : MemberSet) (position : Nat) (parameter : String) (body : UInt32)
    (chain : ConstructorChain) :
    (set.lowerCopyConstructor (.adopted position parameter body chain)).isAdopted = true := by
  simp [Function.isAdopted, lowerCopyConstructor, Stmt.isUserBody]

theorem forall₂_slot {set : MemberSet} {condition : Prop} [Decidable condition] {member : SynthesizedMember}
    {symbol : MemberSymbol} (h : condition → ∃ function, set.lower? member = some function ∧ function.Renders symbol) :
    List.Forall₂ Function.Renders ((if condition then [member] else []).filterMap set.lower?)
      (if condition then [symbol] else []) := by
  split
  · obtain ⟨function, hFunction, hRenders⟩ := h ‹_›
    rw [List.filterMap_cons_some hFunction]
    exact .cons hRenders .nil
  · exact .nil

theorem methods_rendered (set : MemberSet) :
    List.Forall₂ Function.Renders (set.lowered.ofKind .method) (set.synthesizedEntries .method) := by
  rw [ofKind_lowered, synthesizedEntries_eq, codedAs, synthesizedOf, synthesizedMethods]
  simp only [List.filterMap_append]
  refine List.rel_append (List.rel_append (List.rel_append (List.rel_append (List.rel_append ?_ ?_) ?_) ?_) ?_) ?_
  · exact .cons ⟨rfl, rfl, rfl, rfl, rfl⟩ .nil
  · exact forall₂_slot fun h => ⟨set.lowerTypedEquals, if_pos h, rfl, rfl, rfl, rfl, rfl⟩
  · exact forall₂_slot fun h => ⟨set.lowerObjectEquals, if_pos h, rfl, rfl, rfl, rfl, rfl⟩
  · exact forall₂_slot fun h => ⟨set.lowerHash, if_pos h, rfl, rfl, rfl, rfl, rfl⟩
  · exact forall₂_slot fun h => ⟨set.lowerDeconstruct, if_pos h, set.renders_lowerDeconstruct⟩
  · exact forall₂_slot fun h => ⟨set.lowerTextForm, if_pos h, rfl, rfl, rfl, rfl, rfl⟩

theorem operators_rendered (set : MemberSet) :
    List.Forall₂ Function.Renders (set.lowered.ofKind .operator) (set.synthesizedEntries .operator) := by
  rw [ofKind_lowered, synthesizedEntries_eq, codedAs, synthesizedOf, synthesizedOperators]
  split
  · rename_i h
    have hEquality : set.lower? .equalityOperator = some set.lowerEqualityOperator := if_pos h
    have hInequality : set.lower? .inequalityOperator = some set.lowerInequalityOperator := if_pos h
    rw [List.filterMap_cons_some hEquality, List.filterMap_cons_some hInequality]
    exact .cons ⟨rfl, rfl, rfl, rfl, rfl⟩ (.cons ⟨rfl, rfl, rfl, rfl, rfl⟩ .nil)
  · exact .nil

theorem filter_ofKind_constructor (set : MemberSet) :
    ((set.lowered.ofKind .constructor).filter fun function => !function.isAdopted) =
      (set.primaryConstructor.map set.lowerPrimaryConstructor).toList
        ++ match set.copyConstructor with
          | some (.synthesized chain) => [set.lowerCopyConstructor (.synthesized chain)]
          | _ => [] := by
  rw [ofKind_constructor, List.filter_append]
  congr 1
  · cases set.primaryConstructor <;> simp [isAdopted_lowerPrimaryConstructor]
  · rcases set.copyConstructor with _ | _ | _ <;>
      simp [isAdopted_lowerCopyConstructor_synthesized, isAdopted_lowerCopyConstructor_adopted]

theorem constructors_rendered (set : MemberSet) :
    List.Forall₂ Function.Renders ((set.lowered.ofKind .constructor).filter fun function => !function.isAdopted)
      (set.synthesizedEntries .constructor) := by
  rw [filter_ofKind_constructor, synthesizedEntries_eq, synthesizedOf, synthesizedConstructors]
  refine List.rel_append ?_ ?_
  · cases set.primaryConstructor with
    | none => exact .nil
    | some primary => exact .cons (set.renders_lowerPrimaryConstructor primary) .nil
  · rcases set.copyConstructor with _ | _ | _
    · exact .nil
    · exact .cons ⟨rfl, rfl, rfl, rfl, rfl⟩ .nil
    · exact .nil

theorem mem_members_user_iff {set : MemberSet} {position : Nat} {member : Decl.Member}
    (at_position : set.userMembers[position]? = some member) {symbol : MemberSymbol} :
    symbol ∈ set.members ∧ symbol.origin = .user position ↔ symbol = .ofMember set.recordName position member := by
  constructor
  · rintro ⟨hSymbol, hOrigin⟩
    obtain ⟨kind, -, hGroup⟩ := List.mem_flatMap.mp hSymbol
    rcases List.mem_append.mp hGroup with h | h
    · rw [(of_mem_synthesizedOf h).2] at hOrigin
      cases hOrigin
    · obtain ⟨found, other, hOther, rfl⟩ := mem_userSymbols (List.mem_of_mem_filter h)
      have hFound : found = position := by
        cases other <;> exact SymbolOrigin.user.inj hOrigin
      subst hFound
      rw [Option.some.inj (hOther.symm.trans at_position)]
  · rintro rfl
    refine ⟨mem_members_of_userMembers at_position, ?_⟩
    cases member <;> rfl

end MemberSet

section

variable {record : Record} {effective : List EffectiveMember} {base : Option MemberSet} {copy : Option CopyConstructor}
  {options : SynthesisOptions}

theorem Decl.Record.accesses_of_unclaimed {set : MemberSet} (made : set = record.memberSet effective base copy options)
    {position : Nat} {property : MemberSymbol}
    (h : (set.synthesizedEntries .property)[position]? = some property) :
    ∃ type field getter setter, (set.synthesizedEntries .field)[position]? = some field ∧
      (set.lowered.ofKind .getter)[position]? = some getter ∧
      (set.lowered.ofKind .initAccessor)[position]? = some setter ∧
      set.Accesses type property field getter setter := by
  have hProperties : set.properties = (record.unclaimed base).map PrimaryParameter.toProperty := by rw [made]; rfl
  have hFields : set.fields = (record.unclaimed base).map PrimaryParameter.toField := by rw [made]; rfl
  simp only [MemberSet.synthesizedEntries_eq, MemberSet.synthesizedOf, MemberSet.synthesizedPropertySymbols,
    MemberSet.synthesizedFieldSymbols, MemberSet.ofKind_getter, MemberSet.ofKind_initAccessor, hProperties, hFields,
    List.map_map, List.getElem?_map] at h ⊢
  obtain ⟨p, hp, rfl⟩ := Option.map_eq_some_iff.mp h
  refine ⟨p.type, _, _, _, by rw [hp]; rfl, by rw [hp]; rfl, by rw [hp]; rfl, ?_⟩
  constructor
  case fills => exact ⟨_, rfl, rfl, rfl⟩
  all_goals rfl

theorem Decl.Record.parameters_of_adopted {set : MemberSet}
    (made : set = record.memberSet effective base copy options) (copied : record.HasCopy base copy)
    {position : Nat} {parameter : String} {body : UInt32} {chain : ConstructorChain}
    (adopted : set.copyConstructor = some (.adopted position parameter body chain)) :
    ∃ c p, set.userMembers[position]? = some (.constructor c) ∧ c.parameters = [p] ∧
      set.adoptedParameterType position = p.type := by
  have hCopy : copy = some (.adopted position parameter body chain) := by rw [← adopted, made]; rfl
  subst hCopy
  rcases copyConstructor_eq_ok copied.2 with hMade | ⟨found, c, p, others, hMember, hParameters, hSignature, hMade⟩
  · cases hMade
  cases hMade
  have hUser : set.userMembers[position]? = some (.constructor c) := by rw [made]; exact hMember
  have hOthers : others = [] := by
    have hLength := congrArg List.length hSignature
    simpa [Signature.ofTypes, Constructor.types, hParameters, copySignature] using hLength
  subst hOthers
  exact ⟨c, p, hUser, hParameters, by simp [MemberSet.adoptedParameterType, hUser, hParameters]⟩

end

/-- The view and the code of every synthesized set agree. -/
theorem view_agrees_with_code (record : Record) (effective : List EffectiveMember) (given : Option MemberSet)
    (options : SynthesisOptions) (set : MemberSet)
    (synthesized : (record.synthesize effective given options).outcome = .ok set) :
    ∃ module, set.lowerAll = .ok module ∧ set.AgreesWith module := by
  obtain ⟨base, copy, -, hCopy, made⟩ := Record.synthesize_eq_ok_iff.mp synthesized
  refine ⟨set.lowered, set.lowerAll_eq, ?_⟩
  constructor
  case constructors => exact set.constructors_rendered
  case methods => exact set.methods_rendered
  case operators => exact set.operators_rendered
  case fieldCount =>
    simp [MemberSet.synthesizedEntries_eq, MemberSet.synthesizedOf, MemberSet.synthesizedPropertySymbols,
      MemberSet.synthesizedFieldSymbols, made, Record.memberSet]
  case getterCount =>
    simp [MemberSet.synthesizedEntries_eq, MemberSet.synthesizedOf, MemberSet.synthesizedPropertySymbols,
      MemberSet.ofKind_getter]
  case setterCount =>
    simp [MemberSet.synthesizedEntries_eq, MemberSet.synthesizedOf, MemberSet.synthesizedPropertySymbols,
      MemberSet.ofKind_initAccessor]
  case accessors => exact fun position property h => Record.accesses_of_unclaimed made h
  case adopted =>
    intro position parameter body chain hAdopted
    obtain ⟨c, p, hUser, hParameters, hType⟩ := Record.parameters_of_adopted made hCopy hAdopted
    refine ⟨set.lowerCopyConstructor (.adopted position parameter body chain), ?_, ?_, ?_, ?_, ?_⟩
    · rw [MemberSet.ofKind_constructor, hAdopted, List.filter_append]
      cases set.primaryConstructor <;>
        simp [MemberSet.isAdopted_lowerPrimaryConstructor, MemberSet.isAdopted_lowerCopyConstructor_adopted]
    · rw [MemberSet.lower, MemberSet.lower?, hAdopted]
      rfl
    · simp only [MemberSet.mem_members_user_iff hUser]
      exact existsUnique_eq
    · intro symbol hSymbol hOrigin
      rw [(MemberSet.mem_members_user_iff hUser).mp ⟨hSymbol, hOrigin⟩]
      refine ⟨rfl, ?_⟩
      simp [MemberSet.lowerCopyConstructor, MemberSymbol.ofMember, Decl.Constructor.types, hType, hParameters]
    · have hConstructors := set.constructors_rendered
      rwa [MemberSet.filter_ofKind_constructor, hAdopted, List.append_nil] at hConstructors

def letter : Record where
  name := "Letter"
  parameters := [{ name := "Text", type := Ty.string }]
  members := [.ofConstructor [{ name := "source", type := .named "Letter" [] .reference }] 7]

theorem view_agrees_with_code_letter :
    ∃ set, (letter.synthesize letter.effectiveMembers none {}).outcome = .ok set ∧
      (∃ chain, set.copyConstructor = some (.adopted 0 "source" 7 chain)) ∧
      ∃ module, set.lowerAll = .ok module ∧ set.AgreesWith module := by
  have made : (letter.synthesize letter.effectiveMembers none {}).outcome = .ok _ := rfl
  exact ⟨_, made, ⟨_, rfl⟩, view_agrees_with_code letter _ none {} _ made⟩

end RecordSynthesis
