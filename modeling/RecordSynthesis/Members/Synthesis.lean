import RecordSynthesis.Diagnostic.Basic
import RecordSynthesis.Members.Options
import RecordSynthesis.Members.Signature
import RecordSynthesis.Members.View

/-!
# Synthesis of one record

From a declaration, its effective members and the member set of its base, synthesis decides every member that the record
gets by itself. Declared constructors that collide with synthesized ones are diagnosed; a base that cannot serve is a
fault.
-/

namespace RecordSynthesis

set_option autoImplicit false

open Decl (Record Member)

/-! ## The base -/

def Decl.Record.resolveBase (record : Record) (base : Option MemberSet) : Except Fault (Option MemberSet) :=
  match record.base with
  | none => .ok none
  | some name =>
    if record.isValueType then .error (.valueTypeWithBase record.name name)
    else match base with
      | none => .error (.unresolvedBase record.name name)
      | some set =>
        if set.recordName ≠ name then .error (.unresolvedBase record.name name)
        else if set.isValueType then .error (.valueTypeBase record.name name)
        else
          match record.baseArguments.find? fun argument => !record.parameters.any fun p => p.name = argument with
          | some argument => .error (.unknownBaseArgument record.name argument)
          | none => .ok (some set)

/-! ## Claims on primary parameters -/

/-- A member that stands for a primary parameter, so that no property is synthesized for it. -/
structure Claim where
  /-- The field that the primary constructor fills, if the claim comes with storage of this record. -/
  storage : Option String
  type : Ty
  access : MemberAccess
  owner : Ty
  deriving Repr, Inhabited

/-- The type of the last primary parameter of a name. -/
def Decl.Record.parameterType? (record : Record) (name : String) : Option Ty :=
  (record.parameters.reverse.find? fun p => p.name = name).map (·.type)

/-- The claim that one declared member lays on a parameter: an instance field or property of its name and type does. -/
def Decl.Member.claim? (owner : Ty) (name : String) (type : Ty) : Member → Option Claim
  | .field f =>
    if !f.isStatic && f.name = name && type.same f.type then some ⟨some f.name, f.type, .field, owner⟩ else none
  | .property p =>
    if !p.isStatic && p.name = name && type.same p.type then
      some ⟨if p.isAuto then some (backingFieldName p.name) else none, p.type, .property, owner⟩
    else none
  | .event _ | .indexer _ | .method _ | .constructor _ => none

/-- The claim of an inherited public property of the parameter's name. -/
def MemberSet.inheritedClaim? (base : MemberSet) (name : String) : Option Claim :=
  (base.printable.find? fun read => read.name = name && read.access = .property).map fun read =>
    ⟨none, read.type, .property, read.owner⟩

/-- The claim on a primary parameter: of the first own member that lays one, else of the base. -/
def Decl.Record.claim? (record : Record) (base : Option MemberSet) (name : String) : Option Claim :=
  match record.parameterType? name with
  | none => none
  | some type =>
    match record.members.findSome? (Member.claim? record.selfType name type) with
    | some claim => some claim
    | none => base.bind fun set => set.inheritedClaim? name

/-! ## Positional state -/

/-- The primary parameters that nothing claims; each gets a field and a property. -/
def Decl.Record.unclaimed (record : Record) (base : Option MemberSet) : List Decl.PrimaryParameter :=
  record.parameters.filter fun p => (record.claim? base p.name).isNone

def Decl.PrimaryParameter.toField (p : Decl.PrimaryParameter) : SynthesizedField :=
  ⟨backingFieldName p.name, p.type, p.name⟩

def Decl.PrimaryParameter.toProperty (p : Decl.PrimaryParameter) : SynthesizedProperty :=
  ⟨p.name, p.type, backingFieldName p.name, .init⟩

def Decl.Record.store? (record : Record) (base : Option MemberSet) (p : Decl.PrimaryParameter) : Option FieldStore :=
  match record.claim? base p.name with
  | some claim => claim.storage.map fun field => ⟨p.name, field, p.type⟩
  | none => some ⟨p.name, backingFieldName p.name, p.type⟩

def Decl.Record.positionalRead (record : Record) (base : Option MemberSet) (p : Decl.PrimaryParameter) : MemberRead :=
  match record.claim? base p.name with
  | some claim => ⟨p.name, claim.type, claim.access, claim.owner⟩
  | none => ⟨p.name, p.type, .property, record.selfType⟩

/-- The record's own state: a claimed parameter is held by the member that claims it. -/
def Decl.Record.ownState (record : Record) (base : Option MemberSet) (effective : List EffectiveMember) :
    List StateMember :=
  (effective.filter fun m => !(m.origin = .primaryParameter && (record.claim? base m.name).isSome)).map fun m =>
    ⟨m, EqualityStrategy.ofType m.type⟩

/-- How a public piece of state is read for printing; events are not printed. -/
def StateMember.printable? (owner : Ty) (state : StateMember) : Option MemberRead :=
  if state.member.visibility = .isPublic then
    match state.member.origin with
    | .primaryParameter | .nominalPropertyBacking =>
      some ⟨state.member.name, state.member.type, .property, owner⟩
    | .nominalField => some ⟨state.member.name, state.member.type, .field, owner⟩
    | .nominalEventBacking => none
  else none

/-! ## Constructors -/

def Decl.Record.primarySignature? (record : Record) : Option Signature :=
  if record.isPositional then some (Signature.ofTypes record.parameterTypes) else none

def Decl.Record.copySignature (record : Record) : Signature :=
  Signature.ofTypes [record.selfType]

/-- Declared constructors that repeat the primary one, in order, and then the copy constructor if it would. -/
def Decl.Record.collisions (record : Record) : List Diagnostic :=
  let report (types : List Ty) (span : Span) : Diagnostic :=
    .duplicatePrimaryConstructor record.name types span record.parameterListSpan
  let declared := record.members.filterMap fun
    | .constructor c =>
      if c.conflictWith record.primarySignature? = .duplicatePrimaryConstructor then some (report c.types c.span)
      else none
    | _ => none
  declared ++
    if !record.isValueType && record.primarySignature? = some record.copySignature then
      [report [record.selfType] record.parameterListSpan]
    else []

def Decl.Record.primaryChain (record : Record) (base : Option MemberSet) : ConstructorChain :=
  if record.isValueType then .absent
  else match base with
    | none => .object
    | some set =>
      let types := record.baseArguments.filterMap fun argument =>
        (record.parameters.find? fun p => p.name = argument).map (·.type)
      .base set.selfType types record.baseArguments

/-- The chain to the copy constructor of the base, handing on the parameter of that name. -/
def MemberSet.copyChain (base : MemberSet) (parameter : String) : Except Fault ConstructorChain :=
  if base.copyConstructor.isNone then .error (.missingCopyConstructorShape base.recordName)
  else .ok (.base base.selfType [base.selfType] [parameter])

/-- The first declared constructor with the signature of a copy constructor is adopted; otherwise one is synthesized. An
adopted one calls the base constructor without parameters where there is one. -/
def Decl.Record.copyConstructor (record : Record) (base : Option MemberSet) : Except Fault CopyConstructor :=
  match (ConstructorIndex.ofMembers record.members).first? record.copySignature with
  | none =>
    match base with
    | none => .ok (.synthesized .object)
    | some set => (set.copyChain copyParameterName).map .synthesized
  | some position =>
    match record.members[position]? with
    | some (.constructor c) =>
      match c.parameters with
      | [] => .error (.missingCopyConstructorShape record.name)
      | p :: _ =>
        let adopt (chain : ConstructorChain) : CopyConstructor := .adopted position p.name c.body chain
        match base with
        | none => .ok (adopt .object)
        | some set =>
          if set.hasParameterlessConstructor then .ok (adopt (.base set.selfType [] []))
          else (set.copyChain p.name).map adopt
    | _ => .error (.missingCopyConstructorShape record.name)

/-! ## Methods -/

/-- Whether a declared member is an instance method of this name and signature. A `Deconstruct` counts only if it hands
out all its parameters. -/
def Decl.Member.implements (name : String) (signature : Signature) : Member → Bool
  | .method m =>
    !m.isStatic && m.name = name && Signature.ofTypes m.types = signature
      && (name ≠ "Deconstruct" || m.parameters.all fun p => p.mode = .byOut)
  | _ => false

/-- The first declared method that takes the place of a synthesized one. -/
def Decl.Record.slot (record : Record) (name : String) (signature : Signature) : Slot :=
  match record.members.findIdx? (Member.implements name signature) with
  | some position => .user position
  | none => .synthesized

/-! ## The member set -/

def Decl.Record.memberSet (record : Record) (effective : List EffectiveMember) (base : Option MemberSet)
    (copy : Option CopyConstructor) (options : SynthesisOptions) : MemberSet :=
  let state := record.ownState base effective
  { recordName := record.name
    selfType := record.selfType
    isValueType := record.isValueType
    base := base.map fun set => ⟨set.recordName, set.selfType, set.inheritanceDepth⟩
    effectiveMembers := effective
    state
    fields := (record.unclaimed base).map Decl.PrimaryParameter.toField
    properties := (record.unclaimed base).map Decl.PrimaryParameter.toProperty
    primaryConstructor :=
      if record.isPositional then
        some ⟨record.parameters, record.parameters.filterMap (record.store? base), record.primaryChain base⟩
      else none
    copyConstructor := copy
    clone := ⟨cloneMethodName, record.selfType, base.map (·.selfType)⟩
    equality :=
      { typedEquals := record.slot "Equals" (Signature.ofTypes [record.selfType])
        objectEquals := record.slot "Equals" (Signature.ofTypes [Ty.object])
        hash := record.slot "GetHashCode" [] }
    deconstruct :=
      if options.deconstruct && record.isPositional then
        some (record.slot "Deconstruct" (Signature.ofTypes record.parameterTypes))
      else none
    positional := record.parameters.map (record.positionalRead base)
    operators := options.operators
    textForm := if options.textForm then some (record.slot "ToString" []) else none
    printable :=
      (match base with
        | some set => set.printable
        | none => [])
      ++ state.filterMap (StateMember.printable? record.selfType)
    userMembers := record.members }

structure Synthesis where
  diagnostics : List Diagnostic
  outcome : Except Fault MemberSet

def Decl.Record.synthesize (record : Record) (effective : List EffectiveMember) (base : Option MemberSet)
    (options : SynthesisOptions) : Synthesis :=
  match record.resolveBase base with
  | .error fault => ⟨[], .error fault⟩
  | .ok base =>
    if record.isValueType then ⟨record.collisions, .ok (record.memberSet effective base none options)⟩
    else match record.copyConstructor base with
      | .error fault => ⟨record.collisions, .error fault⟩
      | .ok copy => ⟨record.collisions, .ok (record.memberSet effective base (some copy) options)⟩

end RecordSynthesis
