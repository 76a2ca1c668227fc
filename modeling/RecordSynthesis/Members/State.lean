import RecordSynthesis.Decl.Record

/-!
# The state of a record

The two ways of declaring state, as primary parameters and as members with storage, brought into one ordered list. Every
later stage reads this list.
-/

namespace RecordSynthesis

set_option autoImplicit false

inductive EqualityStrategy
  | bitwise
  | valueDefault
  | referenceDefault
  deriving DecidableEq, Repr, Inhabited

def EqualityStrategy.word : EqualityStrategy → String
  | .bitwise => "bitwise"
  | .valueDefault => "value_default"
  | .referenceDefault => "reference_default"

def EqualityStrategy.ofKind : TypeKind → EqualityStrategy
  | .value => .valueDefault
  | .reference => .referenceDefault

def EqualityStrategy.ofType : Ty → EqualityStrategy
  | .primitive p => if p.hasBitwiseEquality then .bitwise else ofKind p.kind
  | .named _ _ kind => ofKind kind
  | .nullable _ => .valueDefault
  | .array _ | .parameter _ => .referenceDefault

inductive Origin
  | primaryParameter
  | nominalField
  | nominalPropertyBacking
  | nominalEventBacking
  deriving DecidableEq, Repr, Inhabited

def Origin.word : Origin → String
  | .primaryParameter => "primary_parameter"
  | .nominalField => "nominal_field"
  | .nominalPropertyBacking => "nominal_property_backing"
  | .nominalEventBacking => "nominal_event_backing"

/-- A piece of state, with the name of the field that holds it. -/
structure EffectiveMember where
  name : String
  type : Ty
  origin : Origin
  order : Nat := 0
  storage : String
  visibility : Decl.Visibility
  span : Span
  deriving Repr, Inhabited

def EffectiveMember.isPropertyBacked (m : EffectiveMember) : Bool :=
  match m.origin with
  | .primaryParameter | .nominalPropertyBacking => true
  | .nominalField | .nominalEventBacking => false

/-- The name of the field behind a property. No name that a program may write contains angle brackets. -/
def backingFieldName (property : String) : String :=
  "<" ++ property ++ ">k__BackingField"

def Decl.PrimaryParameter.toEffective (p : Decl.PrimaryParameter) : EffectiveMember where
  name := p.name
  type := p.type
  origin := .primaryParameter
  storage := backingFieldName p.name
  visibility := .isPublic
  span := p.span

/-- The state that a member holds for every instance, if it holds any. -/
def Decl.Member.toEffective? : Decl.Member → Option EffectiveMember
  | .field f =>
    if f.isStatic then none
    else some
      { name := f.name, type := f.type, origin := .nominalField, storage := f.name, visibility := f.visibility
        span := f.span }
  | .property p =>
    if p.isStatic || !p.isAuto then none
    else some
      { name := p.name, type := p.type, origin := .nominalPropertyBacking, storage := backingFieldName p.name
        visibility := p.visibility, span := p.span }
  | .event e =>
    if e.isStatic || !e.isFieldLike then none
    else some
      { name := e.name, type := e.type, origin := .nominalEventBacking, storage := e.name, visibility := e.visibility
        span := e.span }
  | .indexer _ | .method _ | .constructor _ => none

/-- All state of a record: primary parameters first, then members, numbered in this order. -/
def Decl.Record.effectiveMembers (record : Decl.Record) : List EffectiveMember :=
  (record.parameters.map PrimaryParameter.toEffective ++ record.members.filterMap Member.toEffective?).mapIdx
    fun order m => { m with order }

end RecordSynthesis
