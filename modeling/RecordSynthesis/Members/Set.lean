import RecordSynthesis.Members.State

/-!
# The member set of a record

Everything that synthesis decides about one record, and the members that it adds to the declared ones.
-/

namespace RecordSynthesis

set_option autoImplicit false

/-- The name of the method that copies an instance. No program can spell it. -/
def cloneMethodName : String := "<Clone>$"

def copyParameterName : String := "original"

/-- A piece of the record's own state and how it is compared. -/
structure StateMember where
  member : EffectiveMember
  equality : EqualityStrategy
  deriving Repr, Inhabited

inductive MemberAccess
  | property
  | field
  deriving DecidableEq, Repr, Inhabited

def MemberAccess.word : MemberAccess → String
  | .property => "property"
  | .field => "field"

/-- A member to read from an instance, through the record that declares it. -/
structure MemberRead where
  name : String
  type : Ty
  access : MemberAccess
  owner : Ty
  deriving Repr, Inhabited

structure BaseRecord where
  name : String
  selfType : Ty
  depth : Nat
  deriving Repr, Inhabited

inductive ConstructorChain
  /-- Value types call none. -/
  | absent
  | object
  /-- The constructor of the base with these parameter types, given these parameters of the calling constructor. -/
  | base (type : Ty) (types : List Ty) (arguments : List String)
  deriving Repr, Inhabited

structure SynthesizedField where
  name : String
  type : Ty
  property : String
  deriving Repr, Inhabited

structure SynthesizedProperty where
  name : String
  type : Ty
  field : String
  setter : Decl.Setter
  deriving Repr, Inhabited

structure FieldStore where
  parameter : String
  field : String
  type : Ty
  deriving Repr, Inhabited

structure PrimaryConstructor where
  parameters : List Decl.PrimaryParameter
  stores : List FieldStore
  chain : ConstructorChain
  deriving Repr, Inhabited

inductive CopyConstructor
  | synthesized (chain : ConstructorChain)
  /-- A declared constructor takes the place, with the name of its parameter and the number of its body. -/
  | adopted (member : Nat) (parameter : String) (body : UInt32) (chain : ConstructorChain)
  deriving Repr, Inhabited

structure CloneMethod where
  name : String
  returnType : Ty
  /-- The record whose clone method it overrides. -/
  overridden : Option Ty
  deriving Repr, Inhabited

/-- Whether a member is synthesized or a declared one, given by its position, takes its place. -/
inductive Slot
  | synthesized
  | user (member : Nat)
  deriving DecidableEq, Repr, Inhabited

structure EqualityMembers where
  typedEquals : Slot
  objectEquals : Slot
  hash : Slot
  deriving Repr, Inhabited

/-- A member that a record gets without declaring it. Accessors are numbered like the properties they belong to. -/
inductive SynthesizedMember
  | primaryConstructor
  | copyConstructor
  | getter (property : Nat)
  | initAccessor (property : Nat)
  | clone
  | typedEquals
  | objectEquals
  | hash
  | deconstruct
  | equalityOperator
  | inequalityOperator
  | textForm
  deriving DecidableEq, Repr, Inhabited

def SynthesizedMember.description : SynthesizedMember → String
  | .primaryConstructor => "primary constructor"
  | .copyConstructor => "copy constructor"
  | .getter property => "getter #" ++ toString property
  | .initAccessor property => "init accessor #" ++ toString property
  | .clone => "clone"
  | .typedEquals => "Equals(T)"
  | .objectEquals => "Equals(object)"
  | .hash => "GetHashCode"
  | .deconstruct => "Deconstruct"
  | .equalityOperator => "operator =="
  | .inequalityOperator => "operator !="
  | .textForm => "ToString"

structure MemberSet where
  recordName : String
  selfType : Ty
  isValueType : Bool
  base : Option BaseRecord
  effectiveMembers : List EffectiveMember
  /-- The record's own state, which equality, hashing and copying go through. -/
  state : List StateMember
  fields : List SynthesizedField
  properties : List SynthesizedProperty
  primaryConstructor : Option PrimaryConstructor
  copyConstructor : Option CopyConstructor
  clone : CloneMethod
  equality : EqualityMembers
  deconstruct : Option Slot
  /-- How each primary parameter is read back. -/
  positional : List MemberRead
  operators : Bool
  textForm : Option Slot
  /-- The public state of the record and all its ancestors, the most distant ancestor first. -/
  printable : List MemberRead
  userMembers : List Decl.Member
  deriving Repr, Inhabited

namespace MemberSet

def inheritanceDepth (set : MemberSet) : Nat :=
  match set.base with
  | some base => base.depth + 1
  | none => 0

/-- The synthesized members, in the order in which they are lowered. -/
def synthesizedMembers (set : MemberSet) : List SynthesizedMember :=
  (if set.primaryConstructor.isSome then [.primaryConstructor] else [])
    ++ (if set.copyConstructor.isSome then [.copyConstructor] else [])
    ++ (List.range set.properties.length).flatMap (fun property => [.getter property, .initAccessor property])
    ++ [.clone]
    ++ (if set.equality.typedEquals = .synthesized then [.typedEquals] else [])
    ++ (if set.equality.objectEquals = .synthesized then [.objectEquals] else [])
    ++ (if set.equality.hash = .synthesized then [.hash] else [])
    ++ (if set.deconstruct = some .synthesized then [.deconstruct] else [])
    ++ (if set.operators then [.equalityOperator, .inequalityOperator] else [])
    ++ (if set.textForm = some .synthesized then [.textForm] else [])

end MemberSet

end RecordSynthesis
