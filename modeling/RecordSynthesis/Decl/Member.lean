import RecordSynthesis.Text.Position
import RecordSynthesis.Ty.Basic

/-!
# Declared members

The members that a record declaration spells out, with their signatures, modifiers and spans.
-/

namespace RecordSynthesis.Decl

set_option autoImplicit false

inductive Visibility
  | isPublic
  | isProtected
  | isInternal
  | isPrivate
  deriving DecidableEq, Repr, Inhabited

def Visibility.word : Visibility → String
  | .isPublic => "public"
  | .isProtected => "protected"
  | .isInternal => "internal"
  | .isPrivate => "private"

inductive PassingMode
  | byValue
  | byIn
  | byRef
  | byOut
  deriving DecidableEq, Repr, Inhabited

def PassingMode.word : PassingMode → String
  | .byValue => "value"
  | .byIn => "in"
  | .byRef => "ref"
  | .byOut => "out"

inductive Setter
  | absent
  | set
  | init
  deriving DecidableEq, Repr, Inhabited

def Setter.word : Setter → String
  | .absent => "absent"
  | .set => "set"
  | .init => "init"

/-- A parameter of a method, a constructor or an indexer. -/
structure Parameter where
  name : String
  type : Ty
  mode : PassingMode := .byValue
  defaultValue : Option String := none
  deriving Repr, Inhabited

structure Field where
  name : String
  type : Ty
  isStatic : Bool := false
  visibility : Visibility := .isPrivate
  span : Span := {}
  deriving Repr, Inhabited

structure Property where
  name : String
  type : Ty
  isStatic : Bool := false
  /-- Whether the property has storage of its own rather than written accessors. -/
  isAuto : Bool := true
  hasGetter : Bool := true
  setter : Setter := .absent
  visibility : Visibility := .isPrivate
  span : Span := {}
  deriving Repr, Inhabited

structure Event where
  name : String
  type : Ty
  isStatic : Bool := false
  /-- Whether the event has storage of its own rather than written accessors. -/
  isFieldLike : Bool := true
  visibility : Visibility := .isPrivate
  span : Span := {}
  deriving Repr, Inhabited

structure Indexer where
  type : Ty
  parameters : List Parameter
  span : Span := {}
  deriving Repr, Inhabited

structure Method where
  name : String
  parameters : List Parameter := []
  returnType : Option Ty := none
  isStatic : Bool := false
  visibility : Visibility := .isPrivate
  span : Span := {}
  deriving Repr, Inhabited

structure Constructor where
  parameters : List Parameter := []
  /-- The number of the body, which is kept elsewhere. -/
  body : UInt32 := 0
  visibility : Visibility := .isPrivate
  span : Span := {}
  deriving Repr, Inhabited

inductive Member
  | field (field : Field)
  | property (property : Property)
  | event (event : Event)
  | indexer (indexer : Indexer)
  | method (method : Method)
  | constructor (constructor : Constructor)
  deriving Repr, Inhabited

def Constructor.types (constructor : Constructor) : List Ty :=
  constructor.parameters.map (·.type)

def Method.types (method : Method) : List Ty :=
  method.parameters.map (·.type)

namespace Member

/-- The name a member goes by; indexers and constructors have a fixed one. -/
def name : Member → String
  | field f => f.name
  | property p => p.name
  | event e => e.name
  | indexer _ => "this[]"
  | method m => m.name
  | constructor _ => ".ctor"

def span : Member → Span
  | field f => f.span
  | property p => p.span
  | event e => e.span
  | indexer i => i.span
  | method m => m.span
  | constructor c => c.span

/-- The types of the signature: an indexer gives its own type before its parameters, a method what it returns last. -/
def types : Member → List Ty
  | field f => [f.type]
  | property p => [p.type]
  | event e => [e.type]
  | indexer i => i.type :: i.parameters.map (·.type)
  | method m => m.types ++ m.returnType.toList
  | constructor c => c.types

def mapTypes (f : Ty → Ty) : Member → Member :=
  let parameter (p : Parameter) : Parameter := { p with type := f p.type }
  fun
  | field d => field { d with type := f d.type }
  | property d => property { d with type := f d.type }
  | event d => event { d with type := f d.type }
  | indexer d => indexer { d with type := f d.type, parameters := d.parameters.map parameter }
  | method d => method { d with parameters := d.parameters.map parameter, returnType := d.returnType.map f }
  | constructor d => constructor { d with parameters := d.parameters.map parameter }

/-! ## Building members -/

def ofField (name : String) (type : Ty) : Member :=
  field { name, type, visibility := .isPublic }

/-- A public property with storage of its own, a getter and an init accessor. -/
def ofAutoProperty (name : String) (type : Ty) : Member :=
  property { name, type, setter := .init, visibility := .isPublic }

def ofFieldLikeEvent (name : String) (type : Ty) : Member :=
  event { name, type, visibility := .isPublic }

def ofMethod (name : String) (parameters : List Parameter) (returnType : Option Ty) : Member :=
  method { name, parameters, returnType, visibility := .isPublic }

def ofConstructor (parameters : List Parameter) (body : UInt32) : Member :=
  constructor { parameters, body, visibility := .isPublic }

def moveTo (span : Span) : Member → Member
  | field d => field { d with span }
  | property d => property { d with span }
  | event d => event { d with span }
  | indexer d => indexer { d with span }
  | method d => method { d with span }
  | constructor d => constructor { d with span }

/-- The member as a static one; indexers and constructors are never static. -/
def toStatic : Member → Member
  | field d => field { d with isStatic := true }
  | property d => property { d with isStatic := true }
  | event d => event { d with isStatic := true }
  | method d => method { d with isStatic := true }
  | indexer d => indexer d
  | constructor d => constructor d

/-- The member with another visibility; indexers have none of their own. -/
def withVisibility (visibility : Visibility) : Member → Member
  | field d => field { d with visibility }
  | property d => property { d with visibility }
  | event d => event { d with visibility }
  | method d => method { d with visibility }
  | constructor d => constructor { d with visibility }
  | indexer d => indexer d

end Member

end RecordSynthesis.Decl
