import RecordSynthesis.Datum.Basic
import RecordSynthesis.Decl.Encoding
import RecordSynthesis.Members.Set

/-!
# The merged member view

All members of a record as its users see them, declared and synthesized, grouped by what they are.
-/

namespace RecordSynthesis

set_option autoImplicit false

inductive MemberKind
  | constructor
  | property
  | field
  | event
  | indexer
  | method
  | operator
  deriving DecidableEq, Repr, Inhabited

def MemberKind.word : MemberKind → String
  | .constructor => "constructor"
  | .property => "property"
  | .field => "field"
  | .event => "event"
  | .indexer => "indexer"
  | .method => "method"
  | .operator => "operator"

def MemberKind.all : List MemberKind :=
  [.constructor, .property, .field, .event, .indexer, .method, .operator]

inductive SymbolOrigin
  | synthesized
  | user (member : Nat)
  deriving DecidableEq, Repr, Inhabited

structure Accessors where
  getter : Bool
  setter : Decl.Setter
  deriving DecidableEq, Repr, Inhabited

structure MemberSymbol where
  name : String
  kind : MemberKind
  types : List Ty := []
  returnType : Option Ty := none
  accessors : Option Accessors := none
  visibility : Decl.Visibility := .isPublic
  isStatic : Bool := false
  isOverride : Bool := false
  origin : SymbolOrigin := .synthesized
  deriving Repr, Inhabited

namespace MemberSymbol

/-- The symbol of a declared member. A constructor goes by the name of its record. -/
def ofMember (record : String) (position : Nat) : Decl.Member → MemberSymbol
  | .field f =>
    { name := f.name, kind := .field, returnType := some f.type, visibility := f.visibility, isStatic := f.isStatic
      origin := .user position }
  | .property p =>
    { name := p.name, kind := .property, returnType := some p.type, accessors := some ⟨p.hasGetter, p.setter⟩
      visibility := p.visibility, isStatic := p.isStatic, origin := .user position }
  | .event e =>
    { name := e.name, kind := .event, returnType := some e.type, visibility := e.visibility, isStatic := e.isStatic
      origin := .user position }
  | .indexer i =>
    { name := "this[]", kind := .indexer, types := i.parameters.map (·.type), returnType := some i.type
      origin := .user position }
  | .method m =>
    { name := m.name, kind := .method, types := m.types, returnType := m.returnType, visibility := m.visibility
      isStatic := m.isStatic, origin := .user position }
  | .constructor c =>
    { name := record, kind := .constructor, types := c.types, visibility := c.visibility, origin := .user position }

/-- The signature part of the text: the word for the kind, the name, and what the kind shows of the types. -/
def signatureText (symbol : MemberSymbol) : String :=
  let call := symbol.name ++ "(" ++ String.intercalate ", " (symbol.types.map Ty.canonical) ++ ")"
  let returned (separator : String) : String :=
    match symbol.returnType with
    | some type => separator ++ type.canonical
    | none => ""
  let setter : Decl.Setter → String
    | .absent => ""
    | .set => " set;"
    | .init => " init;"
  match symbol.kind with
  | .constructor => "constructor " ++ call
  | .property =>
    "property " ++ symbol.name ++ returned ": "
      ++ match symbol.accessors with
        | some accessors => " \x7b" ++ (if accessors.getter then " get;" else "") ++ setter accessors.setter ++ " \x7d"
        | none => ""
  | .field => "field " ++ symbol.name ++ returned ": "
  | .event => "event " ++ symbol.name ++ returned ": "
  | .indexer => "indexer " ++ call ++ returned " -> "
  | .method => "method " ++ call ++ returned " -> "
  | .operator => "operator " ++ call ++ returned " -> "

def text (symbol : MemberSymbol) : String :=
  symbol.visibility.word ++ " " ++ (if symbol.isStatic then "static " else "")
    ++ (if symbol.isOverride then "override " else "") ++ symbol.signatureText
    ++ match symbol.origin with
      | .synthesized => "  [synthesized]"
      | .user position => "  [user #" ++ toString position ++ "]"

def toDatum (symbol : MemberSymbol) : Datum :=
  .table [("name", .text symbol.name), ("kind", .text symbol.kind.word),
    ("params", .list (symbol.types.map Ty.toDatum)), ("return_type", Datum.ofOption Ty.toDatum symbol.returnType),
    ("accessors", Datum.ofOption
      (fun accessors => .table [("getter", .bool accessors.getter), ("setter", accessors.setter.toDatum)])
      symbol.accessors),
    ("visibility", symbol.visibility.toDatum), ("is_static", .bool symbol.isStatic),
    ("is_override", .bool symbol.isOverride),
    ("origin", match symbol.origin with
      | .synthesized => .text "synthesized"
      | .user position => .table [("user", .int (Int.ofNat position))])]

end MemberSymbol

namespace MemberSet

/-- The synthesized constructors. A declared copy constructor is listed with the declared members instead. -/
def synthesizedConstructors (set : MemberSet) : List MemberSymbol :=
  (match set.primaryConstructor with
    | some primary =>
      [{ name := set.recordName, kind := .constructor, types := primary.parameters.map (·.type) }]
    | none => [])
  ++ match set.copyConstructor with
    | some (.synthesized _) =>
      [{ name := set.recordName, kind := .constructor, types := [set.selfType], visibility := .isProtected }]
    | _ => []

def synthesizedPropertySymbols (set : MemberSet) : List MemberSymbol :=
  set.properties.map fun property =>
    { name := property.name, kind := .property, returnType := some property.type
      accessors := some ⟨true, property.setter⟩ }

def synthesizedFieldSymbols (set : MemberSet) : List MemberSymbol :=
  set.fields.map fun field =>
    { name := field.name, kind := .field, returnType := some field.type, visibility := .isPrivate }

def synthesizedMethods (set : MemberSet) : List MemberSymbol :=
  [{ name := set.clone.name, kind := .method, returnType := some set.clone.returnType
     isOverride := set.clone.overridden.isSome }]
  ++ (if set.equality.typedEquals = .synthesized then
      [{ name := "Equals", kind := .method, types := [set.selfType], returnType := some Ty.bool }] else [])
  ++ (if set.equality.objectEquals = .synthesized then
      [{ name := "Equals", kind := .method, types := [Ty.object], returnType := some Ty.bool, isOverride := true }]
    else [])
  ++ (if set.equality.hash = .synthesized then
      [{ name := "GetHashCode", kind := .method, returnType := some Ty.int, isOverride := true }] else [])
  ++ (if set.deconstruct = some .synthesized then
      [{ name := "Deconstruct", kind := .method, types := set.positional.map (·.type) }] else [])
  ++ (if set.textForm = some .synthesized then
      [{ name := "ToString", kind := .method, returnType := some Ty.string, isOverride := true }] else [])

def synthesizedOperators (set : MemberSet) : List MemberSymbol :=
  if set.operators then
    ["op_Equality", "op_Inequality"].map fun name =>
      { name, kind := .operator, types := [set.selfType, set.selfType], returnType := some Ty.bool, isStatic := true }
  else []

def synthesizedOf (set : MemberSet) : MemberKind → List MemberSymbol
  | .constructor => set.synthesizedConstructors
  | .property => set.synthesizedPropertySymbols
  | .field => set.synthesizedFieldSymbols
  | .method => set.synthesizedMethods
  | .operator => set.synthesizedOperators
  | .event | .indexer => []

def userSymbols (set : MemberSet) : List MemberSymbol :=
  set.userMembers.mapIdx (MemberSymbol.ofMember set.recordName)

/-- One group of the view: synthesized members first, then the declared ones. -/
def group (set : MemberSet) (kind : MemberKind) : List MemberSymbol :=
  set.synthesizedOf kind ++ set.userSymbols.filter fun symbol => symbol.kind = kind

def members (set : MemberSet) : List MemberSymbol :=
  MemberKind.all.flatMap set.group

def constructors (set : MemberSet) : List MemberSymbol :=
  set.members.filter fun symbol => symbol.kind = .constructor

/-- Whether an instance can be made from nothing: by a constructor without parameters, or by the implicit one that a
record keeps as long as it has no primary constructor and declares no constructor. -/
def hasParameterlessConstructor (set : MemberSet) : Bool :=
  (set.primaryConstructor.isNone && set.constructors.all fun symbol => symbol.origin = .synthesized)
    || set.constructors.any fun symbol => symbol.types.isEmpty

end MemberSet

end RecordSynthesis
