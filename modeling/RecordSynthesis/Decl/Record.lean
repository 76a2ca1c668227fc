import RecordSynthesis.Decl.Member
import RecordSynthesis.Ty.Binding

/-!
# Record declarations and compilation units

A record declares state in two ways: as primary parameters and as members. A compilation unit is a list of records;
resolving it binds the names in their types to type parameters and to the kinds of the unit's own records.
-/

namespace RecordSynthesis.Decl

set_option autoImplicit false

structure PrimaryParameter where
  name : String
  type : Ty
  defaultValue : Option String := none
  span : Span := {}
  deriving Repr, Inhabited

structure Record where
  name : String
  typeParameters : List String := []
  isValueType : Bool := false
  parameters : List PrimaryParameter := []
  members : List Member := []
  base : Option String := none
  /-- The primary parameters handed to the base constructor, by name. -/
  baseArguments : List String := []
  span : Span := {}
  parameterListSpan : Span := {}
  deriving Repr, Inhabited

namespace Record

def kind (record : Record) : TypeKind :=
  if record.isValueType then .value else .reference

def isPositional (record : Record) : Bool :=
  !record.parameters.isEmpty

def parameterTypes (record : Record) : List Ty :=
  record.parameters.map (·.type)

/-- The type that the record declares, at its own type parameters. -/
def selfType (record : Record) : Ty :=
  .named record.name (record.typeParameters.map .parameter) record.kind

def mapTypes (f : Ty → Ty) (record : Record) : Record :=
  { record with
    parameters := record.parameters.map fun p => { p with type := f p.type }
    members := record.members.map (Member.mapTypes f) }

/-! ## Building records -/

def toValueType (record : Record) : Record :=
  { record with isValueType := true }

def addParameter (record : Record) (name : String) (type : Ty) : Record :=
  { record with parameters := record.parameters ++ [{ name, type }] }

def addMember (record : Record) (member : Member) : Record :=
  { record with members := record.members ++ [member] }

def derivedFrom (record : Record) (base : String) (arguments : List String) : Record :=
  { record with base := some base, baseArguments := arguments }

end Record

structure CompilationUnit where
  source : Option String := none
  records : List Record := []
  deriving Repr, Inhabited

namespace CompilationUnit

def find? (unit : CompilationUnit) (name : String) : Option Record :=
  unit.records.find? fun record => record.name = name

def kindOf? (unit : CompilationUnit) (name : String) : Option TypeKind :=
  (unit.find? name).map Record.kind

/-- Gives the names in all types their meaning. -/
def resolve (unit : CompilationUnit) : CompilationUnit :=
  { unit with
    records := unit.records.map fun record =>
      record.mapTypes fun type => (type.bind record.typeParameters).resolveKinds unit.kindOf? }

end CompilationUnit

end RecordSynthesis.Decl
