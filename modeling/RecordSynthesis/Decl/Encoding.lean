import RecordSynthesis.Datum.Basic
import RecordSynthesis.Decl.Record

/-!
# Declarations as data

The data form of units, records and members, with every field written out.
-/

namespace RecordSynthesis

set_option autoImplicit false

def Ty.toDatum (type : Ty) : Datum := .text type.canonical

def Span.toDatum (span : Span) : Datum :=
  .list [.int (Int.ofNat span.start.toNat), .int (Int.ofNat span.stop.toNat)]

def Datum.ofOption {α : Type} (encode : α → Datum) : Option α → Datum
  | some value => encode value
  | none => .null

namespace Decl

def Visibility.toDatum (visibility : Visibility) : Datum := .text visibility.word

def PassingMode.toDatum (mode : PassingMode) : Datum := .text mode.word

def Setter.toDatum (setter : Setter) : Datum := .text setter.word

def Parameter.toDatum (p : Parameter) : Datum :=
  .table [("name", .text p.name), ("type", p.type.toDatum), ("mode", p.mode.toDatum),
    ("default_value", Datum.ofOption .text p.defaultValue)]

def Field.entries (f : Field) : List (String × Datum) :=
  [("name", .text f.name), ("type", f.type.toDatum), ("is_static", .bool f.isStatic),
    ("visibility", f.visibility.toDatum), ("span", f.span.toDatum)]

def Property.entries (p : Property) : List (String × Datum) :=
  [("name", .text p.name), ("type", p.type.toDatum), ("is_static", .bool p.isStatic), ("is_auto", .bool p.isAuto),
    ("has_getter", .bool p.hasGetter), ("setter", p.setter.toDatum), ("visibility", p.visibility.toDatum),
    ("span", p.span.toDatum)]

def Event.entries (e : Event) : List (String × Datum) :=
  [("name", .text e.name), ("type", e.type.toDatum), ("is_static", .bool e.isStatic),
    ("is_field_like", .bool e.isFieldLike), ("visibility", e.visibility.toDatum), ("span", e.span.toDatum)]

def Indexer.entries (i : Indexer) : List (String × Datum) :=
  [("type", i.type.toDatum), ("params", .list (i.parameters.map Parameter.toDatum)), ("span", i.span.toDatum)]

def Method.entries (m : Method) : List (String × Datum) :=
  [("name", .text m.name), ("params", .list (m.parameters.map Parameter.toDatum)),
    ("return_type", Datum.ofOption Ty.toDatum m.returnType), ("is_static", .bool m.isStatic),
    ("visibility", m.visibility.toDatum), ("span", m.span.toDatum)]

def Constructor.entries (c : Constructor) : List (String × Datum) :=
  [("params", .list (c.parameters.map Parameter.toDatum)), ("body", .int (Int.ofNat c.body.toNat)),
    ("visibility", c.visibility.toDatum), ("span", c.span.toDatum)]

/-- A member is written with its kind in front. -/
def Member.toDatum : Member → Datum
  | .field f => .table (("kind", .text "field") :: f.entries)
  | .property p => .table (("kind", .text "property") :: p.entries)
  | .event e => .table (("kind", .text "event") :: e.entries)
  | .indexer i => .table (("kind", .text "indexer") :: i.entries)
  | .method m => .table (("kind", .text "method") :: m.entries)
  | .constructor c => .table (("kind", .text "constructor") :: c.entries)

def PrimaryParameter.toDatum (p : PrimaryParameter) : Datum :=
  .table [("name", .text p.name), ("type", p.type.toDatum), ("default_value", Datum.ofOption .text p.defaultValue),
    ("span", p.span.toDatum)]

def Record.toDatum (r : Record) : Datum :=
  .table [("name", .text r.name), ("type_params", .list (r.typeParameters.map .text)),
    ("is_value_type", .bool r.isValueType), ("parameters", .list (r.parameters.map PrimaryParameter.toDatum)),
    ("members", .list (r.members.map Member.toDatum)), ("base", Datum.ofOption .text r.base),
    ("base_arguments", .list (r.baseArguments.map .text)), ("span", r.span.toDatum),
    ("parameter_list_span", r.parameterListSpan.toDatum)]

def CompilationUnit.toDatum (u : CompilationUnit) : Datum :=
  .table [("source", Datum.ofOption .text u.source), ("records", .list (u.records.map Record.toDatum))]

end Decl

end RecordSynthesis
