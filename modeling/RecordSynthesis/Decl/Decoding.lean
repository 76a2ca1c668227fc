import RecordSynthesis.Datum.Decoding
import RecordSynthesis.Decl.Record

/-!
# Declarations from data

The data form of units, records and members. Members are tagged by their kind.
-/

namespace RecordSynthesis.Decl

set_option autoImplicit false

def Visibility.variants : List (String × Visibility) :=
  [("public", .isPublic), ("protected", .isProtected), ("internal", .isInternal), ("private", .isPrivate)]

def PassingMode.variants : List (String × PassingMode) :=
  [("value", .byValue), ("in", .byIn), ("ref", .byRef), ("out", .byOut)]

def Setter.variants : List (String × Setter) :=
  [("absent", .absent), ("set", .set), ("init", .init)]

section

variable (reading : Reading)

def Parameter.ofDatum (datum : Datum) : Except DecodeError Parameter := do
  let opened ← Layout.open ⟨"ParamDecl", ["name", "type", "mode", "default_value"], false⟩ reading datum
  let name := opened.required "name" Datum.asText
  let type := opened.required "type" Datum.asType
  let mode := opened.optional "mode" .byValue (Datum.asVariant reading PassingMode.variants)
  let defaultValue := opened.optional "default_value" none (Datum.asOption Datum.asText)
  opened.settle [failure? name, failure? type, failure? mode, failure? defaultValue]
  return { name := ← name, type := ← type, mode := ← mode, defaultValue := ← defaultValue }

def Field.ofDatum (datum : Datum) : Except DecodeError Field := do
  let opened ← Layout.open ⟨"FieldDecl", ["name", "type", "is_static", "visibility", "span"], false⟩ reading datum
  let name := opened.required "name" Datum.asText
  let type := opened.required "type" Datum.asType
  let isStatic := opened.optional "is_static" false Datum.asBool
  let visibility := opened.optional "visibility" .isPrivate (Datum.asVariant reading Visibility.variants)
  let span := opened.optional "span" {} (Datum.asSpan reading)
  opened.settle [failure? name, failure? type, failure? isStatic, failure? visibility, failure? span]
  return { name := ← name, type := ← type, isStatic := ← isStatic, visibility := ← visibility, span := ← span }

def Property.ofDatum (datum : Datum) : Except DecodeError Property := do
  let opened ← Layout.open
    ⟨"PropertyDecl", ["name", "type", "is_static", "is_auto", "has_getter", "setter", "visibility", "span"], false⟩
    reading datum
  let name := opened.required "name" Datum.asText
  let type := opened.required "type" Datum.asType
  let isStatic := opened.optional "is_static" false Datum.asBool
  let isAuto := opened.optional "is_auto" true Datum.asBool
  let hasGetter := opened.optional "has_getter" true Datum.asBool
  let setter := opened.optional "setter" .absent (Datum.asVariant reading Setter.variants)
  let visibility := opened.optional "visibility" .isPrivate (Datum.asVariant reading Visibility.variants)
  let span := opened.optional "span" {} (Datum.asSpan reading)
  opened.settle [failure? name, failure? type, failure? isStatic, failure? isAuto, failure? hasGetter,
    failure? setter, failure? visibility,
    failure? span]
  return {
    name := ← name, type := ← type, isStatic := ← isStatic, isAuto := ← isAuto, hasGetter := ← hasGetter
    setter := ← setter, visibility := ← visibility, span := ← span }

def Event.ofDatum (datum : Datum) : Except DecodeError Event := do
  let opened ← Layout.open
    ⟨"EventDecl", ["name", "type", "is_static", "is_field_like", "visibility", "span"], false⟩ reading datum
  let name := opened.required "name" Datum.asText
  let type := opened.required "type" Datum.asType
  let isStatic := opened.optional "is_static" false Datum.asBool
  let isFieldLike := opened.optional "is_field_like" true Datum.asBool
  let visibility := opened.optional "visibility" .isPrivate (Datum.asVariant reading Visibility.variants)
  let span := opened.optional "span" {} (Datum.asSpan reading)
  opened.settle [failure? name, failure? type, failure? isStatic, failure? isFieldLike, failure? visibility,
    failure? span]
  return {
    name := ← name, type := ← type, isStatic := ← isStatic, isFieldLike := ← isFieldLike
    visibility := ← visibility, span := ← span }

def Indexer.ofDatum (datum : Datum) : Except DecodeError Indexer := do
  let opened ← Layout.open ⟨"IndexerDecl", ["type", "params", "span"], false⟩ reading datum
  let type := opened.required "type" Datum.asType
  let parameters := opened.required "params" (Datum.asList (Parameter.ofDatum reading))
  let span := opened.optional "span" {} (Datum.asSpan reading)
  opened.settle [failure? type, failure? parameters, failure? span]
  return { type := ← type, parameters := ← parameters, span := ← span }

def Method.ofDatum (datum : Datum) : Except DecodeError Method := do
  let opened ← Layout.open
    ⟨"MethodDecl", ["name", "params", "return_type", "is_static", "visibility", "span"], false⟩ reading datum
  let name := opened.required "name" Datum.asText
  let parameters := opened.optional "params" [] (Datum.asList (Parameter.ofDatum reading))
  let returnType := opened.optional "return_type" none (Datum.asOption Datum.asType)
  let isStatic := opened.optional "is_static" false Datum.asBool
  let visibility := opened.optional "visibility" .isPrivate (Datum.asVariant reading Visibility.variants)
  let span := opened.optional "span" {} (Datum.asSpan reading)
  opened.settle [failure? name, failure? parameters, failure? returnType, failure? isStatic, failure? visibility,
    failure? span]
  return {
    name := ← name, parameters := ← parameters, returnType := ← returnType, isStatic := ← isStatic
    visibility := ← visibility, span := ← span }

def Constructor.ofDatum (datum : Datum) : Except DecodeError Constructor := do
  let opened ← Layout.open ⟨"ConstructorDecl", ["params", "body", "visibility", "span"], false⟩ reading datum
  let parameters := opened.optional "params" [] (Datum.asList (Parameter.ofDatum reading))
  let body := opened.optional "body" 0 Datum.asWord
  let visibility := opened.optional "visibility" .isPrivate (Datum.asVariant reading Visibility.variants)
  let span := opened.optional "span" {} (Datum.asSpan reading)
  opened.settle [failure? parameters, failure? body, failure? visibility, failure? span]
  return { parameters := ← parameters, body := ← body, visibility := ← visibility, span := ← span }

end

namespace Member

/-- The kinds of members, each with the reader of what follows its tag. -/
def kinds : List (String × (Datum → Except DecodeError Member)) :=
  [("field", fun d => (Field.ofDatum .buffered d).map field),
   ("property", fun d => (Property.ofDatum .buffered d).map property),
   ("event", fun d => (Event.ofDatum .buffered d).map event),
   ("indexer", fun d => (Indexer.ofDatum .buffered d).map indexer),
   ("method", fun d => (Method.ofDatum .buffered d).map method),
   ("constructor", fun d => (Constructor.ofDatum .buffered d).map constructor)]

def kindOf (tag : Datum) : Except DecodeError (Datum → Except DecodeError Member) :=
  match tag with
  | .text name =>
    match kinds.find? fun kind => kind.1 = name with
    | some kind => .ok kind.2
    | none => .error (.unknownVariant name (kinds.map (·.1)))
  | other => .error (other.mismatch "variant identifier")

/-- Looks for the tag among the entries of a table; all else is held back until the tag is known. -/
def findKind (reading : Reading) (found : Option (Datum → Except DecodeError Member)) :
    List (String × Datum) → Except DecodeError (Datum → Except DecodeError Member)
  | [] =>
    match found with
    | some kind => .ok kind
    | none => .error (.missingField "kind")
  | (key, value) :: others =>
    if key = "kind" then
      if found.isSome then .error (.duplicateField "kind")
      else do
        let kind ← kindOf value
        findKind reading (some kind) others
    else if reading.holds value then findKind reading found others
    else .error .malformed

/-- The tag is the entry `kind` of a table, or the first item of a list. -/
def ofDatum (reading : Reading) : Datum → Except DecodeError Member
  | .table entries => do
    let kind ← findKind reading none entries
    kind (.table (entries.filter fun entry => entry.1 ≠ "kind"))
  | .list [] => .error (.missingField "kind")
  | .list (tag :: items) => do
    let kind ← kindOf tag
    if items.all reading.holds then kind (.list items) else .error .malformed
  | other => .error (other.mismatch "internally tagged enum MemberDecl")

end Member

section

variable (reading : Reading)

def PrimaryParameter.ofDatum (datum : Datum) : Except DecodeError PrimaryParameter := do
  let opened ← Layout.open ⟨"PrimaryParameter", ["name", "type", "default_value", "span"], false⟩ reading datum
  let name := opened.required "name" Datum.asText
  let type := opened.required "type" Datum.asType
  let defaultValue := opened.optional "default_value" none (Datum.asOption Datum.asText)
  let span := opened.optional "span" {} (Datum.asSpan reading)
  opened.settle [failure? name, failure? type, failure? defaultValue, failure? span]
  return { name := ← name, type := ← type, defaultValue := ← defaultValue, span := ← span }

def Record.ofDatum (datum : Datum) : Except DecodeError Record := do
  let opened ← Layout.open
    ⟨"RecordDeclaration",
      ["name", "type_params", "is_value_type", "parameters", "members", "base", "base_arguments", "span",
        "parameter_list_span"], false⟩
    reading datum
  let name := opened.required "name" Datum.asText
  let typeParameters := opened.optional "type_params" [] (Datum.asList Datum.asText)
  let isValueType := opened.optional "is_value_type" false Datum.asBool
  let parameters := opened.optional "parameters" [] (Datum.asList (PrimaryParameter.ofDatum reading))
  let members := opened.optional "members" [] (Datum.asList (Member.ofDatum reading))
  let base := opened.optional "base" none (Datum.asOption Datum.asText)
  let baseArguments := opened.optional "base_arguments" [] (Datum.asList Datum.asText)
  let span := opened.optional "span" {} (Datum.asSpan reading)
  let parameterListSpan := opened.optional "parameter_list_span" {} (Datum.asSpan reading)
  opened.settle [failure? name, failure? typeParameters, failure? isValueType, failure? parameters,
    failure? members, failure? base,
    failure? baseArguments, failure? span, failure? parameterListSpan]
  return {
    name := ← name, typeParameters := ← typeParameters, isValueType := ← isValueType
    parameters := ← parameters, members := ← members, base := ← base, baseArguments := ← baseArguments
    span := ← span, parameterListSpan := ← parameterListSpan }

/-- The list of records goes by either of two names. -/
def CompilationUnit.renamed : Datum → Datum
  | .table entries => .table (entries.map fun entry => if entry.1 = "record" then ("records", entry.2) else entry)
  | other => other

/-- A unit as it is written, with the names in its types not yet resolved. -/
def CompilationUnit.ofDatum (datum : Datum) : Except DecodeError CompilationUnit := do
  let opened ← Layout.open ⟨"CompilationUnit", ["source", "records"], false⟩ reading (renamed datum)
  let source := opened.optional "source" none (Datum.asOption Datum.asText)
  let records := opened.optional "records" [] (Datum.asList (Record.ofDatum reading))
  opened.settle [failure? source, failure? records]
  return { source := ← source, records := ← records }

end

end RecordSynthesis.Decl
