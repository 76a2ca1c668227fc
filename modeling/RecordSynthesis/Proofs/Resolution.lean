import RecordSynthesis.Proofs.TypeScopes

/-!
# Resolution of units

Resolving a decoded unit binds every bare name that is a type parameter of the record around it and gives every named
type its kind. No text changes and nothing but types does, and what is resolved stays as it is when resolved again.
-/

namespace RecordSynthesis

set_option autoImplicit false

open Decl (CompilationUnit Record Member)

namespace Ty

mutual

def parts : Ty → List Ty
  | .primitive p => [.primitive p]
  | .named name arguments kind => .named name arguments kind :: partsAll arguments
  | .parameter name => [.parameter name]
  | .array element => .array element :: parts element
  | .nullable underlying => .nullable underlying :: parts underlying

def partsAll : List Ty → List Ty
  | [] => []
  | type :: others => parts type ++ partsAll others

end

def texts (type : Ty) : List String :=
  type.parts.map canonical

section

variable (scope : List String)

mutual

theorem texts_bind : ∀ type : Ty, (type.bind scope).texts = type.texts
  | .primitive _ | .parameter _ => rfl
  | .named name [] kind => by
    rw [bind]
    split <;> rfl
  | .named name (argument :: others) kind => by
    have hText := canonical_bind scope (.named name (argument :: others) kind)
    rw [bind] at hText ⊢
    rw [texts, texts, parts, parts, List.map_cons, List.map_cons, hText]
    exact congrArg _ (textsAll_bind (argument :: others))
  | .array element => by
    rw [bind, texts, texts, parts, parts, List.map_cons, List.map_cons, canonical, canonical_bind]
    exact congrArg _ (texts_bind element)
  | .nullable underlying => by
    rw [bind, texts, texts, parts, parts, List.map_cons, List.map_cons, canonical, canonical_bind]
    exact congrArg _ (texts_bind underlying)

theorem textsAll_bind : ∀ types : List Ty,
    (partsAll (bindAll scope types)).map canonical = (partsAll types).map canonical
  | [] => rfl
  | type :: others => by
    rw [bindAll, partsAll, partsAll, List.map_append, List.map_append, textsAll_bind others]
    exact congrArg (· ++ _) (texts_bind type)

end

end

section

variable (lookup : String → Option TypeKind)

mutual

theorem texts_resolveKinds : ∀ type : Ty, (type.resolveKinds lookup).texts = type.texts
  | .primitive _ | .parameter _ => rfl
  | .named name arguments kind => by
    have hText := canonical_resolveKinds lookup (.named name arguments kind)
    rw [resolveKinds] at hText ⊢
    rw [texts, texts, parts, parts, List.map_cons, List.map_cons, hText]
    exact congrArg _ (textsAll_resolveKinds arguments)
  | .array element => by
    rw [resolveKinds, texts, texts, parts, parts, List.map_cons, List.map_cons, canonical, canonical_resolveKinds]
    exact congrArg _ (texts_resolveKinds element)
  | .nullable underlying => by
    rw [resolveKinds, texts, texts, parts, parts, List.map_cons, List.map_cons, canonical, canonical_resolveKinds]
    exact congrArg _ (texts_resolveKinds underlying)

theorem textsAll_resolveKinds : ∀ types : List Ty,
    (partsAll (resolveKindsAll lookup types)).map canonical = (partsAll types).map canonical
  | [] => rfl
  | type :: others => by
    rw [resolveKindsAll, partsAll, partsAll, List.map_append, List.map_append, textsAll_resolveKinds others]
    exact congrArg (· ++ _) (texts_resolveKinds type)

end

end

def IsSettled (scope : List String) (lookup : String → Option TypeKind) : Ty → Prop
  | .named name arguments kind => (arguments = [] → name ∉ scope) ∧ kind = (lookup name).getD .reference
  | _ => True

section

variable (scope : List String) (lookup : String → Option TypeKind)

mutual

/-- Binding goes first, so that only the names that stay names get a kind. -/
theorem isSettled_of_mem_parts : ∀ type : Ty, type.WrittenIn [] →
    ∀ part ∈ ((type.bind scope).resolveKinds lookup).parts, part.IsSettled scope lookup
  | .primitive _, _, part, h => by
    rw [List.mem_singleton.mp h]
    trivial
  | .named name [] kind, ⟨_, _, hKind, _⟩, part, h => by
    rw [bind] at h
    split at h
    · rw [List.mem_singleton.mp h]
      trivial
    · rename_i hScope
      rw [List.mem_singleton.mp h, hKind]
      exact ⟨fun _ hMem => hScope (List.contains_iff_mem.mpr hMem), rfl⟩
  | .named name (argument :: others) kind, ⟨_, _, hKind, hArguments⟩, part, h => by
    rcases List.mem_cons.mp h with rfl | hMem
    · exact ⟨nofun, by rw [hKind]⟩
    · exact isSettled_of_mem_partsAll (argument :: others) hArguments part hMem
  | .parameter _, ⟨_, hNone⟩, _, _ => absurd hNone List.not_mem_nil
  | .array element, written, part, h => by
    rcases List.mem_cons.mp h with rfl | hMem
    · trivial
    · exact isSettled_of_mem_parts element written part hMem
  | .nullable underlying, written, part, h => by
    rcases List.mem_cons.mp h with rfl | hMem
    · trivial
    · exact isSettled_of_mem_parts underlying written part hMem

theorem isSettled_of_mem_partsAll : ∀ types : List Ty, AllWrittenIn [] types →
    ∀ part ∈ partsAll (resolveKindsAll lookup (bindAll scope types)), part.IsSettled scope lookup
  | [], _, _, h => by cases h
  | type :: others, ⟨hType, hOthers⟩, part, h => by
    rcases List.mem_append.mp h with hMem | hMem
    · exact isSettled_of_mem_parts type hType part hMem
    · exact isSettled_of_mem_partsAll others hOthers part hMem

end

end

section

variable (scope : List String)

mutual

theorem bind_bind : ∀ type : Ty, (type.bind scope).bind scope = type.bind scope
  | .primitive _ | .parameter _ => rfl
  | .named name [] kind => by
    rw [bind]
    split
    · rfl
    · rename_i hScope
      rw [bind, if_neg hScope]
  | .named name (argument :: others) kind => by
    rw [bind, bind, bind_bind argument, bindAll_bindAll others]
  | .array element => by rw [bind, bind, bind_bind element]
  | .nullable underlying => by rw [bind, bind, bind_bind underlying]

theorem bindAll_bindAll : ∀ types : List Ty, bindAll scope (bindAll scope types) = bindAll scope types
  | [] => rfl
  | type :: others => by rw [bindAll, bindAll, bind_bind type, bindAll_bindAll others]

end

variable (lookup : String → Option TypeKind)

mutual

theorem resolveKinds_resolveKinds : ∀ type : Ty,
    (type.resolveKinds lookup).resolveKinds lookup = type.resolveKinds lookup
  | .primitive _ | .parameter _ => rfl
  | .named name arguments kind => by
    rw [resolveKinds, resolveKinds, resolveKindsAll_resolveKindsAll arguments]
    cases lookup name <;> rfl
  | .array element => by rw [resolveKinds, resolveKinds, resolveKinds_resolveKinds element]
  | .nullable underlying => by rw [resolveKinds, resolveKinds, resolveKinds_resolveKinds underlying]

theorem resolveKindsAll_resolveKindsAll : ∀ types : List Ty,
    resolveKindsAll lookup (resolveKindsAll lookup types) = resolveKindsAll lookup types
  | [] => rfl
  | type :: others => by
    rw [resolveKindsAll, resolveKindsAll, resolveKinds_resolveKinds type, resolveKindsAll_resolveKindsAll others]

end

mutual

theorem bind_resolveKinds : ∀ type : Ty,
    (type.resolveKinds lookup).bind scope = (type.bind scope).resolveKinds lookup
  | .primitive _ | .parameter _ => rfl
  | .named name [] kind => by
    rw [resolveKinds, resolveKindsAll, bind, bind]
    split <;> rfl
  | .named name (argument :: others) kind => by
    rw [resolveKinds, resolveKindsAll, bind, bind, resolveKinds, resolveKindsAll, bind_resolveKinds argument,
      bindAll_resolveKindsAll others]
  | .array element => by rw [resolveKinds, bind, bind, resolveKinds, bind_resolveKinds element]
  | .nullable underlying => by rw [resolveKinds, bind, bind, resolveKinds, bind_resolveKinds underlying]

theorem bindAll_resolveKindsAll : ∀ types : List Ty,
    bindAll scope (resolveKindsAll lookup types) = resolveKindsAll lookup (bindAll scope types)
  | [] => rfl
  | type :: others => by
    rw [resolveKindsAll, bindAll, bindAll, resolveKindsAll, bind_resolveKinds type, bindAll_resolveKindsAll others]

end

theorem resolved_resolved (type : Ty) :
    (((type.bind scope).resolveKinds lookup).bind scope).resolveKinds lookup =
      (type.bind scope).resolveKinds lookup := by
  rw [bind_resolveKinds, bind_bind, resolveKinds_resolveKinds]

end

end Ty

namespace Decl

theorem Member.mapTypes_mapTypes (f g : Ty → Ty) (member : Member) :
    (member.mapTypes f).mapTypes g = member.mapTypes (g ∘ f) := by
  cases member <;> simp [mapTypes]

theorem Record.mapTypes_mapTypes (f g : Ty → Ty) (record : Record) :
    (record.mapTypes f).mapTypes g = record.mapTypes (g ∘ f) := by
  simp [mapTypes, Function.comp_def, Member.mapTypes_mapTypes]

def Record.untyped (record : Record) : Record :=
  record.mapTypes fun _ => Ty.object

namespace CompilationUnit

variable {unit : CompilationUnit}

theorem kindOf?_resolve (unit : CompilationUnit) : unit.resolve.kindOf? = unit.kindOf? := by
  funext name
  rw [kindOf?, kindOf?, find?, find?, resolve, List.find?_map, Option.map_map]
  rfl

theorem resolve_resolve (unit : CompilationUnit) : unit.resolve.resolve = unit.resolve := by
  rw [resolve, kindOf?_resolve, resolve]
  dsimp only
  rw [List.map_map]
  congr 1
  refine List.map_congr_left fun record _ => ?_
  let f (type : Ty) : Ty := (type.bind record.typeParameters).resolveKinds unit.kindOf?
  have hTypes : f ∘ f = f := funext (Ty.resolved_resolved record.typeParameters unit.kindOf?)
  exact (Record.mapTypes_mapTypes f f record).trans (congrArg (record.mapTypes ·) hTypes)

/-- One record of a unit as resolution leaves it. -/
structure Resolves (unit : CompilationUnit) (record resolved : Record) : Prop where
  /-- No bare name is left that is one of the record's type parameters. -/
  bound : ∀ type ∈ resolved.types, ∀ name kind, .named name [] kind ∈ type.parts → name ∉ record.typeParameters
  /-- The first record of a name gives its kind to every type of that name. -/
  declared : ∀ type ∈ resolved.types, ∀ name arguments kind, .named name arguments kind ∈ type.parts →
    ∀ first, unit.find? name = some first → kind = first.kind
  /-- A type that the unit does not declare is of reference kind, as it was read. -/
  foreign : ∀ type ∈ resolved.types, ∀ name arguments kind, .named name arguments kind ∈ type.parts →
    unit.find? name = none → kind = .reference
  inScope : ∀ type ∈ resolved.types, type.ScopedIn record.typeParameters
  texts : resolved.types.map Ty.texts = record.types.map Ty.texts
  untyped : resolved.untyped = record.untyped

theorem resolves_of_written {record : Record} (written : ∀ type ∈ record.types, type.WrittenIn []) :
    unit.Resolves record
      (record.mapTypes fun type => (type.bind record.typeParameters).resolveKinds unit.kindOf?) := by
  have hParts : ∀ type ∈ record.types, ∀ part ∈
      ((type.bind record.typeParameters).resolveKinds unit.kindOf?).parts,
      part.IsSettled record.typeParameters unit.kindOf? := fun type hType =>
    Ty.isSettled_of_mem_parts record.typeParameters unit.kindOf? type (written type hType)
  have hTypes := Record.types_mapTypes
    (fun type => (type.bind record.typeParameters).resolveKinds unit.kindOf?) record
  constructor
  case bound =>
    rw [hTypes, List.forall_mem_map]
    exact fun type hType name kind hPart => (hParts type hType _ hPart).1 rfl
  case declared =>
    rw [hTypes, List.forall_mem_map]
    intro type hType name arguments kind hPart first hFirst
    rw [(hParts type hType _ hPart).2, kindOf?, hFirst]
    rfl
  case foreign =>
    rw [hTypes, List.forall_mem_map]
    intro type hType name arguments kind hPart hNone
    rw [(hParts type hType _ hPart).2, kindOf?, hNone]
    rfl
  case inScope =>
    rw [hTypes, List.forall_mem_map]
    intro type hType
    have hScoped : type.ScopedIn record.typeParameters := fun name hName =>
      absurd (Ty.scopedIn_of_writtenIn type (written type hType) name hName) List.not_mem_nil
    exact hScoped.resolved unit.kindOf?
  case texts =>
    rw [hTypes, List.map_map]
    refine List.map_congr_left fun type _ => ?_
    rw [Function.comp_apply, Ty.texts_resolveKinds, Ty.texts_bind]
  case untyped => exact Record.mapTypes_mapTypes ..

end CompilationUnit

end Decl

/-- Resolution leaves the records of a decoded unit in their order and each as described, and it is final. -/
theorem resolution_complete {reading : Reading} {datum : Datum} {unit : CompilationUnit}
    (decoded : CompilationUnit.ofDatum reading datum = .ok unit) :
    unit.resolve.source = unit.source ∧ List.Forall₂ unit.Resolves unit.records unit.resolve.records ∧
      unit.resolve.resolve = unit.resolve := by
  refine ⟨rfl, ?_, unit.resolve_resolve⟩
  rw [CompilationUnit.resolve, List.forall₂_map_right_iff, List.forall₂_same]
  exact fun record hRecord =>
    CompilationUnit.resolves_of_written (CompilationUnit.writtenIn_of_ofDatum decoded record hRecord)

def shelfDatum : Datum :=
  .table [("records", .list [
    .table [
      ("name", .text "Box"),
      ("type_params", .list [.text "T"]),
      ("is_value_type", .bool true),
      ("parameters", .list [.table [("name", .text "Held"), ("type", .text "Map<T, Box<T>[]>?")]]),
      ("members", .list [.table [("kind", .text "method"), ("name", .text "First"), ("return_type", .text "T")]])],
    .table [("name", .text "T"), ("is_value_type", .bool true)],
    .table [("name", .text "Box")],
    .table [
      ("name", .text "Shelf"),
      ("members", .list [.table [
        ("kind", .text "indexer"), ("type", .text "Box<T>"),
        ("params", .list [.table [("name", .text "at"), ("type", .text "T?"), ("mode", .text "in")]])]])]])]

def shelf : CompilationUnit where
  records := [
    { name := "Box"
      typeParameters := ["T"]
      isValueType := true
      parameters := [
        { name := "Held"
          type := .nullable (.named "Map"
            [.named "T" [] .reference, .array (.named "Box" [.named "T" [] .reference] .reference)] .reference) }]
      members := [.method { name := "First", returnType := some (.named "T" [] .reference) }] },
    { name := "T", isValueType := true },
    { name := "Box" },
    { name := "Shelf"
      members := [.indexer {
        type := .named "Box" [.named "T" [] .reference] .reference
        parameters := [{ name := "at", type := .nullable (.named "T" [] .reference), mode := .byIn }] }] }]

theorem resolution_complete_shelf :
    CompilationUnit.ofDatum .tree shelfDatum = .ok shelf ∧
      shelf.resolve.records.map Record.types =
        [[.nullable (.named "Map" [.parameter "T", .array (.named "Box" [.parameter "T"] .value)] .reference),
            .parameter "T"],
          [], [], [.named "Box" [.named "T" [] .value] .value, .nullable (.named "T" [] .value)]] ∧
      shelf.resolve.source = shelf.source ∧ List.Forall₂ shelf.Resolves shelf.records shelf.resolve.records ∧
      shelf.resolve.resolve = shelf.resolve := by
  have decoded : CompilationUnit.ofDatum .tree shelfDatum = .ok shelf := rfl
  exact ⟨decoded, rfl, resolution_complete decoded⟩

end RecordSynthesis
