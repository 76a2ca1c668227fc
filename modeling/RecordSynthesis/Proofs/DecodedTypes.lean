import RecordSynthesis.Decl.Decoding
import RecordSynthesis.Proofs.TypeText

/-!
# Types of decoded declarations

Every type of a decoded unit has been read from its spelling with no type parameters in scope.
-/

namespace RecordSynthesis

set_option autoImplicit false

open Decl

theorem bind_eq_ok_iff {ε α β : Type} {x : Except ε α} {f : α → Except ε β} {b : β} :
    (x >>= f) = .ok b ↔ ∃ a, x = .ok a ∧ f a = .ok b := by
  cases x <;> simp [bind, Except.bind]

theorem pure_eq_ok_iff {ε α : Type} {a b : α} : (pure a : Except ε α) = .ok b ↔ a = b := by
  simp [pure, Except.pure]

theorem map_eq_ok_iff {ε α β : Type} {x : Except ε α} {f : α → β} {b : β} :
    x.map f = .ok b ↔ ∃ a, x = .ok a ∧ f a = b := by
  cases x <;> simp [Except.map]

theorem forall_of_mapM_eq_ok {ε α β : Type} {f : α → Except ε β} {P : β → Prop} (h : ∀ a b, f a = .ok b → P b)
    {items : List α} {results : List β} (hResults : items.mapM f = .ok results) : ∀ b ∈ results, P b := by
  induction items generalizing results with
  | nil =>
    rw [List.mapM_nil, pure_eq_ok_iff] at hResults
    simp [← hResults]
  | cons a items ih =>
    simp only [List.mapM_cons, bind_eq_ok_iff, pure_eq_ok_iff] at hResults
    obtain ⟨b, hb, others, hOthers, rfl⟩ := hResults
    exact List.forall_mem_cons.mpr ⟨h a b hb, ih hOthers⟩

theorem Datum.forall_of_asList {α : Type} {item : Datum → Except DecodeError α} {P : α → Prop}
    (h : ∀ datum a, item datum = .ok a → P a) {datum : Datum} {results : List α}
    (hResults : datum.asList item = .ok results) : ∀ a ∈ results, P a := by
  cases datum with
  | list items => exact forall_of_mapM_eq_ok h hResults
  | _ => cases hResults

theorem Datum.forall_of_asOption {α : Type} {value : Datum → Except DecodeError α} {P : α → Prop}
    (h : ∀ datum a, value datum = .ok a → P a) {datum : Datum} {result : Option α}
    (hResult : datum.asOption value = .ok result) : ∀ a ∈ result, P a := by
  rw [asOption.eq_def] at hResult
  split at hResult
  · cases hResult
    simp
  · cases hValue : value datum with
    | error error =>
      rw [hValue] at hResult
      cases hResult
    | ok a =>
      rw [hValue] at hResult
      cases hResult
      rintro _ ⟨⟩
      exact h datum a hValue

theorem Datum.writtenIn_of_asType {datum : Datum} {type : Ty} (h : datum.asType = .ok type) : type.WrittenIn [] := by
  rw [asType, bind_eq_ok_iff] at h
  obtain ⟨spelling, -, h⟩ := h
  split at h
  · rename_i hRead
    cases h
    exact Ty.writtenIn_of_read hRead
  · cases h

namespace Opened

variable {opened : Opened} {field : String} {α : Type} {decode : Datum → Except DecodeError α} {P : α → Prop} {a : α}

theorem of_required (h : ∀ datum a, decode datum = .ok a → P a) (hRead : opened.required field decode = .ok a) :
    P a := by
  rw [required] at hRead
  split at hRead
  · exact h _ a hRead
  · cases hRead

theorem of_optional {default : α} (h : ∀ datum a, decode datum = .ok a → P a) (hDefault : P default)
    (hRead : opened.optional field default decode = .ok a) : P a := by
  rw [optional] at hRead
  split at hRead
  · exact h _ a hRead
  · cases hRead
    exact hDefault

end Opened

def Decl.Record.types (record : Record) : List Ty :=
  record.parameterTypes ++ record.members.flatMap Member.types

section

variable {reading : Reading} {datum : Datum}

theorem Decl.Parameter.writtenIn_of_ofDatum {p : Parameter} (h : Parameter.ofDatum reading datum = .ok p) :
    p.type.WrittenIn [] := by
  simp only [Parameter.ofDatum, bind_eq_ok_iff, pure_eq_ok_iff] at h
  obtain ⟨opened, -, _, -, name, -, type, hType, mode, -, defaultValue, -, rfl⟩ := h
  exact Opened.of_required (fun _ _ => Datum.writtenIn_of_asType) hType

theorem writtenIn_of_asParameters {parameters : List Parameter}
    (h : datum.asList (Parameter.ofDatum reading) = .ok parameters) :
    ∀ type ∈ parameters.map (·.type), type.WrittenIn [] := by
  rw [List.forall_mem_map]
  exact Datum.forall_of_asList (fun _ _ => Parameter.writtenIn_of_ofDatum) h

theorem Decl.Field.writtenIn_of_ofDatum {f : Field} (h : Field.ofDatum reading datum = .ok f) :
    ∀ type ∈ (Member.field f).types, type.WrittenIn [] := by
  simp only [Field.ofDatum, bind_eq_ok_iff, pure_eq_ok_iff] at h
  obtain ⟨opened, -, _, -, name, -, type, hType, _, -, _, -, _, -, rfl⟩ := h
  exact List.forall_mem_singleton.mpr (Opened.of_required (fun _ _ => Datum.writtenIn_of_asType) hType)

theorem Decl.Property.writtenIn_of_ofDatum {q : Property} (h : Property.ofDatum reading datum = .ok q) :
    ∀ type ∈ (Member.property q).types, type.WrittenIn [] := by
  simp only [Property.ofDatum, bind_eq_ok_iff, pure_eq_ok_iff] at h
  obtain ⟨opened, -, _, -, name, -, type, hType, _, -, _, -, _, -, _, -, _, -, _, -, rfl⟩ := h
  exact List.forall_mem_singleton.mpr (Opened.of_required (fun _ _ => Datum.writtenIn_of_asType) hType)

theorem Decl.Event.writtenIn_of_ofDatum {e : Event} (h : Event.ofDatum reading datum = .ok e) :
    ∀ type ∈ (Member.event e).types, type.WrittenIn [] := by
  simp only [Event.ofDatum, bind_eq_ok_iff, pure_eq_ok_iff] at h
  obtain ⟨opened, -, _, -, name, -, type, hType, _, -, _, -, _, -, _, -, rfl⟩ := h
  exact List.forall_mem_singleton.mpr (Opened.of_required (fun _ _ => Datum.writtenIn_of_asType) hType)

theorem Decl.Indexer.writtenIn_of_ofDatum {i : Indexer} (h : Indexer.ofDatum reading datum = .ok i) :
    ∀ type ∈ (Member.indexer i).types, type.WrittenIn [] := by
  simp only [Indexer.ofDatum, bind_eq_ok_iff, pure_eq_ok_iff] at h
  obtain ⟨opened, -, _, -, type, hType, parameters, hParameters, span, -, rfl⟩ := h
  refine List.forall_mem_cons.mpr ⟨Opened.of_required (fun _ _ => Datum.writtenIn_of_asType) hType, ?_⟩
  exact Opened.of_required (fun _ _ => writtenIn_of_asParameters) hParameters

theorem Decl.Method.writtenIn_of_ofDatum {m : Method} (h : Method.ofDatum reading datum = .ok m) :
    ∀ type ∈ (Member.method m).types, type.WrittenIn [] := by
  simp only [Method.ofDatum, bind_eq_ok_iff, pure_eq_ok_iff] at h
  obtain ⟨opened, -, _, -, name, -, parameters, hParameters, returnType, hReturn, _, -, _, -, _, -, rfl⟩ := h
  have hReturned : ∀ type ∈ returnType, type.WrittenIn [] :=
    Opened.of_optional (fun _ _ => Datum.forall_of_asOption fun _ _ => Datum.writtenIn_of_asType) (by simp) hReturn
  refine List.forall_mem_append.mpr ⟨?_, by simpa using hReturned⟩
  exact Opened.of_optional (fun _ _ => writtenIn_of_asParameters) (by simp) hParameters

theorem Decl.Constructor.writtenIn_of_ofDatum {c : Constructor} (h : Constructor.ofDatum reading datum = .ok c) :
    ∀ type ∈ (Member.constructor c).types, type.WrittenIn [] := by
  simp only [Constructor.ofDatum, bind_eq_ok_iff, pure_eq_ok_iff] at h
  obtain ⟨opened, -, _, -, parameters, hParameters, _, -, _, -, _, -, rfl⟩ := h
  exact Opened.of_optional (fun _ _ => writtenIn_of_asParameters) (by simp) hParameters

end

namespace Decl.Member

def ReadsTypes (kind : Datum → Except DecodeError Member) : Prop :=
  ∀ datum member, kind datum = .ok member → ∀ type ∈ member.types, type.WrittenIn []

theorem exists_kind_of_kindOf {tag : Datum} {read : Datum → Except DecodeError Member} (h : kindOf tag = .ok read) :
    ∃ kind ∈ kinds, kind.2 = read := by
  rw [kindOf.eq_def] at h
  split at h
  · split at h
    · rename_i found hFound
      cases h
      exact ⟨found, List.mem_of_find?_eq_some hFound, rfl⟩
    · cases h
  · cases h

theorem exists_kind_of_findKind {reading : Reading} {found : Option (Datum → Except DecodeError Member)}
    {entries : List (String × Datum)} {read : Datum → Except DecodeError Member}
    (hFound : ∀ read ∈ found, ∃ kind ∈ kinds, kind.2 = read) (h : findKind reading found entries = .ok read) :
    ∃ kind ∈ kinds, kind.2 = read := by
  induction entries generalizing found with
  | nil =>
    rw [findKind.eq_def] at h
    cases found with
    | none => cases h
    | some first =>
      cases h
      exact hFound read rfl
  | cons entry others ih =>
    rw [findKind.eq_def] at h
    dsimp only at h
    split at h
    · split at h
      · cases h
      · obtain ⟨tagged, hTagged, hRest⟩ := bind_eq_ok_iff.mp h
        exact ih (by rintro _ ⟨⟩; exact exists_kind_of_kindOf hTagged) hRest
    · split at h
      · exact ih hFound h
      · cases h

/-- Every member has been read by the reader of one kind. -/
theorem exists_kind_of_ofDatum {reading : Reading} {datum : Datum} {member : Member}
    (h : ofDatum reading datum = .ok member) : ∃ kind ∈ kinds, ∃ held, kind.2 held = .ok member := by
  rw [ofDatum.eq_def] at h
  split at h
  · obtain ⟨read, hRead, hMember⟩ := bind_eq_ok_iff.mp h
    obtain ⟨kind, hKind, rfl⟩ := exists_kind_of_findKind (by simp) hRead
    exact ⟨kind, hKind, _, hMember⟩
  · cases h
  · obtain ⟨read, hRead, hMember⟩ := bind_eq_ok_iff.mp h
    obtain ⟨kind, hKind, rfl⟩ := exists_kind_of_kindOf hRead
    split at hMember
    · exact ⟨kind, hKind, _, hMember⟩
    · cases hMember
  · cases h

/-- What holds of every member of each kind that is read holds of every member that is read. -/
theorem of_ofDatum {P : Member → Prop} {reading : Reading} {datum : Datum} {member : Member}
    (ofField : ∀ held f, Field.ofDatum .buffered held = .ok f → P (.field f))
    (ofProperty : ∀ held q, Property.ofDatum .buffered held = .ok q → P (.property q))
    (ofEvent : ∀ held e, Event.ofDatum .buffered held = .ok e → P (.event e))
    (ofIndexer : ∀ held i, Indexer.ofDatum .buffered held = .ok i → P (.indexer i))
    (ofMethod : ∀ held m, Method.ofDatum .buffered held = .ok m → P (.method m))
    (ofConstructor : ∀ held c, Constructor.ofDatum .buffered held = .ok c → P (.constructor c))
    (h : ofDatum reading datum = .ok member) : P member := by
  obtain ⟨kind, hKind, held, hMember⟩ := exists_kind_of_ofDatum h
  simp only [kinds, List.mem_cons, List.not_mem_nil, or_false] at hKind
  rcases hKind with rfl | rfl | rfl | rfl | rfl | rfl <;> obtain ⟨read, hRead, rfl⟩ := map_eq_ok_iff.mp hMember
  · exact ofField held read hRead
  · exact ofProperty held read hRead
  · exact ofEvent held read hRead
  · exact ofIndexer held read hRead
  · exact ofMethod held read hRead
  · exact ofConstructor held read hRead

theorem readsTypes_ofDatum (reading : Reading) : ReadsTypes (ofDatum reading) :=
  fun _ _ => of_ofDatum (P := fun member => ∀ type ∈ member.types, type.WrittenIn [])
    (fun _ _ => Field.writtenIn_of_ofDatum) (fun _ _ => Property.writtenIn_of_ofDatum)
    (fun _ _ => Event.writtenIn_of_ofDatum) (fun _ _ => Indexer.writtenIn_of_ofDatum)
    (fun _ _ => Method.writtenIn_of_ofDatum) (fun _ _ => Constructor.writtenIn_of_ofDatum)

end Decl.Member

section

variable {reading : Reading} {datum : Datum}

theorem Decl.PrimaryParameter.writtenIn_of_ofDatum {p : PrimaryParameter}
    (h : PrimaryParameter.ofDatum reading datum = .ok p) : p.type.WrittenIn [] := by
  simp only [PrimaryParameter.ofDatum, bind_eq_ok_iff, pure_eq_ok_iff] at h
  obtain ⟨opened, -, _, -, name, -, type, hType, defaultValue, -, span, -, rfl⟩ := h
  exact Opened.of_required (fun _ _ => Datum.writtenIn_of_asType) hType

theorem Decl.Record.writtenIn_of_ofDatum {record : Record} (h : Record.ofDatum reading datum = .ok record) :
    ∀ type ∈ record.types, type.WrittenIn [] := by
  simp only [Record.ofDatum, bind_eq_ok_iff, pure_eq_ok_iff] at h
  obtain ⟨opened, -, _, -, name, -, typeParameters, -, isValueType, -, parameters, hParameters, members, hMembers, _, -,
    _, -, _, -, _, -, rfl⟩ := h
  have hPrimary : ∀ p ∈ parameters, p.type.WrittenIn [] :=
    Opened.of_optional (fun _ _ => Datum.forall_of_asList fun _ _ => PrimaryParameter.writtenIn_of_ofDatum) (by simp)
      hParameters
  have hDeclared : ∀ member ∈ members, ∀ type ∈ member.types, type.WrittenIn [] :=
    Opened.of_optional (fun _ _ => Datum.forall_of_asList (Member.readsTypes_ofDatum reading)) (by simp) hMembers
  refine List.forall_mem_append.mpr ⟨List.forall_mem_map.mpr hPrimary, ?_⟩
  intro type hType
  obtain ⟨member, hMember, hMem⟩ := List.mem_flatMap.mp hType
  exact hDeclared member hMember type hMem

theorem Decl.CompilationUnit.writtenIn_of_ofDatum {unit : CompilationUnit}
    (h : CompilationUnit.ofDatum reading datum = .ok unit) :
    ∀ record ∈ unit.records, ∀ type ∈ record.types, type.WrittenIn [] := by
  simp only [CompilationUnit.ofDatum, bind_eq_ok_iff, pure_eq_ok_iff] at h
  obtain ⟨opened, -, _, -, source, -, records, hRecords, rfl⟩ := h
  exact Opened.of_optional (fun _ _ => Datum.forall_of_asList fun _ _ => Record.writtenIn_of_ofDatum) (by simp) hRecords

end

end RecordSynthesis
