import RecordSynthesis.Proofs.DecodedSpans
import RecordSynthesis.Proofs.ReadBack
import RecordSynthesis.Proofs.TypeIdentity

/-!
# Reading back what is written

A declaration whose types can be read and whose spans are in order is decoded from its own data form, in whatever order
the entries of the tables stand. Decoded units are of this kind. Their data form tells nothing of what resolving does,
for it spells types by their canonical texts.
-/

namespace RecordSynthesis

set_option autoImplicit false

open Decl

section

open Datum

variable {levels : Nat}

@[simp] theorem isSound_map {α : Type} {encode : α → Datum} (h : ∀ a, (encode a).isSound levels = true)
    (values : List α) : (Datum.list (values.map encode)).isSound (levels + 1) = true :=
  isSound_list (List.forall_mem_map.mpr fun a _ => h a)

@[simp] theorem isSound_ofOption {α : Type} {encode : α → Datum} (h : ∀ a, (encode a).isSound levels = true)
    (value : Option α) : (ofOption encode value).isSound levels = true := by
  cases value with
  | none => simp [ofOption, Datum.isSound]
  | some a => exact h a

@[simp] theorem Ty.isSound_toDatum (type : Ty) : type.toDatum.isSound levels = true :=
  isSound_text levels type.canonical

@[simp] theorem Span.isSound_toDatum (span : Span) : span.toDatum.isSound (levels + 1) = true :=
  isSound_list (by simp)

@[simp] theorem Decl.Visibility.isSound_toDatum (visibility : Visibility) : visibility.toDatum.isSound levels = true :=
  isSound_text levels visibility.word

@[simp] theorem Decl.PassingMode.isSound_toDatum (mode : PassingMode) : mode.toDatum.isSound levels = true :=
  isSound_text levels mode.word

@[simp] theorem Decl.Setter.isSound_toDatum (setter : Setter) : setter.toDatum.isSound levels = true :=
  isSound_text levels setter.word

@[simp] theorem Decl.Parameter.isSound_toDatum (p : Parameter) : p.toDatum.isSound (levels + 1) = true :=
  isSound_table (by simp)

@[simp] theorem Decl.Member.isSound_toDatum (member : Member) : member.toDatum.isSound (levels + 3) = true := by
  cases member with
  | field f => exact isSound_table (by simp [Field.entries])
  | property q => exact isSound_table (by simp [Property.entries])
  | event e => exact isSound_table (by simp [Event.entries])
  | indexer i => exact isSound_table (by simp [Indexer.entries])
  | method m => exact isSound_table (by simp [Method.entries])
  | constructor c => exact isSound_table (by simp [Constructor.entries])

@[simp] theorem Decl.PrimaryParameter.isSound_toDatum (p : PrimaryParameter) :
    p.toDatum.isSound (levels + 2) = true :=
  isSound_table (by simp)

@[simp] theorem Decl.Record.isSound_toDatum (record : Record) : record.toDatum.isSound (levels + 5) = true :=
  isSound_table (by simp)

end

namespace Decl

open Datum

variable (reading : Reading)

theorem Visibility.reads (visibility : Visibility) :
    Reads (asVariant reading Visibility.variants) visibility.toDatum visibility :=
  reads_variant reading (by cases visibility <;> rfl)

theorem PassingMode.reads (mode : PassingMode) : Reads (asVariant reading PassingMode.variants) mode.toDatum mode :=
  reads_variant reading (by cases mode <;> rfl)

theorem Setter.reads (setter : Setter) : Reads (asVariant reading Setter.variants) setter.toDatum setter :=
  reads_variant reading (by cases setter <;> rfl)

theorem reads_optionalText (value : Option String) : Reads (asOption asText) (ofOption .text value) value :=
  reads_option (fun _ => nofun) fun text _ => reads_text text

theorem reads_texts (values : List String) : Reads (asList asText) (.list (values.map .text)) values :=
  reads_list fun text _ => reads_text text

theorem Parameter.reads {p : Parameter} (written : p.type.WrittenIn []) :
    Reads (Parameter.ofDatum reading) p.toDatum p := by
  intro datum h
  obtain ⟨entries, rfl, table⟩ := h.isArrangement (by simp)
  have finds := table.finds
  simp only [List.forall_mem_cons] at finds
  obtain ⟨hName, hType, hMode, hDefault, -⟩ := finds
  simp only [Parameter.ofDatum, bind_eq_ok_iff, pure_eq_ok_iff]
  refine ⟨_, rfl, ?_⟩
  rw [hName.required (reads_text p.name), hType.required (reads_type written),
    hMode.optional (PassingMode.reads reading p.mode), hDefault.optional (reads_optionalText p.defaultValue)]
  exact ⟨(), table.settle rfl (by simp [heldLevels]) rfl (by simp), by simp⟩

theorem reads_parameters {parameters : List Parameter} (written : ∀ type ∈ parameters.map (·.type), type.WrittenIn []) :
    Reads (asList (Parameter.ofDatum reading)) (.list (parameters.map Parameter.toDatum)) parameters :=
  reads_list fun _ mem => Parameter.reads reading (written _ (List.mem_map_of_mem mem))

theorem Field.reads {f : Field} (written : f.type.WrittenIn []) (ordered : f.span.IsOrdered) :
    Reads (Field.ofDatum reading) (.table f.entries) f := by
  intro datum h
  obtain ⟨entries, rfl, table⟩ := h.isArrangement (by simp [Field.entries])
  have finds := table.finds
  simp only [Field.entries, List.forall_mem_cons] at finds
  obtain ⟨hName, hType, hStatic, hVisibility, hSpan, -⟩ := finds
  simp only [Field.ofDatum, bind_eq_ok_iff, pure_eq_ok_iff]
  refine ⟨_, rfl, ?_⟩
  rw [hName.required (reads_text f.name), hType.required (reads_type written), hStatic.optional (reads_bool f.isStatic),
    hVisibility.optional (Visibility.reads reading f.visibility), hSpan.optional (reads_span reading ordered)]
  exact ⟨(), table.settle rfl (by simp [Field.entries, heldLevels]) rfl (by simp), by simp⟩

theorem Property.reads {q : Property} (written : q.type.WrittenIn []) (ordered : q.span.IsOrdered) :
    Reads (Property.ofDatum reading) (.table q.entries) q := by
  intro datum h
  obtain ⟨entries, rfl, table⟩ := h.isArrangement (by simp [Property.entries])
  have finds := table.finds
  simp only [Property.entries, List.forall_mem_cons] at finds
  obtain ⟨hName, hType, hStatic, hAuto, hGetter, hSetter, hVisibility, hSpan, -⟩ := finds
  simp only [Property.ofDatum, bind_eq_ok_iff, pure_eq_ok_iff]
  refine ⟨_, rfl, ?_⟩
  rw [hName.required (reads_text q.name), hType.required (reads_type written), hStatic.optional (reads_bool q.isStatic),
    hAuto.optional (reads_bool q.isAuto), hGetter.optional (reads_bool q.hasGetter),
    hSetter.optional (Setter.reads reading q.setter), hVisibility.optional (Visibility.reads reading q.visibility),
    hSpan.optional (reads_span reading ordered)]
  exact ⟨(), table.settle rfl (by simp [Property.entries, heldLevels]) rfl (by simp), by simp⟩

theorem Event.reads {e : Event} (written : e.type.WrittenIn []) (ordered : e.span.IsOrdered) :
    Reads (Event.ofDatum reading) (.table e.entries) e := by
  intro datum h
  obtain ⟨entries, rfl, table⟩ := h.isArrangement (by simp [Event.entries])
  have finds := table.finds
  simp only [Event.entries, List.forall_mem_cons] at finds
  obtain ⟨hName, hType, hStatic, hFieldLike, hVisibility, hSpan, -⟩ := finds
  simp only [Event.ofDatum, bind_eq_ok_iff, pure_eq_ok_iff]
  refine ⟨_, rfl, ?_⟩
  rw [hName.required (reads_text e.name), hType.required (reads_type written), hStatic.optional (reads_bool e.isStatic),
    hFieldLike.optional (reads_bool e.isFieldLike), hVisibility.optional (Visibility.reads reading e.visibility),
    hSpan.optional (reads_span reading ordered)]
  exact ⟨(), table.settle rfl (by simp [Event.entries, heldLevels]) rfl (by simp), by simp⟩

theorem Indexer.reads {i : Indexer} (written : ∀ type ∈ (Member.indexer i).types, type.WrittenIn [])
    (ordered : i.span.IsOrdered) : Reads (Indexer.ofDatum reading) (.table i.entries) i := by
  intro datum h
  obtain ⟨hOwn, hParameterTypes⟩ := List.forall_mem_cons.mp written
  obtain ⟨entries, rfl, table⟩ := h.isArrangement (by simp [Indexer.entries])
  have finds := table.finds
  simp only [Indexer.entries, List.forall_mem_cons] at finds
  obtain ⟨hType, hParameters, hSpan, -⟩ := finds
  simp only [Indexer.ofDatum, bind_eq_ok_iff, pure_eq_ok_iff]
  refine ⟨_, rfl, ?_⟩
  rw [hType.required (reads_type hOwn), hParameters.required (reads_parameters reading hParameterTypes),
    hSpan.optional (reads_span reading ordered)]
  exact ⟨(), table.settle rfl (by simp [Indexer.entries, heldLevels]) rfl (by simp), by simp⟩

theorem Method.reads {m : Method} (written : ∀ type ∈ (Member.method m).types, type.WrittenIn [])
    (ordered : m.span.IsOrdered) : Reads (Method.ofDatum reading) (.table m.entries) m := by
  intro datum h
  obtain ⟨hParameterTypes, hReturned⟩ := List.forall_mem_append.mp written
  have hReturnType : Reads (asOption asType) (ofOption Ty.toDatum m.returnType) m.returnType :=
    reads_option (fun _ => nofun) fun type mem => reads_type (hReturned type (Option.mem_toList.mpr mem))
  obtain ⟨entries, rfl, table⟩ := h.isArrangement (by simp [Method.entries])
  have finds := table.finds
  simp only [Method.entries, List.forall_mem_cons] at finds
  obtain ⟨hName, hParameters, hReturn, hStatic, hVisibility, hSpan, -⟩ := finds
  simp only [Method.ofDatum, bind_eq_ok_iff, pure_eq_ok_iff]
  refine ⟨_, rfl, ?_⟩
  rw [hName.required (reads_text m.name), hParameters.optional (reads_parameters reading hParameterTypes),
    hReturn.optional hReturnType, hStatic.optional (reads_bool m.isStatic),
    hVisibility.optional (Visibility.reads reading m.visibility), hSpan.optional (reads_span reading ordered)]
  exact ⟨(), table.settle rfl (by simp [Method.entries, heldLevels]) rfl (by simp), by simp⟩

theorem Constructor.reads {c : Constructor} (written : ∀ type ∈ (Member.constructor c).types, type.WrittenIn [])
    (ordered : c.span.IsOrdered) : Reads (Constructor.ofDatum reading) (.table c.entries) c := by
  intro datum h
  obtain ⟨entries, rfl, table⟩ := h.isArrangement (by simp [Constructor.entries])
  have finds := table.finds
  simp only [Constructor.entries, List.forall_mem_cons] at finds
  obtain ⟨hParameters, hBody, hVisibility, hSpan, -⟩ := finds
  simp only [Constructor.ofDatum, bind_eq_ok_iff, pure_eq_ok_iff]
  refine ⟨_, rfl, ?_⟩
  rw [hParameters.optional (reads_parameters reading written), hBody.optional (reads_word c.body),
    hVisibility.optional (Visibility.reads reading c.visibility), hSpan.optional (reads_span reading ordered)]
  exact ⟨(), table.settle rfl (by simp [Constructor.entries, heldLevels]) rfl (by simp), by simp⟩

namespace Member

variable {reading}

/-- Entries that can be held back do not hide the tag behind them. -/
theorem findKind_append {found : Option (Datum → Except DecodeError Member)} {entries : List (String × Datum)}
    (plain : ∀ entry ∈ entries, entry.1 ≠ "kind" ∧ reading.holds entry.2 = true) (others : List (String × Datum)) :
    findKind reading found (entries ++ others) = findKind reading found others := by
  induction entries with
  | nil => rfl
  | cons entry entries ih =>
    obtain ⟨⟨hKey, hHolds⟩, hPlain⟩ := List.forall_mem_cons.mp plain
    rw [List.cons_append, findKind.eq_def]
    simp only [hKey, hHolds, if_false, if_true]
    exact ih hPlain

theorem findKind_tagged {before after : List (String × Datum)} {tag : Datum} {read : Datum → Except DecodeError Member}
    (hKind : kindOf tag = .ok read)
    (plain : ∀ entry ∈ before ++ after, entry.1 ≠ "kind" ∧ reading.holds entry.2 = true) :
    findKind reading none (before ++ ("kind", tag) :: after) = .ok read := by
  obtain ⟨hBefore, hAfter⟩ := List.forall_mem_append.mp plain
  rw [findKind_append hBefore, findKind.eq_def]
  simp only [if_true, Option.isSome_none, Bool.false_eq_true, if_false, hKind]
  change findKind reading (some read) after = .ok read
  rw [← List.append_nil after, findKind_append hAfter]
  rfl

theorem reads_of_tagged {name : String} {read : Datum → Except DecodeError Member} {entries : List (String × Datum)}
    {member : Member} (hKind : kindOf (.text name) = .ok read) (untagged : ∀ entry ∈ entries, entry.1 ≠ "kind")
    (sound : ∀ entry ∈ entries, entry.2.isSound heldLevels = true) (reads : Reads read (.table entries) member) :
    Reads (ofDatum reading) (.table (("kind", .text name) :: entries)) member := by
  intro datum h
  obtain ⟨_, arranged, rfl, hAll, perm⟩ := h.of_table
  cases hAll with
  | @cons _ _ tag _ others hTag hOthers =>
    obtain rfl : tag = .text name := hTag.eq_of_text
    obtain ⟨before, after, rfl⟩ := List.append_of_mem (perm.mem_iff.mp List.mem_cons_self)
    have permOthers : others.Perm (before ++ after) := (perm.trans List.perm_middle).cons_inv
    have plain : ∀ entry ∈ before ++ after, entry.1 ≠ "kind" ∧ reading.holds entry.2 = true := by
      intro entry mem
      have hMem := permOthers.mem_iff.mpr mem
      obtain ⟨value, hValue, -⟩ := hOthers.exists_of_mem_right hMem
      have hSound := hOthers.isSound heldLevels sound entry hMem
      exact ⟨untagged (entry.1, value) hValue, by rw [Reading.holds, hSound, Bool.or_true]⟩
    have hHeld : (before ++ ("kind", Datum.text name) :: after).filter (fun entry => entry.1 ≠ "kind") =
        before ++ after := by
      have hAfter : (("kind", Datum.text name) :: after).filter (fun entry => entry.1 ≠ "kind") =
          after.filter (fun entry => entry.1 ≠ "kind") := rfl
      rw [List.filter_append, hAfter, ← List.filter_append, List.filter_eq_self]
      exact fun entry mem => decide_eq_true (plain entry mem).1
    rw [ofDatum, findKind_tagged hKind plain, hHeld]
    exact reads _ (.table hOthers permOthers)

theorem reads (member : Member) (written : ∀ type ∈ member.types, type.WrittenIn []) (ordered : member.span.IsOrdered) :
    Reads (ofDatum reading) member.toDatum member := by
  cases member with
  | field f =>
    have hRead := Field.reads .buffered (List.forall_mem_singleton.mp written) ordered
    refine reads_of_tagged rfl ?_ ?_ (hRead.map field) <;> simp [Field.entries, heldLevels]
  | property q =>
    have hRead := Property.reads .buffered (List.forall_mem_singleton.mp written) ordered
    refine reads_of_tagged rfl ?_ ?_ (hRead.map property) <;> simp [Property.entries, heldLevels]
  | event e =>
    have hRead := Event.reads .buffered (List.forall_mem_singleton.mp written) ordered
    refine reads_of_tagged rfl ?_ ?_ (hRead.map event) <;> simp [Event.entries, heldLevels]
  | indexer i =>
    have hRead := Indexer.reads .buffered written ordered
    refine reads_of_tagged rfl ?_ ?_ (hRead.map indexer) <;> simp [Indexer.entries, heldLevels]
  | method m =>
    have hRead := Method.reads .buffered written ordered
    refine reads_of_tagged rfl ?_ ?_ (hRead.map method) <;> simp [Method.entries, heldLevels]
  | constructor c =>
    have hRead := Constructor.reads .buffered written ordered
    refine reads_of_tagged rfl ?_ ?_ (hRead.map constructor) <;> simp [Constructor.entries, heldLevels]

end Member

theorem PrimaryParameter.reads {p : PrimaryParameter} (written : p.type.WrittenIn []) (ordered : p.span.IsOrdered) :
    Reads (PrimaryParameter.ofDatum reading) p.toDatum p := by
  intro datum h
  obtain ⟨entries, rfl, table⟩ := h.isArrangement (by simp)
  have finds := table.finds
  simp only [List.forall_mem_cons] at finds
  obtain ⟨hName, hType, hDefault, hSpan, -⟩ := finds
  simp only [PrimaryParameter.ofDatum, bind_eq_ok_iff, pure_eq_ok_iff]
  refine ⟨_, rfl, ?_⟩
  rw [hName.required (reads_text p.name), hType.required (reads_type written),
    hDefault.optional (reads_optionalText p.defaultValue), hSpan.optional (reads_span reading ordered)]
  exact ⟨(), table.settle rfl (by simp [heldLevels]) rfl (by simp), by simp⟩

theorem Record.reads {record : Record} (written : ∀ type ∈ record.types, type.WrittenIn [])
    (ordered : ∀ span ∈ record.spans, span.IsOrdered) : Reads (Record.ofDatum reading) record.toDatum record := by
  intro datum h
  obtain ⟨hPrimaryTypes, hMemberTypes⟩ := List.forall_mem_append.mp written
  rw [Record.spans, List.forall_mem_cons, List.forall_mem_cons, List.forall_mem_append, List.forall_mem_map,
    List.forall_mem_map] at ordered
  obtain ⟨hOrdered, hListOrdered, hPrimaryOrdered, hMemberOrdered⟩ := ordered
  have hParameterReads : Reads (asList (PrimaryParameter.ofDatum reading))
      (.list (record.parameters.map PrimaryParameter.toDatum)) record.parameters :=
    reads_list fun p mem =>
      PrimaryParameter.reads reading (List.forall_mem_map.mp hPrimaryTypes p mem) (hPrimaryOrdered p mem)
  have hMemberReads : Reads (asList (Member.ofDatum reading)) (.list (record.members.map Member.toDatum))
      record.members :=
    reads_list fun member mem =>
      member.reads (fun type hType => hMemberTypes type (List.mem_flatMap_of_mem mem hType)) (hMemberOrdered member mem)
  obtain ⟨entries, rfl, table⟩ := h.isArrangement (by simp)
  have finds := table.finds
  simp only [List.forall_mem_cons] at finds
  obtain ⟨hName, hTypeParameters, hValueType, hParameters, hMembers, hBase, hArguments, hSpan, hListSpan, -⟩ := finds
  simp only [Record.ofDatum, bind_eq_ok_iff, pure_eq_ok_iff]
  refine ⟨_, rfl, ?_⟩
  rw [hName.required (reads_text record.name), hTypeParameters.optional (reads_texts record.typeParameters),
    hValueType.optional (reads_bool record.isValueType), hParameters.optional hParameterReads,
    hMembers.optional hMemberReads, hBase.optional (reads_optionalText record.base),
    hArguments.optional (reads_texts record.baseArguments), hSpan.optional (reads_span reading hOrdered),
    hListSpan.optional (reads_span reading hListOrdered)]
  exact ⟨(), table.settle rfl (by simp [heldLevels]) rfl (by simp), by simp⟩

theorem CompilationUnit.renamed_table {entries : List (String × Datum)} (h : ∀ entry ∈ entries, entry.1 ≠ "record") :
    renamed (.table entries) = .table entries := by
  have hSame : ∀ entry ∈ entries,
      (if entry.1 = "record" then ("records", entry.2) else entry) = entry := fun entry mem => if_neg (h entry mem)
  rw [renamed, List.map_congr_left hSame, List.map_id']

theorem CompilationUnit.reads {unit : CompilationUnit}
    (written : ∀ record ∈ unit.records, ∀ type ∈ record.types, type.WrittenIn [])
    (ordered : ∀ record ∈ unit.records, ∀ span ∈ record.spans, span.IsOrdered) :
    Reads (CompilationUnit.ofDatum reading) unit.toDatum unit := by
  intro datum h
  have hRecordReads : Reads (asList (Record.ofDatum reading)) (.list (unit.records.map Record.toDatum)) unit.records :=
    reads_list fun record mem => Record.reads reading (written record mem) (ordered record mem)
  obtain ⟨entries, rfl, table⟩ := h.isArrangement (by simp)
  have hRenamed : renamed (.table entries) = .table entries := by
    refine renamed_table fun entry mem => ?_
    obtain ⟨value, hValue, -⟩ := table.origin entry mem
    have hKey : entry.1 = "source" ∨ entry.1 = "records" := by simpa using List.mem_map_of_mem (f := Prod.fst) hValue
    rcases hKey with hKey | hKey <;> simp [hKey]
  have finds := table.finds
  simp only [List.forall_mem_cons] at finds
  obtain ⟨hSource, hRecords, -⟩ := finds
  simp only [CompilationUnit.ofDatum, hRenamed, bind_eq_ok_iff, pure_eq_ok_iff]
  refine ⟨_, rfl, ?_⟩
  rw [hSource.optional (reads_optionalText unit.source), hRecords.optional hRecordReads]
  exact ⟨(), table.settle rfl (by simp [heldLevels]) rfl (by simp), by simp⟩

section

variable {f : Ty → Ty} (h : ∀ type, (f type).canonical = type.canonical)

include h

theorem Member.toDatum_mapTypes (member : Member) : (member.mapTypes f).toDatum = member.toDatum := by
  have hType : ∀ type, (f type).toDatum = type.toDatum := fun type => congrArg Datum.text (h type)
  cases member with
  | field d => simp [mapTypes, toDatum, Field.entries, hType]
  | property d => simp [mapTypes, toDatum, Property.entries, hType]
  | event d => simp [mapTypes, toDatum, Event.entries, hType]
  | indexer d => simp [mapTypes, toDatum, Indexer.entries, Parameter.toDatum, hType]
  | method d =>
    have hReturn : ofOption Ty.toDatum (d.returnType.map f) = ofOption Ty.toDatum d.returnType := by
      cases d.returnType with
      | none => rfl
      | some type => exact hType type
    simp [mapTypes, toDatum, Method.entries, Parameter.toDatum, hType, hReturn]
  | constructor d => simp [mapTypes, toDatum, Constructor.entries, Parameter.toDatum, hType]

theorem Record.toDatum_mapTypes (record : Record) : (record.mapTypes f).toDatum = record.toDatum := by
  simp [mapTypes, toDatum, PrimaryParameter.toDatum, Ty.toDatum, h, Member.toDatum_mapTypes h]

end

theorem CompilationUnit.toDatum_resolve (unit : CompilationUnit) : unit.resolve.toDatum = unit.toDatum := by
  simp [resolve, toDatum, Record.toDatum_mapTypes]

end Decl

/-- A decoded unit is written as if it had not been resolved, and what is written of it, its entries in whatever order
and wherever it is read from, is decoded as the same unit. -/
theorem serialization_lossless {reading : Reading} {datum : Datum} {unit : CompilationUnit}
    (h : CompilationUnit.ofDatum reading datum = .ok unit) :
    unit.resolve.toDatum = unit.toDatum ∧
    ∀ (again : Reading) (written : Datum), unit.toDatum.Rearranged written ∨ unit.resolve.toDatum.Rearranged written →
      CompilationUnit.ofDatum again written = .ok unit ∧
      (CompilationUnit.ofDatum again written).map CompilationUnit.resolve = .ok unit.resolve := by
  have hResolved := CompilationUnit.toDatum_resolve unit
  refine ⟨hResolved, fun again written hWritten => ?_⟩
  rw [hResolved, or_self] at hWritten
  have hTypes := CompilationUnit.writtenIn_of_ofDatum h
  have hSpans := CompilationUnit.isOrdered_of_ofDatum h
  have hRead := CompilationUnit.reads again hTypes hSpans written hWritten
  exact ⟨hRead, congrArg (Except.map CompilationUnit.resolve) hRead⟩

def pairDatum : Datum :=
  .table [("record", .list [.table [
    ("name", .text "Pair"),
    ("type_params", .list [.text "T"]),
    ("is_value_type", .bool true),
    ("parameters", .list [.table [("type", .text " T []"), ("name", .text "Items"), ("span", .list [.int 3, .int 9])]]),
    ("members", .list [
      .table [("name", .text "next"), ("kind", .text "field"), ("type", .text "Pair<T>?")],
      .list [.text "property", .text "Count", .text "int"],
      .table [("kind", .text "event"), ("name", .text "Changed"), ("type", .text "Handler"),
        ("visibility", .text "public")],
      .table [("kind", .text "indexer"), ("type", .text "T"), ("params", .list [.table [
        ("name", .text "at"), ("type", .text "int"), ("mode", .text "in"), ("default_value", .text "0")]])],
      .table [("kind", .text "method"), ("name", .text "First"), ("return_type", .text "T")],
      .table [("kind", .text "constructor"), ("body", .int 7)]])]])]

def pairUnit : CompilationUnit where
  records := [{
    name := "Pair"
    typeParameters := ["T"]
    isValueType := true
    parameters := [{ name := "Items", type := .array (.named "T" [] .reference), span := ⟨3, 9⟩ }]
    members := [
      .field { name := "next", type := .nullable (.named "Pair" [.named "T" [] .reference] .reference) },
      .property { name := "Count", type := .int },
      .event { name := "Changed", type := .named "Handler" [] .reference, visibility := .isPublic },
      .indexer {
        type := .named "T" [] .reference
        parameters := [{ name := "at", type := .int, mode := .byIn, defaultValue := some "0" }] },
      .method { name := "First", returnType := some (.named "T" [] .reference) },
      .constructor { body := 7 }] }]

theorem serialization_lossless_pair :
    CompilationUnit.ofDatum .tree pairDatum = .ok pairUnit ∧ pairUnit.resolve.toDatum = pairUnit.toDatum ∧
    ∀ (again : Reading) (written : Datum),
      pairUnit.toDatum.Rearranged written ∨ pairUnit.resolve.toDatum.Rearranged written →
      CompilationUnit.ofDatum again written = .ok pairUnit ∧
      (CompilationUnit.ofDatum again written).map CompilationUnit.resolve = .ok pairUnit.resolve := by
  have decoded : CompilationUnit.ofDatum .tree pairDatum = .ok pairUnit := rfl
  exact ⟨decoded, serialization_lossless decoded⟩

end RecordSynthesis
