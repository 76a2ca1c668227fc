import RecordSynthesis.Proofs.DecodedTypes

/-!
# Spans of decoded declarations

A span is refused where it ends before it starts, and a span that is left out is empty, so every span of a decoded unit
is in order.
-/

namespace RecordSynthesis

set_option autoImplicit false

open Decl

def Span.IsOrdered (span : Span) : Prop :=
  span.start ≤ span.stop

theorem Span.isOrdered_default : IsOrdered {} := by
  rw [IsOrdered]
  decide

theorem Datum.isOrdered_of_asSpan {reading : Reading} {datum : Datum} {span : Span}
    (h : datum.asSpan reading = .ok span) : span.IsOrdered := by
  rw [asSpan.eq_def] at h
  split at h
  · cases h
    exact Span.isOrdered_default
  · cases h
  · obtain ⟨_, -, h⟩ := bind_eq_ok_iff.mp h
    cases h
  · obtain ⟨first, -, h⟩ := bind_eq_ok_iff.mp h
    obtain ⟨last, -, h⟩ := bind_eq_ok_iff.mp h
    split at h
    · cases h
    · split at h
      · cases h
        assumption
      · cases h
  · cases h

theorem Opened.isOrdered_of_optional {opened : Opened} {field : String} {reading : Reading} {span : Span}
    (h : opened.optional field {} (Datum.asSpan reading) = .ok span) : span.IsOrdered :=
  of_optional (fun _ _ => Datum.isOrdered_of_asSpan) Span.isOrdered_default h

section

variable {reading : Reading} {datum : Datum}

theorem Decl.Field.isOrdered_of_ofDatum {f : Field} (h : Field.ofDatum reading datum = .ok f) : f.span.IsOrdered := by
  simp only [Field.ofDatum, bind_eq_ok_iff, pure_eq_ok_iff] at h
  obtain ⟨opened, -, _, -, _, -, _, -, _, -, _, -, span, hSpan, rfl⟩ := h
  exact Opened.isOrdered_of_optional hSpan

theorem Decl.Property.isOrdered_of_ofDatum {q : Property} (h : Property.ofDatum reading datum = .ok q) :
    q.span.IsOrdered := by
  simp only [Property.ofDatum, bind_eq_ok_iff, pure_eq_ok_iff] at h
  obtain ⟨opened, -, _, -, _, -, _, -, _, -, _, -, _, -, _, -, _, -, span, hSpan, rfl⟩ := h
  exact Opened.isOrdered_of_optional hSpan

theorem Decl.Event.isOrdered_of_ofDatum {e : Event} (h : Event.ofDatum reading datum = .ok e) : e.span.IsOrdered := by
  simp only [Event.ofDatum, bind_eq_ok_iff, pure_eq_ok_iff] at h
  obtain ⟨opened, -, _, -, _, -, _, -, _, -, _, -, _, -, span, hSpan, rfl⟩ := h
  exact Opened.isOrdered_of_optional hSpan

theorem Decl.Indexer.isOrdered_of_ofDatum {i : Indexer} (h : Indexer.ofDatum reading datum = .ok i) :
    i.span.IsOrdered := by
  simp only [Indexer.ofDatum, bind_eq_ok_iff, pure_eq_ok_iff] at h
  obtain ⟨opened, -, _, -, _, -, _, -, span, hSpan, rfl⟩ := h
  exact Opened.isOrdered_of_optional hSpan

theorem Decl.Method.isOrdered_of_ofDatum {m : Method} (h : Method.ofDatum reading datum = .ok m) :
    m.span.IsOrdered := by
  simp only [Method.ofDatum, bind_eq_ok_iff, pure_eq_ok_iff] at h
  obtain ⟨opened, -, _, -, _, -, _, -, _, -, _, -, _, -, span, hSpan, rfl⟩ := h
  exact Opened.isOrdered_of_optional hSpan

theorem Decl.Constructor.isOrdered_of_ofDatum {c : Constructor} (h : Constructor.ofDatum reading datum = .ok c) :
    c.span.IsOrdered := by
  simp only [Constructor.ofDatum, bind_eq_ok_iff, pure_eq_ok_iff] at h
  obtain ⟨opened, -, _, -, _, -, _, -, _, -, span, hSpan, rfl⟩ := h
  exact Opened.isOrdered_of_optional hSpan

end

theorem Decl.Member.isOrdered_of_ofDatum {reading : Reading} {datum : Datum} {member : Member}
    (h : Member.ofDatum reading datum = .ok member) : member.span.IsOrdered :=
  of_ofDatum (P := fun member => member.span.IsOrdered)
    (fun _ _ => Field.isOrdered_of_ofDatum) (fun _ _ => Property.isOrdered_of_ofDatum)
    (fun _ _ => Event.isOrdered_of_ofDatum) (fun _ _ => Indexer.isOrdered_of_ofDatum)
    (fun _ _ => Method.isOrdered_of_ofDatum) (fun _ _ => Constructor.isOrdered_of_ofDatum) h

def Decl.Record.spans (record : Record) : List Span :=
  record.span :: record.parameterListSpan :: (record.parameters.map (·.span) ++ record.members.map Member.span)

section

variable {reading : Reading} {datum : Datum}

theorem Decl.PrimaryParameter.isOrdered_of_ofDatum {p : PrimaryParameter}
    (h : PrimaryParameter.ofDatum reading datum = .ok p) : p.span.IsOrdered := by
  simp only [PrimaryParameter.ofDatum, bind_eq_ok_iff, pure_eq_ok_iff] at h
  obtain ⟨opened, -, _, -, _, -, _, -, _, -, span, hSpan, rfl⟩ := h
  exact Opened.isOrdered_of_optional hSpan

theorem Decl.Record.isOrdered_of_ofDatum {record : Record} (h : Record.ofDatum reading datum = .ok record) :
    ∀ span ∈ record.spans, span.IsOrdered := by
  simp only [Record.ofDatum, bind_eq_ok_iff, pure_eq_ok_iff] at h
  obtain ⟨opened, -, _, -, _, -, _, -, _, -, parameters, hParameters, members, hMembers, _, -, _, -, span, hSpan,
    listSpan, hListSpan, rfl⟩ := h
  have hPrimary : ∀ p ∈ parameters, p.span.IsOrdered :=
    Opened.of_optional (fun _ _ => Datum.forall_of_asList fun _ _ => PrimaryParameter.isOrdered_of_ofDatum) (by simp)
      hParameters
  have hDeclared : ∀ member ∈ members, member.span.IsOrdered :=
    Opened.of_optional (fun _ _ => Datum.forall_of_asList fun _ _ => Member.isOrdered_of_ofDatum) (by simp) hMembers
  rw [spans, List.forall_mem_cons, List.forall_mem_cons, List.forall_mem_append]
  exact ⟨Opened.isOrdered_of_optional hSpan, Opened.isOrdered_of_optional hListSpan,
    List.forall_mem_map.mpr hPrimary, List.forall_mem_map.mpr hDeclared⟩

theorem Decl.CompilationUnit.isOrdered_of_ofDatum {unit : CompilationUnit}
    (h : CompilationUnit.ofDatum reading datum = .ok unit) :
    ∀ record ∈ unit.records, ∀ span ∈ record.spans, span.IsOrdered := by
  simp only [CompilationUnit.ofDatum, bind_eq_ok_iff, pure_eq_ok_iff] at h
  obtain ⟨opened, -, _, -, source, -, records, hRecords, rfl⟩ := h
  exact Opened.of_optional (fun _ _ => Datum.forall_of_asList fun _ _ => Record.isOrdered_of_ofDatum) (by simp) hRecords

end

end RecordSynthesis
