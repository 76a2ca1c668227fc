import RecordSynthesis.Members.Synthesis
import RecordSynthesis.Proofs.CodeTexts
import RecordSynthesis.Proofs.LoweredMembers

/-!
# Members without code

Whether a set has a member is decided twice, where its members are listed and where they are lowered. Both decide alike:
the list is what lowering has code for, out of all the members there could be. Of any other member lowering says which
one it is.
-/

namespace RecordSynthesis

set_option autoImplicit false

open Decl (Record)

namespace SynthesizedMember

def form : SynthesizedMember → SynthesizedMember
  | getter _ => getter 0
  | initAccessor _ => initAccessor 0
  | member => member

def forms : List SynthesizedMember :=
  [primaryConstructor, copyConstructor, getter 0, initAccessor 0, clone, typedEquals, objectEquals, hash, deconstruct,
    equalityOperator, inequalityOperator, textForm]

def heading (member : SynthesizedMember) : List Char :=
  member.description.toList.takeWhile (· ≠ '#')

theorem form_mem_forms (member : SynthesizedMember) : member.form ∈ forms := by
  cases member <;> simp [form, forms]

theorem heading_form (member : SynthesizedMember) : member.form.heading = member.heading := by
  cases member with
  | getter property | initAccessor property =>
    rw [heading, heading, form, description, description, String.toList_append, String.toList_append]
    rfl
  | _ => rfl

theorem form_eq_of_heading {member other : SynthesizedMember} (h : member.heading = other.heading) :
    member.form = other.form := by
  have hForms : ∀ member ∈ forms, ∀ other ∈ forms, member.heading = other.heading → member = other := by
    decide
  rw [← heading_form member, ← heading_form other] at h
  exact hForms _ member.form_mem_forms _ other.form_mem_forms h

theorem description_injective {member other : SynthesizedMember} (h : member.description = other.description) :
    member = other := by
  have hForm : member.form = other.form := form_eq_of_heading (by simp only [heading, h])
  cases member with
  | getter property | initAccessor property =>
    cases other <;> cases hForm
    have hText := congrArg String.toList h
    simp only [description, String.toList_append] at hText
    rw [Code.toList_toString_inj.mp (List.append_cancel_left hText)]
  | _ => cases other <;> first | rfl | cases hForm

end SynthesizedMember

theorem LowerError.message_injective {record : String} {member other : SynthesizedMember}
    (h : LowerError.message ⟨record, member⟩ = LowerError.message ⟨record, other⟩) : member = other := by
  rw [message, message, String.append_right_inj] at h
  exact SynthesizedMember.description_injective h

namespace SynthesizedMember

def accessors (properties : Nat) : List SynthesizedMember :=
  (List.range properties).flatMap fun property => [getter property, initAccessor property]

/-- All members that a record with so many properties can get, in the order in which they are lowered. -/
def candidates (properties : Nat) : List SynthesizedMember :=
  [primaryConstructor, copyConstructor] ++ (accessors properties ++
    [clone, typedEquals, objectEquals, hash, deconstruct, equalityOperator, inequalityOperator, textForm])

theorem mem_accessors {properties : Nat} {member : SynthesizedMember} :
    member ∈ accessors properties ↔
      ∃ property < properties, member = getter property ∨ member = initAccessor property := by
  simp [accessors]

theorem nodup_accessors (properties : Nat) : (accessors properties).Nodup := by
  refine List.nodup_flatMap.mpr ⟨fun property _ => by simp, List.nodup_range.imp ?_⟩
  intro property other hNe member hMember hOther
  simp only [List.mem_cons, List.not_mem_nil, or_false] at hMember hOther
  rcases hMember with rfl | rfl <;> rcases hOther with h | h <;> cases h <;> exact hNe rfl

theorem nodup_candidates (properties : Nat) : (candidates properties).Nodup := by
  rw [candidates, (List.perm_append_comm_assoc ..).nodup_iff]
  refine List.nodup_append'.mpr ⟨nodup_accessors properties, by decide, ?_⟩
  intro member hMember hOther
  obtain ⟨property, -, rfl | rfl⟩ := mem_accessors.mp hMember <;> simp at hOther

end SynthesizedMember

namespace MemberSet

open SynthesizedMember (accessors candidates mem_accessors)

theorem filter_cons_eq_append {α : Type} (p : α → Bool) (first : α) (others : List α) :
    (first :: others).filter p = (if p first then [first] else []) ++ others.filter p := by
  rw [List.filter_cons]
  split <;> rfl

theorem filter_accessors (set : MemberSet) :
    ((accessors set.properties.length).filter fun member => (set.lower? member).isSome) =
      accessors set.properties.length := by
  refine List.filter_eq_self.mpr fun member hMember => ?_
  obtain ⟨property, hProperty, rfl | rfl⟩ := mem_accessors.mp hMember
  · simpa [lower?] using hProperty
  · simpa [lower?] using hProperty

/-- What is listed is what can be lowered. -/
theorem synthesizedMembers_eq_filter (set : MemberSet) :
    set.synthesizedMembers =
      (candidates set.properties.length).filter fun member => (set.lower? member).isSome := by
  have hOperators : (if set.operators then [SynthesizedMember.equalityOperator, .inequalityOperator] else []) =
      (if set.operators then [.equalityOperator] else []) ++ (if set.operators then [.inequalityOperator] else []) := by
    split <;> rfl
  rw [candidates, List.filter_append, List.filter_append, filter_accessors, synthesizedMembers, hOperators, accessors]
  simp [filter_cons_eq_append, lower?]

theorem lower_eq_ok_iff {set : MemberSet} {member : SynthesizedMember} {function : Code.Function} :
    set.lower member = .ok function ↔ set.lower? member = some function := by
  rw [lower]
  split <;> simp [*]

theorem lower_eq_error {set : MemberSet} {member : SynthesizedMember} (missing : member ∉ set.synthesizedMembers) :
    set.lower member = .error ⟨set.recordName, member⟩ := by
  rw [mem_synthesizedMembers_iff, Option.not_isSome_iff_eq_none] at missing
  rw [lower, missing]

end MemberSet

/-- A member can be lowered exactly if its set lists it; for any other one lowering reports the record and this very
member. Nothing is listed twice, and lowering all members gives the code of what is listed, in that order. -/
theorem lower_ok_iff_listed (set : MemberSet) :
    (∀ member, (∃ function, set.lower member = .ok function) ↔ member ∈ set.synthesizedMembers) ∧
    (∀ member, member ∉ set.synthesizedMembers → ∃ error, set.lower member = .error error ∧
      error.record = set.recordName ∧
      ∀ other, LowerError.message ⟨set.recordName, other⟩ = error.message ↔ other = member) ∧
    set.synthesizedMembers.Nodup ∧
    ∃ functions, set.lowerAll = .ok ⟨set.recordName, functions⟩ ∧
      set.synthesizedMembers.map set.lower = functions.map .ok := by
  refine ⟨?_, ?_, ?_, _, set.lowerAll_eq, ?_⟩
  · intro member
    rw [MemberSet.mem_synthesizedMembers_iff, Option.isSome_iff_exists]
    exact exists_congr fun function => MemberSet.lower_eq_ok_iff
  · intro member hMissing
    refine ⟨_, MemberSet.lower_eq_error hMissing, rfl, fun other => ⟨LowerError.message_injective, ?_⟩⟩
    rintro rfl
    rfl
  · rw [set.synthesizedMembers_eq_filter]
    exact (SynthesizedMember.nodup_candidates _).filter _
  · rw [List.map_filterMap, ← List.filterMap_eq_map]
    refine List.filterMap_congr fun member hMember => ?_
    obtain ⟨function, hFunction⟩ := Option.isSome_iff_exists.mp (MemberSet.mem_synthesizedMembers_iff.mp hMember)
    rw [Function.comp_apply, hFunction, MemberSet.lower_eq_ok_iff.mpr hFunction]
    rfl

def ticket : Record where
  name := "Ticket"
  parameters := [{ name := "Seat", type := Ty.int }]
  members := [.ofMethod "ToString" [] (some Ty.string)]

theorem lower_ok_iff_listed_ticket :
    ∃ set, (ticket.synthesize ticket.effectiveMembers none {}).outcome = .ok set ∧
      (∃ function, set.lower (.initAccessor 0) = .ok function) ∧
      (∃ error, set.lower .textForm = .error error ∧ error.message = "record `Ticket` has no synthesized ToString") ∧
      (∃ error, set.lower (.getter 1) = .error error ∧ error.message = "record `Ticket` has no synthesized getter #1") ∧
      set.synthesizedMembers.Nodup ∧
      ∃ functions, set.lowerAll = .ok ⟨"Ticket", functions⟩ ∧ functions.length = 11 := by
  have made : (ticket.synthesize ticket.effectiveMembers none {}).outcome = .ok _ := rfl
  obtain ⟨hLowered, hMissing, hNodup, functions, hAll, hEach⟩ := lower_ok_iff_listed _
  refine ⟨_, made, (hLowered _).mpr (by decide +kernel), ?_, ?_, hNodup, functions, hAll, ?_⟩
  · obtain ⟨error, hError, -, hMessage⟩ := hMissing .textForm (by decide +kernel)
    exact ⟨error, hError, ((hMessage _).mpr rfl).symm⟩
  · obtain ⟨error, hError, -, hMessage⟩ := hMissing (.getter 1) (by decide +kernel)
    exact ⟨error, hError, ((hMessage _).mpr rfl).symm⟩
  · have hLength := congrArg List.length hEach
    rw [List.length_map, List.length_map] at hLength
    exact hLength.symm

end RecordSynthesis
