import RecordSynthesis.Code.Lowering

/-!
# Lowered members

Exactly the synthesized members of a set have code, so lowering all of them never fails. What is proved of all code of a
set is proved member by member, over the cases of `MemberSet.Lowers`.
-/

namespace RecordSynthesis

set_option autoImplicit false

namespace MemberSet

open Code

inductive Lowers (set : MemberSet) : SynthesizedMember → Function → Prop
  | primaryConstructor {primary : PrimaryConstructor} (held : set.primaryConstructor = some primary) :
      Lowers set .primaryConstructor (set.lowerPrimaryConstructor primary)
  | copyConstructor {copy : CopyConstructor} (held : set.copyConstructor = some copy) :
      Lowers set .copyConstructor (set.lowerCopyConstructor copy)
  | getter {position : Nat} {property : SynthesizedProperty} (held : set.properties[position]? = some property) :
      Lowers set (.getter position) (set.lowerGetter property)
  | initAccessor {position : Nat} {property : SynthesizedProperty} (held : set.properties[position]? = some property) :
      Lowers set (.initAccessor position) (set.lowerInitAccessor property)
  | clone : Lowers set .clone set.lowerClone
  | typedEquals (held : set.equality.typedEquals = .synthesized) : Lowers set .typedEquals set.lowerTypedEquals
  | objectEquals (held : set.equality.objectEquals = .synthesized) : Lowers set .objectEquals set.lowerObjectEquals
  | hash (held : set.equality.hash = .synthesized) : Lowers set .hash set.lowerHash
  | deconstruct (held : set.deconstruct = some .synthesized) : Lowers set .deconstruct set.lowerDeconstruct
  | equalityOperator (held : set.operators = true) : Lowers set .equalityOperator set.lowerEqualityOperator
  | inequalityOperator (held : set.operators = true) : Lowers set .inequalityOperator set.lowerInequalityOperator
  | textForm (held : set.textForm = some .synthesized) : Lowers set .textForm set.lowerTextForm

theorem lowers_of_lower? {set : MemberSet} {member : SynthesizedMember} {function : Function}
    (h : set.lower? member = some function) : set.Lowers member function := by
  cases member with
  | primaryConstructor | copyConstructor | getter _ | initAccessor _ =>
    obtain ⟨_, held, rfl⟩ := Option.map_eq_some_iff.mp h
    constructor
    exact held
  | clone =>
    cases h
    exact .clone
  | typedEquals | objectEquals | hash | deconstruct | equalityOperator | inequalityOperator | textForm =>
    obtain ⟨held, ⟨⟩⟩ := Option.ite_none_right_eq_some.mp h
    constructor
    exact held

theorem mem_synthesizedMembers_iff {set : MemberSet} {member : SynthesizedMember} :
    member ∈ set.synthesizedMembers ↔ (set.lower? member).isSome = true := by
  cases member <;> simp [synthesizedMembers, lower?]

theorem lowerAll_eq (set : MemberSet) :
    set.lowerAll = .ok ⟨set.recordName, set.synthesizedMembers.filterMap set.lower?⟩ := by
  have hMembers : ∀ members : List SynthesizedMember, (∀ member ∈ members, (set.lower? member).isSome = true) →
      members.mapM set.lower = .ok (members.filterMap set.lower?) := by
    intro members hSome
    induction members with
    | nil => rfl
    | cons member members ih =>
      obtain ⟨function, hFunction⟩ := Option.isSome_iff_exists.mp (hSome member List.mem_cons_self)
      have hOthers := ih fun other h => hSome other (List.mem_cons_of_mem _ h)
      rw [List.mapM_cons, hOthers, lower, hFunction, List.filterMap_cons_some hFunction]
      rfl
  rw [lowerAll, hMembers _ fun member => mem_synthesizedMembers_iff.mp]
  rfl

end MemberSet

end RecordSynthesis
