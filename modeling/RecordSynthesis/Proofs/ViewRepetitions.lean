import RecordSynthesis.Proofs.ConstructorCollisions
import RecordSynthesis.Proofs.Storage

/-!
# Repetitions in the member view

Two entries of a view are told apart by what they are, their names and the types that they take. A synthesized member
gives way to a declared one that takes its place, so without a diagnostic the two are not found side by side. They are
where the declared member is not of the kind that takes a place.
-/

namespace RecordSynthesis

set_option autoImplicit false

open Decl (Record Member)

/-- What tells the entries of a view apart. -/
def MemberSymbol.key (symbol : MemberSymbol) : MemberKind × String × Signature :=
  (symbol.kind, symbol.name, Signature.ofTypes symbol.types)

def Decl.Record.declaredKeys (record : Record) : List (MemberKind × String × Signature) :=
  record.members.map fun member => (MemberSymbol.ofMember record.name 0 member).key

def Decl.Member.standsAside : Member → Bool
  | .property q => q.isStatic
  | .method m => m.isStatic || (m.name = "Deconstruct" && m.parameters.any fun p => p.mode ≠ .byOut)
  | _ => false

inductive Decl.Record.Beside (record : Record) (symbol : MemberSymbol) : Member → Prop
  | aside {member : Member} (aside : member.standsAside = true) : Beside record symbol member
  /-- The name is kept for the copying method or for the field of a parameter. -/
  | reserved {member : Member}
      (reserved : member.name = cloneMethodName ∨ ∃ p ∈ record.parameters, member.name = backingFieldName p.name) :
      Beside record symbol member
  /-- A property under the name of a parameter and of another type does not claim the parameter. -/
  | mistyped {q : Decl.Property} {p : Decl.PrimaryParameter} (mem : p ∈ record.parameters) (named : q.name = p.name)
      (mistyped : p.type.same q.type = false) : Beside record symbol (.property q)
  /-- The synthesized `Deconstruct` hands out a parameter under the type that the base has for it. -/
  | rebased {m : Decl.Method} (named : m.name = "Deconstruct")
      (rebased : Signature.ofTypes symbol.types ≠ Signature.ofTypes record.parameterTypes) :
      Beside record symbol (.method m)

/-- Two entries of a view, in order, that may share their key. -/
inductive Decl.Record.Repeats (record : Record) : MemberSymbol → MemberSymbol → Prop
  | declared {symbol : MemberSymbol} {position : Nat} {member : Member} (synthesized : symbol.origin = .synthesized)
      (declared : record.members[position]? = some member) (beside : record.Beside symbol member) :
      Repeats record symbol (.ofMember record.name position member)
  /-- The record has the name of `object`, so its two equality methods take the same. -/
  | equality {symbol other : MemberSymbol} (synthesized : symbol.origin = .synthesized)
      (otherSynthesized : other.origin = .synthesized) (named : symbol.name = "Equals")
      (spelled : record.selfType.canonical = Ty.object.canonical) : Repeats record symbol other

/-- A method with the signature of a synthesized one that is there nevertheless stands aside. -/
theorem Decl.Record.standsAside_of_slot {record : Record} {m : Decl.Method} (mem : .method m ∈ record.members)
    (h : record.slot m.name (Signature.ofTypes m.types) = .synthesized) : (Member.method m).standsAside = true := by
  have hOther := implements_eq_false_of_slot h mem
  by_cases hStatic : m.isStatic = true
  · simp [Member.standsAside, hStatic]
  · simp only [Member.implements, hStatic, decide_true, Bool.not_false, Bool.true_and, Bool.or_eq_false_iff,
      decide_eq_false_iff_not, not_not, List.all_eq_false] at hOther
    obtain ⟨hName, p, hp, hMode⟩ := hOther
    simp only [Member.standsAside, hStatic, hName, Bool.false_or, decide_true, Bool.true_and, List.any_eq_true]
    exact ⟨p, hp, by simpa using hMode⟩

theorem MemberSet.map_key_userSymbols (set : MemberSet) :
    set.userSymbols.map MemberSymbol.key =
      set.userMembers.map fun member => (MemberSymbol.ofMember set.recordName 0 member).key := by
  rw [← List.filterMap_eq_map, ← List.filterMap_eq_map]
  refine set.filterMap_userSymbols _ fun position member => ?_
  cases member <;> rfl

section

variable {name : String} {position : Nat} {member : Member} {symbol : MemberSymbol}
  (h : symbol.key = (MemberSymbol.ofMember name position member).key)

include h

theorem Decl.Member.eq_property_of_key (kind : symbol.kind = .property) :
    ∃ q, member = .property q ∧ q.name = symbol.name := by
  simp only [MemberSymbol.key, kind, Prod.mk.injEq] at h
  cases member with
  | property q => exact ⟨q, rfl, h.2.1.symm⟩
  | field _ | event _ | indexer _ | method _ | constructor _ => cases h.1

theorem Decl.Member.name_eq_of_key_field (kind : symbol.kind = .field) : member.name = symbol.name := by
  simp only [MemberSymbol.key, kind, Prod.mk.injEq] at h
  cases member with
  | field f => exact h.2.1.symm
  | property _ | event _ | indexer _ | method _ | constructor _ => cases h.1

theorem Decl.Member.eq_method_of_key (kind : symbol.kind = .method) :
    ∃ m, member = .method m ∧ m.name = symbol.name ∧ Signature.ofTypes m.types = Signature.ofTypes symbol.types := by
  simp only [MemberSymbol.key, kind, Prod.mk.injEq] at h
  cases member with
  | method m => exact ⟨m, rfl, h.2.1.symm, h.2.2.symm⟩
  | field _ | property _ | event _ | indexer _ | constructor _ => cases h.1

theorem Decl.Member.ne_operator_of_key : symbol.kind ≠ .operator := by
  intro kind
  simp only [MemberSymbol.key, kind, Prod.mk.injEq] at h
  cases member <;> cases h.1

end

section

variable (record : Record) (effective : List EffectiveMember) (base : Option MemberSet) (copy : Option CopyConstructor)
  (options : SynthesisOptions)

theorem Decl.Record.beside_of_unclaimed {record : Record} {base : Option MemberSet}
    (parameters : (record.parameters.map (·.name)).Nodup) {symbol : MemberSymbol} {p : Decl.PrimaryParameter}
    (unclaimed : p ∈ record.unclaimed base) {q : Decl.Property} (mem : .property q ∈ record.members)
    (named : q.name = p.name) : record.Beside symbol (.property q) := by
  obtain ⟨hMem, hNone⟩ := mem_unclaimed.mp unclaimed
  have hUnlaid := (claim?_eq_none_iff parameters hMem).mp hNone
  by_cases hStatic : q.isStatic = true
  · exact .aside hStatic
  · refine .mistyped hMem named ?_
    by_contra hTyped
    exact hUnlaid _ (.property mem (by simpa using hStatic) named (by simpa using hTyped))

theorem Decl.Record.repeats_of_slot {record : Record} {symbol : MemberSymbol} {position : Nat} {member : Member}
    {name : String} {signature : Signature} (slot : record.slot name signature = .synthesized)
    (declared : record.members[position]? = some member) (synthesized : symbol.origin = .synthesized)
    (kind : symbol.kind = .method) (named : symbol.name = name) (typed : Signature.ofTypes symbol.types = signature)
    (h : symbol.key = (MemberSymbol.ofMember record.name position member).key) :
    record.Repeats symbol (.ofMember record.name position member) := by
  obtain ⟨m, rfl, hName, hTypes⟩ := Member.eq_method_of_key h kind
  refine .declared synthesized declared (.aside ?_)
  refine standsAside_of_slot (List.mem_of_getElem? declared) ?_
  rw [hName, hTypes, typed, named, slot]

theorem Decl.Record.repeats_of_synthesizedMethod {symbol : MemberSymbol} {position : Nat} {member : Member}
    (mem : symbol ∈ (record.memberSet effective base copy options).synthesizedMethods)
    (declared : record.members[position]? = some member)
    (h : symbol.key = (MemberSymbol.ofMember record.name position member).key) :
    record.Repeats symbol (.ofMember record.name position member) := by
  simp only [MemberSet.synthesizedMethods, List.mem_append, List.mem_ite_nil_right, List.mem_singleton] at mem
  rcases mem with ((((rfl | ⟨hSlot, rfl⟩) | ⟨hSlot, rfl⟩) | ⟨hSlot, rfl⟩) | ⟨hSlot, rfl⟩) | ⟨hSlot, rfl⟩
  · obtain ⟨m, rfl, hName, -⟩ := Member.eq_method_of_key h rfl
    exact .declared rfl declared (.reserved (.inl hName))
  · exact repeats_of_slot hSlot declared rfl rfl rfl rfl h
  · exact repeats_of_slot hSlot declared rfl rfl rfl rfl h
  · exact repeats_of_slot hSlot declared rfl rfl rfl rfl h
  · obtain ⟨-, hSlot⟩ := Option.ite_none_right_eq_some.mp hSlot
    by_cases hSame : Signature.ofTypes ((record.memberSet effective base copy options).positional.map (·.type)) =
        Signature.ofTypes record.parameterTypes
    · exact repeats_of_slot (Option.some.inj hSlot) declared rfl rfl rfl hSame h
    · obtain ⟨m, rfl, hName, -⟩ := Member.eq_method_of_key h rfl
      exact .declared rfl declared (.rebased hName hSame)
  · obtain ⟨-, hSlot⟩ := Option.ite_none_right_eq_some.mp hSlot
    exact repeats_of_slot (Option.some.inj hSlot) declared rfl rfl rfl rfl h

/-- A synthesized entry, constructors apart, shares its key only with a declared one that may stand beside it. -/
theorem Decl.Record.repeats_of_synthesized (parameters : (record.parameters.map (·.name)).Nodup) {kind : MemberKind}
    (other : kind ≠ .constructor) {symbol : MemberSymbol} {position : Nat} {member : Member}
    (mem : symbol ∈ (record.memberSet effective base copy options).synthesizedOf kind)
    (declared : record.members[position]? = some member)
    (h : symbol.key = (MemberSymbol.ofMember record.name position member).key) :
    record.Repeats symbol (.ofMember record.name position member) := by
  have hMember := List.mem_of_getElem? declared
  have hKind := (MemberSet.of_mem_synthesizedOf mem).1
  cases kind with
  | constructor => exact absurd rfl other
  | property =>
    obtain ⟨property, hProperty, rfl⟩ := List.mem_map.mp mem
    obtain ⟨p, hUnclaimed, rfl⟩ := List.mem_map.mp hProperty
    obtain ⟨q, rfl, hName⟩ := Member.eq_property_of_key h rfl
    exact .declared rfl declared (beside_of_unclaimed parameters hUnclaimed hMember hName)
  | field =>
    obtain ⟨field, hField, rfl⟩ := List.mem_map.mp mem
    obtain ⟨p, hUnclaimed, rfl⟩ := List.mem_map.mp hField
    have hName := Member.name_eq_of_key_field h rfl
    exact .declared rfl declared (.reserved (.inr ⟨p, (mem_unclaimed.mp hUnclaimed).1, hName⟩))
  | method => exact record.repeats_of_synthesizedMethod effective base copy options mem declared h
  | operator => exact absurd hKind (Member.ne_operator_of_key h)
  | event | indexer => cases mem

theorem Decl.Record.synthesizedMethods_pairwise :
    (record.memberSet effective base copy options).synthesizedMethods.Pairwise fun a b =>
      a.key = b.key → record.Repeats a b := by
  let identify (symbol : MemberSymbol) : String × Signature := (symbol.name, Signature.ofTypes symbol.types)
  let clash (m n : String × Signature) : Prop :=
    m = n → m.1 = "Equals" ∧ record.selfType.canonical = Ty.object.canonical
  have hSublist : ∀ (c : Prop) [Decidable c] (symbol : MemberSymbol),
      (if c then [symbol] else []).Sublist [symbol] := by
    intro c _ symbol
    split
    · exact List.Sublist.refl _
    · exact List.nil_sublist _
  have hClash : (record.memberSet effective base copy options).synthesizedMethods.Pairwise fun a b =>
      clash (identify a) (identify b) := by
    refine List.Pairwise.sublist (((((List.Sublist.refl _).append (hSublist _ _)).append (hSublist _ _)).append
      (hSublist _ _)).append (hSublist _ _) |>.append (hSublist _ _)) (List.pairwise_map.mp ?_)
    simp [identify, clash, cloneMethodName, memberSet, Signature.ofTypes]
  have hOrigin : ∀ symbol ∈ (record.memberSet effective base copy options).synthesizedMethods,
      symbol.origin = .synthesized := by
    intro symbol hMem
    have hMethod : symbol ∈ (record.memberSet effective base copy options).synthesizedOf .method := hMem
    exact (MemberSet.of_mem_synthesizedOf hMethod).2
  refine hClash.imp_of_mem fun ha hb hDistinct h => ?_
  obtain ⟨hName, hSpelled⟩ := hDistinct (congrArg Prod.snd h)
  exact .equality (hOrigin _ ha) (hOrigin _ hb) hName hSpelled

/-- Synthesized entries, constructors apart, differ from each other, unless the record is spelled `object`. -/
theorem Decl.Record.synthesized_pairwise (parameters : (record.parameters.map (·.name)).Nodup) {kind : MemberKind}
    (other : kind ≠ .constructor) :
    ((record.memberSet effective base copy options).synthesizedOf kind).Pairwise fun a b =>
      a.key = b.key → record.Repeats a b := by
  have hNames : (record.unclaimed base).Pairwise fun p q => p.name ≠ q.name :=
    List.pairwise_map.mp (parameters.sublist (List.filter_sublist.map _))
  cases kind with
  | constructor => exact absurd rfl other
  | property =>
    refine List.pairwise_map.mpr (List.pairwise_map.mpr (hNames.imp fun hDistinct h => ?_))
    exact absurd (congrArg (·.2.1) h) hDistinct
  | field =>
    refine List.pairwise_map.mpr (List.pairwise_map.mpr (hNames.imp fun hDistinct h => ?_))
    exact absurd (backingFieldName_injective (congrArg (·.2.1) h)) hDistinct
  | method => exact record.synthesizedMethods_pairwise effective base copy options
  | operator =>
    rw [MemberSet.synthesizedOf, MemberSet.synthesizedOperators]
    split
    · refine List.pairwise_pair.mpr fun h => ?_
      simp [MemberSymbol.key] at h
    · exact .nil
  | event | indexer => exact .nil

end

theorem MemberSet.pairwise_members {set : MemberSet} {related : MemberSymbol → MemberSymbol → Prop}
    (groups : ∀ kind, (set.group kind).Pairwise fun a b => a.key = b.key → related a b) :
    set.members.Pairwise fun a b => a.key = b.key → related a b := by
  refine List.pairwise_flatMap.mpr ⟨fun kind _ => groups kind, ?_⟩
  have hKinds : MemberKind.all.Pairwise (· ≠ ·) := by decide
  refine hKinds.imp fun hDistinct a ha b hb h => ?_
  have hSame := congrArg Prod.fst h
  rw [MemberSymbol.key, MemberSymbol.key, kind_of_mem_group ha, kind_of_mem_group hb] at hSame
  exact absurd hSame hDistinct

theorem Decl.Record.declaredSignatures_nodup {record : Record} (distinct : record.declaredKeys.Nodup) :
    record.declaredSignatures.Nodup := by
  rw [declaredKeys, List.Nodup, List.pairwise_map] at distinct
  rw [declaredSignatures, declaredConstructors, List.Nodup, List.pairwise_map, List.pairwise_filterMap]
  refine distinct.imp fun {member other} hDistinct c hc d hd hSame => hDistinct ?_
  cases member <;> cases hc
  cases other <;> cases hd
  simp [MemberSymbol.key, MemberSymbol.ofMember, hSame]

/-- If nothing is reported and the declared members differ from each other, so do the entries of the view, except that a
synthesized entry may stand beside a declared member that does not take its place. -/
theorem view_repeats_only_beside (record : Record) (effective : List EffectiveMember) (given : Option MemberSet)
    (options : SynthesisOptions) (set : MemberSet)
    (made : (record.synthesize effective given options).outcome = .ok set)
    (quiet : (record.synthesize effective given options).diagnostics = [])
    (distinct : record.declaredKeys.Nodup) (parameters : (record.parameters.map (·.name)).Nodup) :
    set.members.Pairwise fun a b => a.key = b.key → record.Repeats a b := by
  rw [Record.diagnostics_of_synthesize made] at quiet
  obtain ⟨base, copy, -, hCopy, rfl⟩ := Record.synthesize_eq_ok_iff.mp made
  have hUser : (record.memberSet effective base copy options).userSymbols.Pairwise fun a b => a.key ≠ b.key := by
    rw [← List.pairwise_map, MemberSet.map_key_userSymbols]
    exact distinct
  refine MemberSet.pairwise_members fun kind => ?_
  by_cases hKind : kind = .constructor
  · subst hKind
    have hNodup := (Record.collisions_eq_nil_iff_nodup hCopy (Record.declaredSignatures_nodup distinct)).mp quiet
    rw [← record.constructor_signatures effective base copy options, MemberSet.constructors_eq_group] at hNodup
    exact (List.pairwise_map.mp hNodup).imp fun hDistinct h => absurd (congrArg (·.2.2) h) hDistinct
  · refine List.pairwise_append.mpr ⟨record.synthesized_pairwise effective base copy options parameters hKind, ?_, ?_⟩
    · exact (hUser.filter _).imp fun hDistinct h => absurd h hDistinct
    · intro a ha b hb h
      obtain ⟨position, member, hDeclared, rfl⟩ := MemberSet.mem_userSymbols (List.mem_of_mem_filter hb)
      exact record.repeats_of_synthesized effective base copy options parameters hKind ha hDeclared h

def takingIn : Record where
  name := "Point"
  parameters := [{ name := "X", type := Ty.int }]
  members := [.ofMethod "Deconstruct" [{ name := "a", type := Ty.int }] none]

def hashedByType : Record where
  name := "Tally"
  members := [(Member.ofMethod "GetHashCode" [] (some Ty.int)).toStatic]

def unspeakable : Record where
  name := "Twin"
  members := [.ofMethod cloneMethodName [] none]

def namedObject : Record where
  name := "object"

def Decl.Record.RepeatsUnreported (record : Record) : Prop :=
  ∃ set, (record.synthesize record.effectiveMembers none {}).outcome = .ok set ∧
    (record.synthesize record.effectiveMembers none {}).diagnostics.isEmpty = true ∧
    record.declaredKeys.Nodup ∧ (record.parameters.map (·.name)).Nodup ∧
    ¬(set.members.map MemberSymbol.key).Nodup

/-- A `Deconstruct` that takes a value in, a static method, a reserved name and the name of `object` each bring a
repetition into a view. -/
theorem not_view_nodup :
    takingIn.RepeatsUnreported ∧ hashedByType.RepeatsUnreported ∧ unspeakable.RepeatsUnreported ∧
      namedObject.RepeatsUnreported :=
  ⟨⟨_, rfl, by decide, by decide, by decide, by decide⟩, ⟨_, rfl, by decide, by decide, by decide, by decide⟩,
    ⟨_, rfl, by decide, by decide, by decide, by decide⟩, ⟨_, rfl, by decide, by decide, by decide, by decide⟩⟩

theorem view_repeats_only_beside_takingIn :
    ∃ set, (takingIn.synthesize takingIn.effectiveMembers none {}).outcome = .ok set ∧
      (takingIn.synthesize takingIn.effectiveMembers none {}).diagnostics = [] ∧
      takingIn.declaredKeys.Nodup ∧ (takingIn.parameters.map (·.name)).Nodup ∧
      set.members.Pairwise fun a b => a.key = b.key → takingIn.Repeats a b := by
  have made : (takingIn.synthesize takingIn.effectiveMembers none {}).outcome = .ok _ := rfl
  have distinct : takingIn.declaredKeys.Nodup := by decide
  have parameters : (takingIn.parameters.map (·.name)).Nodup := by decide
  exact ⟨_, made, rfl, distinct, parameters, view_repeats_only_beside takingIn _ none {} _ made rfl distinct parameters⟩

end RecordSynthesis
