import Mathlib.Data.List.Nodup
import RecordSynthesis.Members.Synthesis

/-!
# Claims on primary parameters

Where a claim comes from, and when there is none: a field or property of the record itself must have the parameter's
name and type, while an inherited property need only have its name.
-/

namespace RecordSynthesis

set_option autoImplicit false

open Decl (Record Member)

def Decl.Member.claims (name : String) (type : Ty) : Member → Bool
  | .field f => !f.isStatic && f.name = name && type.same f.type
  | .property q => !q.isStatic && q.name = name && type.same q.type
  | .event _ | .indexer _ | .method _ | .constructor _ => false

/-- The first member of a record that claims a parameter. -/
def Decl.Record.claimant? (record : Record) (name : String) (type : Ty) : Option Member :=
  record.members.find? (Member.claims name type)

/-- The first property that a record, or one that it derives from, shows under a name. -/
def MemberSet.shown? (set : MemberSet) (name : String) : Option MemberRead :=
  set.printable.find? fun read => read.name = name && read.access = .property

/-- How the claim on a parameter of a name and type is settled: the first claimant of the record has it, else the base if
it shows a property of the name, else nobody. -/
inductive Claim.Settled (record : Record) (base : Option MemberSet) (name : String) (type : Ty) : Option Claim → Prop
  | field {f : Decl.Field} (first : record.claimant? name type = some (.field f)) :
      Settled record base name type (some ⟨some f.name, f.type, .field, record.selfType⟩)
  | property {q : Decl.Property} (first : record.claimant? name type = some (.property q)) :
      Settled record base name type
        (some ⟨if q.isAuto then some (backingFieldName q.name) else none, q.type, .property, record.selfType⟩)
  | inherited {above : MemberSet} {read : MemberRead} (unclaimed : record.claimant? name type = none)
      (derived : base = some above) (shown : above.shown? name = some read) :
      Settled record base name type (some ⟨none, read.type, .property, read.owner⟩)
  | nobody (unclaimed : record.claimant? name type = none)
      (hidden : ∀ above, base = some above → above.shown? name = none) : Settled record base name type none

namespace Decl

theorem Member.isSome_claim? (owner : Ty) (name : String) (type : Ty) (member : Member) :
    (member.claim? owner name type).isSome = member.claims name type := by
  cases member with
  | field f =>
    rw [claim?, claims]
    split <;> simp_all
  | property q =>
    rw [claim?, claims]
    split <;> simp_all
  | event _ | indexer _ | method _ | constructor _ => rfl

theorem Member.claims_field {name : String} {type : Ty} {f : Field} :
    (Member.field f).claims name type = true ↔ f.isStatic = false ∧ f.name = name ∧ type.same f.type = true := by
  simp [claims, and_assoc]

theorem Member.claims_property {name : String} {type : Ty} {q : Property} :
    (Member.property q).claims name type = true ↔ q.isStatic = false ∧ q.name = name ∧ type.same q.type = true := by
  simp [claims, and_assoc]

namespace Record

variable {record : Record} {base : Option MemberSet} {name : String} {type : Ty}

theorem claimant?_eq_some {member : Member} (h : record.claimant? name type = some member) :
    member ∈ record.members ∧ member.claims name type = true :=
  ⟨List.mem_of_find?_eq_some h, List.find?_some h⟩

theorem findSome?_claim? (members : List Member) (owner : Ty) :
    members.findSome? (Member.claim? owner name type) =
      (members.find? (Member.claims name type)).bind (Member.claim? owner name type) := by
  induction members with
  | nil => rfl
  | cons member members ih =>
    rw [List.findSome?_cons, List.find?_cons, ← Member.isSome_claim? owner]
    cases hClaim : member.claim? owner name type with
    | none => exact ih
    | some claim => exact hClaim.symm

theorem claim?_settled (base : Option MemberSet) (h : record.parameterType? name = some type) :
    Claim.Settled record base name type (record.claim? base name) := by
  rw [claim?, h]
  dsimp only
  rw [findSome?_claim?]
  cases hFirst : record.members.find? (Member.claims name type) with
  | some member =>
    have hClaims := List.find?_some hFirst
    cases member with
    | field f =>
      have hClaim : (Member.field f).claim? record.selfType name type =
          some ⟨some f.name, f.type, .field, record.selfType⟩ := if_pos hClaims
      rw [Option.bind_some, hClaim]
      exact .field hFirst
    | property q =>
      have hClaim : (Member.property q).claim? record.selfType name type =
          some ⟨if q.isAuto then some (backingFieldName q.name) else none, q.type, .property, record.selfType⟩ :=
        if_pos hClaims
      rw [Option.bind_some, hClaim]
      exact .property hFirst
    | event _ | indexer _ | method _ | constructor _ => cases hClaims
  | none =>
    cases base with
    | none => exact .nobody hFirst (by simp)
    | some above =>
      cases hShown : above.shown? name with
      | none =>
        have hClaim : above.inheritedClaim? name = none := by
          rw [MemberSet.inheritedClaim?, ← MemberSet.shown?, hShown, Option.map_none]
        rw [Option.bind_none, Option.bind_some, hClaim]
        exact .nobody hFirst fun _ derived => Option.some.inj derived ▸ hShown
      | some read =>
        have hClaim : above.inheritedClaim? name = some ⟨none, read.type, .property, read.owner⟩ := by
          rw [MemberSet.inheritedClaim?, ← MemberSet.shown?, hShown, Option.map_some]
        rw [Option.bind_none, Option.bind_some, hClaim]
        exact .inherited hFirst rfl hShown

end Record

end Decl

inductive Claim.Laid (record : Record) (base : Option MemberSet) (name : String) (type : Ty) : Claim → Prop
  | field {f : Decl.Field} (mem : .field f ∈ record.members) (ofInstance : f.isStatic = false) (named : f.name = name)
      (typed : type.same f.type = true) : Laid record base name type ⟨some f.name, f.type, .field, record.selfType⟩
  | property {q : Decl.Property} (mem : .property q ∈ record.members) (ofInstance : q.isStatic = false)
      (named : q.name = name) (typed : type.same q.type = true) :
      Laid record base name type
        ⟨if q.isAuto then some (backingFieldName q.name) else none, q.type, .property, record.selfType⟩
  | inherited {above : MemberSet} {read : MemberRead} (derived : base = some above) (mem : read ∈ above.printable)
      (named : read.name = name) (access : read.access = .property) :
      Laid record base name type ⟨none, read.type, .property, read.owner⟩

namespace Decl.Record

theorem parameterType?_of_mem {record : Record} (nodup : (record.parameters.map (·.name)).Nodup)
    {p : PrimaryParameter} (mem : p ∈ record.parameters) : record.parameterType? p.name = some p.type := by
  rw [parameterType?]
  cases hFound : record.parameters.reverse.find? fun q => q.name = p.name with
  | none =>
    have hNone := List.find?_eq_none.mp hFound p (List.mem_reverse.mpr mem)
    simp at hNone
  | some q =>
    have hMem : q ∈ record.parameters := List.mem_reverse.mp (List.mem_of_find?_eq_some hFound)
    have hName : q.name = p.name := by simpa using List.find?_some hFound
    rw [List.inj_on_of_nodup_map nodup hMem mem hName]
    rfl

theorem claim?_laid {record : Record} {base : Option MemberSet} {name : String} {claim : Claim}
    (h : record.claim? base name = some claim) :
    ∃ type, record.parameterType? name = some type ∧ claim.Laid record base name type := by
  cases hType : record.parameterType? name with
  | none => simp [claim?, hType] at h
  | some type =>
    refine ⟨type, rfl, ?_⟩
    have settled := record.claim?_settled base hType
    rw [h] at settled
    cases settled with
    | field first =>
      obtain ⟨hMember, hClaims⟩ := claimant?_eq_some first
      obtain ⟨ofInstance, named, typed⟩ := Member.claims_field.mp hClaims
      exact .field hMember ofInstance named typed
    | property first =>
      obtain ⟨hMember, hClaims⟩ := claimant?_eq_some first
      obtain ⟨ofInstance, named, typed⟩ := Member.claims_property.mp hClaims
      exact .property hMember ofInstance named typed
    | inherited unclaimed derived shown =>
      have hFound := List.find?_some shown
      simp only [Bool.and_eq_true, decide_eq_true_eq] at hFound
      exact .inherited derived (List.mem_of_find?_eq_some shown) hFound.1 hFound.2

/-- A parameter is unclaimed exactly if nothing lays a claim on it. -/
theorem claim?_eq_none_iff {record : Record} {base : Option MemberSet}
    (nodup : (record.parameters.map (·.name)).Nodup) {p : PrimaryParameter} (mem : p ∈ record.parameters) :
    record.claim? base p.name = none ↔ ∀ claim : Claim, ¬claim.Laid record base p.name p.type := by
  have hType := parameterType?_of_mem nodup mem
  constructor
  · intro h claim laid
    simp only [claim?, hType] at h
    cases hOwn : record.members.findSome? (Member.claim? record.selfType p.name p.type) with
    | some own => simp [hOwn] at h
    | none =>
      have hNone := List.findSome?_eq_none_iff.mp hOwn
      cases laid with
      | field hMember ofInstance named typed =>
        simpa [Member.claim?, ofInstance, named, typed] using hNone _ hMember
      | property hMember ofInstance named typed =>
        simpa [Member.claim?, ofInstance, named, typed] using hNone _ hMember
      | inherited derived hMember named access =>
        simp only [hOwn, derived, Option.bind_some, MemberSet.inheritedClaim?, Option.map_eq_none_iff] at h
        simpa [named, access] using List.find?_eq_none.mp h _ hMember
  · intro h
    cases hClaim : record.claim? base p.name with
    | none => rfl
    | some claim =>
      obtain ⟨type, hFound, laid⟩ := claim?_laid hClaim
      rw [hType] at hFound
      cases hFound
      exact absurd laid (h claim)

end Decl.Record

theorem Decl.Member.toEffective?_autoProperty {q : Decl.Property} (ofInstance : q.isStatic = false)
    (auto : q.isAuto = true) :
    ∃ m, (Member.property q).toEffective? = some m ∧ m.storage = backingFieldName q.name ∧ m.type = q.type := by
  rw [toEffective?, if_neg (by simp [ofInstance, auto])]
  exact ⟨_, rfl, rfl, rfl⟩

theorem Decl.Member.toEffective?_field {f : Decl.Field} (ofInstance : f.isStatic = false) :
    ∃ m, (Member.field f).toEffective? = some m ∧ m.storage = f.name ∧ m.type = f.type := by
  rw [toEffective?, if_neg (by simp [ofInstance])]
  exact ⟨_, rfl, rfl, rfl⟩

namespace Decl.Record

def stateSources (record : Record) (base : Option MemberSet) : List EffectiveMember :=
  (record.unclaimed base).map PrimaryParameter.toEffective ++ record.members.filterMap Member.toEffective?

theorem origin_ne_of_toEffective? {member : Member} {m : EffectiveMember} (h : member.toEffective? = some m) :
    m.origin ≠ .primaryParameter := by
  cases member with
  | field f | property f | event f =>
    simp only [Member.toEffective?] at h
    split at h
    · cases h
    · cases h
      simp
  | indexer _ | method _ | constructor _ => cases h

/-- What does not look at the numbers sees the effective members as they are declared. -/
theorem filterMap_effectiveMembers {α : Type} (record : Record) (view : EffectiveMember → Option α)
    (blind : ∀ m order, view { m with order } = view m) :
    record.effectiveMembers.filterMap view =
      (record.parameters.map PrimaryParameter.toEffective ++ record.members.filterMap Member.toEffective?).filterMap
        view := by
  generalize hDeclared : record.parameters.map PrimaryParameter.toEffective ++
    record.members.filterMap Member.toEffective? = declared
  rw [effectiveMembers, hDeclared, List.mapIdx_eq_zipIdx_map, List.filterMap_map]
  calc
    declared.zipIdx.filterMap _ = declared.zipIdx.filterMap (view ∘ Prod.fst) :=
      List.filterMap_congr fun entry _ => blind entry.1 entry.2
    _ = (declared.zipIdx.map Prod.fst).filterMap view := (List.filterMap_map ..).symm
    _ = declared.filterMap view := by rw [List.zipIdx_map_fst]

theorem filterMap_ownState {α : Type} (record : Record) (base : Option MemberSet) (view : StateMember → Option α)
    (blind : ∀ m order equality, view ⟨{ m with order }, equality⟩ = view ⟨m, equality⟩) :
    (record.ownState base record.effectiveMembers).filterMap view =
      (record.stateSources base).filterMap fun m => view ⟨m, EqualityStrategy.ofType m.type⟩ := by
  rw [ownState, List.filterMap_map, List.filterMap_filter, filterMap_effectiveMembers, stateSources,
    List.filterMap_append, List.filterMap_append, unclaimed]
  · congr 1
    · rw [List.filterMap_map, List.filterMap_map, List.filterMap_filter]
      apply List.filterMap_congr
      intro p _
      cases hClaim : record.claim? base p.name <;> simp [PrimaryParameter.toEffective, hClaim]
    · apply List.filterMap_congr
      intro m hm
      obtain ⟨member, _, hMember⟩ := List.mem_filterMap.mp hm
      simp [origin_ne_of_toEffective? hMember]
  · intro m order
    simp [blind]

end Decl.Record

end RecordSynthesis
