import RecordSynthesis.Decl.Record

/-!
# Identity of types

Types are the same if they are equal up to the kinds of their named types. Neither kinds nor the binding of names change
the text of a type. The types that two records declare are one type only if the records share their name.
-/

namespace RecordSynthesis

set_option autoImplicit false

namespace Ty

def unkinded (type : Ty) : Ty :=
  type.resolveKinds fun _ => some .reference

mutual

theorem same_iff : ∀ type other : Ty, type.same other = true ↔ type.unkinded = other.unkinded
  | .primitive _, other => by cases other <;> simp [same, unkinded, resolveKinds]
  | .named _ arguments _, other => by
    cases other with
    | named _ others _ => simp [same, unkinded, resolveKinds, sameAll_iff arguments others]
    | primitive | parameter | array | nullable => simp [same, unkinded, resolveKinds]
  | .parameter _, other => by cases other <;> simp [same, unkinded, resolveKinds]
  | .array element, other => by
    cases other with
    | array otherElement => simpa [same, unkinded, resolveKinds] using same_iff element otherElement
    | primitive | named | parameter | nullable => simp [same, unkinded, resolveKinds]
  | .nullable underlying, other => by
    cases other with
    | nullable otherUnderlying => simpa [same, unkinded, resolveKinds] using same_iff underlying otherUnderlying
    | primitive | named | parameter | array => simp [same, unkinded, resolveKinds]

theorem sameAll_iff : ∀ types others : List Ty, sameAll types others = true ↔
    resolveKindsAll (fun _ => some .reference) types = resolveKindsAll (fun _ => some .reference) others
  | [], others => by cases others <;> simp [sameAll, resolveKindsAll]
  | type :: types, others => by
    cases others with
    | nil => simp [sameAll, resolveKindsAll]
    | cons other others =>
      simp [sameAll, resolveKindsAll, same_iff type other, sameAll_iff types others, unkinded]

end

@[simp] theorem same_refl (type : Ty) : type.same type = true :=
  (same_iff type type).mpr rfl

theorem same_comm (type other : Ty) : type.same other = other.same type := by
  rw [Bool.eq_iff_iff, same_iff, same_iff, eq_comm]

theorem same_congr {type other : Ty} (h : type.same other = true) (first : Ty) :
    first.same type = true ↔ first.same other = true := by
  rw [same_iff, same_iff, (same_iff type other).mp h]

variable (lookup : String → Option TypeKind) (scope : List String)

mutual

@[simp] theorem canonical_resolveKinds : ∀ type : Ty, (type.resolveKinds lookup).canonical = type.canonical
  | .primitive _ => rfl
  | .named _ [] _ => rfl
  | .named _ (argument :: others) _ => by
    simp [resolveKinds, resolveKindsAll, canonical, canonical_resolveKinds argument,
      canonicalOthers_resolveKinds others]
  | .parameter _ => rfl
  | .array element => by simp [resolveKinds, canonical, canonical_resolveKinds element]
  | .nullable underlying => by simp [resolveKinds, canonical, canonical_resolveKinds underlying]

@[simp] theorem canonicalOthers_resolveKinds : ∀ types : List Ty,
    canonicalOthers (resolveKindsAll lookup types) = canonicalOthers types
  | [] => rfl
  | type :: others => by
    simp [resolveKindsAll, canonicalOthers, canonical_resolveKinds type, canonicalOthers_resolveKinds others]

end

mutual

@[simp] theorem canonical_bind : ∀ type : Ty, (type.bind scope).canonical = type.canonical
  | .primitive _ => rfl
  | .named _ [] _ => by
    rw [bind]
    split <;> rfl
  | .named _ (argument :: others) _ => by
    simp [bind, canonical, canonical_bind argument, canonicalOthers_bind others]
  | .parameter _ => rfl
  | .array element => by simp [bind, canonical, canonical_bind element]
  | .nullable underlying => by simp [bind, canonical, canonical_bind underlying]

@[simp] theorem canonicalOthers_bind : ∀ types : List Ty, canonicalOthers (bindAll scope types) = canonicalOthers types
  | [] => rfl
  | type :: others => by
    simp [bindAll, canonicalOthers, canonical_bind type, canonicalOthers_bind others]

end

mutual

@[simp] theorem unkinded_resolveKinds : ∀ type : Ty, (type.resolveKinds lookup).unkinded = type.unkinded
  | .primitive _ => rfl
  | .named _ arguments _ => by
    simpa [unkinded, resolveKinds] using unkindedAll_resolveKinds arguments
  | .parameter _ => rfl
  | .array element => by simpa [unkinded, resolveKinds] using unkinded_resolveKinds element
  | .nullable underlying => by simpa [unkinded, resolveKinds] using unkinded_resolveKinds underlying

theorem unkindedAll_resolveKinds : ∀ types : List Ty,
    resolveKindsAll (fun _ => some .reference) (resolveKindsAll lookup types) =
      resolveKindsAll (fun _ => some .reference) types
  | [] => rfl
  | type :: others => by
    simpa [resolveKindsAll] using ⟨unkinded_resolveKinds type, unkindedAll_resolveKinds others⟩

end

@[simp] theorem canonical_unkinded (type : Ty) : type.unkinded.canonical = type.canonical :=
  canonical_resolveKinds _ type

end Ty

theorem Decl.Record.name_eq_of_same_selfType {record other : Decl.Record}
    (h : record.selfType.same other.selfType = true) : record.name = other.name := by
  simp only [selfType, Ty.same, Bool.and_eq_true, decide_eq_true_eq] at h
  exact h.1

end RecordSynthesis
