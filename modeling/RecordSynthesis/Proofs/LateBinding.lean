import RecordSynthesis.Proofs.TypeReading
import RecordSynthesis.Ty.Binding

/-!
# Late binding

A declaration is read before its type parameters are known, and its names are bound afterwards. That gives the types
that reading in scope gives, as long as no type parameter takes arguments.
-/

namespace RecordSynthesis.Ty

set_option autoImplicit false

mutual

def appliedNames : Ty → List String
  | .primitive _ => []
  | .named _ [] _ => []
  | .named name (argument :: others) _ => name :: (appliedNames argument ++ appliedNamesAll others)
  | .parameter _ => []
  | .array element => appliedNames element
  | .nullable underlying => appliedNames underlying

def appliedNamesAll : List Ty → List String
  | [] => []
  | type :: others => appliedNames type ++ appliedNamesAll others

end

mutual

def unbound : Ty → Ty
  | .primitive p => .primitive p
  | .named name arguments kind => .named name (unboundAll arguments) kind
  | .parameter name => .named name [] .reference
  | .array element => .array (unbound element)
  | .nullable underlying => .nullable (unbound underlying)

def unboundAll : List Ty → List Ty
  | [] => []
  | type :: others => unbound type :: unboundAll others

end

section

variable {scope : List String}

mutual

/-- A type read in scope is the binding of one in which every name is bare or out of scope. -/
theorem unbound_of_writtenIn : ∀ type : Ty, type.WrittenIn scope →
    type.unbound.WrittenIn [] ∧ (∀ name ∈ type.unbound.appliedNames, name ∉ scope) ∧ type.unbound.bind scope = type
  | .primitive _, _ => ⟨trivial, by simp [unbound, appliedNames], rfl⟩
  | .named name [] kind, ⟨hName, hScope, hKind, _⟩ =>
    ⟨⟨hName, by simp, hKind, trivial⟩, by simp [unbound, unboundAll, appliedNames],
      by simp [unbound, unboundAll, bind, hScope]⟩
  | .named name (argument :: others) kind, ⟨hName, hScope, hKind, hArgument, hOthers⟩ => by
    obtain ⟨hWritten, hApplied, hBound⟩ := unbound_of_writtenIn argument hArgument
    obtain ⟨hAllWritten, hAllApplied, hAllBound⟩ := unboundAll_of_allWrittenIn others hOthers
    refine ⟨⟨hName, by simp, hKind, hWritten, hAllWritten⟩, ?_, ?_⟩
    · rw [unbound, unboundAll, appliedNames, List.forall_mem_cons, List.forall_mem_append]
      exact ⟨hScope, hApplied, hAllApplied⟩
    · rw [unbound, unboundAll, bind, hBound, hAllBound]
  | .parameter name, ⟨hName, hScope⟩ =>
    ⟨⟨hName, by simp, rfl, trivial⟩, by simp [unbound, appliedNames], by simp [unbound, bind, hScope]⟩
  | .array element, written =>
    let ⟨hWritten, hApplied, hBound⟩ := unbound_of_writtenIn element written
    ⟨hWritten, hApplied, congrArg Ty.array hBound⟩
  | .nullable underlying, written =>
    let ⟨hWritten, hApplied, hBound⟩ := unbound_of_writtenIn underlying written
    ⟨hWritten, hApplied, congrArg Ty.nullable hBound⟩

theorem unboundAll_of_allWrittenIn : ∀ types : List Ty, AllWrittenIn scope types →
    AllWrittenIn [] (unboundAll types) ∧ (∀ name ∈ appliedNamesAll (unboundAll types), name ∉ scope) ∧
      bindAll scope (unboundAll types) = types
  | [], _ => ⟨trivial, by simp [unboundAll, appliedNamesAll], rfl⟩
  | type :: others, ⟨hType, hOthers⟩ => by
    obtain ⟨hWritten, hApplied, hBound⟩ := unbound_of_writtenIn type hType
    obtain ⟨hAllWritten, hAllApplied, hAllBound⟩ := unboundAll_of_allWrittenIn others hOthers
    refine ⟨⟨hWritten, hAllWritten⟩, ?_, ?_⟩
    · rw [unboundAll, appliedNamesAll, List.forall_mem_append]
      exact ⟨hApplied, hAllApplied⟩
    · rw [unboundAll, bindAll, hBound, hAllBound]

end

mutual

theorem writtenIn_bind : ∀ type : Ty, type.WrittenIn [] → (∀ name ∈ type.appliedNames, name ∉ scope) →
    (type.bind scope).WrittenIn scope
  | .primitive _, _, _ => trivial
  | .named name [] kind, ⟨hName, _, hKind, _⟩, _ => by
    rw [bind]
    split
    · rename_i hScope
      exact ⟨hName, List.contains_iff_mem.mp hScope⟩
    · rename_i hScope
      exact ⟨hName, by simpa using hScope, hKind, trivial⟩
  | .named name (argument :: others) kind, ⟨hName, _, hKind, hArgument, hOthers⟩, applied => by
    rw [appliedNames, List.forall_mem_cons, List.forall_mem_append] at applied
    exact ⟨hName, applied.1, hKind, writtenIn_bind argument hArgument applied.2.1,
      allWrittenIn_bindAll others hOthers applied.2.2⟩
  | .parameter _, ⟨_, hNone⟩, _ => absurd hNone List.not_mem_nil
  | .array element, written, applied => writtenIn_bind element written applied
  | .nullable underlying, written, applied => writtenIn_bind underlying written applied

theorem allWrittenIn_bindAll : ∀ types : List Ty, AllWrittenIn [] types →
    (∀ name ∈ appliedNamesAll types, name ∉ scope) → AllWrittenIn scope (bindAll scope types)
  | [], _, _ => trivial
  | type :: others, ⟨hType, hOthers⟩, applied => by
    rw [appliedNamesAll, List.forall_mem_append] at applied
    exact ⟨writtenIn_bind type hType applied.1, allWrittenIn_bindAll others hOthers applied.2⟩

end

end

section

variable (scope : List String)

mutual

@[simp] theorem tokens_bind : ∀ type : Ty, (type.bind scope).tokens = type.tokens
  | .primitive _ | .parameter _ => rfl
  | .named _ [] _ => by
    rw [bind]
    split <;> rfl
  | .named _ (argument :: others) _ => by
    rw [bind, tokens, tokens, tokens_bind argument, tokensOthers_bindAll others]
  | .array element => by rw [bind, tokens, tokens, tokens_bind element]
  | .nullable underlying => by rw [bind, tokens, tokens, tokens_bind underlying]

theorem tokensOthers_bindAll : ∀ types : List Ty, tokensOthers (bindAll scope types) = tokensOthers types
  | [] => rfl
  | type :: others => by
    rw [bindAll, tokensOthers, tokensOthers, tokens_bind type, tokensOthers_bindAll others]

end

end

/-- Reading with type parameters in scope is reading without them and then binding, unless one of them takes arguments. -/
theorem read_eq_ok_iff_bind {scope : List String} {text : String} {type : Ty} :
    read text scope = .ok type ↔
      ∃ free, read text [] = .ok free ∧ (∀ name ∈ free.appliedNames, name ∉ scope) ∧ type = free.bind scope := by
  constructor
  · intro h
    obtain ⟨written, hTokens⟩ := read_eq_ok_iff.mp h
    obtain ⟨hWritten, hApplied, hBound⟩ := unbound_of_writtenIn type written
    refine ⟨type.unbound, read_eq_ok_iff.mpr ⟨hWritten, ?_⟩, hApplied, hBound.symm⟩
    rw [hTokens, ← tokens_bind scope type.unbound, hBound]
  · rintro ⟨free, hRead, hApplied, rfl⟩
    obtain ⟨written, hTokens⟩ := read_eq_ok_iff.mp hRead
    exact read_eq_ok_iff.mpr ⟨writtenIn_bind free written hApplied, by rw [hTokens, tokens_bind]⟩

/-- Binding alone does not notice that a type parameter takes arguments. -/
example :
    read "List<int>" ["List"] = .error ⟨"List<int>", .trailingInput 4⟩ ∧
      (read "List<int>" []).map (bind ["List"]) = .ok (.named "List" [.int] .reference) :=
  ⟨rfl, rfl⟩

end RecordSynthesis.Ty
