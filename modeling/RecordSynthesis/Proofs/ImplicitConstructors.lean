import RecordSynthesis.Proofs.ConstructorChains

/-!
# Implicit constructors

A record that declares no constructor keeps the implicit one, and whoever derives from it may call that without
arguments. The implicit constructor itself has to call one of the base without arguments, which is not asked for:
whether it can be built is told by the nearest level that declares any constructor.
-/

namespace RecordSynthesis

set_option autoImplicit false

open Decl (CompilationUnit Record Member)

namespace Decl.Record

def DeclaresParameterless (record : Record) : Prop :=
  ∃ c, .constructor c ∈ record.members ∧ c.parameters = []

/-- Neither primary parameters nor a declared constructor. -/
def DeclaresNoConstructor (record : Record) : Prop :=
  record.isPositional = false ∧ ∀ c, .constructor c ∉ record.members

variable {record : Record}

theorem DeclaresParameterless.not_declaresNoConstructor (h : record.DeclaresParameterless) :
    ¬record.DeclaresNoConstructor := by
  rintro ⟨-, hNone⟩
  obtain ⟨c, hMember, -⟩ := h
  exact hNone c hMember

variable (effective : List EffectiveMember) (base : Option MemberSet) (copy : Option CopyConstructor)
  (options : SynthesisOptions)

theorem declaresNoConstructor_iff :
    (record.memberSet effective base copy options).DeclaresNoConstructor ↔ record.DeclaresNoConstructor := by
  simp only [MemberSet.DeclaresNoConstructor, memberSet, DeclaresNoConstructor]
  cases record.isPositional <;> simp

theorem hasConstructor_nil_iff :
    (record.memberSet effective base copy options).HasConstructor [] ↔ record.DeclaresParameterless := by
  have hPrimary : record.primarySignature? ≠ some [] := by
    intro h
    obtain ⟨hPositional, hTypes⟩ := Option.ite_none_right_eq_some.mp h
    rw [isPositional] at hPositional
    simp_all [Signature.ofTypes, parameterTypes]
  have hCopy : record.synthesizedCopySignature? copy ≠ some [] := by
    rcases copy with _ | _ | _ <;> simp [synthesizedCopySignature?, copySignature, Signature.ofTypes]
  have hDeclared : [] ∈ record.declaredSignatures ↔ record.DeclaresParameterless := by
    simp [mem_declaredSignatures, DeclaresParameterless, Signature.ofTypes, Decl.Constructor.types]
  have hMem : (record.memberSet effective base copy options).HasConstructor [] ↔
      [] ∈ (record.memberSet effective base copy options).constructors.map
        fun symbol => Signature.ofTypes symbol.types := List.mem_map.symm
  rw [hMem, constructor_signatures, List.mem_append, List.mem_append, Option.mem_toList, Option.mem_toList, hDeclared]
  simp [hPrimary, hCopy]

end Decl.Record

namespace RecordTable

/-- The set has a constructor without parameters, or keeps the implicit one over a base that can be called without
arguments. -/
def KeepsPromise (table : RecordTable) (set : MemberSet) : Prop :=
  set.HasConstructor [] ∨
    (set.DeclaresNoConstructor ∧ ∀ base, table.baseOf? set = some base → base.hasParameterlessConstructor = true)

/-- A constructor without parameters that can be built: a declared one, or an implicit one over such a constructor of
the base. -/
inductive Starts (table : RecordTable) : MemberSet → Prop
  | declared {set : MemberSet} (has : set.HasConstructor []) : Starts table set
  | implicit {set : MemberSet} (undeclared : set.DeclaresNoConstructor)
      (above : ∀ base, table.baseOf? set = some base → Starts table base) : Starts table set

theorem starts_iff {table : RecordTable} {set : MemberSet} :
    table.Starts set ↔ set.HasConstructor [] ∨
      (set.DeclaresNoConstructor ∧ ∀ base, table.baseOf? set = some base → table.Starts base) := by
  constructor
  · rintro (has | ⟨undeclared, above⟩)
    · exact .inl has
    · exact .inr ⟨undeclared, above⟩
  · rintro (has | ⟨undeclared, above⟩)
    · exact .declared has
    · exact .implicit undeclared above

theorem Starts.promised {table : RecordTable} {set : MemberSet} (starts : table.Starts set) :
    set.hasParameterlessConstructor = true := by
  rw [MemberSet.hasParameterlessConstructor_iff]
  cases starts with
  | declared has => exact .inl has
  | implicit undeclared _ => exact .inr ⟨rfl, undeclared⟩

theorem Starts.keepsPromise {table : RecordTable} {set : MemberSet} (starts : table.Starts set) :
    table.KeepsPromise set := by
  cases starts with
  | declared has => exact .inl has
  | implicit undeclared above => exact .inr ⟨undeclared, fun base hBase => (above base hBase).promised⟩

variable {unit : CompilationUnit} {options : SynthesisOptions} {table : RecordTable} {set : MemberSet}
  {record : Record} {base : Option MemberSet} {copy : Option CopyConstructor}

namespace Origin

theorem hasConstructor_nil_iff (origin : Origin unit options table set record base copy) :
    set.HasConstructor [] ↔ record.DeclaresParameterless := by
  rw [origin.made]
  exact Record.hasConstructor_nil_iff ..

theorem declaresNoConstructor_iff (origin : Origin unit options table set record base copy) :
    set.DeclaresNoConstructor ↔ record.DeclaresNoConstructor := by
  rw [origin.made]
  exact Record.declaresNoConstructor_iff ..

theorem promises_iff (origin : Origin unit options table set record base copy) :
    set.hasParameterlessConstructor = true ↔ record.DeclaresParameterless ∨ record.DeclaresNoConstructor := by
  rw [← origin.hasConstructor_nil_iff, ← origin.declaresNoConstructor_iff, MemberSet.hasParameterlessConstructor_iff,
    MemberSet.Offers]
  simp [Signature.ofTypes]

theorem keepsPromise_iff (origin : Origin unit options table set record base copy) (grown : table.Grown unit options) :
    table.KeepsPromise set ↔ record.DeclaresParameterless ∨ (record.DeclaresNoConstructor ∧
      ∀ name, record.base = some name → ∀ above, unit.find? name = some above →
        above.DeclaresParameterless ∨ above.DeclaresNoConstructor) := by
  rw [KeepsPromise, origin.hasConstructor_nil_iff, origin.declaresNoConstructor_iff, origin.baseOf?_eq]
  refine or_congr_right (and_congr_right fun _ => ?_)
  rcases Record.resolveBase_eq_ok_iff.mp origin.resolved with ⟨hRoot, rfl⟩ | ⟨above, hName, -, rfl, -⟩
  · simp [hRoot]
  · obtain ⟨aboveRecord, _, _, aboveOrigin⟩ := grown.exists_origin (origin.base_mem rfl).1
    simp [hName, aboveOrigin.find?_eq, aboveOrigin.promises_iff]

end Origin

theorem Grown.starts_of_kept (grown : table.Grown unit options) (mem : set ∈ table.sets)
    (kept : ∀ level ∈ table.levels set, level.hasParameterlessConstructor = true → table.KeepsPromise level)
    (promised : set.hasParameterlessConstructor = true) : table.Starts set := by
  revert kept promised
  refine grown.induction_base (P := fun set =>
    (∀ level ∈ table.levels set, level.hasParameterlessConstructor = true → table.KeepsPromise level) →
      set.hasParameterlessConstructor = true → table.Starts set) ?_ set mem
  intro set record base copy origin ih kept promised
  rcases kept set (table.mem_levels_self set) promised with has | ⟨undeclared, hAbove⟩
  · exact .declared has
  · refine .implicit undeclared fun above hBase => ?_
    have hPromised := hAbove above hBase
    rw [origin.baseOf?_eq] at hBase
    subst hBase
    rw [origin.levels_eq_of_some] at kept
    exact ih above rfl (fun level hLevel => kept level (List.mem_append_left _ hLevel)) hPromised

/-- Below this level, down to the set, no one declares a constructor. -/
def Passes (table : RecordTable) (set level : MemberSet) : Prop :=
  ∃ above below, table.levels set = above ++ level :: below ∧ ∀ other ∈ below, other.DeclaresNoConstructor

theorem Origin.passes_iff (origin : Origin unit options table set record base copy) {level : MemberSet} :
    table.Passes set level ↔
      level = set ∨ (set.DeclaresNoConstructor ∧ ∃ above, base = some above ∧ table.Passes above level) := by
  rw [Passes, origin.levels_eq]
  constructor
  · rintro ⟨upper, lower, hLevels, hLower⟩
    rcases List.eq_nil_or_concat lower with rfl | ⟨others, last, rfl⟩
    · exact .inl (List.append_singleton_inj.mp hLevels).2.symm
    · rw [List.concat_eq_append, ← List.cons_append, ← List.append_assoc, List.append_singleton_inj] at hLevels
      obtain ⟨hAbove, rfl⟩ := hLevels
      have hOthers : ∀ other ∈ others, other.DeclaresNoConstructor := fun other h => hLower other (by simp [h])
      cases base with
      | none => simp at hAbove
      | some above => exact .inr ⟨hLower set (by simp), above, rfl, upper, others, hAbove, hOthers⟩
  · rintro (rfl | ⟨hSet, above, rfl, upper, lower, hLevels, hLower⟩)
    · exact ⟨_, [], rfl, by simp⟩
    · refine ⟨upper, lower ++ [set], by simp [hLevels], ?_⟩
      intro other hOther
      rcases List.mem_append.mp hOther with hOther | hOther
      · exact hLower other hOther
      · rwa [List.mem_singleton.mp hOther]

theorem Grown.starts_iff_passes (grown : table.Grown unit options) (mem : set ∈ table.sets) :
    table.Starts set ↔ ∀ level, table.Passes set level → level.hasParameterlessConstructor = true := by
  refine grown.induction_base (P := fun set =>
    table.Starts set ↔ ∀ level, table.Passes set level → level.hasParameterlessConstructor = true) ?_ set mem
  intro set record base copy origin ih
  have hDisjoint : set.HasConstructor [] → ¬set.DeclaresNoConstructor := by
    rw [origin.hasConstructor_nil_iff, origin.declaresNoConstructor_iff]
    exact Record.DeclaresParameterless.not_declaresNoConstructor
  have hPromised : set.hasParameterlessConstructor = true ↔ set.HasConstructor [] ∨ set.DeclaresNoConstructor := by
    rw [origin.promises_iff, origin.hasConstructor_nil_iff, origin.declaresNoConstructor_iff]
  rw [starts_iff, origin.baseOf?_eq]
  constructor
  · rintro (has | ⟨undeclared, hAbove⟩) level hPasses
    · rcases origin.passes_iff.mp hPasses with rfl | ⟨undeclared, -⟩
      · exact hPromised.mpr (.inl has)
      · exact absurd undeclared (hDisjoint has)
    · rcases origin.passes_iff.mp hPasses with rfl | ⟨-, above, hBase, hPasses⟩
      · exact hPromised.mpr (.inr undeclared)
      · exact (ih above hBase).mp (hAbove above hBase) level hPasses
  · intro h
    rcases hPromised.mp (h set (origin.passes_iff.mpr (.inl rfl))) with has | undeclared
    · exact .inl has
    · refine .inr ⟨undeclared, fun above hBase => (ih above hBase).mpr fun level hPasses => ?_⟩
      exact h level (origin.passes_iff.mpr (.inr ⟨undeclared, above, hBase, hPasses⟩))

end RecordTable

/-- A set promises a constructor without parameters exactly if its declaration has one, or neither primary parameters
nor any constructor. In the second case the promise is kept exactly if the declaration of its base, where there is one,
is of these two kinds as well. A constructor without parameters can be built exactly if one is promised by every level
that is reached through levels without a declared constructor, as it is if every level keeps its promise. -/
theorem parameterless_promise_kept_iff (unit : CompilationUnit) (options : SynthesisOptions) :
    let table := (checkUnit unit options).table
    ∀ set ∈ table.sets, ∃ record, unit.find? set.recordName = some record ∧
      (set.hasParameterlessConstructor = true ↔ record.DeclaresParameterless ∨ record.DeclaresNoConstructor) ∧
      (table.KeepsPromise set ↔ record.DeclaresParameterless ∨ (record.DeclaresNoConstructor ∧
        ∀ name, record.base = some name → ∀ above, unit.find? name = some above →
          above.DeclaresParameterless ∨ above.DeclaresNoConstructor)) ∧
      (table.Starts set ↔ ∀ level, table.Passes set level → level.hasParameterlessConstructor = true) ∧
      ((∀ level ∈ table.levels set, level.hasParameterlessConstructor = true → table.KeepsPromise level) →
        set.hasParameterlessConstructor = true → table.Starts set) := by
  intro table set mem
  have grown : table.Grown unit options := checkUnit_grown unit options
  obtain ⟨record, base, copy, origin⟩ := grown.exists_origin mem
  exact ⟨record, origin.find?_eq, origin.promises_iff, origin.keepsPromise_iff grown, grown.starts_iff_passes mem,
    grown.starts_of_kept mem⟩

def admission : CompilationUnit where
  records :=
    [{ name := "Person", parameters := [{ name := "Name", type := Ty.string }] },
      { name := "Student", base := some "Person" },
      { name := "Graduate", base := some "Student"
        members := [.ofConstructor [{ name := "o", type := .named "Graduate" [] .reference }] 1] },
      { name := "Anonymous" },
      { name := "Guest", base := some "Anonymous" }]

def admitted (name : String) : MemberSet :=
  ((checkUnit admission {}).table.get? name).getD default

theorem parameterless_promise_kept_iff_guest :
    admitted "Guest" ∈ (checkUnit admission {}).table.sets ∧
    (admitted "Guest").hasParameterlessConstructor = true ∧
    (checkUnit admission {}).table.KeepsPromise (admitted "Guest") ∧
    (checkUnit admission {}).table.Starts (admitted "Guest") := by
  have hFound : (checkUnit admission {}).table.get? "Guest" = some (admitted "Guest") := rfl
  have mem := (RecordTable.mem_of_get? hFound).1
  obtain ⟨record, hRecord, hPromised, hKept, hStarts, -⟩ := parameterless_promise_kept_iff admission {} _ mem
  cases hRecord
  refine ⟨mem, hPromised.mpr (.inr ⟨rfl, by simp⟩), hKept.mpr (.inr ⟨⟨rfl, by simp⟩, ?_⟩), ?_⟩
  · rintro _ ⟨⟩ above hAbove
    cases hAbove
    exact .inr ⟨rfl, by simp⟩
  · have hGuest : (checkUnit admission {}).table.levels (admitted "Guest") =
        (checkUnit admission {}).table.levels (admitted "Anonymous") ++ [admitted "Guest"] := by
      rw [RecordTable.levels]
      rfl
    have hAnonymous : (checkUnit admission {}).table.levels (admitted "Anonymous") = [admitted "Anonymous"] := by
      rw [RecordTable.levels]
      rfl
    refine hStarts.mpr ?_
    rintro level ⟨above, below, hLevels, -⟩
    have hLevel : level ∈ [admitted "Anonymous", admitted "Guest"] := by
      rw [hGuest, hAnonymous, List.singleton_append] at hLevels
      simp [hLevels]
    rcases List.mem_pair.mp hLevel with rfl | rfl
    · rfl
    · rfl

/-- Nothing is reported, and yet the student promises a constructor without parameters that a graduate then calls, while
its base has none. -/
theorem not_parameterless_promise_kept_student :
    let result := checkUnit admission.resolve {}
    result.diagnostics.isEmpty = true ∧ result.faults = [] ∧
      ∃ student ∈ result.table.sets, student.hasParameterlessConstructor = true ∧
        ¬result.table.KeepsPromise student ∧ ¬result.table.Starts student ∧
        ∃ graduate ∈ result.table.sets, ∃ copy, result.table.baseOf? graduate = some student ∧
          graduate.copyConstructor = some copy ∧ copy.chain = .base student.selfType [] [] := by
  intro result
  have hStudent : result.table.sets[1]? = some _ := rfl
  have hGraduate : result.table.sets[2]? = some _ := rfl
  have hBroken : ∀ student, result.table.sets[1]? = some student → ¬result.table.KeepsPromise student := by
    rintro _ ⟨⟩ (⟨symbol, hMem, hSignature⟩ | ⟨-, hBase⟩)
    · revert symbol
      decide
    · have hPromised := hBase _ rfl
      revert hPromised
      decide
  exact ⟨rfl, rfl, _, List.mem_of_getElem? hStudent, rfl, hBroken _ hStudent,
    fun starts => hBroken _ hStudent starts.keepsPromise, _, List.mem_of_getElem? hGraduate, _, rfl, rfl, rfl⟩

end RecordSynthesis
