import RecordSynthesis.Proofs.Support

/-!
# Values of primary parameters

A primary constructor fills one field with a parameter, or leaves the value to a computed property of the parameter's
name, or hands it on to the base. What the base shows under the name of a parameter claims it whether or not the
parameter is handed on, so a parameter that is claimed and not handed on is dropped.
-/

namespace RecordSynthesis

set_option autoImplicit false

open Code
open Decl (CompilationUnit Record Property PrimaryParameter)

namespace Code

def Stmt.fills? (parameter : String) : Stmt → Option FieldRef
  | .storeField .this field (.parameter name) => if name = parameter then some field else none
  | _ => none

def Function.fieldsFilled (function : Function) (parameter : String) : List FieldRef :=
  function.body.filterMap (Stmt.fills? parameter)

def Function.HandsOn (function : Function) (parameter : String) : Prop :=
  ∃ type types arguments, .callBaseConstructor (.record type types) arguments ∈ function.body ∧
    .parameter parameter ∈ arguments

end Code

/-- A constructor of a record does not drop a primary parameter: it fills just one field with it, a field of the record; or
a computed property of the record claims it; or the base does, and gets it as an argument. -/
inductive Decl.PrimaryParameter.Kept (p : PrimaryParameter) (record : Record) (set : MemberSet)
    (base : Option MemberSet) (function : Function) : Prop
  | stored {storage : String} (filled : function.fieldsFilled p.name = [set.field storage p.type])
      (own : set.HasStorage storage p.type) : Kept p record set base function
  | computed {q : Property} (claimed : record.claimant? p.name p.type = some (.property q))
      (withoutStorage : q.isAuto = false) : Kept p record set base function
  | forwarded {above : MemberSet} {read : MemberRead} (unclaimed : record.claimant? p.name p.type = none)
      (derived : base = some above) (shown : above.shown? p.name = some read) (argument : p.name ∈ record.baseArguments)
      (handedOn : function.HandsOn p.name) : Kept p record set base function

namespace MemberSet

theorem filterMap_fills?_toStmts (chain : ConstructorChain) (name : String) :
    chain.toStmts.filterMap (Stmt.fills? name) = [] := by
  cases chain <;> rfl

theorem fieldsFilled_lowerPrimaryConstructor (set : MemberSet) (primary : PrimaryConstructor) (name : String) :
    (set.lowerPrimaryConstructor primary).fieldsFilled name = primary.stores.filterMap fun store =>
      if store.parameter = name then some (set.field store.field store.type) else none := by
  rw [Function.fieldsFilled, lowerPrimaryConstructor, List.filterMap_append, filterMap_fills?_toStmts, List.append_nil,
    List.filterMap_map]
  rfl

theorem handsOn_lowerPrimaryConstructor (set : MemberSet) {primary : PrimaryConstructor} {type : Ty} {types : List Ty}
    {arguments : List String} (chained : primary.chain = .base type types arguments) {name : String}
    (argument : name ∈ arguments) : (set.lowerPrimaryConstructor primary).HandsOn name := by
  refine ⟨type, types, arguments.map .parameter, List.mem_append_right _ ?_, List.mem_map_of_mem argument⟩
  rw [chained]
  exact List.mem_cons_self

end MemberSet

namespace Decl.Record

variable {record : Record} {base : Option MemberSet} {p : PrimaryParameter}

theorem store?_eq_some {store : FieldStore} (h : record.store? base p = some store) :
    store.parameter = p.name ∧ store.type = p.type := by
  rw [store?] at h
  split at h
  · obtain ⟨field, -, rfl⟩ := Option.map_eq_some_iff.mp h
    exact ⟨rfl, rfl⟩
  · cases h
    exact ⟨rfl, rfl⟩

theorem store?_eq_none_iff {type : Ty} (h : record.parameterType? p.name = some type) :
    record.store? base p = none ↔
      (∃ q, record.claimant? p.name type = some (.property q) ∧ q.isAuto = false) ∨
        record.claimant? p.name type = none ∧ ∃ above read, base = some above ∧ above.shown? p.name = some read := by
  have settled := record.claim?_settled base h
  rw [store?]
  generalize record.claim? base p.name = claim at settled
  cases settled with
  | field first => simp [first]
  | @property q first => cases hAuto : q.isAuto <;> simp [first, hAuto]
  | inherited unclaimed derived shown => simp [unclaimed, derived, shown]
  | nobody unclaimed hidden =>
    simp only [unclaimed, true_and, reduceCtorEq, false_and, exists_false, false_or, false_iff]
    rintro ⟨above, read, derived, shown⟩
    rw [hidden above derived] at shown
    cases shown

theorem filterMap_parameters {α : Type} (nodup : (record.parameters.map (·.name)).Nodup) (mem : p ∈ record.parameters)
    {f : PrimaryParameter → Option α} (others : ∀ q, q.name ≠ p.name → f q = none) :
    record.parameters.filterMap f = (f p).toList := by
  obtain ⟨before, after, hSplit⟩ := List.append_of_mem mem
  rw [hSplit, List.map_append, List.map_cons] at nodup
  obtain ⟨-, hAfter, hApart⟩ := List.nodup_append.mp nodup
  have hBefore : before.filterMap f = [] := List.filterMap_eq_nil_iff.mpr fun q hq =>
    others q (hApart _ (List.mem_map_of_mem hq) _ List.mem_cons_self)
  have hRest : after.filterMap f = [] := List.filterMap_eq_nil_iff.mpr fun q hq =>
    others q fun hSame => (List.nodup_cons.mp hAfter).1 (hSame ▸ List.mem_map_of_mem hq)
  rw [hSplit, List.filterMap_append, List.filterMap_cons, hBefore, hRest]
  cases f p <;> rfl

theorem fieldsFilled_parameter (nodup : (record.parameters.map (·.name)).Nodup) (mem : p ∈ record.parameters)
    (set : MemberSet) (base : Option MemberSet) (chain : ConstructorChain) :
    (set.lowerPrimaryConstructor
        ⟨record.parameters, record.parameters.filterMap (record.store? base), chain⟩).fieldsFilled p.name =
      ((record.store? base p).map fun store => set.field store.field store.type).toList := by
  rw [MemberSet.fieldsFilled_lowerPrimaryConstructor, List.filterMap_filterMap, filterMap_parameters nodup mem]
  · cases hStore : record.store? base p with
    | none => rfl
    | some store => simp [(store?_eq_some hStore).1]
  · intro q hOther
    cases hStore : record.store? base q with
    | none => rfl
    | some store => simp [(store?_eq_some hStore).1, hOther]

end Decl.Record

/-- A primary parameter is kept exactly if it is forwarded in case that no member of the record claims it and the base
shows a property of its name. -/
theorem parameter_kept_iff (unit : CompilationUnit) (options : SynthesisOptions) (set : MemberSet)
    (mem : set ∈ (checkUnit unit options).table.sets) (record : Record)
    (declared : unit.find? set.recordName = some record) (nodup : (record.parameters.map (·.name)).Nodup)
    (p : PrimaryParameter) (parameter : p ∈ record.parameters) :
    let base := (checkUnit unit options).table.baseOf? set
    ∃ function, set.lower? .primaryConstructor = some function ∧
      (p.Kept record set base function ↔
        (record.claimant? p.name p.type = none → ∀ above, base = some above → ∀ read, above.shown? p.name = some read →
          p.name ∈ record.baseArguments)) := by
  obtain ⟨base, copy, origin⟩ := (checkUnit_grown unit options).exists_origin_of_find? mem declared
  rw [origin.baseOf?_eq]
  have hPrimary : set.primaryConstructor =
      some ⟨record.parameters, record.parameters.filterMap (record.store? base), record.primaryChain base⟩ := by
    rw [origin.made]
    exact if_pos (by simp [Record.isPositional, List.ne_nil_of_mem parameter])
  have hType := Record.parameterType?_of_mem nodup parameter
  have hFilled := Record.fieldsFilled_parameter nodup parameter set base (record.primaryChain base)
  refine ⟨_, congrArg (Option.map set.lowerPrimaryConstructor) hPrimary, ?_, ?_⟩
  · intro kept unclaimed above derived read shown
    cases kept with
    | stored filled own =>
      have hNone := (Record.store?_eq_none_iff hType).mpr (.inr ⟨unclaimed, above, read, derived, shown⟩)
      rw [hFilled, hNone] at filled
      cases filled
    | computed claimed withoutStorage =>
      rw [unclaimed] at claimed
      cases claimed
    | forwarded _ _ _ argument _ => exact argument
  · intro handed
    cases hStore : record.store? base p with
    | some store =>
      obtain ⟨-, hTyped⟩ := Record.store?_eq_some hStore
      have hStorage := (origin.stored nodup parameter hStore).2
      rw [hStore] at hFilled
      rw [hTyped] at hStorage
      exact .stored (by rw [hFilled, ← hTyped]; rfl) hStorage
    | none =>
      rcases (Record.store?_eq_none_iff hType).mp hStore with
        ⟨q, claimed, withoutStorage⟩ | ⟨unclaimed, above, read, derived, shown⟩
      · exact .computed claimed withoutStorage
      · have argument := handed unclaimed above derived read shown
        exact .forwarded unclaimed derived shown argument
          (set.handsOn_lowerPrimaryConstructor (origin.primaryChain_eq derived) argument)

def unlabelled : CompilationUnit where
  records :=
    [{ name := "Thing", members := [.ofAutoProperty "Label" Ty.string] },
      { name := "Tag", parameters := [{ name := "Label", type := Ty.string }], base := some "Thing" }]

/-- Nothing is reported, and yet the value of a parameter is dropped. -/
theorem not_parameter_kept_tag :
    let result := checkUnit unlabelled.resolve {}
    result.diagnostics.isEmpty = true ∧ result.faults = [] ∧
      ∃ set ∈ result.table.sets, ∃ record p function, unlabelled.resolve.find? set.recordName = some record ∧
        (record.parameters.map (·.name)).Nodup ∧ p ∈ record.parameters ∧
        set.lower? .primaryConstructor = some function ∧ ¬p.Kept record set (result.table.baseOf? set) function := by
  intro result
  have hTag : result.table.sets[1]? = some _ := rfl
  refine ⟨rfl, rfl, _, List.mem_of_getElem? hTag, _, _, _, rfl, by decide, List.mem_cons_self, rfl, ?_⟩
  intro kept
  cases kept with
  | stored filled own => cases filled
  | computed claimed withoutStorage => cases claimed
  | forwarded unclaimed derived shown argument handedOn => cases argument

theorem parameter_kept_iff_student :
    schoolStudent ∈ (checkUnit school {}).table.sets ∧
    ∃ record, school.find? schoolStudent.recordName = some record ∧ (record.parameters.map (·.name)).Nodup ∧
      ∃ p ∈ record.parameters, p.name = "Name" ∧ ∃ function, schoolStudent.lower? .primaryConstructor = some function ∧
        p.Kept record schoolStudent ((checkUnit school {}).table.baseOf? schoolStudent) function ∧
        function.fieldsFilled "Name" = [] := by
  have hFound : (checkUnit school {}).table.get? "Student" = some schoolStudent := rfl
  have mem := (RecordTable.mem_of_get? hFound).1
  have nodup : (["Name", "Grade"] : List String).Nodup := by decide
  obtain ⟨function, hLowered, hKept⟩ :=
    parameter_kept_iff school {} schoolStudent mem _ rfl nodup _ List.mem_cons_self
  cases hLowered
  exact ⟨mem, _, rfl, nodup, _, List.mem_cons_self, rfl, _, rfl,
    hKept.mpr fun _ _ _ _ _ => List.mem_cons_self, rfl⟩

end RecordSynthesis
