import RecordSynthesis.Proofs.InheritedClaims
import RecordSynthesis.Proofs.Occurrences

/-!
# Properties that are read

Deconstruction and the text of a record read properties, those of its ancestors included. Every property that they name
is in the view of its owner, but nothing on the way asks whether it can be read: a declared property without a getter
claims a parameter and is printed like any other. So each read comes down to the getters declared where it goes.
-/

namespace RecordSynthesis

set_option autoImplicit false

open Code
open Decl (CompilationUnit Record Member PrimaryParameter)

structure PropertyRef where
  owner : Ty
  name : String
  type : Ty
  deriving Repr

def Code.Expr.propertyLoad : Expr → List PropertyRef
  | .loadProperty _ owner name type => [⟨owner, name, type⟩]
  | _ => []

def Code.Function.propertyLoads (function : Function) : List PropertyRef :=
  function.gather (fun _ => []) Expr.propertyLoad

namespace MemberRead

def property? (read : MemberRead) : Option PropertyRef :=
  match read.access with
  | .property => some ⟨read.owner, read.name, read.type⟩
  | .field => none

theorem access_of_property? {read : MemberRead} {load : PropertyRef} (h : read.property? = some load) :
    read.access = .property := by
  rw [property?] at h
  split at h
  · assumption
  · cases h

theorem propertyLoads_load (read : MemberRead) :
    (read.load .this).gather Expr.propertyLoad = read.property?.toList := by
  rw [load, property?]
  cases read.access <;> rfl

end MemberRead

namespace MemberSet

theorem propertyLoads_lowerDeconstruct (set : MemberSet) :
    set.lowerDeconstruct.propertyLoads = set.positional.filterMap MemberRead.property? := by
  rw [Function.propertyLoads, Function.gather, lowerDeconstruct, Stmt.gatherAll_eq, List.flatMap_map,
    List.filterMap_eq_flatMap_toList]
  simp [Stmt.gather, MemberRead.propertyLoads_load]

theorem propertyLoads_lowerTextForm (set : MemberSet) :
    set.lowerTextForm.propertyLoads = set.printable.filterMap MemberRead.property? := by
  have hPrinted : ∀ lead (read : MemberRead),
      (printedMember lead read).flatMap (Expr.gather Expr.propertyLoad) = read.property?.toList := by
    intro lead read
    simp [printedMember, Expr.gather, Expr.propertyLoad, MemberRead.propertyLoads_load]
  have hParts : set.printedParts.flatMap (Expr.gather Expr.propertyLoad) =
      set.printable.flatMap fun read => read.property?.toList := by
    rw [printedParts]
    split
    · rename_i hNone
      rw [hNone]
      rfl
    · rename_i read others hPrintable
      simp [hPrintable, List.flatMap_append, List.flatMap_assoc, hPrinted, Expr.gather, Expr.propertyLoad]
  rw [List.filterMap_eq_flatMap_toList, ← hParts]
  simp [Function.propertyLoads, Function.gather, lowerTextForm, Stmt.gatherAll, Stmt.gather, Expr.gather,
    Expr.propertyLoad, Expr.gatherAll_eq]

end MemberSet

structure MemberSymbol.IsProperty (symbol : MemberSymbol) (name : String) (type : Ty) : Prop where
  kind : symbol.kind = .property
  ofInstance : symbol.isStatic = false
  named : symbol.name = name
  typed : ∃ held, symbol.returnType = some held ∧ type.same held = true

def MemberSymbol.hasGetter (symbol : MemberSymbol) : Bool :=
  symbol.accessors.any (·.getter)

namespace MemberSet

structure HasReadable (set : MemberSet) (name : String) (type : Ty) : Prop where
  present : ∃ symbol ∈ set.members, symbol.IsProperty name type
  readable : ∀ symbol ∈ set.members, symbol.IsProperty name type → symbol.hasGetter = true

/-- No property of this name and type is declared without a getter. -/
def Reveals (set : MemberSet) (name : String) (type : Ty) : Prop :=
  ∀ q, .property q ∈ set.userMembers → q.isStatic = false → q.name = name → type.same q.type = true → q.hasGetter = true

theorem hasReadable_iff {set : MemberSet} {name : String} {type : Ty} (has : set.HasProperty name type) :
    set.HasReadable name type ↔ set.Reveals name type := by
  constructor
  · intro h q hMember ofInstance named typed
    obtain ⟨position, hAt⟩ := List.mem_iff_getElem?.mp hMember
    have hGetter := h.readable _ (mem_members_of_userMembers hAt) ⟨rfl, ofInstance, named, q.type, rfl, typed⟩
    simpa [MemberSymbol.hasGetter, MemberSymbol.ofMember] using hGetter
  · intro h
    obtain ⟨symbol, hSymbol, kind, ofInstance, named, typed⟩ := has
    refine ⟨⟨symbol, hSymbol, kind, ofInstance, named, type, typed, type.same_refl⟩, ?_⟩
    rintro symbol hSymbol ⟨kind, ofInstance, named, held, hHeld, typed⟩
    rcases property_cases hSymbol kind with ⟨property, -, rfl⟩ | ⟨position, q, hMember, rfl⟩
    · rfl
    · cases hHeld
      exact h q (List.mem_of_getElem? hMember) ofInstance named typed

end MemberSet

namespace RecordTable

/-- A load of a set can be carried out: a level is the owner, and its properties of the name and type have getters. -/
def Readable (table : RecordTable) (set : MemberSet) (load : PropertyRef) : Prop :=
  table.AtLevel set load.owner fun level => level.HasReadable load.name load.type

variable {unit : CompilationUnit} {options : SynthesisOptions} {table : RecordTable} {set : MemberSet}

theorem Grown.readable_iff (grown : table.Grown unit options) (mem : set ∈ table.sets) {owner : MemberSet}
    (level : owner ∈ table.levels set) {name : String} {type : Ty} (has : owner.HasProperty name type) :
    table.Readable set ⟨owner.selfType, name, type⟩ ↔ owner.Reveals name type := by
  rw [← MemberSet.hasReadable_iff has]
  constructor
  · -- No other level has the type of the owner.
    rintro ⟨other, hOther, hType, hReadable⟩
    have hSame : other = owner := by
      refine grown.eq_of_same (grown.levels_subset mem other hOther) (grown.levels_subset mem owner level) ?_
      rw [hType]
      exact owner.selfType.same_refl
    rwa [hSame] at hReadable
  · intro h
    exact ⟨owner, level, rfl, h⟩

end RecordTable

namespace MemberSet

variable {set : MemberSet} {read : MemberRead}

theorem Prints.hasProperty (h : set.Prints read) : set.HasProperty read.name read.type := by
  cases h with
  | synthesized mem =>
    have hSymbol : _ ∈ set.synthesizedOf .property := List.mem_map_of_mem mem
    exact ⟨_, mem_members_of_synthesizedOf hSymbol, rfl, rfl, rfl, rfl⟩
  | declared mem ofInstance _ _ => exact hasProperty_of_declared mem ofInstance

theorem Prints.property?_eq (h : set.Prints read) : read.property? = some ⟨set.selfType, read.name, read.type⟩ := by
  cases h <;> rfl

end MemberSet

namespace RecordTable

variable {unit : CompilationUnit} {options : SynthesisOptions} {table : RecordTable} {set : MemberSet}

/-- What is printed of properties is printed by some level, of its own. -/
theorem Grown.mem_printable_iff (grown : table.Grown unit options) (mem : set ∈ table.sets) {read : MemberRead} :
    read ∈ set.printable ∧ read.access = .property ↔ ∃ level ∈ table.levels set, level.Prints read := by
  obtain ⟨ancestors, -, hLevels, -, hPrintable⟩ := grown.exists_ancestry mem
  rw [hPrintable, ← hLevels, List.mem_flatMap, exists_and_right.symm]
  refine exists_congr fun level => ?_
  rw [and_assoc]
  refine and_congr_right fun hLevel => ?_
  obtain ⟨_, _, _, origin⟩ := grown.exists_origin (grown.levels_subset mem level hLevel)
  exact origin.mem_ownReads_iff

theorem Grown.readable_text_iff (grown : table.Grown unit options) (mem : set ∈ table.sets) :
    (∀ load ∈ set.lowerTextForm.propertyLoads, table.Readable set load) ↔
      ∀ level ∈ table.levels set, ∀ read, level.Prints read → level.Reveals read.name read.type := by
  rw [MemberSet.propertyLoads_lowerTextForm]
  constructor
  · intro h level hLevel read hPrints
    have hRead := (grown.mem_printable_iff mem).mpr ⟨level, hLevel, hPrints⟩
    have hReadable := h _ (List.mem_filterMap.mpr ⟨read, hRead.1, hPrints.property?_eq⟩)
    exact (grown.readable_iff mem hLevel hPrints.hasProperty).mp hReadable
  · intro h load hLoad
    obtain ⟨read, hRead, hSome⟩ := List.mem_filterMap.mp hLoad
    obtain ⟨level, hLevel, hPrints⟩ :=
      (grown.mem_printable_iff mem).mp ⟨hRead, MemberRead.access_of_property? hSome⟩
    rw [hPrints.property?_eq] at hSome
    cases hSome
    exact (grown.readable_iff mem hLevel hPrints.hasProperty).mpr (h level hLevel read hPrints)

/-- A primary parameter is read through a property that can be read, if through a property at all: one of the record
that claims it, one that the base shows, or the one that is synthesized for it. -/
structure ReadsBack (table : RecordTable) (set : MemberSet) (record : Record) (p : PrimaryParameter) : Prop where
  own : ∀ q, record.ownClaimant? p.name = some (.property q) → set.Reveals q.name q.type
  inherited : record.ownClaimant? p.name = none → ∀ above, table.baseOf? set = some above →
    ∀ read, above.shown? p.name = some read → ∀ level ∈ table.levels above, level.Prints read →
      level.Reveals read.name read.type
  made : record.ownClaimant? p.name = none →
    (∀ above, table.baseOf? set = some above → above.shown? p.name = none) → set.Reveals p.name p.type

namespace ReadsBack

variable {record : Record} {p : PrimaryParameter}

theorem of_field {f : Decl.Field} (h : record.ownClaimant? p.name = some (.field f)) :
    table.ReadsBack set record p :=
  ⟨by simp [h], by simp [h], by simp [h]⟩

theorem iff_own {q : Decl.Property} (h : record.ownClaimant? p.name = some (.property q)) :
    table.ReadsBack set record p ↔ set.Reveals q.name q.type := by
  refine ⟨fun reads => reads.own q h, fun reveals => ⟨?_, by simp [h], by simp [h]⟩⟩
  intro other hOther
  rw [h] at hOther
  cases hOther
  exact reveals

theorem iff_inherited {above : MemberSet} {read : MemberRead} (h : record.ownClaimant? p.name = none)
    (derived : table.baseOf? set = some above) (shown : above.shown? p.name = some read) :
    table.ReadsBack set record p ↔
      ∀ level ∈ table.levels above, level.Prints read → level.Reveals read.name read.type := by
  refine ⟨fun reads => reads.inherited h above derived read shown, fun reveals => ⟨by simp [h], fun _ => ?_, ?_⟩⟩
  · intro other hOther found hFound
    obtain rfl : above = other := Option.some.inj (derived.symm.trans hOther)
    obtain rfl : read = found := Option.some.inj (shown.symm.trans hFound)
    exact reveals
  · intro _ hidden
    rw [hidden above derived] at shown
    cases shown

theorem iff_made (h : record.ownClaimant? p.name = none)
    (hidden : ∀ above, table.baseOf? set = some above → above.shown? p.name = none) :
    table.ReadsBack set record p ↔ set.Reveals p.name p.type := by
  refine ⟨fun reads => reads.made h hidden, fun reveals => ⟨by simp [h], ?_, fun _ _ => reveals⟩⟩
  intro _ above derived read shown
  rw [hidden above derived] at shown
  cases shown

end ReadsBack

namespace Origin

variable {record : Record} {base : Option MemberSet} {copy : Option CopyConstructor}

theorem readable_inherited_iff {above : MemberSet} (origin : Origin unit options table set record (some above) copy)
    (grown : table.Grown unit options) (mem : set ∈ table.sets) {read : MemberRead} (printed : read ∈ above.printable)
    (access : read.access = .property) :
    (∀ load, read.property? = some load → table.Readable set load) ↔
      ∀ level ∈ table.levels above, level.Prints read → level.Reveals read.name read.type := by
  have hLevels : ∀ level ∈ table.levels above, level ∈ table.levels set := by
    intro level hLevel
    rw [origin.levels_eq_of_some]
    exact List.mem_append_left _ hLevel
  constructor
  · intro h level hLevel hPrints
    exact (grown.readable_iff mem (hLevels level hLevel) hPrints.hasProperty).mp (h _ hPrints.property?_eq)
  · intro h load hLoad
    obtain ⟨level, hLevel, hPrints⟩ := (grown.mem_printable_iff (origin.base_mem rfl).1).mp ⟨printed, access⟩
    rw [hPrints.property?_eq] at hLoad
    cases hLoad
    exact (grown.readable_iff mem (hLevels level hLevel) hPrints.hasProperty).mpr (h level hLevel hPrints)

theorem readable_positional_iff (origin : Origin unit options table set record base copy)
    (grown : table.Grown unit options) (mem : set ∈ table.sets) {p : PrimaryParameter}
    (parameter : p ∈ record.parameters) :
    (∀ load, (record.positionalRead base p).property? = some load → table.Readable set load) ↔
      table.ReadsBack set record p := by
  have hSelf : record.selfType = set.selfType := by
    rw [origin.made]
    rfl
  have hReads : ∀ {name : String} {type : Ty}, set.HasProperty name type →
      ((∀ load, some (PropertyRef.mk set.selfType name type) = some load → table.Readable set load) ↔
        set.Reveals name type) := by
    intro name type has
    rw [← grown.readable_iff mem (table.mem_levels_self set) has]
    simp
  obtain ⟨type, hType⟩ := Record.exists_parameterType? parameter
  have hOwn : record.ownClaimant? p.name = record.claimant? p.name type := by
    rw [Record.ownClaimant?, hType, Option.bind_some]
  have settled := record.claim?_settled base hType
  rw [Record.positionalRead]
  generalize hClaim : record.claim? base p.name = claim at settled
  cases settled with
  | field first =>
    refine ⟨fun _ => .of_field (hOwn.trans first), ?_⟩
    rintro - load ⟨⟩
  | @property q first =>
    obtain ⟨hMember, hClaims⟩ := Record.claimant?_eq_some first
    obtain ⟨ofInstance, named, -⟩ := Member.claims_property.mp hClaims
    have hDeclared : .property q ∈ set.userMembers := by
      rw [origin.made]
      exact hMember
    rw [ReadsBack.iff_own (hOwn.trans first), hSelf, ← named]
    exact hReads (MemberSet.hasProperty_of_declared hDeclared ofInstance)
  | @inherited above read unclaimed derived shown =>
    subst derived
    have hShown : read.name = p.name ∧ read.access = .property := by simpa using List.find?_some shown
    have hRead : (⟨p.name, read.type, .property, read.owner⟩ : MemberRead) = read := by
      rw [← hShown.1, ← hShown.2]
    rw [ReadsBack.iff_inherited (hOwn.trans unclaimed) origin.baseOf?_eq shown]
    dsimp only
    rw [hRead]
    exact origin.readable_inherited_iff grown mem (List.mem_of_find?_eq_some shown) hShown.2
  | nobody unclaimed hidden =>
    have hUnclaimed : p ∈ record.unclaimed base := List.mem_filter.mpr ⟨parameter, by rw [hClaim]; rfl⟩
    have has : set.HasProperty p.name p.type := by
      rw [origin.made]
      exact record.hasProperty_of_unclaimed _ _ _ _ hUnclaimed
    rw [← origin.baseOf?_eq] at hidden
    rw [ReadsBack.iff_made (hOwn.trans unclaimed) hidden, hSelf]
    exact hReads has

theorem readable_deconstruct_iff (origin : Origin unit options table set record base copy)
    (grown : table.Grown unit options) (mem : set ∈ table.sets) :
    (∀ load ∈ set.lowerDeconstruct.propertyLoads, table.Readable set load) ↔
      ∀ p ∈ record.parameters, table.ReadsBack set record p := by
  have hPositional : set.positional = record.parameters.map (record.positionalRead base) := by
    rw [origin.made]
    rfl
  rw [MemberSet.propertyLoads_lowerDeconstruct, hPositional, List.filterMap_map]
  constructor
  · intro h p hp
    exact (origin.readable_positional_iff grown mem hp).mp fun load hLoad =>
      h load (List.mem_filterMap.mpr ⟨p, hp, hLoad⟩)
  · intro h load hLoad
    obtain ⟨p, hp, hRead⟩ := List.mem_filterMap.mp hLoad
    exact (origin.readable_positional_iff grown mem hp).mpr (h p hp) load hRead

end Origin

end RecordTable

/-- The loads of the lowered text of a set can be carried out exactly if no level declares a property without a getter
under the name and type of one that it prints, and those of its lowered deconstruction exactly if every primary
parameter that is read through a property is read through one that can be read. -/
theorem property_loads_readable_iff (unit : CompilationUnit) (options : SynthesisOptions) (set : MemberSet)
    (mem : set ∈ (checkUnit unit options).table.sets) (record : Record)
    (declared : unit.find? set.recordName = some record) :
    let table := (checkUnit unit options).table
    (∀ function, set.lower? .textForm = some function →
      ((∀ load ∈ function.propertyLoads, table.Readable set load) ↔
        ∀ level ∈ table.levels set, ∀ read, level.Prints read → level.Reveals read.name read.type)) ∧
    ∀ function, set.lower? .deconstruct = some function →
      ((∀ load ∈ function.propertyLoads, table.Readable set load) ↔
        ∀ p ∈ record.parameters, table.ReadsBack set record p) := by
  intro table
  have grown : table.Grown unit options := checkUnit_grown unit options
  obtain ⟨base, copy, origin⟩ := grown.exists_origin_of_find? mem declared
  refine ⟨?_, ?_⟩
  · intro function hLowered
    obtain ⟨-, ⟨⟩⟩ := Option.ite_none_right_eq_some.mp hLowered
    exact grown.readable_text_iff mem
  · intro function hLowered
    obtain ⟨-, ⟨⟩⟩ := Option.ite_none_right_eq_some.mp hLowered
    exact origin.readable_deconstruct_iff grown mem

def safeCode : Decl.Property where
  name := "Code"
  type := Ty.string
  hasGetter := false
  setter := .set
  visibility := .isPublic

def vault : CompilationUnit where
  records :=
    [{ name := "Safe", parameters := [{ name := "Code", type := Ty.string }], members := [.property safeCode] }]

/-- Nothing is reported, and yet both functions read a property that has no getter. -/
theorem not_property_loads_readable_safe :
    let result := checkUnit vault.resolve {}
    result.diagnostics.isEmpty = true ∧ result.faults = [] ∧
      ∃ set ∈ result.table.sets, ∃ textForm deconstruct load, set.lower? .textForm = some textForm ∧
        set.lower? .deconstruct = some deconstruct ∧ textForm.propertyLoads = [load] ∧
        deconstruct.propertyLoads = [load] ∧ ¬result.table.Readable set load := by
  intro result
  have hSafe : result.table.sets[0]? = some _ := rfl
  refine ⟨rfl, rfl, _, List.mem_of_getElem? hSafe, _, _, _, rfl, rfl, rfl, rfl, ?_⟩
  rintro ⟨level, hLevel, -, hReadable⟩
  have hDeclared : .property safeCode ∈ level.userMembers := by
    rw [RecordTable.levels] at hLevel
    rw [List.mem_singleton.mp hLevel]
    exact List.mem_cons_self
  have has := MemberSet.hasProperty_of_declared hDeclared rfl
  cases (MemberSet.hasReadable_iff has).mp hReadable _ hDeclared rfl rfl rfl

theorem property_loads_readable_iff_student :
    schoolStudent ∈ (checkUnit school {}).table.sets ∧
    ∃ textForm deconstruct, schoolStudent.lower? .textForm = some textForm ∧
      schoolStudent.lower? .deconstruct = some deconstruct ∧
      (textForm.propertyLoads.map (·.name), deconstruct.propertyLoads.map (·.name)) = (["Name"], ["Name"]) ∧
      (∀ load ∈ textForm.propertyLoads, (checkUnit school {}).table.Readable schoolStudent load) ∧
      ∀ load ∈ deconstruct.propertyLoads, (checkUnit school {}).table.Readable schoolStudent load := by
  have hFound : (checkUnit school {}).table.get? "Student" = some schoolStudent := rfl
  have mem := (RecordTable.mem_of_get? hFound).1
  have grown := checkUnit_grown school {}
  have hSets : (checkUnit school {}).table.sets = [_, _] := rfl
  have hReveals : ∀ level ∈ (checkUnit school {}).table.sets, ∀ name type, level.Reveals name type := by
    intro level hLevel name type q hMember
    rw [hSets] at hLevel
    rcases List.mem_pair.mp hLevel with rfl | rfl
    · cases hMember
    · cases hMember with
      | tail _ hMember => cases hMember
  obtain ⟨hText, hDeconstruct⟩ := property_loads_readable_iff school {} schoolStudent mem _ rfl
  refine ⟨mem, _, _, rfl, rfl, by decide +kernel, (hText _ rfl).mpr ?_, (hDeconstruct _ rfl).mpr ?_⟩
  · intro level hLevel read _
    exact hReveals level (grown.levels_subset mem level hLevel) _ _
  · intro p _
    refine ⟨fun q _ => hReveals _ mem _ _, ?_, fun _ _ => hReveals _ mem _ _⟩
    intro _ above hAbove read _ level hLevel _
    exact hReveals level (grown.levels_subset (RecordTable.mem_of_get? hAbove).1 level hLevel) _ _

end RecordSynthesis
