import RecordSynthesis.Code.Lowering
import RecordSynthesis.Proofs.Inheritance

/-!
# Passes over the state

Typed equality, hashing and copying each go over the state of an instance, and each leaves the state of the ancestors to
the function that the base has for the same purpose. Here such a pass is read off the lowered code, the calls on the base
are replaced by the pass that they start, and the three passes are compared.
-/

namespace RecordSynthesis

set_option autoImplicit false

open Code
open Decl (CompilationUnit Record)

/-- What one piece of code does in a pass: it visits a field, or has the base visit its own. -/
inductive PassStep (Visit : Type)
  | own (visit : Visit)
  | inherited (owner : Ty)
  /-- Code that has no place in a pass. -/
  | foreign

structure Comparison where
  equality : EqualityStrategy
  type : Ty
  left : FieldRef
  right : FieldRef

structure Digest where
  equality : EqualityStrategy
  type : Ty
  field : FieldRef

structure Transfer where
  target : FieldRef
  source : FieldRef

namespace Code

def Expr.conjuncts : Expr → List Expr
  | .andAlso left right => left.conjuncts ++ right.conjuncts
  | term => [term]

def Expr.hashTerms : Expr → List Expr
  | .combineHashes left right => left.hashTerms ++ right.hashTerms
  | term => [term]

def Function.result? (function : Function) : Option Expr :=
  match function.body.getLast? with
  | some (.exit value) => value
  | _ => none

def Expr.comparisons (other : String) : Expr → List (PassStep Comparison)
  | .bool true => []
  | .memberEquals equality type (.loadField .this left) (.loadField (.parameter name) right) =>
    if name = other then [.own ⟨equality, type, left, right⟩] else [.foreign]
  | .callBase method [.cast (.parameter name) type] =>
    if name = other ∧ type.same method.owner ∧ method.name = "Equals"
        ∧ Signature.ofTypes method.types = [method.owner.canonical] then
      [.inherited method.owner]
    else [.foreign]
  | _ => [.foreign]

def Expr.digests : Expr → List (PassStep Digest)
  | .typeHash _ => []
  | .memberHash equality type (.loadField .this field) => [.own ⟨equality, type, field⟩]
  | .callBase method [] =>
    if method.name = "GetHashCode" ∧ method.types.isEmpty then [.inherited method.owner] else [.foreign]
  | _ => [.foreign]

def Stmt.transfers (original : String) : Stmt → List (PassStep Transfer)
  | .callBaseConstructor .object [] => []
  | .callBaseConstructor (.record type types) [.parameter name] =>
    if name = original ∧ Signature.ofTypes types = [type.canonical] then [.inherited type] else [.foreign]
  | .storeField .this target (.loadField (.parameter name) source) =>
    if name = original then [.own ⟨target, source⟩] else [.foreign]
  | _ => [.foreign]

end Code

namespace MemberSet

def equalityPass (set : MemberSet) : List (PassStep Comparison) :=
  match set.lower? .typedEquals with
  | some function =>
    match function.parameters, function.result? with
    | [other], some value => value.conjuncts.flatMap (Expr.comparisons other.name)
    | _, _ => [.foreign]
  | none => [.foreign]

def hashPass (set : MemberSet) : List (PassStep Digest) :=
  match set.lower? .hash with
  | some function =>
    match function.parameters, function.result? with
    | [], some value => value.hashTerms.flatMap Expr.digests
    | _, _ => [.foreign]
  | none => [.foreign]

def copyPass (set : MemberSet) : List (PassStep Transfer) :=
  match set.lower? .copyConstructor with
  | some function =>
    match function.parameters with
    | [original] => function.body.flatMap (Stmt.transfers original.name)
    | _ => [.foreign]
  | none => [.foreign]

end MemberSet

/-- A pass with every step that the base is to make replaced by the pass of the set that declares the base. A step whose
base is not found stays as it is. -/
def RecordTable.unroll {Visit : Type} (table : RecordTable) (pass : MemberSet → List (PassStep Visit))
    (set : MemberSet) : List (PassStep Visit) :=
  (pass set).flatMap fun
    | .inherited owner =>
      match table.owner? owner with
      | some base =>
        if _h : base.inheritanceDepth < set.inheritanceDepth then table.unroll pass base else [.inherited owner]
      | none => [.inherited owner]
    | step => [step]
termination_by set.inheritanceDepth

namespace MemberSet

def visits (set : MemberSet) : List (EqualityStrategy × FieldRef) :=
  set.state.map fun state => (state.equality, set.stateField state)

def hasSynthesizedCopy (set : MemberSet) : Bool :=
  match set.copyConstructor with
  | some (.synthesized _) => true
  | _ => false

/-- A pass that has the base make its own, if there is a base, and then visits the record's own state. -/
def basedPass {Visit : Type} (set : MemberSet) (visit : EqualityStrategy × FieldRef → Visit) : List (PassStep Visit) :=
  (set.base.toList.map fun base => .inherited base.selfType) ++ set.visits.map fun v => .own (visit v)

end MemberSet

theorem conjuncts_foldl_andAlso (terms : List Expr) (first : Expr) :
    (terms.foldl Expr.andAlso first).conjuncts = first.conjuncts ++ terms.flatMap Expr.conjuncts := by
  induction terms generalizing first with
  | nil => simp
  | cons term terms ih => rw [List.foldl_cons, ih, Expr.conjuncts, List.flatMap_cons, List.append_assoc]

theorem comparisons_conjunction (other : String) (terms : List Expr) :
    (MemberSet.conjunction terms).conjuncts.flatMap (Expr.comparisons other) =
      (terms.flatMap Expr.conjuncts).flatMap (Expr.comparisons other) := by
  cases terms with
  | nil => rfl
  | cons term terms => rw [MemberSet.conjunction, conjuncts_foldl_andAlso, List.flatMap_cons]

theorem MemberSet.equalityTerms_comparisons (set : MemberSet) :
    (set.equalityTerms.flatMap Expr.conjuncts).flatMap (Expr.comparisons "other") =
      set.basedPass fun v => ⟨v.1, v.2.type, v.2, v.2⟩ := by
  rw [equalityTerms, basedPass, visits, List.flatMap_append, List.flatMap_append]
  congr 1
  · cases set.base <;> simp [Expr.conjuncts, Expr.comparisons, typedEqualsRef, Signature.ofTypes]
  · induction set.state with
    | nil => rfl
    | cons state others ih =>
      simp only [List.map_cons, List.flatMap_cons, List.flatMap_append, ih]
      simp [Expr.conjuncts, Expr.comparisons, stateField, field]

theorem MemberSet.equalityPass_eq {set : MemberSet} (h : set.equality.typedEquals = .synthesized) :
    set.equalityPass = set.basedPass fun v => ⟨v.1, v.2.type, v.2, v.2⟩ := by
  have hResult : set.lowerTypedEquals.result? = some (conjunction set.equalityTerms) := by
    simp [lowerTypedEquals, Function.result?]
  rw [equalityPass, lower?, if_pos h]
  simp only [hResult]
  rw [← equalityTerms_comparisons, ← comparisons_conjunction]
  rfl

theorem hashTerms_foldl_combineHashes {α : Type} (digest : α → Expr) (items : List α) (seed : Expr) :
    (items.foldl (fun hash item => .combineHashes hash (digest item)) seed).hashTerms =
      seed.hashTerms ++ items.flatMap fun item => (digest item).hashTerms := by
  induction items generalizing seed with
  | nil => simp
  | cons item items ih => rw [List.foldl_cons, ih, Expr.hashTerms, List.flatMap_cons, List.append_assoc]

theorem MemberSet.hashPass_eq {set : MemberSet} (h : set.equality.hash = .synthesized) :
    set.hashPass = set.basedPass fun v => ⟨v.1, v.2.type, v.2⟩ := by
  have hSeed : set.hashSeed.hashTerms.flatMap Expr.digests =
      set.base.toList.map fun base => .inherited base.selfType := by
    rw [hashSeed]
    cases set.base <;> simp [Expr.hashTerms, Expr.digests]
  rw [hashPass, lower?, if_pos h]
  simp only [lowerHash, Function.result?, List.getLast?_singleton]
  rw [hashTerms_foldl_combineHashes, List.flatMap_append, hSeed, basedPass, visits]
  congr 1
  induction set.state with
  | nil => rfl
  | cons state others ih =>
    simp only [List.map_cons, List.flatMap_cons, List.flatMap_append, ih]
    simp [Expr.hashTerms, Expr.digests, stateField, field]

theorem MemberSet.copyPass_eq {set : MemberSet} {base : Option MemberSet}
    (h : set.copyConstructor = some (.synthesized (.copying copyParameterName base)))
    (hBase : set.base.map (·.selfType) = base.map (·.selfType)) :
    set.copyPass = set.basedPass fun v => ⟨v.2, v.2⟩ := by
  have hChain : (ConstructorChain.copying copyParameterName base).toStmts.flatMap (Stmt.transfers copyParameterName) =
      (set.base.map (·.selfType)).toList.map .inherited := by
    rw [hBase]
    cases base <;> simp [ConstructorChain.copying, ConstructorChain.toStmts, Stmt.transfers, Signature.ofTypes]
  rw [copyPass, lower?, h]
  simp only [Option.map_some, lowerCopyConstructor]
  rw [List.flatMap_append, hChain, basedPass, visits]
  congr 1
  · cases set.base <;> rfl
  · induction set.state with
    | nil => rfl
    | cons state others ih =>
      simp only [List.map_cons, List.flatMap_cons, ih]
      simp [Stmt.transfers]

namespace RecordTable

variable {unit : CompilationUnit} {options : SynthesisOptions} {table : RecordTable}

/-- A pass that has the same shape at every level visits the state of all levels, from the most distant ancestor on. -/
theorem Grown.unroll_eq {Visit : Type} (grown : table.Grown unit options) (pass : MemberSet → List (PassStep Visit))
    (visit : EqualityStrategy × FieldRef → Visit) {set : MemberSet} (mem : set ∈ table.sets)
    (shape : ∀ level ∈ table.levels set, pass level = level.basedPass visit) :
    table.unroll pass set = ((table.levels set).flatMap MemberSet.visits).map fun v => .own (visit v) := by
  refine grown.induction (P := fun set => (∀ level ∈ table.levels set, pass level = level.basedPass visit) →
    table.unroll pass set = ((table.levels set).flatMap MemberSet.visits).map fun v => .own (visit v))
    ?_ ?_ set mem shape
  · intro set record copy _ origin shape
    have hBase : set.base = none := by
      rw [origin.made]
      rfl
    rw [unroll, shape set (table.mem_levels_self set), MemberSet.basedPass, hBase, origin.levels_eq_of_none]
    simp [List.flatMap_map, ← List.map_eq_flatMap]
  · intro set record above copy _ hAbove origin ih shape
    have hBase : (set.base.toList.map fun base => .inherited base.selfType : List (PassStep Visit)) =
        [.inherited above.selfType] := by
      rw [origin.made]
      rfl
    have hDepth : above.inheritanceDepth < set.inheritanceDepth := by
      rw [origin.depth_eq rfl]
      exact Nat.lt_succ_self _
    rw [origin.levels_eq_of_some] at shape ⊢
    have hIh := ih fun level hLevel => shape level (List.mem_append_left _ hLevel)
    rw [unroll, shape set (List.mem_append_right _ List.mem_cons_self), MemberSet.basedPass, hBase]
    simp only [List.singleton_append, List.flatMap_cons, grown.owner?_selfType hAbove, dif_pos hDepth, hIh]
    simp [List.flatMap_map, ← List.map_eq_flatMap]

end RecordTable

theorem Decl.Record.effectiveMembers_pairwise (record : Record) :
    record.effectiveMembers.Pairwise fun m n => m.order < n.order := by
  rw [List.pairwise_iff_getElem]
  intro i j hi hj hij
  simpa [effectiveMembers] using hij

theorem RecordTable.Grown.state_pairwise {unit : CompilationUnit} {options : SynthesisOptions} {table : RecordTable}
    (grown : table.Grown unit options) {set : MemberSet} (mem : set ∈ table.sets) :
    (set.state.map fun state => state.member.order).Pairwise (· < ·) := by
  obtain ⟨record, base, copy, origin⟩ := grown.exists_origin mem
  have hState : set.state = record.ownState base record.effectiveMembers := by
    rw [origin.made]
    rfl
  rw [hState, Record.ownState, List.map_map]
  exact List.Pairwise.map _ (fun _ _ h => h) (record.effectiveMembers_pairwise.filter _)

/-- A synthesized copy constructor hands what it copies on to the copy constructor of the base. -/
theorem RecordTable.Origin.copyConstructor_eq {unit : CompilationUnit} {options : SynthesisOptions} {table : RecordTable}
    {set : MemberSet} {record : Record} {base : Option MemberSet} {copy : Option CopyConstructor}
    (origin : Origin unit options table set record base copy) (h : set.hasSynthesizedCopy = true) :
    set.copyConstructor = some (.synthesized (.copying copyParameterName base)) := by
  obtain ⟨chain, hChain⟩ : ∃ chain, set.copyConstructor = some (.synthesized chain) := by
    rw [MemberSet.hasSynthesizedCopy] at h
    split at h
    · exact ⟨_, ‹_›⟩
    · cases h
  have hCopy : set.copyConstructor = copy := by
    rw [origin.made]
    rfl
  have hCopied := origin.copied
  rw [← hCopy, hChain] at hCopied
  rcases Record.copyConstructor_eq_ok hCopied.2 with hSynthesized | ⟨_, _, _, _, _, _, _, hAdopted⟩
  · rw [hChain, hSynthesized]
  · cases hAdopted

theorem RecordTable.Grown.copyPass_eq {unit : CompilationUnit} {options : SynthesisOptions} {table : RecordTable}
    (grown : table.Grown unit options) {set : MemberSet} (mem : set ∈ table.sets)
    (h : set.hasSynthesizedCopy = true) : set.copyPass = set.basedPass fun v => ⟨v.2, v.2⟩ := by
  obtain ⟨record, base, copy, origin⟩ := grown.exists_origin mem
  have hBase : set.base.map (·.selfType) = base.map (·.selfType) := by
    rw [origin.made]
    cases base <;> rfl
  exact MemberSet.copyPass_eq (origin.copyConstructor_eq h) hBase

/-- Typed equality, hashing and copying go over the same state of the whole chain of ancestors: with the calls on the
base unrolled, each visits the own state of every level once, the most distant ancestor first and each level in the
order of its declaration, and each reaches it through the same fields; equality and hashing treat it alike, and copying
moves every field into the very field that it comes from. -/
theorem passes_visit_same_state (unit : CompilationUnit) (options : SynthesisOptions) (set : MemberSet)
    (mem : set ∈ (checkUnit unit options).table.sets) :
    let table := (checkUnit unit options).table
    let visits := (table.levels set).flatMap MemberSet.visits
    (∀ level ∈ table.levels set, (level.state.map fun state => state.member.order).Pairwise (· < ·)) ∧
    ((∀ level ∈ table.levels set, level.equality.typedEquals = .synthesized) →
      table.unroll MemberSet.equalityPass set = visits.map fun v => .own ⟨v.1, v.2.type, v.2, v.2⟩) ∧
    ((∀ level ∈ table.levels set, level.equality.hash = .synthesized) →
      table.unroll MemberSet.hashPass set = visits.map fun v => .own ⟨v.1, v.2.type, v.2⟩) ∧
    ((∀ level ∈ table.levels set, level.hasSynthesizedCopy = true) →
      table.unroll MemberSet.copyPass set = visits.map fun v => .own ⟨v.2, v.2⟩) := by
  intro table visits
  have grown := checkUnit_grown unit options
  have inTable := grown.levels_subset mem
  refine ⟨?_, ?_, ?_, ?_⟩
  · intro level hLevel
    exact grown.state_pairwise (inTable level hLevel)
  · intro h
    exact grown.unroll_eq _ _ mem fun level hLevel => MemberSet.equalityPass_eq (h level hLevel)
  · intro h
    exact grown.unroll_eq _ _ mem fun level hLevel => MemberSet.hashPass_eq (h level hLevel)
  · intro h
    exact grown.unroll_eq _ _ mem fun level hLevel => grown.copyPass_eq (inTable level hLevel) (h level hLevel)

def people : CompilationUnit where
  records :=
    [{ name := "Student", parameters := [{ name := "Grade", type := Ty.int }], base := some "Person" },
      { name := "Person", parameters := [{ name := "Name", type := Ty.string }] }]

def student : MemberSet :=
  ((checkUnit people {}).table.get? "Student").getD default

theorem passes_visit_same_state_student :
    let table := (checkUnit people {}).table
    let visits := (table.levels student).flatMap MemberSet.visits
    student ∈ table.sets ∧
    visits.map (fun v => (v.2.owner.canonical, v.2.name)) =
      [("Person", "<Name>k__BackingField"), ("Student", "<Grade>k__BackingField")] ∧
    table.unroll MemberSet.equalityPass student = visits.map (fun v => .own ⟨v.1, v.2.type, v.2, v.2⟩) ∧
    table.unroll MemberSet.hashPass student = visits.map (fun v => .own ⟨v.1, v.2.type, v.2⟩) ∧
    table.unroll MemberSet.copyPass student = visits.map (fun v => .own ⟨v.2, v.2⟩) := by
  have hFound : (checkUnit people {}).table.get? "Student" = some student := rfl
  have mem := (RecordTable.mem_of_get? hFound).1
  obtain ⟨-, hEquality, hHash, hCopy⟩ := passes_visit_same_state people {} student mem
  exact ⟨mem, by decide +kernel, hEquality (by decide +kernel), hHash (by decide +kernel), hCopy (by decide +kernel)⟩

end RecordSynthesis
