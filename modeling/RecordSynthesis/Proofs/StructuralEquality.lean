import RecordSynthesis.Proofs.Instances

/-!
# Structural equality

What the comparisons of a record come to when they run. Typed equality goes over the state of the record and of those
above it and over nothing else, whatever the runtime types; equality with any object first asks for the exact type. The
calls on the base nest as deep as the record stands.
-/

namespace RecordSynthesis

set_option autoImplicit false

open Code
open Decl (CompilationUnit Record)

namespace Code.Program

def agree (program : Program) (heap : Heap) (set : MemberSet) (left right : Object) : Bool :=
  (program.table.state set).all fun visit =>
    program.interpretation.equals heap visit.1 visit.2.type (left.read visit.2) (right.read visit.2)

section

variable {program : Program} {invoke : Function → Option Value → List Value → Run Outcome} {frame : Frame} {heap : Heap}
  {α : Type} {term : α → Expr} {answer : α → Bool}

theorem eval_foldl_andAlso (items : List α)
    (h : ∀ item ∈ items, program.eval invoke frame (term item) heap = .ok (.bool (answer item), heap)) (first : Expr)
    (b : Bool) (hFirst : program.eval invoke frame first heap = .ok (.bool b, heap)) :
    program.eval invoke frame ((items.map term).foldl .andAlso first) heap =
      .ok (.bool (b && items.all answer), heap) := by
  induction items generalizing first b with
  | nil => simpa using hFirst
  | cons item items ih =>
    obtain ⟨hItem, hItems⟩ := List.forall_mem_cons.mp h
    rw [List.map_cons, List.foldl_cons, List.all_cons, ← Bool.and_assoc]
    refine ih hItems _ _ ?_
    cases b with
    | false => exact eval_andAlso_false hFirst
    | true => exact eval_andAlso_true hFirst hItem

theorem eval_conjunction (items : List α)
    (h : ∀ item ∈ items, program.eval invoke frame (term item) heap = .ok (.bool (answer item), heap)) :
    program.eval invoke frame (MemberSet.conjunction (items.map term)) heap = .ok (.bool (items.all answer), heap) := by
  cases items with
  | nil =>
    rw [List.map_nil, MemberSet.conjunction, eval]
    rfl
  | cons item items =>
    obtain ⟨hItem, hItems⟩ := List.forall_mem_cons.mp h
    exact eval_foldl_andAlso items hItems _ _ hItem

end

end Code.Program

namespace MemberSet

def comparison (set : MemberSet) (state : StateMember) : Expr :=
  .memberEquals state.equality state.member.type (.loadField .this (set.stateField state))
    (.loadField (.parameter "other") (set.stateField state))

def baseComparison (above : MemberSet) : Expr :=
  .callBase (typedEqualsRef above.selfType) [.cast (.parameter "other") above.selfType]

end MemberSet

namespace RecordTable.Origin

variable {unit : CompilationUnit} {options : SynthesisOptions} {table : RecordTable} {set above : MemberSet}
  {record : Record} {copy : Option CopyConstructor}

theorem equalityTerms_of_none (origin : Origin unit options table set record none copy) :
    set.equalityTerms = set.state.map set.comparison := by
  have hBase : set.base = none := by
    rw [origin.made]
    rfl
  rw [MemberSet.equalityTerms, hBase, List.nil_append]
  rfl

theorem equalityTerms_of_some (origin : Origin unit options table set record (some above) copy) :
    set.equalityTerms = above.baseComparison :: set.state.map set.comparison := by
  have hBase : set.base = some ⟨above.recordName, above.selfType, above.inheritanceDepth⟩ := by
    rw [origin.made]
    rfl
  rw [MemberSet.equalityTerms, hBase, List.singleton_append]
  rfl

end RecordTable.Origin

namespace Code.Program

variable {unit : CompilationUnit} {options : SynthesisOptions} {program : Program} {typing : Typing} {heap : Heap}
  {set above runtime : MemberSet} {left right : Value} {leftObject rightObject : Object}

theorem eval_comparison {invoke : Function → Option Value → List Value → Run Outcome}
    (leftFound : heap.object? left = some leftObject) (rightFound : heap.object? right = some rightObject)
    (leftFills : program.Fills typing heap set leftObject) (rightFills : program.Fills typing heap set rightObject) :
    ∀ state ∈ set.state, program.eval invoke ⟨some left, [("other", right)]⟩ (set.comparison state) heap =
      .ok (.bool (program.interpretation.equals heap state.equality state.member.type
        (leftObject.read (set.stateField state)) (rightObject.read (set.stateField state))), heap) := by
  intro state hState
  have hSelf := program.table.mem_levels_self set
  exact eval_memberEquals (eval_loadField (eval_this rfl) leftFound (leftFills.read?_eq hSelf hState))
    (eval_loadField (eval_parameter rfl) rightFound (rightFills.read?_eq hSelf hState))

/-- The base sees the other instance as one of its own, and its own code for typed equality runs. -/
theorem eval_baseComparison (grown : program.table.Grown unit options) (mem : above ∈ program.table.sets)
    (synthesized : above.equality.typedEquals = .synthesized)
    (rightInstance : program.IsInstance heap runtime right rightObject)
    (under : above ∈ program.table.levels runtime) {invoke : Function → Option Value → List Value → Run Outcome} {b : Bool}
    (h : invoke above.lowerTypedEquals (some left) [right] heap = .ok (.returned (.bool b), heap)) :
    program.eval invoke ⟨some left, [("other", right)]⟩ above.baseComparison heap = .ok (.bool b, heap) := by
  obtain ⟨_, _, _, origin⟩ := grown.exists_origin mem
  have hArguments : program.evalAll invoke ⟨some left, [("other", right)]⟩
      [.cast (.parameter "other") above.selfType] heap = .ok ([right], heap) :=
    evalAll_singleton (eval_cast (eval_parameter rfl) (rightInstance.fits under))
  rw [MemberSet.baseComparison, eval_callBase rfl hArguments, grown.own?_eq mem false rfl,
    origin.method?_typedEquals synthesized]
  exact callValue_ok h

theorem invoke_typedEquals_of_ne_null (notNull : right ≠ .null) {depth : Nat} {b : Bool}
    (h : program.eval (program.invoke depth) ⟨some left, [("other", right)]⟩
      (MemberSet.conjunction set.equalityTerms) heap = .ok (.bool b, heap)) :
    program.invoke (depth + 1) set.lowerTypedEquals (some left) [right] heap =
      .ok (.returned (.bool b), heap) := by
  rw [invoke, MemberSet.lowerTypedEquals]
  cases hKind : set.isValueType with
  | true => exact execAll_exit h
  | false =>
    exact execAll_next (exec_when_not (eval_isNull_of_ne (eval_parameter rfl) notNull)) (execAll_exit h)

theorem invoke_typedEquals_null (reference : set.isValueType = false) (left : Value) (heap : Heap) :
    ∀ depth > 0, program.invoke depth set.lowerTypedEquals (some left) [.null] heap =
      .ok (.returned (.bool false), heap) := by
  refine forall_invoke fun depth _ => ?_
  rw [MemberSet.lowerTypedEquals, reference]
  exact execAll_stop (exec_when (eval_isNull_null (eval_parameter rfl)) (execAll_exit eval_bool))

theorem agree_of_none {record : Record} {copy : Option CopyConstructor}
    (origin : RecordTable.Origin unit options program.table set record none copy) :
    program.agree heap set leftObject rightObject = set.state.all fun state =>
      program.interpretation.equals heap state.equality state.member.type (leftObject.read (set.stateField state))
        (rightObject.read (set.stateField state)) := by
  rw [agree, origin.state_eq_of_none, MemberSet.visits, List.all_map]
  rfl

theorem agree_of_some {record : Record} {copy : Option CopyConstructor}
    (origin : RecordTable.Origin unit options program.table set record (some above) copy) :
    program.agree heap set leftObject rightObject =
      (program.agree heap above leftObject rightObject && set.state.all fun state =>
        program.interpretation.equals heap state.equality state.member.type (leftObject.read (set.stateField state))
          (rightObject.read (set.stateField state))) := by
  rw [agree, origin.state_eq_of_some, List.all_append, MemberSet.visits, List.all_map, agree]
  rfl

/-- Typed equality of two instances compares them in the state of the record and of those above it. -/
theorem invoke_typedEquals (grown : program.table.Grown unit options) (mem : set ∈ program.table.sets)
    (synthesized : ∀ level ∈ program.table.levels set, level.equality.typedEquals = .synthesized)
    (leftFound : heap.object? left = some leftObject) (leftFills : program.Fills typing heap set leftObject)
    (rightInstance : program.IsInstance heap runtime right rightObject) (under : set ∈ program.table.levels runtime)
    (rightFills : program.Fills typing heap set rightObject) :
    ∀ depth > set.inheritanceDepth, program.invoke depth set.lowerTypedEquals (some left) [right] heap =
      .ok (.returned (.bool (program.agree heap set leftObject rightObject)), heap) := by
  have notNull : right ≠ .null := by
    rintro rfl
    cases rightInstance.found
  have comparisons : ∀ level ∈ program.table.levels set, ∀ depth, ∀ state ∈ level.state,
      program.eval (program.invoke depth) ⟨some left, [("other", right)]⟩ (level.comparison state) heap =
        .ok (.bool (program.interpretation.equals heap state.equality state.member.type
          (leftObject.read (level.stateField state)) (rightObject.read (level.stateField state))), heap) :=
    fun level hLevel _ => eval_comparison leftFound rightInstance.found (leftFills.of_under grown mem hLevel)
      (rightFills.of_under grown mem hLevel)
  refine grown.levels_induction mem (P := fun level depth =>
    program.invoke depth level.lowerTypedEquals (some left) [right] heap =
      .ok (.returned (.bool (program.agree heap level leftObject rightObject)), heap)) ?_ ?_
  · intro level hLevel record copy depth origin
    refine invoke_typedEquals_of_ne_null notNull ?_
    rw [origin.equalityTerms_of_none, agree_of_none origin]
    exact eval_conjunction _ (comparisons level hLevel depth)
  · intro level hLevel record above copy depth aboveLevel origin hAbove
    refine invoke_typedEquals_of_ne_null notNull ?_
    rw [origin.equalityTerms_of_some, agree_of_some origin]
    refine eval_foldl_andAlso _ (comparisons level hLevel depth) _ _ ?_
    exact eval_baseComparison grown (grown.levels_subset mem above aboveLevel) (synthesized above aboveLevel)
      rightInstance (grown.levels_trans rightInstance.mem under aboveLevel) hAbove

/-- A virtual call of typed equality runs the code of the record whose method is called, whatever the instance is. -/
theorem send_typedEquals (grown : program.table.Grown unit options)
    (synthesized : set.equality.typedEquals = .synthesized) {leftRuntime : MemberSet}
    (leftInstance : program.IsInstance heap leftRuntime left leftObject) (under : set ∈ program.table.levels leftRuntime)
    {invoke : Function → Option Value → List Value → Run Outcome} {b : Bool}
    (h : invoke set.lowerTypedEquals (some left) [right] heap = .ok (.returned (.bool b), heap)) :
    program.send invoke left (typedEqualsRef set.selfType) [right] heap = .ok (.bool b, heap) :=
  send_ok leftInstance.found leftInstance.owner
    (grown.dispatch?_typedEquals leftInstance.mem under synthesized) h

/-- What has another type, or is no instance, is not equal. -/
theorem invoke_objectEquals_of_not_exact
    (h : ((heap.object? right).any fun object => object.type.same set.selfType) = false) (left : Value) :
    ∀ depth > 0, program.invoke depth set.lowerObjectEquals (some left) [right] heap =
      .ok (.returned (.bool false), heap) := by
  refine forall_invoke fun depth _ => ?_
  rw [MemberSet.lowerObjectEquals]
  refine execAll_exit (eval_andAlso_false ?_)
  rw [eval_isExactly (eval_parameter rfl), h]

/-- An instance of just the record is compared as typed equality compares it. -/
theorem invoke_objectEquals_of_exact (grown : program.table.Grown unit options) (mem : set ∈ program.table.sets)
    (synthesized : ∀ level ∈ program.table.levels set, level.equality.typedEquals = .synthesized) {leftRuntime : MemberSet}
    (leftInstance : program.IsInstance heap leftRuntime left leftObject) (under : set ∈ program.table.levels leftRuntime)
    (leftFills : program.Fills typing heap set leftObject) (rightFound : heap.object? right = some rightObject)
    (exact : rightObject.type.same set.selfType = true) (rightFills : program.Fills typing heap set rightObject) :
    ∀ depth > set.inheritanceDepth + 1, program.invoke depth set.lowerObjectEquals (some left) [right] heap =
      .ok (.returned (.bool (program.agree heap set leftObject rightObject)), heap) := by
  refine forall_invoke fun depth hDepth => ?_
  have rightInstance : program.IsInstance heap set right rightObject := ⟨rightFound, grown.owner?_of_same mem exact⟩
  have hSelf := program.table.mem_levels_self set
  have hEquals := invoke_typedEquals grown mem synthesized leftInstance.found leftFills rightInstance hSelf rightFills
    depth hDepth
  have hArguments : program.evalAll (program.invoke depth) ⟨some left, [("obj", right)]⟩
      [.cast (.parameter "obj") set.selfType] heap = .ok ([right], heap) :=
    evalAll_singleton (eval_cast (eval_parameter rfl) (rightInstance.fits hSelf))
  have hExact : program.eval (program.invoke depth) ⟨some left, [("obj", right)]⟩
      (.isExactly (.parameter "obj") set.selfType) heap = .ok (.bool true, heap) := by
    rw [eval_isExactly (eval_parameter rfl), rightFound, Option.any_some, exact]
  have hCall := (eval_callInstance (eval_this rfl) hArguments).trans
    (send_typedEquals grown (synthesized set hSelf) leftInstance under hEquals)
  rw [MemberSet.lowerObjectEquals]
  exact execAll_exit (eval_andAlso_true hExact hCall)

end Code.Program

end RecordSynthesis
