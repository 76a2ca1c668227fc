import RecordSynthesis.Proofs.StructuralEquality

/-!
# Equality operators

The operators on two operands, each of which is an instance of the record or of one that derives from it, or null if the
record is a reference type. They never fail, and equality is an equivalence on the operands as long as the comparisons of
the members are.
-/

namespace RecordSynthesis

set_option autoImplicit false

open Code
open Decl (CompilationUnit Record)

namespace Code.Program

/-- What the operators of a record may be applied to. -/
inductive Operand (program : Program) (heap : Heap) (set : MemberSet) : Value → Prop
  | null (reference : set.isValueType = false) : Operand program heap set .null
  | ofInstance {value : Value} (isA : program.IsA heap set value) : Operand program heap set value

/-- A member compares as an equivalence on the values of its type. -/
def ComparesLawfully (program : Program) (typing : Typing) (heap : Heap) (visit : EqualityStrategy × FieldRef) : Prop :=
  Equivalence fun left right : { value // typing.inhabits heap visit.2.type value } =>
    program.interpretation.equals heap visit.1 visit.2.type left right = true

def equalTo (program : Program) (heap : Heap) (set : MemberSet) (left right : Value) : Bool :=
  left = right ||
    match heap.object? left, heap.object? right with
    | some leftObject, some rightObject => program.agree heap set leftObject rightObject
    | _, _ => false

variable {unit : CompilationUnit} {options : SynthesisOptions} {program : Program} {typing : Typing} {heap : Heap}
  {set : MemberSet} {left right : Value}

section

variable {first second third : Object}
  (lawful : ∀ visit ∈ program.table.state set, program.ComparesLawfully typing heap visit)

include lawful

theorem agree_refl (fills : program.Fills typing heap set first) : program.agree heap set first first = true :=
  List.all_eq_true.mpr fun visit h => (lawful visit h).refl ⟨_, fills.typed visit h⟩

theorem agree_symm (fills : program.Fills typing heap set first) (fills' : program.Fills typing heap set second)
    (h : program.agree heap set first second = true) : program.agree heap set second first = true :=
  List.all_eq_true.mpr fun visit hVisit =>
    (lawful visit hVisit).symm (x := ⟨_, fills.typed visit hVisit⟩) (y := ⟨_, fills'.typed visit hVisit⟩)
      (List.all_eq_true.mp h visit hVisit)

theorem agree_trans (fills : program.Fills typing heap set first) (fills' : program.Fills typing heap set second)
    (fills'' : program.Fills typing heap set third) (h : program.agree heap set first second = true)
    (h' : program.agree heap set second third = true) : program.agree heap set first third = true :=
  List.all_eq_true.mpr fun visit hVisit =>
    (lawful visit hVisit).trans (x := ⟨_, fills.typed visit hVisit⟩) (y := ⟨_, fills'.typed visit hVisit⟩)
      (z := ⟨_, fills''.typed visit hVisit⟩) (List.all_eq_true.mp h visit hVisit) (List.all_eq_true.mp h' visit hVisit)

end

theorem equalTo_iff : program.equalTo heap set left right = true ↔
    left = right ∨ ∃ leftObject rightObject, heap.object? left = some leftObject ∧
      heap.object? right = some rightObject ∧ program.agree heap set leftObject rightObject = true := by
  rw [equalTo, Bool.or_eq_true, decide_eq_true_eq]
  cases heap.object? left <;> cases heap.object? right <;> simp

theorem Operand.fills (grown : program.table.Grown unit options) (wellFormed : program.WellFormed typing heap)
    (operand : program.Operand heap set left) {object : Object} (found : heap.object? left = some object) :
    program.Fills typing heap set object := by
  cases operand with
  | null => cases found
  | ofInstance isA =>
    obtain ⟨runtime, _, hInstance, under⟩ := isA
    obtain rfl := Option.some.inj (hInstance.found.symm.trans found)
    exact wellFormed.fills grown hInstance under

/-- Equality of operands is an equivalence. -/
theorem equivalence_equalTo (grown : program.table.Grown unit options) (wellFormed : program.WellFormed typing heap)
    (lawful : ∀ visit ∈ program.table.state set, program.ComparesLawfully typing heap visit) :
    Equivalence fun left right : { value // program.Operand heap set value } =>
      program.equalTo heap set left right = true := by
  refine ⟨fun operand => equalTo_iff.mpr (.inl rfl), ?_, ?_⟩
  · rintro ⟨left, hLeft⟩ ⟨right, hRight⟩ h
    rcases equalTo_iff.mp h with hSame | ⟨leftObject, rightObject, leftFound, rightFound, hAgree⟩
    · exact equalTo_iff.mpr (.inl hSame.symm)
    · refine equalTo_iff.mpr (.inr ⟨rightObject, leftObject, rightFound, leftFound, ?_⟩)
      exact agree_symm lawful (hLeft.fills grown wellFormed leftFound) (hRight.fills grown wellFormed rightFound) hAgree
  · rintro ⟨first, hFirst⟩ ⟨second, hSecond⟩ ⟨third, hThird⟩ h h'
    rcases equalTo_iff.mp h with rfl | ⟨firstObject, secondObject, firstFound, secondFound, hAgree⟩
    · exact h'
    rcases equalTo_iff.mp h' with rfl | ⟨otherObject, thirdObject, otherFound, thirdFound, hAgree'⟩
    · exact h
    obtain rfl := Option.some.inj (secondFound.symm.trans otherFound)
    refine equalTo_iff.mpr (.inr ⟨firstObject, thirdObject, firstFound, thirdFound, ?_⟩)
    exact agree_trans lawful (hFirst.fills grown wellFormed firstFound) (hSecond.fills grown wellFormed secondFound)
      (hThird.fills grown wellFormed thirdFound) hAgree hAgree'

theorem equalTo_instances {leftObject rightObject : Object}
    (lawful : ∀ visit ∈ program.table.state set, program.ComparesLawfully typing heap visit)
    (leftFound : heap.object? left = some leftObject) (rightFound : heap.object? right = some rightObject)
    (fills : program.Fills typing heap set leftObject) :
    program.equalTo heap set left right = program.agree heap set leftObject rightObject := by
  rw [equalTo, leftFound, rightFound]
  by_cases hSame : left = right
  · subst hSame
    obtain rfl := Option.some.inj (leftFound.symm.trans rightFound)
    simp [agree_refl lawful fills]
  · simp [hSame]

theorem equalTo_null (h : left ≠ .null) :
    program.equalTo heap set left .null = false ∧ program.equalTo heap set .null left = false := by
  have hNone : heap.object? .null = none := rfl
  rw [equalTo, equalTo, hNone]
  cases heap.object? left <;> simp [h, h.symm]

theorem IsA.ne_null (isA : program.IsA heap set left) : left ≠ .null := by
  rintro rfl
  obtain ⟨_, _, hInstance, -⟩ := isA
  cases hInstance.found

section

variable (grown : program.table.Grown unit options) (wellFormed : program.WellFormed typing heap)
  (mem : set ∈ program.table.sets)
  (synthesized : ∀ level ∈ program.table.levels set, level.equality.typedEquals = .synthesized)
  (lawful : ∀ visit ∈ program.table.state set, program.ComparesLawfully typing heap visit)

include grown wellFormed mem synthesized lawful

/-- Typed equality as the operators call it. -/
theorem send_typedEquals_operand (isA : program.IsA heap set left) (operand : program.Operand heap set right) :
    ∀ depth > set.inheritanceDepth,
      program.send (program.invoke depth) left (typedEqualsRef set.selfType) [right] heap =
        .ok (.bool (program.equalTo heap set left right), heap) := by
  intro depth hDepth
  have notNull := isA.ne_null
  obtain ⟨runtime, leftObject, leftInstance, under⟩ := isA
  have leftFills := wellFormed.fills grown leftInstance under
  refine send_typedEquals grown (synthesized set (program.table.mem_levels_self set)) leftInstance under ?_
  cases operand with
  | null reference =>
    rw [(equalTo_null notNull).1]
    exact invoke_typedEquals_null reference left heap depth (Nat.zero_lt_of_lt hDepth)
  | ofInstance isA =>
    obtain ⟨_, rightObject, rightInstance, rightUnder⟩ := isA
    rw [equalTo_instances lawful leftInstance.found rightInstance.found leftFills]
    exact invoke_typedEquals grown mem synthesized leftInstance.found leftFills rightInstance rightUnder
      (wellFormed.fills grown rightInstance rightUnder) depth hDepth

theorem invoke_equalityOperator (leftOperand : program.Operand heap set left)
    (rightOperand : program.Operand heap set right) :
    ∀ depth > set.inheritanceDepth + 1, program.invoke depth set.lowerEqualityOperator none [left, right] heap =
      .ok (.returned (.bool (program.equalTo heap set left right)), heap) := by
  refine forall_invoke fun depth hDepth => ?_
  have hLeft : program.eval (program.invoke depth) ⟨none, [("left", left), ("right", right)]⟩ (.parameter "left") heap =
      .ok (left, heap) := eval_parameter rfl
  have hRight : program.eval (program.invoke depth) ⟨none, [("left", left), ("right", right)]⟩ (.parameter "right")
      heap = .ok (right, heap) := eval_parameter rfl
  have hCall : program.IsA heap set left → program.eval (program.invoke depth)
      ⟨none, [("left", left), ("right", right)]⟩
      (.callInstance (.parameter "left") (typedEqualsRef set.selfType) [.parameter "right"]) heap =
        .ok (.bool (program.equalTo heap set left right), heap) := fun isA =>
    (eval_callInstance hLeft (evalAll_singleton hRight)).trans
      (send_typedEquals_operand grown wellFormed mem synthesized lawful isA rightOperand depth hDepth)
  rw [MemberSet.lowerEqualityOperator, MemberSet.lowerOperator]
  refine execAll_exit ?_
  cases hKind : set.isValueType with
  | true =>
    cases leftOperand with
    | null reference => simp [reference] at hKind
    | ofInstance isA => exact hCall isA
  | false =>
    have hReference := eval_referenceEquals hLeft hRight
    by_cases hSame : left = right
    · rw [equalTo_iff.mpr (.inl hSame)]
      rw [decide_eq_true hSame] at hReference
      exact eval_orElse_true hReference
    · rw [decide_eq_false hSame] at hReference
      refine eval_orElse_false hReference ?_
      cases leftOperand with
      | null reference =>
        rw [(equalTo_null (Ne.symm hSame)).2]
        exact eval_andAlso_false (eval_not (eval_isNull_null hLeft))
      | ofInstance isA => exact eval_andAlso_true (eval_not (eval_isNull_of_ne hLeft isA.ne_null)) (hCall isA)

theorem invoke_inequalityOperator (operators : set.operators = true) (leftOperand : program.Operand heap set left)
    (rightOperand : program.Operand heap set right) :
    ∀ depth > set.inheritanceDepth + 2, program.invoke depth set.lowerInequalityOperator none [left, right] heap =
      .ok (.returned (.bool !(program.equalTo heap set left right)), heap) := by
  refine forall_invoke fun depth hDepth => ?_
  have hArguments : program.evalAll (program.invoke depth) ⟨none, [("left", left), ("right", right)]⟩
      [.parameter "left", .parameter "right"] heap = .ok ([left, right], heap) :=
    evalAll_pair (eval_parameter rfl) (eval_parameter rfl)
  have hCode : program.table.own? true ⟨set.selfType, "op_Equality", [set.selfType, set.selfType], some Ty.bool⟩ =
      some set.lowerEqualityOperator := by
    obtain ⟨_, _, _, origin⟩ := grown.exists_origin mem
    have lowered : set.lower? .equalityOperator = some set.lowerEqualityOperator := if_pos operators
    rw [grown.own?_eq mem true rfl]
    exact origin.method?_eq lowered (.inr rfl) _ _
  rw [MemberSet.lowerInequalityOperator, MemberSet.lowerOperator]
  refine execAll_exit (eval_not ((eval_callStatic hArguments).trans ?_))
  rw [hCode]
  exact callValue_ok
    (invoke_equalityOperator grown wellFormed mem synthesized lawful leftOperand rightOperand depth hDepth)

omit lawful in
/-- Equality with any object never fails. -/
theorem exists_invoke_objectEquals (isA : program.IsA heap set left) (right : Value) :
    ∃ answer, ∀ depth > set.inheritanceDepth + 1, program.invoke depth set.lowerObjectEquals (some left) [right] heap =
      .ok (.returned (.bool answer), heap) := by
  obtain ⟨runtime, leftObject, leftInstance, under⟩ := isA
  have otherwise : ((heap.object? right).any fun object => object.type.same set.selfType) = false →
      ∃ answer, ∀ depth > set.inheritanceDepth + 1,
        program.invoke depth set.lowerObjectEquals (some left) [right] heap =
          .ok (.returned (.bool answer), heap) := by
    refine fun hOther => ⟨false, fun depth hDepth => ?_⟩
    exact invoke_objectEquals_of_not_exact hOther left depth (Nat.zero_lt_of_lt hDepth)
  cases rightFound : heap.object? right with
  | none => exact otherwise (by rw [rightFound]; rfl)
  | some rightObject =>
    cases exact : rightObject.type.same set.selfType with
    | false => exact otherwise (by rw [rightFound, Option.any_some, exact])
    | true =>
      have rightInstance : program.IsInstance heap set right rightObject :=
        ⟨rightFound, grown.owner?_of_same mem exact⟩
      exact ⟨_, invoke_objectEquals_of_exact grown mem synthesized leftInstance under
        (wellFormed.fills grown leftInstance under) rightFound exact
        (wellFormed.fills grown rightInstance (program.table.mem_levels_self set))⟩

end

end Code.Program

/-- The operators of a record with typed equality at every level answer for all operands: equality is an equivalence that
sets null apart from every instance, and inequality is its negation. Equality with any object answers for every argument,
and for null that it is not equal. -/
theorem equality_operators_equivalence (unit : CompilationUnit) (options : SynthesisOptions)
    (interpretation : Interpretation) (typing : Typing) (heap : Heap) (set : MemberSet)
    (mem : set ∈ (checkUnit unit options).table.sets) (operators : set.operators = true)
    (synthesized : ∀ level ∈ (checkUnit unit options).table.levels set, level.equality.typedEquals = .synthesized)
    (wellFormed : Program.WellFormed ⟨(checkUnit unit options).table, interpretation⟩ typing heap)
    (lawful : ∀ visit ∈ (checkUnit unit options).table.state set,
      Program.ComparesLawfully ⟨(checkUnit unit options).table, interpretation⟩ typing heap visit) :
    let program : Program := ⟨(checkUnit unit options).table, interpretation⟩
    (∃ equality inequality, set.lower? .equalityOperator = some equality ∧
      set.lower? .inequalityOperator = some inequality ∧
      ∃ equal : Value → Value → Bool,
        (∀ left right, program.Operand heap set left → program.Operand heap set right →
          program.Returns equality none [left, right] heap (.bool (equal left right)) heap ∧
          program.Returns inequality none [left, right] heap (.bool !(equal left right)) heap) ∧
        equal .null .null = true ∧
        (∀ value, program.IsA heap set value → equal value .null = false ∧ equal .null value = false) ∧
        Equivalence fun left right : { value // program.Operand heap set value } => equal left right = true) ∧
    ∀ objectEquals, set.lower? .objectEquals = some objectEquals → ∀ receiver, program.IsA heap set receiver →
      (∀ argument, ∃ answer, program.Returns objectEquals (some receiver) [argument] heap (.bool answer) heap) ∧
      program.Returns objectEquals (some receiver) [.null] heap (.bool false) heap := by
  intro program
  have grown : program.table.Grown unit options := checkUnit_grown unit options
  refine ⟨⟨_, _, if_pos operators, if_pos operators, program.equalTo heap set, ?_, ?_, ?_, ?_⟩, ?_⟩
  · intro left right leftOperand rightOperand
    exact ⟨⟨_, Program.invoke_equalityOperator grown wellFormed mem synthesized lawful leftOperand rightOperand⟩,
      ⟨_, Program.invoke_inequalityOperator grown wellFormed mem synthesized lawful operators leftOperand rightOperand⟩⟩
  · exact Program.equalTo_iff.mpr (.inl rfl)
  · intro value isA
    exact Program.equalTo_null isA.ne_null
  · exact Program.equivalence_equalTo grown wellFormed lawful
  · intro objectEquals lowered receiver isA
    obtain ⟨-, ⟨⟩⟩ := Option.ite_none_right_eq_some.mp lowered
    refine ⟨fun argument => ?_, 1, Program.invoke_objectEquals_of_not_exact rfl receiver⟩
    obtain ⟨answer, hAnswer⟩ := Program.exists_invoke_objectEquals grown wellFormed mem synthesized isA argument
    exact ⟨answer, _, hAnswer⟩

/-- A person is compared with a student of the same name, as a person, and with null. -/
theorem equality_operators_equivalence_person :
    person ∈ (checkUnit people {}).table.sets ∧
    person.operators = true ∧
    (∀ level ∈ (checkUnit people {}).table.levels person, level.equality.typedEquals = .synthesized) ∧
    peopleProgram.WellFormed .unchecked namesakes ∧
    (∀ visit ∈ (checkUnit people {}).table.state person, peopleProgram.ComparesLawfully .unchecked namesakes visit) ∧
    ∃ equality inequality answer, person.lower? .equalityOperator = some equality ∧
      person.lower? .inequalityOperator = some inequality ∧
      peopleProgram.Returns equality none [.reference 0, .reference 1] namesakes (.bool answer) namesakes ∧
      peopleProgram.Returns inequality none [.reference 0, .reference 1] namesakes (.bool !answer) namesakes ∧
      peopleProgram.Returns equality none [.reference 1, .null] namesakes (.bool false) namesakes ∧
      peopleProgram.Returns equality none [.null, .null] namesakes (.bool true) namesakes := by
  have synthesized : ∀ level ∈ (checkUnit people {}).table.levels person, level.equality.typedEquals = .synthesized := by
    decide +kernel
  have lawful : ∀ visit ∈ (checkUnit people {}).table.state person,
      peopleProgram.ComparesLawfully .unchecked namesakes visit := by
    intro visit _
    refine ⟨fun value => decide_eq_true rfl, fun h => ?_, fun h h' => ?_⟩
    · exact decide_eq_true (of_decide_eq_true h).symm
    · exact decide_eq_true ((of_decide_eq_true h).trans (of_decide_eq_true h'))
  obtain ⟨⟨equality, inequality, hEquality, hInequality, equal, answers, both, either, -⟩, -⟩ :=
    equality_operators_equivalence people {} .plain .unchecked namesakes person person_mem rfl synthesized
      namesakes_wellFormed lawful
  have isPerson : peopleProgram.Operand namesakes person (.reference 0) :=
    .ofInstance ⟨person, _, ⟨rfl, rfl⟩, RecordTable.mem_levels_self _ _⟩
  have isNull : peopleProgram.Operand namesakes person .null := .null rfl
  obtain ⟨hEqual, hUnequal⟩ := answers _ _ isPerson (.ofInstance student_isA_person)
  have hNull := (answers _ _ (.ofInstance student_isA_person) isNull).1
  have hNulls := (answers _ _ isNull isNull).1
  rw [(either _ student_isA_person).1] at hNull
  rw [both] at hNulls
  exact ⟨person_mem, rfl, synthesized, namesakes_wellFormed, lawful, equality, inequality, _, hEquality, hInequality,
    hEqual, hUnequal, hNull, hNulls⟩

end RecordSynthesis
