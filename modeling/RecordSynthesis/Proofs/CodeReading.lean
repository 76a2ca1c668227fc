import RecordSynthesis.Proofs.CodeOperands

/-!
# Reading expressions

Casts, groups and operators are read as what they were written of. Parentheses make a cast only around a segment, and no
expression that is put in parentheses is one; an operator finds its operands by the strengths at which they were written.
So the reader gives back the skeleton of every plain expression, and its text decides it.
-/

namespace RecordSynthesis.Code

set_option autoImplicit false

namespace Reader

def Casts (text : List Char) : Prop :=
  (segment 0 text).1 ≠ [] ∧ exit? text = some ')'

/-- The text of the skeleton makes no cast: where a segment ends at a closing parenthesis, it goes on behind the skeleton
and ends there. -/
def Spared (skeleton : ExprSkeleton) : Prop :=
  ∀ place rest, Casts (skeleton.write place ++ rest) → exit? rest = some ')'

theorem not_casts_of_end {c : Char} (h : c ∈ segmentEnds) (text : List Char) :
    ¬Casts (c :: text) := by
  rintro ⟨hSegment, -⟩
  rw [segment_end h] at hSegment
  exact hSegment rfl

theorem exit?_absorbed_end {chars : List Char} (hChars : Absorbed 0 chars) {c : Char}
    (h : c ∈ segmentEnds) (text : List Char) : exit? (chars ++ c :: text) = some c := by
  rw [exit?, segment_append_end hChars h]
  rfl

theorem spared_of_absorbed {chars : List Char} {skeleton : ExprSkeleton} (h : Absorbed 0 chars)
    (hWrite : ∀ place, skeleton.write place = chars) : Spared skeleton := by
  rintro place rest ⟨-, hExit⟩
  rwa [hWrite, exit?_absorbed h] at hExit

theorem exit?_callee {callee : Callee} (h : callee.IsPlain) (rest : List Char) :
    exit? (callee.write ++ '(' :: rest) ≠ some ')' := by
  cases callee with
  | create type =>
    have hNew : Absorbed 0 "new".toList := absorbed_word (List.all_eq_true.mp rfl)
    have hExit := exit?_absorbed_end hNew (by decide : ' ' ∈ _) (type.toList ++ '(' :: rest)
    rw [Callee.write, List.append_assoc]
    exact fun hSame => absurd (hExit.symm.trans hSame) (by decide)
  | base method =>
    have hWord : Absorbed 0 "base.".toList := absorbed_word (List.all_eq_true.mp rfl)
    have hBase : Absorbed 0 ("base.".toList ++ method.toList) := hWord.append h.absorbed
    rw [Callee.write, exit?_absorbed_end hBase (by decide)]
    decide
  | static owner method =>
    have hExit := exit?_absorbed_end h.1.absorbed (by decide : ':' ∈ _) (':' :: (method.toList ++ '(' :: rest))
    rw [Callee.write, List.append_assoc, List.append_assoc]
    exact fun hSame => absurd (hExit.symm.trans hSame) (by decide)
  | builtin operation type =>
    have hWord := (isName_word operation).absorbed
    cases type with
    | none =>
      rw [Callee.write, exit?_absorbed_end hWord (by decide)]
      decide
    | some type =>
      rw [Callee.write, exit?_absorbed_end (hWord.append ((h type rfl).absorbed.deeper 1).enclosed) (by decide)]
      decide

theorem exists_write (operator : Operator) : ∃ tail, operator.write = ' ' :: tail := by
  cases operator <;> exact ⟨_, rfl⟩

theorem not_casts_operator {operand : ExprSkeleton} (h : Spared operand) (operator : Operator) (place : Nat)
    (more rest : List Char) : ¬Casts (operand.write place ++ (operator.write ++ more) ++ rest) := by
  intro hCasts
  rw [List.append_assoc, List.append_assoc] at hCasts
  have hExit := h place _ hCasts
  obtain ⟨tail, hBlank⟩ := exists_write operator
  rw [hBlank, List.cons_append, exit?, segment_end (by decide)] at hExit
  cases hExit

theorem spared_enclosed {skeleton : ExprSkeleton} {strength : Nat} {body : List Char}
    (hWrite : ∀ place, skeleton.write place = enclosed strength place body) (h : ∀ rest, ¬Casts (body ++ rest)) :
    Spared skeleton := by
  intro place rest hCasts
  rw [hWrite, enclosed] at hCasts
  split at hCasts
  · exact absurd hCasts (not_casts_of_end (by decide) _)
  · exact absurd hCasts (h rest)

/-- The text of a null test is one before an operator with nothing behind it. -/
theorem write_isNull (operand : ExprSkeleton) (place : Nat) : (ExprSkeleton.isNull operand).write place =
    enclosed comparisonStrength place (operand.write unaryStrength ++ (Operator.isNull.write ++ [])) := rfl

theorem spared : ∀ skeleton : ExprSkeleton, skeleton.IsPlain → Spared skeleton
  | .this, _ => spared_of_absorbed (absorbed_word (List.all_eq_true.mp rfl)) fun _ => rfl
  | .bool true, _ | .bool false, _ => spared_of_absorbed (absorbed_word (List.all_eq_true.mp rfl)) fun _ => rfl
  | .parameter _, h => spared_of_absorbed h.absorbed fun _ => rfl
  | .text value, _ => fun _ _ hCasts => absurd hCasts (not_casts_of_end (by decide) _)
  | .load target name, ⟨hTarget, hName⟩ => by
    intro place rest hCasts
    have hMember : Absorbed 0 ('.' :: name.toList) := (absorbed_char rfl).append hName.absorbed
    rw [ExprSkeleton.write, List.append_assoc] at hCasts
    have hExit := spared target hTarget atomStrength _ hCasts
    rwa [exit?_absorbed hMember] at hExit
  | .call callee arguments, ⟨hCallee, _⟩ => by
    rintro place rest ⟨-, hExit⟩
    rw [ExprSkeleton.write, List.append_assoc, List.cons_append] at hExit
    exact absurd hExit (exit?_callee hCallee _)
  | .send receiver method arguments, ⟨hReceiver, hMethod, _⟩ => by
    intro place rest hCasts
    have hMember : Absorbed 0 ('.' :: method.toList) := (absorbed_char rfl).append hMethod.absorbed
    have hParen := exit?_absorbed_end hMember (by decide : '(' ∈ _) (writeArguments arguments ++ [')'] ++ rest)
    rw [ExprSkeleton.write, List.append_assoc, ← List.cons_append, List.append_assoc] at hCasts
    have hExit := spared receiver hReceiver atomStrength _ hCasts
    exact absurd (hParen.symm.trans hExit) (by decide)
  | .typeHash type, _ => by
    rintro place rest ⟨-, hExit⟩
    have hWord : Absorbed 0 "typehash".toList := absorbed_word (List.all_eq_true.mp rfl)
    have hParen := exit?_absorbed_end hWord (by decide : '(' ∈ _) (type.toList ++ [')'] ++ rest)
    rw [ExprSkeleton.write, List.append_assoc] at hExit
    exact absurd (hParen.symm.trans hExit) (by decide)
  | .equal left _, ⟨hLeft, _⟩ =>
    spared_enclosed (fun _ => rfl) (not_casts_operator (spared left hLeft) .equal unaryStrength _)
  | .andAlso left _, ⟨hLeft, _⟩ =>
    spared_enclosed (fun _ => rfl) (not_casts_operator (spared left hLeft) .andAlso andStrength _)
  | .orElse left _, ⟨hLeft, _⟩ =>
    spared_enclosed (fun _ => rfl) (not_casts_operator (spared left hLeft) .orElse orStrength _)
  | .isNull operand, h =>
    spared_enclosed (write_isNull operand) (not_casts_operator (spared operand h) .isNull unaryStrength _)
  | .isExactly operand _, ⟨h, _⟩ =>
    spared_enclosed (fun _ => rfl) (not_casts_operator (spared operand h) .isExactly unaryStrength _)
  | .not _, _ | .cast _ _, _ => spared_enclosed (fun _ => rfl) fun _ => not_casts_of_end (by decide) _

theorem operator?_write (operator : Operator) (text : List Char) :
    operator? (operator.write ++ text) = some (operator, text) := by
  cases operator <;> rfl

theorem pull_write (operator : Operator) (text : List Char) : pull (operator.write ++ text) = operator.pull := by
  cases operator <;> rfl

theorem follows_write {place : Nat} (operator : Operator) (h : operator.pull ≤ place) (text : List Char) :
    Follows place (operator.write ++ text) := by
  have hPull := Nat.le_trans (Nat.le_of_eq (pull_write operator text)) h
  obtain ⟨tail, hBlank⟩ := exists_write operator
  rw [hBlank] at hPull ⊢
  exact follows_end (by decide) hPull

/-- An operator takes an operand from the frames that admit it. -/
theorem step_operator {strength : Nat} {frames : List Frame} (operator : Operator) (h : Admits strength frames)
    (hStrength : strength ≤ operator.pull) (read : ExprSkeleton) (text : List Char) :
    step ⟨.after read, frames, operator.write ++ text⟩ = some (takeOperator read frames operator text) := by
  have hShift : shift read frames (operator.write ++ text) = some (takeOperator read frames operator text) := by
    rw [shift, operator?_write]
  obtain ⟨tail, hBlank⟩ := exists_write operator
  rw [step, readAfter.eq_def]
  split
  · rename_i hText
    rw [hBlank, List.cons_append] at hText
    exact absurd (List.cons.inj hText).1 (by decide)
  · split
    · rw [pull_write, if_neg (Nat.not_le.mpr (Nat.lt_of_lt_of_le h hStrength)), hShift]
    · exact hShift

/-- A waiting operator keeps its operand from what pulls no more strongly. -/
theorem step_finish {strength : Nat} {rest : List Char} (h : Follows strength rest) (hStrength : strength < atomStrength)
    (finish : ExprSkeleton → ExprSkeleton) (frames : List Frame) (read : ExprSkeleton) :
    step ⟨.after read, .operator strength finish :: frames, rest⟩ = some ⟨.after (finish read), frames, rest⟩ := by
  rw [step, readAfter.eq_def]
  split
  · exact absurd h.pull_le (Nat.not_le.mpr hStrength)
  · exact if_pos h.pull_le

theorem reads_right {operand : ExprSkeleton} (h : Readable operand) {strength place : Nat} {rest : List Char}
    (hFollows : Follows strength rest) (hStrength : strength < place) (hPlace : place ≤ atomStrength)
    (finish : ExprSkeleton → ExprSkeleton) (frames : List Frame) :
    Reads ⟨.operand, .operator strength finish :: frames, operand.write place ++ rest⟩
      ⟨.after (finish operand), frames, rest⟩ :=
  (h place (.operator strength finish :: frames) rest hPlace hStrength (hFollows.weaken (Nat.le_of_lt hStrength))).tail
    (step_finish hFollows (Nat.lt_of_lt_of_le hStrength hPlace) finish frames operand)

theorem reads_left {operand : ExprSkeleton} (h : Readable operand) {strength place : Nat} {frames : List Frame}
    (operator : Operator) (hAdmits : Admits strength frames) (hStrength : strength ≤ operator.pull)
    (hPull : operator.pull ≤ place) (hPlace : place ≤ atomStrength) (text : List Char) :
    Reads ⟨.operand, frames, operand.write place ++ (operator.write ++ text)⟩
      (takeOperator operand frames operator text) :=
  (h place frames _ hPlace (hAdmits.weaken (Nat.le_trans hStrength hPull)) (follows_write operator hPull text)).tail
    (step_operator operator hAdmits hStrength operand text)

theorem step_group {text : List Char} (h : ¬Casts text) (frames : List Frame) :
    step ⟨.operand, frames, '(' :: text⟩ = some ⟨.operand, .group :: frames, text⟩ := by
  rw [step, readOperand]
  split
  · rename_i hSegment
    exact absurd ⟨by rw [hSegment]; exact List.cons_ne_nil _ _, by rw [exit?, hSegment]; rfl⟩ h
  · rfl

theorem step_cast {type : String} (h : IsTypeText type) (frames : List Frame) (text : List Char) :
    step ⟨.operand, frames, '(' :: (type.toList ++ ')' :: text)⟩ =
      some ⟨.operand, .operator unaryStrength (.cast · type) :: frames, text⟩ := by
  obtain ⟨c, cs, hType⟩ := List.exists_cons_of_ne_nil h.ne_nil
  have hSegment : segment 0 (type.toList ++ ')' :: text) = (c :: cs, ')' :: text) := by
    rw [segment_append_end h.absorbed (by decide), hType]
  have hName : String.ofList (c :: cs) = type := by rw [← hType, String.ofList_toList]
  rw [step, readOperand, hSegment]
  simp only [hName]

/-- What is read without parentheses at a place of its own strength is read at every place. -/
theorem readable_enclosed {skeleton : ExprSkeleton} {strength : Nat} {body : List Char}
    (hWrite : ∀ place, skeleton.write place = enclosed strength place body) (hGroup : ∀ rest, ¬Casts (body ++ rest))
    (h : ∀ frames rest, Admits strength frames → Follows strength rest →
      Reads ⟨.operand, frames, body ++ rest⟩ ⟨.after skeleton, frames, rest⟩) : Readable skeleton := by
  intro place frames rest _ hAdmits hFollows
  rw [hWrite, enclosed]
  by_cases hPlace : strength < place
  · have hClose : Follows strength (')' :: rest) := by
      refine follows_end (by decide) ?_
      rw [pull_of_ne_blank (by decide) (by decide)]
      exact Nat.zero_le _
    rw [if_pos hPlace, List.cons_append, List.append_assoc, List.singleton_append]
    exact .head (step_group (hGroup _) frames) ((h (.group :: frames) _ trivial hClose).tail rfl)
  · have hPlace := Nat.le_of_not_lt hPlace
    rw [if_neg (Nat.not_lt.mpr hPlace)]
    exact h frames rest (hAdmits.weaken hPlace) (hFollows.weaken hPlace)

section

variable {left right operand : ExprSkeleton}

/-- An operator that waits for its right operand, written between the two at places of these strengths. -/
theorem readable_binary (operator : Operator) (finish : ExprSkeleton → ExprSkeleton) {strength place other : Nat}
    (hSpared : Spared left) (hLeft : Readable left) (hRight : Readable right)
    (hWrite : ∀ least, (finish right).write least =
      enclosed strength least (left.write place ++ (operator.write ++ right.write other)))
    (hTake : ∀ frames text,
      takeOperator left frames operator text = ⟨.operand, .operator strength finish :: frames, text⟩)
    (hPlaces : strength ≤ operator.pull ∧ operator.pull ≤ place ∧ place ≤ atomStrength ∧ strength < other ∧
      other ≤ atomStrength) : Readable (finish right) := by
  obtain ⟨hStrength, hPull, hPlace, hHolds, hOther⟩ := hPlaces
  refine readable_enclosed hWrite (not_casts_operator hSpared operator place _) ?_
  intro frames rest hAdmits hFollows
  have hOperand := reads_left hLeft operator hAdmits hStrength hPull hPlace (right.write other ++ rest)
  rw [hTake] at hOperand
  rw [List.append_assoc, List.append_assoc]
  exact hOperand.trans (reads_right hRight hFollows hHolds hOther finish frames)

theorem readable_isNull (hSpared : Spared operand) (h : Readable operand) : Readable (.isNull operand) := by
  refine readable_enclosed (write_isNull operand) (not_casts_operator hSpared .isNull unaryStrength _) ?_
  intro frames rest hAdmits _
  rw [List.append_assoc, List.append_nil]
  exact reads_left h .isNull hAdmits (by decide) (by decide) (by decide) rest

theorem readable_isExactly {type : String} (hSpared : Spared operand) (h : Readable operand) (hType : IsTypeText type) :
    Readable (.isExactly operand type) := by
  refine readable_enclosed (fun _ => rfl) (not_casts_operator hSpared .isExactly unaryStrength _) ?_
  intro frames rest hAdmits hFollows
  have hTake : takeOperator operand frames .isExactly (type.toList ++ rest) =
      ⟨.after (.isExactly operand type), frames, rest⟩ := by
    rw [takeOperator, hType.absorbed 0 rest (Nat.le_refl 0), hFollows.segment_eq (by decide)]
    simp [Prod.map]
  rw [List.append_assoc, List.append_assoc, ← hTake]
  exact reads_left h .isExactly hAdmits (by decide) (by decide) (by decide) _

theorem readable_not (h : Readable operand) : Readable (.not operand) := by
  refine readable_enclosed (fun _ => rfl) (fun _ => not_casts_of_end (by decide) _) ?_
  intro frames rest _ hFollows
  exact .head rfl (reads_right h hFollows (by decide) (by decide) .not frames)

theorem readable_cast {type : String} (h : Readable operand) (hType : IsTypeText type) :
    Readable (.cast operand type) := by
  refine readable_enclosed (fun _ => rfl) (fun _ => not_casts_of_end (by decide) _) ?_
  intro frames rest _ hFollows
  rw [List.cons_append, List.append_assoc, List.cons_append]
  exact .head (step_cast hType frames _) (reads_right h hFollows (by decide) (by decide) (.cast · type) frames)

end

mutual

theorem readable : ∀ skeleton : ExprSkeleton, skeleton.IsPlain → Readable skeleton
  | .this, _ => readable_this
  | .parameter _, h => readable_parameter h
  | .bool value, _ => readable_bool value
  | .text value, _ => readable_text value
  | .load target _, ⟨hTarget, hName⟩ => readable_load (readable target hTarget) hName
  | .call _ arguments, ⟨hCallee, hArguments⟩ => readable_call hCallee (allReadable arguments hArguments)
  | .send receiver _ arguments, ⟨hReceiver, hMethod, hArguments⟩ =>
    readable_send (readable receiver hReceiver) hMethod (allReadable arguments hArguments)
  | .typeHash _, h => readable_typeHash h
  | .equal left right, ⟨hLeft, hRight⟩ =>
    readable_binary .equal (.equal left) (spared left hLeft) (readable left hLeft) (readable right hRight)
      (fun _ => rfl) (fun _ _ => rfl) (by decide)
  | .andAlso left right, ⟨hLeft, hRight⟩ =>
    readable_binary .andAlso (.andAlso left) (spared left hLeft) (readable left hLeft) (readable right hRight)
      (fun _ => rfl) (fun _ _ => rfl) (by decide)
  | .orElse left right, ⟨hLeft, hRight⟩ =>
    readable_binary .orElse (.orElse left) (spared left hLeft) (readable left hLeft) (readable right hRight)
      (fun _ => rfl) (fun _ _ => rfl) (by decide)
  | .not operand, h => readable_not (readable operand h)
  | .isNull operand, h => readable_isNull (spared operand h) (readable operand h)
  | .isExactly operand _, ⟨h, hType⟩ => readable_isExactly (spared operand h) (readable operand h) hType
  | .cast operand _, ⟨h, hType⟩ => readable_cast (readable operand h) hType

theorem allReadable : ∀ skeletons : List ExprSkeleton, AllPlain skeletons →
    ∀ skeleton ∈ skeletons, Readable skeleton
  | [], _ => by simp
  | first :: others, ⟨hFirst, hOthers⟩ =>
    List.forall_mem_cons.mpr ⟨readable first hFirst, allReadable others hOthers⟩

end

theorem of_pull_eq_zero {text : List Char} (h : pull text = 0) :
    (∀ rest, text ≠ '.' :: rest) ∧ operator? text = none := by
  rw [pull.eq_def] at h
  split at h
  · cases h
  · rename_i hDot
    split at h
    · rename_i operator _ _
      cases operator <;> cases h
    · exact ⟨hDot, ‹_›⟩

theorem step_eq_none {rest : List Char} (h : Follows 0 rest) (read : ExprSkeleton) :
    step ⟨.after read, [], rest⟩ = none := by
  obtain ⟨hDot, hNone⟩ := of_pull_eq_zero (Nat.le_zero.mp h.pull_le)
  have hShift : shift read [] rest = none := by
    rw [shift, hNone, close.eq_def]
  rw [step, readAfter.eq_def]
  split
  · exact absurd rfl (hDot _)
  · exact hShift

/-- The reader gets past the first character of an expression. -/
theorem step_write_ne_none {skeleton : ExprSkeleton} (h : skeleton.IsPlain) {rest : List Char} (hRest : Follows 0 rest) :
    step ⟨.operand, [], skeleton.write 0 ++ rest⟩ ≠ none := by
  rcases Relation.ReflTransGen.cases_head (readable skeleton h 0 [] rest (Nat.zero_le _) trivial hRest) with
    hSame | ⟨next, hStep, -⟩
  · cases hSame
  · intro hNone
    rw [hNone] at hStep
    cases hStep

/-- The text of an expression decides its skeleton and where it ends. -/
theorem write_injective {first second : ExprSkeleton} (hFirst : first.IsPlain) (hSecond : second.IsPlain)
    {rest other : List Char} (hRest : Follows 0 rest) (hOther : Follows 0 other)
    (h : first.write 0 ++ rest = second.write 0 ++ other) : first = second ∧ rest = other := by
  have hRead := readable first hFirst 0 [] rest (Nat.zero_le _) trivial hRest
  have hReadOther := readable second hSecond 0 [] other (Nat.zero_le _) trivial hOther
  rw [← h] at hReadOther
  -- both readings start in one state, and each ends where the machine stops
  have hEnd := StateTransition.mem_eval.mpr ⟨hRead, step_eq_none hRest first⟩
  have hOtherEnd := StateTransition.mem_eval.mpr ⟨hReadOther, step_eq_none hOther second⟩
  cases Part.mem_unique hEnd hOtherEnd
  exact ⟨rfl, rfl⟩

/-- An argument list is that of a call, so its text decides the arguments. -/
theorem writeArguments_injective {first second : List ExprSkeleton} (hFirst : AllPlain first)
    (hSecond : AllPlain second) {rest other : List Char} (hRest : Follows 0 rest) (hOther : Follows 0 other)
    (h : writeArguments first ++ ')' :: rest = writeArguments second ++ ')' :: other) :
    first = second ∧ rest = other := by
  have hPlain {arguments : List ExprSkeleton} (hArguments : AllPlain arguments) :
      (ExprSkeleton.call (.builtin .concat none) arguments).IsPlain := ⟨by rintro _ ⟨⟩, hArguments⟩
  have hCall (arguments : List ExprSkeleton) (rest : List Char) :
      (ExprSkeleton.call (.builtin .concat none) arguments).write 0 ++ rest =
        "concat(".toList ++ (writeArguments arguments ++ ')' :: rest) := by
    rw [ExprSkeleton.write, List.append_assoc, List.cons_append, List.append_assoc, List.singleton_append]
    rfl
  obtain ⟨hSame, hEnd⟩ := write_injective (hPlain hFirst) (hPlain hSecond) hRest hOther (by rw [hCall, hCall, h])
  cases hSame
  exact ⟨rfl, hEnd⟩

end Reader

end RecordSynthesis.Code
