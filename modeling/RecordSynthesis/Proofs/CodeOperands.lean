import RecordSynthesis.Proofs.CodeReader

/-!
# Reading operands

Words, literals, calls and members are read as what they were written of, if their own operands are.
-/

namespace RecordSynthesis.Code

set_option autoImplicit false

namespace Reader

theorem readable_of_word {word : String} {skeleton : ExprSkeleton} (h : IsName word)
    (hWrite : ∀ place, skeleton.write place = word.toList)
    (hRead : ∀ frames rest, (∀ c ∈ rest.head?, c ∈ followers) →
      readWord frames word rest = some ⟨.after skeleton, frames, rest⟩) : Readable skeleton := by
  intro place frames rest _ _ hFollows
  rw [hWrite]
  apply Relation.ReflTransGen.single
  rw [step_word h (not_isNameChar_of_stop hFollows.stops) hFollows.unscoped]
  exact hRead frames rest hFollows.stops

theorem readable_this : Readable .this :=
  readable_of_word (by decide) (fun _ => rfl) fun _ _ _ => rfl

theorem readable_bool (value : Bool) : Readable (.bool value) := by
  have hTrue : IsName "true" := by decide
  have hFalse : IsName "false" := by decide
  cases value with
  | true => exact readable_of_word hTrue (fun _ => rfl) fun _ _ _ => rfl
  | false => exact readable_of_word hFalse (fun _ => rfl) fun _ _ _ => rfl

theorem readWord_free {name : String} (h : IsFreeName name) (frames : List Frame) (rest : List Char)
    (hRest : ∀ c ∈ rest.head?, c ≠ '(' ∧ c ≠ '<') :
    readWord frames name rest = some ⟨.after (.parameter name), frames, rest⟩ := by
  have hEmpty : ¬(name = "" ∨ name ∈ reservedWords) := by
    rintro (rfl | hReserved)
    · exact h.nonempty rfl
    · exact h.free hReserved
  rw [readWord.eq_def, if_neg (h.ne_reserved (by decide)), if_neg (h.ne_reserved (by decide)),
    if_neg (h.ne_reserved (by decide)), if_neg (h.ne_reserved (by decide)), if_neg (h.ne_reserved (by decide)),
    if_neg hEmpty]
  cases rest with
  | nil => rfl
  | cons c cs =>
    obtain ⟨hParen, hAngle⟩ := hRest c rfl
    split
    · rename_i hText
      exact absurd (List.cons.inj hText).1 hParen
    · rename_i hText
      exact absurd (List.cons.inj hText).1 hAngle
    · rfl

theorem readable_parameter {name : String} (h : IsFreeName name) : Readable (.parameter name) := by
  have hStops : ∀ c ∈ followers, c ≠ '(' ∧ c ≠ '<' := List.all_iff_forall_prop.mp rfl
  exact readable_of_word h.toIsName (fun _ => rfl) fun frames rest hRest =>
    readWord_free h frames rest fun c hc => hStops c (hRest c hc)

theorem readable_text (value : String) : Readable (.text value) := by
  intro place frames rest _ _ _
  apply Relation.ReflTransGen.single
  have hRead : step ⟨.operand, frames, '"' :: (value.toList.flatMap Text.quotedChar ++ '"' :: rest)⟩ =
      some ⟨.after (.text (String.ofList value.toList)), frames, rest⟩ := by
    rw [step, readOperand, (Text.unquote_quoted value rest).2]
  rw [String.ofList_toList] at hRead
  rwa [ExprSkeleton.write, List.cons_append, List.append_assoc, List.singleton_append]

theorem follows_others (others : List ExprSkeleton) (rest : List Char) :
    Follows 0 (writeOthers others ++ ')' :: rest) := by
  cases others with
  | nil => exact follows_end (by decide) (Nat.le_of_eq (pull_of_ne_blank (by decide) (by decide) _))
  | cons => exact follows_end (by decide) (Nat.le_of_eq (pull_of_ne_blank (by decide) (by decide) _))

theorem reads_others {others : List ExprSkeleton} (h : ∀ argument ∈ others, Readable argument)
    (finish : List ExprSkeleton → ExprSkeleton) (done : List ExprSkeleton) (last : ExprSkeleton)
    (frames : List Frame) (rest : List Char) :
    Reads ⟨.after last, .arguments finish done :: frames, writeOthers others ++ ')' :: rest⟩
      ⟨.after (finish (done ++ last :: others)), frames, rest⟩ := by
  induction others generalizing done last with
  | nil => exact .single rfl
  | cons next others ih =>
    obtain ⟨hNext, hOthers⟩ := List.forall_mem_cons.mp h
    have hComma : step ⟨.after last, .arguments finish done :: frames, writeOthers (next :: others) ++ ')' :: rest⟩ =
        some ⟨.operand, .arguments finish (done ++ [last]) :: frames,
          next.write 0 ++ (writeOthers others ++ ')' :: rest)⟩ := by
      rw [writeOthers, List.append_assoc, List.append_assoc]
      rfl
    have hOperand := hNext 0 (.arguments finish (done ++ [last]) :: frames) _ (Nat.zero_le _) trivial
      (follows_others others rest)
    have hLater := ih hOthers (done ++ [last]) next
    rw [List.append_assoc, List.singleton_append] at hLater
    exact .head hComma (hOperand.trans hLater)

theorem reads_arguments {arguments : List ExprSkeleton} (h : ∀ argument ∈ arguments, Readable argument)
    (finish : List ExprSkeleton → ExprSkeleton) (frames : List Frame) (rest : List Char) :
    Reads ⟨.operand, .arguments finish [] :: frames, writeArguments arguments ++ ')' :: rest⟩
      ⟨.after (finish arguments), frames, rest⟩ := by
  cases arguments with
  | nil => exact .single rfl
  | cons first others =>
    obtain ⟨hFirst, hOthers⟩ := List.forall_mem_cons.mp h
    have hOperand := hFirst 0 (.arguments finish [] :: frames) _ (Nat.zero_le _) trivial (follows_others others rest)
    rw [writeArguments, List.append_assoc]
    exact hOperand.trans (reads_others hOthers finish [] first frames rest)

theorem isName_word (operation : Builtin) : IsName operation.word := by
  cases operation <;> decide

theorem readCall_toList (frames : List Frame) (callee : String → Callee) (name : String) (inside : List Char) :
    readCall frames callee (name.toList, '(' :: inside) = some (called frames (callee name) inside) := by
  rw [readCall, String.ofList_toList]

theorem step_create {type : String} (h : IsTypeText type) (frames : List Frame) (inside : List Char) :
    step ⟨.operand, frames, "new".toList ++ ' ' :: (type.toList ++ '(' :: inside)⟩ =
      some (called frames (.create type) inside) := by
  have hNew : IsName "new" := by decide
  have hRead : readWord frames "new" (' ' :: (type.toList ++ '(' :: inside)) =
      readCall frames .create (segment 0 (type.toList ++ '(' :: inside)) := rfl
  rw [step_word hNew (by rintro c ⟨⟩; decide) (unscoped_end (by decide) (by decide) _), hRead,
    segment_append_end h.absorbed (by decide), readCall_toList]

theorem step_base {method : String} (h : IsFreeName method) (frames : List Frame) (inside : List Char) :
    step ⟨.operand, frames, "base".toList ++ '.' :: (method.toList ++ '(' :: inside)⟩ =
      some (called frames (.base method) inside) := by
  have hBase : IsName "base" := by decide
  have hRead : readWord frames "base" ('.' :: (method.toList ++ '(' :: inside)) =
      readCall frames .base (splitName (method.toList ++ '(' :: inside)) := rfl
  have hMember : Absorbed 0 ('.' :: method.toList) := (absorbed_char rfl).append h.absorbed
  have hScope : ¬[':', ':'] <+: (segment 0 ('.' :: (method.toList ++ '(' :: inside))).2 :=
    unscoped_absorbed hMember (by decide) (by decide) inside
  rw [step_word hBase (by rintro c ⟨⟩; decide) hScope, hRead, splitName_append h.chars (by rintro c ⟨⟩; decide),
    readCall_toList]

theorem step_static {owner method : String} (hOwner : IsTypeText owner) (hMethod : IsFreeName method)
    (frames : List Frame) (inside : List Char) :
    step ⟨.operand, frames, owner.toList ++ ':' :: ':' :: (method.toList ++ '(' :: inside)⟩ =
      some (called frames (.static owner method) inside) := by
  have hMember : splitName (method.toList ++ '(' :: inside) = (method.toList, '(' :: inside) :=
    splitName_append hMethod.chars (by rintro c ⟨⟩; decide)
  rw [step, readOperand_absorbed hOwner.absorbed hOwner.ne_nil, readName,
    segment_append_end hOwner.absorbed (by decide)]
  simp [hMember, readCall_toList]

theorem step_builtin (operation : Builtin) (frames : List Frame) (inside : List Char) :
    step ⟨.operand, frames, operation.word.toList ++ '(' :: inside⟩ =
      some (called frames (.builtin operation none) inside) := by
  rw [step_word (isName_word operation) (by rintro c ⟨⟩; decide) (unscoped_end (by decide) (by decide) _)]
  cases operation <;> rfl

theorem step_builtin_type (operation : Builtin) {type : String} (h : IsTypeText type) (frames : List Frame)
    (inside : List Char) :
    step ⟨.operand, frames, operation.word.toList ++ '<' :: (type.toList ++ '>' :: '(' :: inside)⟩ =
      some (called frames (.builtin operation (some type)) inside) := by
  have hType := (h.absorbed.deeper 1).enclosed
  have hText : '<' :: (type.toList ++ '>' :: '(' :: inside) = '<' :: (type.toList ++ ['>']) ++ '(' :: inside := by simp
  have hRead : readWord frames operation.word ('<' :: (type.toList ++ '>' :: '(' :: inside)) =
      readTypedCall frames operation (segment 0 ('<' :: (type.toList ++ '>' :: '(' :: inside))) := by
    cases operation <;> rfl
  rw [step_word (isName_word operation) (by rintro c ⟨⟩; decide), hRead, hText,
    segment_append_end hType (by decide)]
  · simp [readTypedCall]
  · rw [hText]
    exact unscoped_absorbed hType (by decide) (by decide) inside

theorem step_callee {callee : Callee} (h : callee.IsPlain) (frames : List Frame) (inside : List Char) :
    step ⟨.operand, frames, callee.write ++ '(' :: inside⟩ = some (called frames callee inside) := by
  cases callee with
  | create type =>
    have hStep := step_create h frames inside
    rwa [Callee.write, List.append_assoc]
  | base method =>
    have hStep := step_base h frames inside
    rwa [Callee.write, List.append_assoc]
  | static owner method =>
    have hStep := step_static h.1 h.2 frames inside
    rwa [Callee.write, List.append_assoc, List.append_assoc]
  | builtin operation type =>
    cases type with
    | none => exact step_builtin operation frames inside
    | some type =>
      have hStep := step_builtin_type operation (h type rfl) frames inside
      rwa [Callee.write, List.append_assoc, List.cons_append, List.append_assoc, List.singleton_append]

theorem readable_call {callee : Callee} {arguments : List ExprSkeleton} (hCallee : callee.IsPlain)
    (h : ∀ argument ∈ arguments, Readable argument) : Readable (.call callee arguments) := by
  intro place frames rest _ _ _
  rw [ExprSkeleton.write, List.append_assoc, List.cons_append, List.append_assoc, List.singleton_append]
  exact .head (step_callee hCallee frames _) (reads_arguments h (.call callee) frames rest)

theorem readable_typeHash {type : String} (h : IsTypeText type) : Readable (.typeHash type) := by
  intro place frames rest _ _ _
  have hWord : IsName "typehash" := by decide
  have hRead : readWord frames "typehash" ('(' :: (type.toList ++ ')' :: rest)) =
      readTypeHash frames (segment 0 (type.toList ++ ')' :: rest)) := rfl
  have hStep : step ⟨.operand, frames, "typehash".toList ++ '(' :: (type.toList ++ ')' :: rest)⟩ =
      some ⟨.after (.typeHash type), frames, rest⟩ := by
    rw [step_word hWord (by rintro c ⟨⟩; decide) (unscoped_end (by decide) (by decide) _), hRead,
      segment_append_end h.absorbed (by decide), readTypeHash, String.ofList_toList]
  rw [ExprSkeleton.write, List.append_assoc, List.append_assoc, List.singleton_append]
  exact .single hStep

theorem splitFieldName_append {name : String} (h : IsFieldName name) {rest : List Char}
    (hRest : ∀ c ∈ rest.head?, isNameChar c = false) : splitFieldName (name.toList ++ rest) = (name.toList, rest) := by
  rcases h with hName | ⟨property, hProperty, rfl⟩
  · have hFirst : ∀ text, name.toList ++ rest ≠ '<' :: text := by
      intro text hText
      cases hChars : name.toList with
      | nil => exact hName.nonempty hChars
      | cons c cs =>
        have hChar := hName.chars c (by rw [hChars]; exact List.mem_cons_self)
        rw [hChars] at hText
        rw [(List.cons.inj hText).1] at hChar
        revert hChar
        decide
    rw [splitFieldName, splitName_append hName.chars hRest]
    exact hFirst
  · have hBracket : splitName (property.toList ++ '>' :: ("k__BackingField".toList ++ rest)) =
        (property.toList, '>' :: ("k__BackingField".toList ++ rest)) :=
      splitName_append hProperty.chars (by rintro c ⟨⟩; decide)
    have hSuffix : splitName ("k__BackingField".toList ++ rest) = ("k__BackingField".toList, rest) :=
      splitName_append (List.all_eq_true.mp rfl) hRest
    have hText : (backingFieldName property).toList ++ rest =
        '<' :: (property.toList ++ '>' :: ("k__BackingField".toList ++ rest)) := by
      simp [toList_backingFieldName]
    rw [hText, splitFieldName, hBracket, toList_backingFieldName]
    simp only [List.tail_cons, hSuffix]
    rfl

theorem readAfter_member (read : ExprSkeleton) (frames : List Frame) (text : List Char) :
    step ⟨.after read, frames, '.' :: text⟩ = some (readMember read frames text) := rfl

theorem readable_load {target : ExprSkeleton} {name : String} (h : Readable target) (hName : IsFieldName name) :
    Readable (.load target name) := by
  intro place frames rest hPlace hAdmits hFollows
  have hMember : Absorbed 0 ('.' :: name.toList) := (absorbed_char rfl).append hName.absorbed
  have hTarget : Follows atomStrength ('.' :: (name.toList ++ rest)) := by
    refine ⟨Nat.le_refl _, by rintro c ⟨⟩; decide, ?_⟩
    rw [← List.cons_append, hMember 0 _ (Nat.le_refl 0)]
    exact hFollows.unscoped
  have hRead : readMember target frames (name.toList ++ rest) = ⟨.after (.load target name), frames, rest⟩ := by
    rw [readMember, splitFieldName_append hName (not_isNameChar_of_stop hFollows.stops)]
    split
    · rename_i hText
      obtain ⟨-, rfl⟩ := Prod.mk.inj hText
      exact absurd (hFollows.stops _ rfl) (by decide)
    · rename_i hText
      obtain ⟨rfl, rfl⟩ := Prod.mk.inj hText
      rw [String.ofList_toList]
  rw [ExprSkeleton.write, List.append_assoc, List.cons_append]
  refine (h atomStrength frames _ (Nat.le_refl _) (hAdmits.weaken hPlace) hTarget).tail ?_
  rw [readAfter_member, hRead]
  rfl

theorem readable_send {receiver : ExprSkeleton} {method : String} {arguments : List ExprSkeleton} (h : Readable receiver)
    (hMethod : IsFreeName method) (hArguments : ∀ argument ∈ arguments, Readable argument) :
    Readable (.send receiver method arguments) := by
  intro place frames rest hPlace hAdmits _
  have hMember : Absorbed 0 ('.' :: method.toList) := (absorbed_char rfl).append hMethod.absorbed
  have hReceiver (inside : List Char) : Follows atomStrength ('.' :: (method.toList ++ '(' :: inside)) :=
    ⟨Nat.le_refl _, by rintro c ⟨⟩; decide, unscoped_absorbed hMember (by decide) (by decide) inside⟩
  have hRead (inside : List Char) : readMember receiver frames (method.toList ++ '(' :: inside) =
      ⟨.operand, .arguments (.send receiver method) [] :: frames, inside⟩ := by
    rw [readMember, splitFieldName_append (.inl hMethod) (by rintro c ⟨⟩; decide)]
    simp
  have hArgumentsRead := reads_arguments hArguments (.send receiver method) frames rest
  rw [ExprSkeleton.write, List.append_assoc, List.cons_append, List.append_assoc, List.cons_append, List.append_assoc,
    List.singleton_append]
  refine (h atomStrength frames _ (Nat.le_refl _) (hAdmits.weaken hPlace) (hReceiver _)).trans
    (.head ?_ hArgumentsRead)
  rw [readAfter_member, hRead]
  rfl

end Reader

end RecordSynthesis.Code
