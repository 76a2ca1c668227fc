import RecordSynthesis.Proofs.TypeGrammar

/-!
# How reading a type ends

Reading stops at the start of a lexeme or at the end of the text, and both are character boundaries. It ends with a type
or with one of the three errors that describe the text, unless it has to read over white space of several bytes: white
space is read over byte by byte, and behind the first byte of such a character no boundary stands.
-/

namespace RecordSynthesis

set_option autoImplicit false

namespace Text

/-- A character begins at this byte, or the text ends there. -/
def IsBoundary (chars : List Char) (offset : Nat) : Prop :=
  ∃ before after, chars = before ++ after ∧ byteLength before = offset

theorem byteLength_append (before after : List Char) :
    byteLength (before ++ after) = byteLength before + byteLength after := by
  induction before with
  | nil => rw [List.nil_append, byteLength, Nat.zero_add]
  | cons c cs ih => rw [List.cons_append, byteLength, byteLength, ih, Nat.add_assoc]

theorem IsBoundary.le {chars : List Char} {offset : Nat} (h : IsBoundary chars offset) :
    offset ≤ byteLength chars := by
  obtain ⟨before, after, rfl, rfl⟩ := h
  rw [byteLength_append]
  exact Nat.le_add_right _ _

theorem not_isBoundary_inside {before after : List Char} {c : Char} {distance : Nat} (hPositive : 0 < distance)
    (hInside : distance < c.utf8Size) : ¬IsBoundary (before ++ c :: after) (byteLength before + distance) := by
  rintro ⟨left, right, hSplit, hLength⟩
  rcases List.append_eq_append_iff.mp hSplit with ⟨more, rfl, hRest⟩ | ⟨more, rfl, -⟩
  · rw [byteLength_append] at hLength
    cases more with
    | nil => rw [byteLength] at hLength; omega
    | cons d ds =>
      obtain ⟨rfl, -⟩ := List.cons.inj hRest
      rw [byteLength] at hLength
      omega
  · rw [byteLength_append] at hLength
    omega

end Text

namespace Ty

theorem exists_split_of_mem_lexemes {offset : Nat} {cs : List Char} : ∀ lexeme ∈ lexemes offset cs,
    ∃ before after, cs = before ++ after ∧ offset + Text.byteLength before = lexeme.offset := by
  induction cs generalizing offset with
  | nil => simp [lexemes]
  | cons c cs ih =>
    have hLater : ∀ lexeme ∈ lexemes (offset + c.utf8Size) cs,
        ∃ before after, c :: cs = before ++ after ∧ offset + Text.byteLength before = lexeme.offset := by
      intro lexeme hMem
      obtain ⟨before, after, rfl, hOffset⟩ := ih lexeme hMem
      exact ⟨c :: before, after, rfl, by rw [Text.byteLength, ← hOffset, Nat.add_assoc]⟩
    intro lexeme hMem
    rw [lexemes] at hMem
    rcases pushChar_cases offset c (lexemes (offset + c.utf8Size) cs) with
      ⟨-, hSame⟩ | ⟨token, others, hSame, hOthers, -⟩
    · rw [hSame] at hMem
      exact hLater lexeme hMem
    · rw [hSame] at hMem
      rcases List.mem_cons.mp hMem with rfl | hMem
      · exact ⟨[], c :: cs, rfl, rfl⟩
      · exact hLater lexeme (hOthers hMem)

theorem isBoundary_of_mem_lexemes {cs : List Char} {lexeme : Lexeme} (h : lexeme ∈ lexemes 0 cs) :
    Text.IsBoundary cs lexeme.offset := by
  obtain ⟨before, after, hSplit, hOffset⟩ := exists_split_of_mem_lexemes lexeme h
  exact ⟨before, after, hSplit, by rw [← hOffset, Nat.zero_add]⟩

/-- A character put in front of a lexeme joins no lexeme behind that one. -/
theorem pushChar_cons_append (offset : Nat) (c : Char) (lexeme : Lexeme) (first second : List Lexeme) :
    pushChar offset c (lexeme :: first ++ second) = pushChar offset c (lexeme :: first) ++ second := by
  obtain ⟨token, start⟩ := lexeme
  rw [List.cons_append, pushChar.eq_def, pushChar.eq_def]
  by_cases hNarrow : Text.isNarrowBlank c = true
  · simp only [if_pos hNarrow, List.cons_append]
  by_cases hWide : Text.isWideBlank c = true
  · simp only [if_neg hNarrow, if_pos hWide, List.cons_append]
  by_cases hWord : isWordChar c = true
  · simp only [if_neg hNarrow, if_neg hWide, if_pos hWord]
    cases token with
    | word => by_cases hJoins : start = offset + c.utf8Size <;> simp [hJoins]
    | _ => rfl
  by_cases hOpen : c = '['
  · simp only [if_neg hNarrow, if_neg hWide, if_neg hWord, if_pos hOpen]
    cases token with
    | stray d => by_cases hJoins : d = ']' ∧ start = offset + 1 <;> simp [hJoins]
    | _ => rfl
  · simp only [if_neg hNarrow, if_neg hWide, if_neg hWord, if_neg hOpen, List.cons_append]

def StandsApart (offset : Nat) : List Lexeme → Prop
  | [] => True
  | ⟨token, start⟩ :: _ => token = .wideBlank ∨ offset < start

theorem standsApart_lexemes {blank : Char} (hBlank : isBlank blank = true) {offset start : Nat} (h : offset ≤ start)
    (after : List Char) : StandsApart offset (lexemes start (blank :: after)) := by
  have hAfter : ∀ lexeme ∈ lexemes (start + blank.utf8Size) after, offset < lexeme.offset := fun lexeme hMem => by
    have := le_of_mem_lexemes _ _ lexeme hMem
    have := blank.utf8Size_pos
    omega
  rw [lexemes, pushChar.eq_def]
  split
  · cases hLexed : lexemes (start + blank.utf8Size) after with
    | nil => trivial
    | cons lexeme others => exact .inr (hAfter lexeme (by rw [hLexed]; exact List.mem_cons_self))
  · rename_i hNarrow
    rw [isBlank, Bool.eq_false_iff.mpr hNarrow, Bool.false_or] at hBlank
    rw [if_pos hBlank]
    exact .inl rfl

theorem pushChar_of_standsApart {offset : Nat} {c : Char} {following : List Lexeme}
    (h : StandsApart (offset + c.utf8Size) following) :
    pushChar offset c following = pushChar offset c [] ++ following := by
  cases following with
  | nil => rw [List.append_nil]
  | cons lexeme others =>
    obtain ⟨token, start⟩ := lexeme
    rw [pushChar.eq_def, pushChar.eq_def]
    by_cases hNarrow : Text.isNarrowBlank c = true
    · simp only [if_pos hNarrow, List.nil_append]
    by_cases hWide : Text.isWideBlank c = true
    · simp only [if_neg hNarrow, if_pos hWide, List.singleton_append]
    by_cases hWord : isWordChar c = true
    · simp only [if_neg hNarrow, if_neg hWide, if_pos hWord]
      cases token with
      | word =>
        have hApart : offset + c.utf8Size < start := h.resolve_left Token.noConfusion
        simp [Nat.ne_of_gt hApart]
      | _ => rfl
    by_cases hOpen : c = '['
    · subst hOpen
      simp only [if_neg hNarrow, if_neg hWide, if_neg hWord, if_true]
      cases token with
      | stray =>
        have hApart : offset + 1 < start := h.resolve_left Token.noConfusion
        simp [Nat.ne_of_gt hApart]
      | _ => rfl
    · simp only [if_neg hNarrow, if_neg hWide, if_neg hWord, if_neg hOpen, List.singleton_append]

/-- A text is cut at its white space. -/
theorem lexemes_append_blank {blank : Char} (hBlank : isBlank blank = true) (before after : List Char) (offset : Nat) :
    lexemes offset (before ++ blank :: after) =
      lexemes offset before ++ lexemes (offset + Text.byteLength before) (blank :: after) := by
  induction before generalizing offset with
  | nil => rfl
  | cons c cs ih =>
    have hLexed : lexemes offset (c :: cs) = pushChar offset c (lexemes (offset + c.utf8Size) cs) := rfl
    rw [List.cons_append, lexemes, ih, hLexed, Text.byteLength, ← Nat.add_assoc]
    cases lexemes (offset + c.utf8Size) cs with
    | nil => exact pushChar_of_standsApart (standsApart_lexemes hBlank (Nat.le_add_right _ _) after)
    | cons lexeme first => exact pushChar_cons_append offset c lexeme first _

def steps (scope : List String) : Mode → List Frame → List Lexeme → Except Flaw (Mode × List Frame)
  | mode, frames, [] => .ok (mode, frames)
  | mode, frames, lexeme :: others =>
    match step scope mode frames lexeme with
    | .ok (next, stack) => steps scope next stack others
    | .error flaw => .error flaw

variable {scope : List String} {size : Nat}

theorem run_append {mode : Mode} {frames : List Frame} {first second : List Lexeme} :
    run scope size mode frames (first ++ second) =
      match steps scope mode frames first with
      | .ok (next, stack) => run scope size next stack second
      | .error flaw => .error flaw := by
  induction first generalizing mode frames with
  | nil => rfl
  | cons lexeme others ih =>
    rw [List.cons_append, run, steps]
    cases step scope mode frames lexeme with
    | error => rfl
    | ok next => exact ih

/-- The machine can always be brought to the end: what it has read begins a type. -/
def closing (mode : Mode) (frames : List Frame) : List Char :=
  (match mode with
    | .name => Primitive.int.keyword.toList
    | .after _ _ => []) ++ List.replicate frames.length '>'

theorem tokensOf_replicate_greater (n : Nat) : tokensOf (List.replicate n '>') = List.replicate n .greater := by
  induction n with
  | zero => rfl
  | succ n ih =>
    rw [List.replicate_succ, List.replicate_succ, ← ih]
    have hEnds : Token.greater.EndsBefore (List.replicate n '>') := trivial
    exact tokensOf_spelling hEnds

theorem exists_run_greater (frames : List Frame) (type : Ty) (bare : Option String) {lexed : List Lexeme}
    (h : lexed.map Lexeme.token = List.replicate frames.length .greater) :
    ∃ result, run scope size (.after type bare) frames lexed = .ok result := by
  induction frames generalizing type bare lexed with
  | nil =>
    rw [List.length_nil, List.replicate_zero, List.map_eq_nil_iff] at h
    exact ⟨type, by rw [h]; rfl⟩
  | cons frame frames ih =>
    obtain ⟨lexeme, others, rfl, hLexeme, hOthers⟩ := List.map_eq_cons_iff.mp h
    rw [run_greater type bare frame.name frame.arguments frames lexeme others hLexeme]
    exact ih _ none hOthers

theorem exists_run_closing (scope : List String) (size : Nat) {mode : Mode} {frames : List Frame} {lexed : List Lexeme}
    (h : lexed.map Lexeme.token = tokensOf (closing mode frames)) :
    ∃ result, run scope size mode frames lexed = .ok result := by
  cases mode with
  | after type bare =>
    rw [closing, List.nil_append, tokensOf_replicate_greater] at h
    exact exists_run_greater frames type bare h
  | name =>
    have hEnds : (Token.word Primitive.int.keyword.toList).EndsBefore (List.replicate frames.length '>') := by
      refine ⟨(isWord_keyword .int).1, (isWord_keyword .int).2, fun c hc => ?_⟩
      rw [List.eq_of_mem_replicate (List.mem_of_mem_head? hc)]
      decide
    have hTokens := tokensOf_spelling hEnds
    rw [Token.spelling, tokensOf_replicate_greater] at hTokens
    rw [closing, hTokens] at h
    obtain ⟨lexeme, others, rfl, hLexeme, hOthers⟩ := List.map_eq_cons_iff.mp h
    rw [run_word (startsWithDigit_keyword .int) frames lexeme others hLexeme, ofWord, Primitive.ofKeyword?_keyword]
    exact exists_run_greater frames _ none hOthers

/-- A step fails over white space of several bytes, or for the lexeme that it cannot take. -/
theorem flaw_of_step {mode : Mode} {frames : List Frame} {lexeme : Lexeme} {flaw : Flaw}
    (h : step scope mode frames lexeme = .error flaw) :
    lexeme.token = .wideBlank ∧ flaw = .wideBlank lexeme.offset ∨
      flaw ∈ [.expectedName lexeme.offset, .unclosedArguments, .trailingInput lexeme.offset] := by
  rw [step.eq_def] at h
  split at h
  case h_1 =>
    cases h
    exact .inl ⟨rfl, rfl⟩
  case h_2 =>
    split at h
    · cases h
      simp
    · cases h
  all_goals cases h; try simp

theorem flaw_of_steps {mode : Mode} {frames : List Frame} {lexed : List Lexeme} {flaw : Flaw}
    (h : steps scope mode frames lexed = .error flaw) :
    ∃ lexeme ∈ lexed, lexeme.token = .wideBlank ∧ flaw = .wideBlank lexeme.offset ∨
      flaw ∈ [.expectedName lexeme.offset, .unclosedArguments, .trailingInput lexeme.offset] := by
  induction lexed generalizing mode frames with
  | nil => cases h
  | cons lexeme others ih =>
    rw [steps] at h
    cases hStep : step scope mode frames lexeme with
    | error found =>
      rw [hStep] at h
      cases h
      exact ⟨lexeme, List.mem_cons_self, flaw_of_step hStep⟩
    | ok next =>
      rw [hStep] at h
      obtain ⟨other, hMem, hFlaw⟩ := ih h
      exact ⟨other, List.mem_cons_of_mem _ hMem, hFlaw⟩

theorem flaw_of_run {mode : Mode} {frames : List Frame} {lexed : List Lexeme} {flaw : Flaw}
    (h : run scope size mode frames lexed = .error flaw) :
    steps scope mode frames lexed = .error flaw ∨ flaw ∈ [.expectedName size, .unclosedArguments] := by
  rw [← List.append_nil lexed, run_append] at h
  cases hSteps : steps scope mode frames lexed with
  | error found =>
    rw [hSteps] at h
    cases h
    exact .inl rfl
  | ok next =>
    obtain ⟨last, stack⟩ := next
    rw [hSteps] at h
    cases last with
    | name =>
      cases h
      simp
    | after =>
      cases stack with
      | nil => cases h
      | cons =>
        cases h
        simp

theorem utf8Size_ne_one_of_isWideBlank {c : Char} (h : Text.isWideBlank c = true) : c.utf8Size ≠ 1 := by
  intro hSize
  rw [Char.utf8Size_eq_one_iff, UInt32.le_iff_toNat_le] at hSize
  change c.toNat ≤ 127 at hSize
  simp only [Text.isWideBlank, Bool.or_eq_true, decide_eq_true_eq, Bool.and_eq_true] at h
  omega

theorem mem_of_mem_pushChar_wideBlank {offset start : Nat} {c : Char} {following : List Lexeme}
    (h : Text.isWideBlank c = false) (hMem : ⟨.wideBlank, start⟩ ∈ pushChar offset c following) :
    ⟨.wideBlank, start⟩ ∈ following := by
  rw [pushChar.eq_def, h] at hMem
  simp only [Bool.false_eq_true, if_false] at hMem
  repeat' split at hMem
  all_goals simp_all

theorem wideBlank_not_mem_lexemes {cs : List Char} (narrow : HasNarrowBlanks cs) (offset start : Nat) :
    ⟨.wideBlank, start⟩ ∉ lexemes offset cs := by
  induction cs generalizing offset with
  | nil => exact List.not_mem_nil
  | cons c cs ih =>
    intro hMem
    have hChar : Text.isWideBlank c = false := by
      rw [Bool.eq_false_iff]
      intro hWide
      exact utf8Size_ne_one_of_isWideBlank hWide
        (narrow c List.mem_cons_self (by rw [isBlank, hWide, Bool.or_true]))
    exact ih (fun d hd => narrow d (List.mem_cons_of_mem _ hd)) _ (mem_of_mem_pushChar_wideBlank hChar hMem)

theorem HasNarrowBlanks.steps_ne_wideBlank {cs : List Char} (narrow : HasNarrowBlanks cs) (mode : Mode)
    (frames : List Frame) (offset found : Nat) :
    steps scope mode frames (lexemes offset cs) ≠ .error (.wideBlank found) := by
  intro h
  obtain ⟨⟨token, start⟩, hMem, ⟨hToken, -⟩ | hFlaw⟩ := flaw_of_steps h
  · cases hToken
    exact wideBlank_not_mem_lexemes narrow offset start hMem
  · simp at hFlaw

theorem exists_wide_of_not_hasNarrowBlanks {cs : List Char} (h : ¬HasNarrowBlanks cs) :
    ∃ before wide after, cs = before ++ wide :: after ∧ HasNarrowBlanks before ∧ isBlank wide = true ∧
      wide.utf8Size ≠ 1 := by
  induction cs with
  | nil => exact absurd (by simp [HasNarrowBlanks]) h
  | cons c cs ih =>
    by_cases hChar : isBlank c = true → c.utf8Size = 1
    · have hOthers : ¬HasNarrowBlanks cs := fun narrow => h (List.forall_mem_cons.mpr ⟨hChar, narrow⟩)
      obtain ⟨before, wide, after, rfl, narrow, hWide⟩ := ih hOthers
      exact ⟨c :: before, wide, after, rfl, List.forall_mem_cons.mpr ⟨hChar, narrow⟩, hWide⟩
    · rw [Classical.not_imp] at hChar
      exact ⟨[], c, cs, rfl, by simp [HasNarrowBlanks], hChar⟩

/-- The reader has to read over white space of several bytes at this offset: all before it is in order, for in the
place of this white space a text can go on so that a type is read. -/
def MeetsWideBlank (scope : List String) (text : List Char) (offset : Nat) : Prop :=
  ∃ before wide after, text = before ++ wide :: after ∧ HasNarrowBlanks before ∧ isBlank wide = true ∧
    wide.utf8Size ≠ 1 ∧ Text.byteLength before = offset ∧
    ∃ more type, read (String.ofList (before ++ ' ' :: more)) scope = .ok type

theorem run_wideBlank (mode : Mode) (frames : List Frame) (offset : Nat) (others : List Lexeme) :
    run scope size mode frames (⟨.wideBlank, offset⟩ :: others) = .error (.wideBlank offset) := by
  cases mode with
  | name => rfl
  | after type bare => cases bare <;> cases frames <;> rfl

theorem run_wide {wide : Char} (hWide : isBlank wide = true) (hSize : wide.utf8Size ≠ 1) (before after : List Char) :
    run scope size .name [] (lexemes 0 (before ++ wide :: after)) =
      match steps scope .name [] (lexemes 0 before) with
      | .ok _ => .error (.wideBlank (Text.byteLength before))
      | .error flaw => .error flaw := by
  have hNarrow : Text.isNarrowBlank wide = false :=
    Bool.eq_false_iff.mpr fun h => hSize (Text.utf8Size_of_isNarrowBlank h)
  have hBlank : Text.isWideBlank wide = true := by rwa [isBlank, hNarrow, Bool.false_or] at hWide
  have hLexed (offset : Nat) :
      lexemes offset (wide :: after) = ⟨.wideBlank, offset⟩ :: lexemes (offset + wide.utf8Size) after := by
    rw [lexemes, pushChar.eq_def, hNarrow, if_neg Bool.false_ne_true, if_pos hBlank]
  rw [lexemes_append_blank hWide, run_append, hLexed, Nat.zero_add]
  cases steps scope .name [] (lexemes 0 before) with
  | error => rfl
  | ok next => exact run_wideBlank next.1 next.2 _ _

/-- A text begins one that can be read exactly when the machine runs over all of its lexemes. -/
theorem exists_read_iff {before : List Char} :
    (∃ more type, read (String.ofList (before ++ ' ' :: more)) scope = .ok type) ↔
      ∃ mode frames, steps scope .name [] (lexemes 0 before) = .ok (mode, frames) := by
  have hSpace : isBlank ' ' = true := rfl
  have hLexed (more : List Char) := lexemes_append_blank hSpace before more 0
  constructor
  · rintro ⟨more, type, hRead⟩
    cases hSteps : steps scope .name [] (lexemes 0 before) with
    | ok next => exact ⟨next.1, next.2, rfl⟩
    | error flaw =>
      rw [read, String.toList_ofList, hLexed, run_append, hSteps] at hRead
      cases hRead
  · rintro ⟨mode, frames, hSteps⟩
    refine ⟨closing mode frames, ?_⟩
    have hTokens : (lexemes (0 + Text.byteLength before) (' ' :: closing mode frames)).map Lexeme.token =
        tokensOf (closing mode frames) := by
      rw [tokens_lexemes, tokensOf_blank rfl]
    rw [read, String.toList_ofList, hLexed, run_append, hSteps]
    obtain ⟨type, hRun⟩ := exists_run_closing scope (Text.byteLength (before ++ ' ' :: closing mode frames)) hTokens
    exact ⟨type, by simp only [hRun]⟩

theorem read_eq_error_iff {text : String} {flaw : Flaw} :
    read text scope = .error ⟨text, flaw⟩ ↔
      run scope (Text.byteLength text.toList) .name [] (lexemes 0 text.toList) = .error flaw := by
  rw [read]
  cases run scope (Text.byteLength text.toList) .name [] (lexemes 0 text.toList) <;> simp

theorem read_eq_wideBlank_iff {text : String} {offset : Nat} :
    read text scope = .error ⟨text, .wideBlank offset⟩ ↔ MeetsWideBlank scope text.toList offset := by
  rw [read_eq_error_iff]
  constructor
  · intro h
    have hWide : ¬HasNarrowBlanks text.toList := fun narrow =>
      (flaw_of_run h).elim (narrow.steps_ne_wideBlank _ _ _ _) (by simp)
    obtain ⟨before, wide, after, hText, narrow, hBlank, hSize⟩ := exists_wide_of_not_hasNarrowBlanks hWide
    rw [hText, run_wide hBlank hSize] at h
    cases hSteps : steps scope .name [] (lexemes 0 before) with
    | error flaw =>
      rw [hSteps] at h
      cases h
      exact absurd hSteps (narrow.steps_ne_wideBlank _ _ _ _)
    | ok next =>
      rw [hSteps] at h
      cases h
      exact ⟨before, wide, after, hText, narrow, hBlank, hSize, rfl, exists_read_iff.mpr ⟨_, _, hSteps⟩⟩
  · rintro ⟨before, wide, after, hText, -, hBlank, hSize, rfl, hRead⟩
    obtain ⟨mode, frames, hSteps⟩ := exists_read_iff.mp hRead
    rw [hText, run_wide hBlank hSize, hSteps]

def Flaw.Describes (chars : List Char) : Flaw → Prop
  | .expectedName offset | .trailingInput offset =>
    offset ≤ Text.byteLength chars ∧ Text.IsBoundary chars offset
  | .unclosedArguments => True
  | .wideBlank _ => False

/-- Reading has given a type or one of the three errors. -/
def Answers (text : String) : Except ReadError Ty → Prop
  | .ok _ => True
  | .error error => error.text = text ∧ error.flaw.Describes text.toList

theorem describes_of_isBoundary {chars : List Char} {offset : Nat} (h : Text.IsBoundary chars offset) :
    ∀ flaw ∈ [Flaw.expectedName offset, .unclosedArguments, .trailingInput offset], flaw.Describes chars := by
  simp only [List.forall_mem_cons, Flaw.Describes]
  exact ⟨⟨h.le, h⟩, trivial, ⟨h.le, h⟩, by simp⟩

theorem describes_of_run {chars : List Char} {flaw : Flaw}
    (h : run scope (Text.byteLength chars) .name [] (lexemes 0 chars) = .error flaw) :
    flaw.Describes chars ∨ ∃ offset, flaw = .wideBlank offset := by
  rcases flaw_of_run h with hSteps | hEnd
  · obtain ⟨lexeme, hMem, ⟨-, hWide⟩ | hFlaw⟩ := flaw_of_steps hSteps
    · exact .inr ⟨_, hWide⟩
    · exact .inl (describes_of_isBoundary (isBoundary_of_mem_lexemes hMem) flaw hFlaw)
  · have hBoundary : Text.IsBoundary chars (Text.byteLength chars) := ⟨chars, [], (List.append_nil _).symm, rfl⟩
    exact .inl (describes_of_isBoundary hBoundary flaw (List.mem_append_left [_] hEnd))

/-- Reading answers for every text but those in which white space of several bytes stands where white space is read
over; for these it has come to a boundary behind whose next byte no character begins. -/
theorem read_answers_iff (text : String) (scope : List String) :
    (Answers text (read text scope) ↔ ∀ offset, ¬MeetsWideBlank scope text.toList offset) ∧
      ∀ offset, MeetsWideBlank scope text.toList offset →
        read text scope = .error ⟨text, .wideBlank offset⟩ ∧ Text.IsBoundary text.toList offset ∧
          ¬Text.IsBoundary text.toList (offset + 1) := by
  refine ⟨⟨fun h offset hMeets => ?_, fun h => ?_⟩, fun offset hMeets => ⟨read_eq_wideBlank_iff.mpr hMeets, ?_⟩⟩
  · rw [read_eq_wideBlank_iff.mpr hMeets] at h
    exact h.2
  · cases hRun : run scope (Text.byteLength text.toList) .name [] (lexemes 0 text.toList) with
    | ok type =>
      rw [read]
      simp only [hRun, Answers]
    | error flaw =>
      rw [read_eq_error_iff.mpr hRun]
      refine ⟨rfl, (describes_of_run hRun).resolve_right ?_⟩
      rintro ⟨offset, rfl⟩
      exact h offset (read_eq_wideBlank_iff.mp (read_eq_error_iff.mpr hRun))
  · obtain ⟨before, wide, after, hText, -, -, hSize, rfl, -⟩ := hMeets
    have := wide.utf8Size_pos
    rw [hText]
    exact ⟨⟨before, wide :: after, rfl, rfl⟩, Text.not_isBoundary_inside Nat.one_pos (by omega)⟩

/-- Behind the keyword stands the space that does not break. -/
theorem not_read_answers_no_break_space : ¬Answers "int\u00a0" (read "int\u00a0" []) := by
  have hRead : read "int\u00a0" [] = .error ⟨"int\u00a0", .wideBlank 3⟩ := rfl
  rw [hRead]
  exact fun h => h.2

end Ty

end RecordSynthesis
