import RecordSynthesis.Proofs.TypeLexemes

/-!
# The text of types

A type whose names can be read is read back from its canonical text, and every type that is read is one of those. So no
two of them share a text.
-/

namespace RecordSynthesis.Ty

set_option autoImplicit false

/-- What a name in a type is written like: a word that begins with no digit and is no keyword. -/
structure IsTypeName (name : String) : Prop where
  nonempty : name.toList ≠ []
  chars : ∀ c ∈ name.toList, isWordChar c = true
  start : startsWithDigit name.toList = false
  notKeyword : Primitive.ofKeyword? name = none

mutual

/-- What reading can give with these names in scope: they stand for type parameters, all others for named types of
reference kind. -/
def WrittenIn (scope : List String) : Ty → Prop
  | .primitive _ => True
  | .named name arguments kind => IsTypeName name ∧ name ∉ scope ∧ kind = .reference ∧ AllWrittenIn scope arguments
  | .parameter name => IsTypeName name ∧ name ∈ scope
  | .array element => WrittenIn scope element
  | .nullable underlying => WrittenIn scope underlying

def AllWrittenIn (scope : List String) : List Ty → Prop
  | [] => True
  | type :: others => WrittenIn scope type ∧ AllWrittenIn scope others

end

mutual

def tokens : Ty → List Token
  | .primitive p => [.word p.keyword.toList]
  | .named name [] _ => [.word name.toList]
  | .named name (argument :: others) _ => .word name.toList :: .less :: (tokens argument ++ tokensOthers others)
  | .parameter name => [.word name.toList]
  | .array element => tokens element ++ [.brackets]
  | .nullable underlying => tokens underlying ++ [.question]

def tokensOthers : List Ty → List Token
  | [] => [.greater]
  | argument :: others => .comma :: (tokens argument ++ tokensOthers others)

end

def Lexes (offset : Nat) (text : List Char) (tokens : List Token) (rest : List Char) : Prop :=
  ∃ read stop, lexemes offset (text ++ rest) = read ++ lexemes stop rest ∧ read.map Lexeme.token = tokens

theorem Lexes.append {text more rest : List Char} {tokens others : List Token} {offset : Nat}
    (h : Lexes offset text tokens (more ++ rest)) (hMore : ∀ offset, Lexes offset more others rest) :
    Lexes offset (text ++ more) (tokens ++ others) rest := by
  obtain ⟨read, stop, hRead, rfl⟩ := h
  obtain ⟨readMore, stopMore, hReadMore, rfl⟩ := hMore stop
  exact ⟨read ++ readMore, stopMore, by rw [List.append_assoc, hRead, hReadMore, List.append_assoc], List.map_append⟩

theorem lexes_word {chars : List Char} (nonempty : chars ≠ []) (hChars : ∀ c ∈ chars, isWordChar c = true)
    (offset : Nat) {rest : List Char} (hRest : ∀ c ∈ rest.head?, isWordChar c = false) :
    Lexes offset chars [.word chars] rest :=
  ⟨[⟨.word chars, offset⟩], _, lexemes_word nonempty hChars hRest, rfl⟩

theorem lexes_less (offset : Nat) (rest : List Char) : Lexes offset ['<'] [.less] rest :=
  ⟨[⟨.less, offset⟩], _, rfl, rfl⟩

theorem lexes_greater (offset : Nat) (rest : List Char) : Lexes offset ['>'] [.greater] rest :=
  ⟨[⟨.greater, offset⟩], _, rfl, rfl⟩

theorem lexes_comma (offset : Nat) (rest : List Char) : Lexes offset [',', ' '] [.comma] rest :=
  ⟨[⟨.comma, offset⟩], _, rfl, rfl⟩

theorem lexes_question (offset : Nat) (rest : List Char) : Lexes offset ['?'] [.question] rest :=
  ⟨[⟨.question, offset⟩], _, rfl, rfl⟩

theorem lexes_brackets (offset : Nat) (rest : List Char) : Lexes offset ['[', ']'] [.brackets] rest := by
  have hOpen : pushChar offset '[' (⟨.stray ']', offset + 1⟩ :: lexemes (offset + 1 + 1) rest) =
      ⟨.brackets, offset⟩ :: lexemes (offset + 1 + 1) rest := by
    simp [pushChar, Text.isNarrowBlank, Text.isWideBlank, isWordChar, Text.isAlphanumeric]
  exact ⟨[⟨.brackets, offset⟩], _, hOpen, rfl⟩

theorem isWord_keyword (p : Primitive) :
    p.keyword.toList ≠ [] ∧ ∀ c ∈ p.keyword.toList, isWordChar c = true := by
  rw [← List.all_eq_true]
  cases p <;> exact ⟨List.cons_ne_nil _ _, rfl⟩

theorem toList_canonical_named (name : String) (argument : Ty) (others : List Ty) (kind : TypeKind) :
    (canonical (.named name (argument :: others) kind)).toList =
      name.toList ++ (['<'] ++ ((canonical argument).toList ++ ((canonicalOthers others).toList ++ ['>']))) := by
  simp [canonical]

theorem toList_canonicalOthers (type : Ty) (others : List Ty) :
    (canonicalOthers (type :: others)).toList ++ ['>'] =
      [',', ' '] ++ ((canonical type).toList ++ ((canonicalOthers others).toList ++ ['>'])) := by
  simp [canonicalOthers]

theorem head?_canonicalOthers (types : List Ty) (rest : List Char) :
    ∀ c ∈ ((canonicalOthers types).toList ++ ['>'] ++ rest).head?, isWordChar c = false := by
  cases types with
  | nil =>
    rintro c ⟨⟩
    decide
  | cons type others =>
    rw [toList_canonicalOthers]
    rintro c ⟨⟩
    decide

mutual

theorem lexes_canonical (scope : List String) : ∀ (type : Ty), type.WrittenIn scope →
    ∀ (offset : Nat) (rest : List Char), (∀ c ∈ rest.head?, isWordChar c = false) →
    Lexes offset type.canonical.toList type.tokens rest
  | .primitive p, _, offset, rest, hRest => lexes_word (isWord_keyword p).1 (isWord_keyword p).2 offset hRest
  | .parameter _, written, offset, rest, hRest => lexes_word written.1.nonempty written.1.chars offset hRest
  | .named _ [] _, written, offset, rest, hRest => lexes_word written.1.nonempty written.1.chars offset hRest
  | .named name (argument :: others) kind, written, offset, rest, hRest => by
    obtain ⟨hName, -, -, hArgument, hOthers⟩ := written
    rw [toList_canonical_named]
    refine (lexes_word hName.nonempty hName.chars offset (by rintro c ⟨⟩; decide)).append fun offset => ?_
    refine (lexes_less offset _).append fun offset => ?_
    exact (lexes_canonical scope argument hArgument offset _ (head?_canonicalOthers others rest)).append fun offset =>
      lexes_canonicalOthers scope others hOthers offset rest
  | .array element, written, offset, rest, hRest => by
    rw [canonical, String.toList_append, tokens]
    refine (lexes_canonical scope element written offset _ ?_).append fun offset => lexes_brackets offset rest
    rintro c ⟨⟩
    decide
  | .nullable underlying, written, offset, rest, hRest => by
    rw [canonical, String.toList_append, tokens]
    refine (lexes_canonical scope underlying written offset _ ?_).append fun offset => lexes_question offset rest
    rintro c ⟨⟩
    decide

theorem lexes_canonicalOthers (scope : List String) : ∀ (types : List Ty), AllWrittenIn scope types →
    ∀ (offset : Nat) (rest : List Char),
    Lexes offset ((canonicalOthers types).toList ++ ['>']) (tokensOthers types) rest
  | [], _, offset, rest => lexes_greater offset rest
  | type :: others, written, offset, rest => by
    rw [toList_canonicalOthers]
    refine (lexes_comma offset _).append fun offset => ?_
    exact (lexes_canonical scope type written.1 offset _ (head?_canonicalOthers others rest)).append fun offset =>
      lexes_canonicalOthers scope others written.2 offset rest

end

def bareName? : Ty → Option String
  | .named name [] _ => some name
  | _ => none

variable {scope : List String} {size : Nat}

theorem startsWithDigit_keyword (p : Primitive) : startsWithDigit p.keyword.toList = false := by
  cases p <;> rfl

/-- A word that may begin a type is read as what it stands for. -/
theorem run_word {word : String} (start : startsWithDigit word.toList = false) (frames : List Frame) (lexeme : Lexeme)
    (rest : List Lexeme) (h : lexeme.token = .word word.toList) :
    run scope size .name frames (lexeme :: rest) = run scope size (ofWord scope word) frames rest := by
  obtain ⟨token, offset⟩ := lexeme
  cases h
  rw [run, step]
  simp [start]

section

variable (type : Ty) (bare : Option String) (name : String) (arguments : List Ty) (frames : List Frame)
  (lexeme : Lexeme) (rest : List Lexeme)

theorem run_less (h : lexeme.token = .less) :
    run scope size (.after type (some name)) frames (lexeme :: rest) =
      run scope size .name (⟨name, []⟩ :: frames) rest := by
  obtain ⟨token, offset⟩ := lexeme
  cases h
  cases frames <;> rfl

theorem run_comma (h : lexeme.token = .comma) :
    run scope size (.after type bare) (⟨name, arguments⟩ :: frames) (lexeme :: rest) =
      run scope size .name (⟨name, arguments ++ [type]⟩ :: frames) rest := by
  obtain ⟨token, offset⟩ := lexeme
  cases h
  cases bare <;> rfl

theorem run_greater (h : lexeme.token = .greater) :
    run scope size (.after type bare) (⟨name, arguments⟩ :: frames) (lexeme :: rest) =
      run scope size (.after (.named name (arguments ++ [type]) .reference) none) frames rest := by
  obtain ⟨token, offset⟩ := lexeme
  cases h
  cases bare <;> rfl

theorem run_brackets (h : lexeme.token = .brackets) :
    run scope size (.after type bare) frames (lexeme :: rest) =
      run scope size (.after (.array type) none) frames rest := by
  obtain ⟨token, offset⟩ := lexeme
  cases h
  cases bare <;> cases frames <;> rfl

theorem run_question (h : lexeme.token = .question) :
    run scope size (.after type bare) frames (lexeme :: rest) =
      run scope size (.after (.nullable type) none) frames rest := by
  obtain ⟨token, offset⟩ := lexeme
  cases h
  cases bare <;> cases frames <;> rfl

end

mutual

theorem run_tokens : ∀ (type : Ty), type.WrittenIn scope → ∀ (frames : List Frame) (read rest : List Lexeme),
    read.map Lexeme.token = type.tokens →
    run scope size .name frames (read ++ rest) = run scope size (.after type type.bareName?) frames rest
  | .primitive p, _, frames, read, rest, hRead => by
    obtain ⟨lexeme, rfl, hLexeme⟩ := List.map_eq_singleton_iff.mp hRead
    rw [List.singleton_append, run_word (startsWithDigit_keyword p) frames lexeme rest hLexeme, ofWord,
      Primitive.ofKeyword?_keyword]
    rfl
  | .parameter name, written, frames, read, rest, hRead => by
    obtain ⟨lexeme, rfl, hLexeme⟩ := List.map_eq_singleton_iff.mp hRead
    rw [List.singleton_append, run_word written.1.start frames lexeme rest hLexeme, ofWord, written.1.notKeyword]
    simp [written.2, bareName?]
  | .named name [] kind, written, frames, read, rest, hRead => by
    obtain ⟨lexeme, rfl, hLexeme⟩ := List.map_eq_singleton_iff.mp hRead
    obtain ⟨hName, hScope, rfl, -⟩ := written
    rw [List.singleton_append, run_word hName.start frames lexeme rest hLexeme, ofWord, hName.notKeyword]
    simp [hScope, bareName?]
  | .named name (argument :: others) kind, written, frames, read, rest, hRead => by
    obtain ⟨hName, hScope, rfl, hArgument, hOthers⟩ := written
    obtain ⟨word, tail, rfl, hWord, hTail⟩ := List.map_eq_cons_iff.mp hRead
    obtain ⟨less, inner, rfl, hLess, hInner⟩ := List.map_eq_cons_iff.mp hTail
    obtain ⟨first, more, rfl, hFirst, hMore⟩ := List.map_eq_append_iff.mp hInner
    have hBare : ofWord scope name = .after (.named name [] .reference) (some name) := by
      simp [ofWord, hName.notKeyword, hScope]
    rw [List.cons_append, List.cons_append, List.append_assoc, run_word hName.start frames word _ hWord, hBare,
      run_less _ _ _ _ _ hLess, run_tokens argument hArgument _ first _ hFirst,
      run_tokensOthers others hOthers argument _ name [] frames more rest hMore]
    rfl
  | .array element, written, frames, read, rest, hRead => by
    obtain ⟨inner, last, rfl, hInner, hLast⟩ := List.map_eq_append_iff.mp hRead
    obtain ⟨lexeme, rfl, hLexeme⟩ := List.map_eq_singleton_iff.mp hLast
    rw [List.append_assoc, run_tokens element written frames inner _ hInner]
    exact run_brackets element _ frames lexeme rest hLexeme
  | .nullable underlying, written, frames, read, rest, hRead => by
    obtain ⟨inner, last, rfl, hInner, hLast⟩ := List.map_eq_append_iff.mp hRead
    obtain ⟨lexeme, rfl, hLexeme⟩ := List.map_eq_singleton_iff.mp hLast
    rw [List.append_assoc, run_tokens underlying written frames inner _ hInner]
    exact run_question underlying _ frames lexeme rest hLexeme

theorem run_tokensOthers : ∀ (types : List Ty), AllWrittenIn scope types → ∀ (last : Ty) (bare : Option String)
    (name : String) (arguments : List Ty) (frames : List Frame) (read rest : List Lexeme),
    read.map Lexeme.token = tokensOthers types →
    run scope size (.after last bare) (⟨name, arguments⟩ :: frames) (read ++ rest) =
      run scope size (.after (.named name (arguments ++ last :: types) .reference) none) frames rest
  | [], _, last, bare, name, arguments, frames, read, rest, hRead => by
    obtain ⟨lexeme, rfl, hLexeme⟩ := List.map_eq_singleton_iff.mp hRead
    exact run_greater last bare name arguments frames lexeme rest hLexeme
  | type :: others, written, last, bare, name, arguments, frames, read, rest, hRead => by
    obtain ⟨comma, inner, rfl, hComma, hInner⟩ := List.map_eq_cons_iff.mp hRead
    obtain ⟨first, more, rfl, hFirst, hMore⟩ := List.map_eq_append_iff.mp hInner
    rw [List.cons_append, List.append_assoc, run_comma last bare name arguments frames comma _ hComma,
      run_tokens type written.1 _ first _ hFirst,
      run_tokensOthers others written.2 type _ name _ frames more rest hMore, List.append_assoc]
    rfl

end

theorem read_canonical {type : Ty} (written : type.WrittenIn scope) : read type.canonical scope = .ok type := by
  obtain ⟨lexed, stop, hLexed, hTokens⟩ := lexes_canonical scope type written 0 [] (by simp)
  rw [List.append_nil] at hLexed
  have hRun : run scope (Text.byteLength type.canonical.toList) .name [] (lexed ++ lexemes stop []) = .ok type := by
    rw [run_tokens type written [] lexed _ hTokens]
    rfl
  rw [read]
  simp only [hLexed, hRun]

/-- Types whose names can be read are the same if their texts are. -/
theorem eq_of_canonical_eq {type other : Ty} (written : type.WrittenIn scope) (otherWritten : other.WrittenIn scope)
    (h : type.canonical = other.canonical) : type = other := by
  have hRead := read_canonical written
  rw [h, read_canonical otherWritten] at hRead
  exact (Except.ok.inj hRead).symm

theorem allWrittenIn_iff {types : List Ty} : AllWrittenIn scope types ↔ ∀ type ∈ types, type.WrittenIn scope := by
  induction types with
  | nil => simp [AllWrittenIn]
  | cons type others ih => rw [AllWrittenIn, ih, List.forall_mem_cons]

def Frame.IsWritten (scope : List String) (frame : Frame) : Prop :=
  IsTypeName frame.name ∧ frame.name ∉ scope ∧ AllWrittenIn scope frame.arguments

def Mode.IsWritten (scope : List String) : Mode → Prop
  | .name => True
  | .after type bare => type.WrittenIn scope ∧ ∀ name ∈ bare, type = .named name [] .reference

def Lexeme.IsCut (lexeme : Lexeme) : Prop :=
  ∀ chars, lexeme.token = .word chars → chars ≠ [] ∧ ∀ c ∈ chars, isWordChar c = true

theorem isCut_of_mem_lexemes {offset : Nat} {cs : List Char} : ∀ lexeme ∈ lexemes offset cs, lexeme.IsCut := by
  rintro ⟨token, start⟩ hMem chars rfl
  exact chars_of_mem_lexemes offset cs chars start hMem

theorem ofWord_isWritten {word : String} (hWord : Primitive.ofKeyword? word = none → IsTypeName word) :
    (ofWord scope word).IsWritten scope := by
  rw [ofWord]
  split
  · exact ⟨trivial, by simp⟩
  · rename_i hKeyword
    have hName := hWord hKeyword
    split
    · rename_i hScope
      exact ⟨⟨hName, List.contains_iff_mem.mp hScope⟩, by simp⟩
    · rename_i hScope
      exact ⟨⟨hName, by simpa using hScope, rfl, trivial⟩, by simp⟩

theorem step_isWritten {mode next : Mode} {frames stack : List Frame} {lexeme : Lexeme} (cut : lexeme.IsCut)
    (hMode : mode.IsWritten scope) (hFrames : ∀ frame ∈ frames, frame.IsWritten scope)
    (h : step scope mode frames lexeme = .ok (next, stack)) :
    next.IsWritten scope ∧ ∀ frame ∈ stack, frame.IsWritten scope := by
  rw [step.eq_def] at h
  split at h
  case h_1 | h_3 | h_9 | h_10 => cases h
  case h_2 _ chars _ =>
    split at h
    · cases h
    · rename_i hStart
      cases h
      obtain ⟨hNonempty, hChars⟩ := cut chars rfl
      refine ⟨ofWord_isWritten fun hKeyword => ⟨?_, ?_, ?_, hKeyword⟩, hFrames⟩
      · rwa [String.toList_ofList]
      · rwa [String.toList_ofList]
      · rwa [String.toList_ofList, ← Bool.not_eq_true]
  case h_4 type name _ =>
    cases h
    obtain ⟨hType, hBare⟩ := hMode
    rw [hBare name rfl] at hType
    exact ⟨trivial, List.forall_mem_cons.mpr ⟨⟨hType.1, hType.2.1, trivial⟩, hFrames⟩⟩
  case h_5 | h_6 =>
    cases h
    exact ⟨⟨hMode.1, by simp⟩, hFrames⟩
  case h_7 type bare frame frames _ =>
    cases h
    obtain ⟨hFrame, hOthers⟩ := List.forall_mem_cons.mp hFrames
    refine ⟨trivial, List.forall_mem_cons.mpr ⟨⟨hFrame.1, hFrame.2.1, ?_⟩, hOthers⟩⟩
    rw [allWrittenIn_iff, List.forall_mem_append, ← allWrittenIn_iff]
    exact ⟨hFrame.2.2, by simpa using hMode.1⟩
  case h_8 type bare frame frames _ =>
    cases h
    obtain ⟨hFrame, hOthers⟩ := List.forall_mem_cons.mp hFrames
    refine ⟨⟨⟨hFrame.1, hFrame.2.1, rfl, ?_⟩, by simp⟩, hOthers⟩
    rw [allWrittenIn_iff, List.forall_mem_append, ← allWrittenIn_iff]
    exact ⟨hFrame.2.2, by simpa using hMode.1⟩

theorem run_writtenIn {mode : Mode} {frames : List Frame} {lexed : List Lexeme} {type : Ty}
    (cut : ∀ lexeme ∈ lexed, lexeme.IsCut) (hMode : mode.IsWritten scope)
    (hFrames : ∀ frame ∈ frames, frame.IsWritten scope) (h : run scope size mode frames lexed = .ok type) :
    type.WrittenIn scope := by
  induction lexed generalizing mode frames with
  | nil =>
    cases mode with
    | name => cases h
    | after read bare =>
      cases frames with
      | nil =>
        cases h
        exact hMode.1
      | cons => cases h
  | cons lexeme others ih =>
    rw [run] at h
    split at h
    · rename_i next stack hStep
      obtain ⟨hNext, hStack⟩ := step_isWritten (cut lexeme List.mem_cons_self) hMode hFrames hStep
      exact ih (fun other hOther => cut other (List.mem_cons_of_mem _ hOther)) hNext hStack h
    · cases h

theorem writtenIn_of_read {text : String} {type : Ty} (h : read text scope = .ok type) : type.WrittenIn scope := by
  rw [read] at h
  split at h
  · rename_i hRun
    cases h
    have hStart : Mode.IsWritten scope .name := trivial
    exact run_writtenIn isCut_of_mem_lexemes hStart (by simp) hRun
  · cases h

end RecordSynthesis.Ty
