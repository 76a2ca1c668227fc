import RecordSynthesis.Proofs.TypeReading

/-!
# The grammar of types

What the machine accepts is what the grammar of types derives: a keyword or a type parameter, which takes no arguments,
or any other name, with arguments or without, and behind it the suffixes of arrays and of nullable types. White space
may stand in front of every token and at the end.
-/

namespace RecordSynthesis.Ty

set_option autoImplicit false

def Lexeme.moved (distance : Nat) (lexeme : Lexeme) : Lexeme :=
  { lexeme with offset := lexeme.offset + distance }

theorem pushChar_moved (offset distance : Nat) (c : Char) (following : List Lexeme) :
    pushChar (offset + distance) c (following.map (Lexeme.moved distance)) =
      (pushChar offset c following).map (Lexeme.moved distance) := by
  simp only [pushChar.eq_def]
  split
  · rfl
  split
  · rfl
  split
  · cases following with
    | nil => rfl
    | cons lexeme others =>
      obtain ⟨token, start⟩ := lexeme
      cases token with
      | word chars =>
        simp only [List.map_cons, Lexeme.moved]
        by_cases h : start = offset + c.utf8Size
        · rw [if_pos h, if_pos (by omega)]
          rfl
        · rw [if_neg h, if_neg (by omega)]
          rfl
      | _ => rfl
  split
  · cases following with
    | nil => rfl
    | cons lexeme others =>
      obtain ⟨token, start⟩ := lexeme
      cases token with
      | stray d =>
        simp only [List.map_cons, Lexeme.moved]
        by_cases h : d = ']' ∧ start = offset + 1
        · rw [if_pos h, if_pos ⟨h.1, by omega⟩]
          rfl
        · rw [if_neg h, if_neg fun hMoved => h ⟨hMoved.1, by omega⟩]
          rfl
      | _ => rfl
  · rfl

theorem lexemes_moved (offset distance : Nat) (cs : List Char) :
    lexemes (offset + distance) cs = (lexemes offset cs).map (Lexeme.moved distance) := by
  induction cs generalizing offset with
  | nil => rfl
  | cons c cs ih =>
    rw [lexemes, lexemes, ← pushChar_moved, ← ih]
    congr 2
    omega

def tokensOf (cs : List Char) : List Token :=
  (lexemes 0 cs).map Lexeme.token

theorem tokens_lexemes (offset : Nat) (cs : List Char) : (lexemes offset cs).map Lexeme.token = tokensOf cs := by
  rw [← Nat.zero_add offset, lexemes_moved, List.map_map]
  rfl

def Token.spelling : Token → List Char
  | .word chars => chars
  | .less => ['<']
  | .comma => [',']
  | .greater => ['>']
  | .brackets => ['[', ']']
  | .question => ['?']
  | .wideBlank => []
  | .stray c => [c]

def Token.EndsBefore (rest : List Char) : Token → Prop
  | .word chars => chars ≠ [] ∧ (∀ c ∈ chars, isWordChar c = true) ∧ ∀ c ∈ rest.head?, isWordChar c = false
  | .wideBlank | .stray _ => False
  | _ => True

theorem tokensOf_spelling {token : Token} {rest : List Char} (h : token.EndsBefore rest) :
    tokensOf (token.spelling ++ rest) = token :: tokensOf rest := by
  have hLexes : Lexes 0 token.spelling [token] rest := by
    cases token with
    | word chars => exact lexes_word h.1 h.2.1 0 h.2.2
    | less => exact lexes_less 0 rest
    | comma => exact ⟨[⟨.comma, 0⟩], _, rfl, rfl⟩
    | greater => exact lexes_greater 0 rest
    | brackets => exact lexes_brackets 0 rest
    | question => exact lexes_question 0 rest
    | wideBlank | stray => exact h.elim
  obtain ⟨read, stop, hRead, hToken⟩ := hLexes
  rw [tokensOf, hRead, List.map_append, hToken, tokens_lexemes, List.singleton_append]

theorem tokensOf_blank {c : Char} (h : Text.isNarrowBlank c = true) (cs : List Char) :
    tokensOf (c :: cs) = tokensOf cs := by
  rw [tokensOf, lexemes, pushChar.eq_def, if_pos h, tokens_lexemes]

theorem tokensOf_blanks {blanks : List Char} (h : ∀ c ∈ blanks, Text.isNarrowBlank c = true) (rest : List Char) :
    tokensOf (blanks ++ rest) = tokensOf rest := by
  induction blanks with
  | nil => rfl
  | cons c blanks ih =>
    obtain ⟨hBlank, hBlanks⟩ := List.forall_mem_cons.mp h
    rw [List.cons_append, tokensOf_blank hBlank, ih hBlanks]

theorem eq_of_pushChar_eq_stray {offset : Nat} {c d : Char} {following others : List Lexeme}
    (hLater : ∀ lexeme ∈ following, offset < lexeme.offset)
    (h : pushChar offset c following = ⟨.stray d, offset⟩ :: others) : c = d := by
  rw [pushChar.eq_def] at h
  split at h
  · rw [h, List.forall_mem_cons] at hLater
    exact absurd hLater.1 (Nat.lt_irrefl _)
  split at h
  · cases h
  split at h
  · split at h
    · split at h <;> cases h
    · cases h
  split at h
  · split at h
    · split at h
      · cases h
      · cases h
        rfl
    · cases h
      rfl
  · repeat' split at h
    all_goals cases h
    rfl

def Token.IsFlaw : Token → Prop
  | .wideBlank | .stray _ => True
  | _ => False

theorem tokensOf_wide {c : Char} (hNarrow : Text.isNarrowBlank c = false) (hWide : Text.isWideBlank c = true)
    (cs : List Char) : tokensOf (c :: cs) = .wideBlank :: tokensOf cs := by
  rw [tokensOf, lexemes, pushChar.eq_def, hNarrow, hWide]
  simp [tokens_lexemes]

theorem tokensOf_open {cs : List Char} (h : cs.head? ≠ some ']') :
    tokensOf ('[' :: cs) = .stray '[' :: tokensOf cs := by
  have hFollowing : ∀ others, lexemes 1 cs ≠ ⟨.stray ']', 1⟩ :: others := by
    intro others hSame
    cases cs with
    | nil => cases hSame
    | cons c cs =>
      have hLater : ∀ lexeme ∈ lexemes (1 + c.utf8Size) cs, 1 < lexeme.offset := fun lexeme hMem =>
        Nat.lt_of_lt_of_le (Nat.lt_add_of_pos_right c.utf8Size_pos) (le_of_mem_lexemes _ cs lexeme hMem)
      rw [eq_of_pushChar_eq_stray hLater hSame] at h
      exact h rfl
  have hPush : pushChar 0 '[' (lexemes 1 cs) = ⟨.stray '[', 0⟩ :: lexemes 1 cs := by
    rw [pushChar.eq_def]
    simp only [show Text.isNarrowBlank '[' = false by decide, show Text.isWideBlank '[' = false by decide,
      show isWordChar '[' = false by decide, Bool.false_eq_true, if_false, if_true]
    split
    · rename_i d start others hSame
      rw [if_neg]
      rintro ⟨rfl, rfl⟩
      exact hFollowing others hSame
    · rfl
  exact (congrArg (List.map Lexeme.token) hPush).trans (congrArg (Token.stray '[' :: ·) (tokens_lexemes 1 cs))

/-- Where the text does not go on with white space, it goes on with a token of types or with one of no type. -/
theorem exists_token {c : Char} (hBlank : Text.isNarrowBlank c = false) (cs : List Char) :
    (∃ (token : Token) (rest : List Char), c :: cs = token.spelling ++ rest ∧ token.EndsBefore rest) ∨
      ∃ (token : Token) (more : List Token), token.IsFlaw ∧ tokensOf (c :: cs) = token :: more := by
  by_cases hWide : Text.isWideBlank c = true
  · exact .inr ⟨.wideBlank, _, trivial, tokensOf_wide hBlank hWide cs⟩
  by_cases hWord : isWordChar c = true
  · refine .inl ⟨.word (c :: cs.takeWhile isWordChar), cs.dropWhile isWordChar, ?_, List.cons_ne_nil _ _, ?_, ?_⟩
    · exact congrArg (c :: ·) List.takeWhile_append_dropWhile.symm
    · exact List.forall_mem_cons.mpr ⟨hWord, List.all_eq_true.mp List.all_takeWhile⟩
    · intro d hd
      have hStop := List.head?_dropWhile_not isWordChar cs
      rwa [Option.mem_def.mp hd] at hStop
  by_cases hOpen : c = '['
  · subst hOpen
    by_cases hClose : cs.head? = some ']'
    · obtain ⟨ds, rfl⟩ := List.head?_eq_some_iff.mp hClose
      exact .inl ⟨.brackets, ds, rfl, trivial⟩
    · exact .inr ⟨.stray '[', tokensOf cs, trivial, tokensOf_open hClose⟩
  by_cases hLess : c = '<'
  · exact .inl ⟨.less, cs, by rw [hLess]; rfl, trivial⟩
  by_cases hComma : c = ','
  · exact .inl ⟨.comma, cs, by rw [hComma]; rfl, trivial⟩
  by_cases hGreater : c = '>'
  · exact .inl ⟨.greater, cs, by rw [hGreater]; rfl, trivial⟩
  by_cases hQuestion : c = '?'
  · exact .inl ⟨.question, cs, by rw [hQuestion]; rfl, trivial⟩
  refine .inr ⟨.stray c, tokensOf cs, trivial, ?_⟩
  rw [tokensOf, lexemes, pushChar.eq_def]
  simp [hBlank, hWide, hWord, hOpen, hLess, hComma, hGreater, hQuestion, tokens_lexemes]

def isBlank (c : Char) : Bool :=
  Text.isNarrowBlank c || Text.isWideBlank c

def Begins (token text rest : List Char) : Prop :=
  ∃ blanks, (∀ c ∈ blanks, isBlank c = true) ∧ text = blanks ++ (token ++ rest)

structure BeginsName (name : String) (text rest : List Char) : Prop where
  begins : Begins name.toList text rest
  nonempty : name.toList ≠ []
  chars : ∀ c ∈ name.toList, isWordChar c = true
  start : startsWithDigit name.toList = false
  longest : ∀ c ∈ rest.head?, isWordChar c = false

mutual

/-- The text begins with a spelling of the type and goes on with the rest. -/
inductive Derives (scope : List String) : List Char → Ty → List Char → Prop
  | primitive {name p text rest} : BeginsName name text rest → Primitive.ofKeyword? name = some p →
    Derives scope text (.primitive p) rest
  | parameter {name text rest} : BeginsName name text rest → Primitive.ofKeyword? name = none → name ∈ scope →
    Derives scope text (.parameter name) rest
  | bare {name text rest} : BeginsName name text rest → Primitive.ofKeyword? name = none → name ∉ scope →
    Derives scope text (.named name [] .reference) rest
  | applied {name arguments text opening first closing rest} : BeginsName name text opening →
    Primitive.ofKeyword? name = none → name ∉ scope → Begins ['<'] opening first →
    DerivesAll scope first arguments closing → Begins ['>'] closing rest →
    Derives scope text (.named name arguments .reference) rest
  | array {element text suffix rest} : Derives scope text element suffix → Begins ['[', ']'] suffix rest →
    Derives scope text (.array element) rest
  | nullable {underlying text suffix rest} : Derives scope text underlying suffix → Begins ['?'] suffix rest →
    Derives scope text (.nullable underlying) rest

inductive DerivesAll (scope : List String) : List Char → List Ty → List Char → Prop
  | last {type text rest} : Derives scope text type rest → DerivesAll scope text [type] rest
  | more {type others text separator following rest} : Derives scope text type separator →
    Begins [','] separator following → DerivesAll scope following others rest →
    DerivesAll scope text (type :: others) rest

end

/-- The whole text is a spelling of the type, up to white space at the end. -/
def Spells (scope : List String) (text : List Char) (type : Ty) : Prop :=
  ∃ rest, Derives scope text type rest ∧ ∀ c ∈ rest, isBlank c = true

/-- All white space of the text is of one byte. -/
def HasNarrowBlanks (text : List Char) : Prop :=
  ∀ c ∈ text, isBlank c = true → c.utf8Size = 1

instance (text : List Char) : Decidable (HasNarrowBlanks text) :=
  List.decidableBAll (fun c => isBlank c = true → c.utf8Size = 1) text

theorem isNarrowBlank_of_isBlank {c : Char} (h : isBlank c = true) (hSize : c.utf8Size = 1) :
    Text.isNarrowBlank c = true := by
  rw [Char.utf8Size_eq_one_iff, UInt32.le_iff_toNat_le] at hSize
  change c.toNat ≤ 127 at hSize
  rcases Bool.or_eq_true_iff.mp h with hNarrow | hWide
  · exact hNarrow
  · simp only [Text.isWideBlank, Bool.or_eq_true, decide_eq_true_eq, Bool.and_eq_true] at hWide
    omega

theorem HasNarrowBlanks.tokensOf_of_begins {text rest : List Char} (narrow : HasNarrowBlanks text) (token : Token)
    (h : Begins token.spelling text rest) (hEnd : token.EndsBefore rest) :
    HasNarrowBlanks rest ∧ tokensOf text = token :: tokensOf rest := by
  obtain ⟨blanks, hBlanks, rfl⟩ := h
  have hNarrow : ∀ c ∈ blanks, Text.isNarrowBlank c = true := fun c hc =>
    isNarrowBlank_of_isBlank (hBlanks c hc) (narrow c (List.mem_append_left _ hc) (hBlanks c hc))
  refine ⟨fun c hc => narrow c (List.mem_append_right _ (List.mem_append_right _ hc)), ?_⟩
  rw [tokensOf_blanks hNarrow, tokensOf_spelling hEnd]

theorem HasNarrowBlanks.tokensOf_of_beginsName {name : String} {text rest : List Char} (narrow : HasNarrowBlanks text)
    (h : BeginsName name text rest) : HasNarrowBlanks rest ∧ tokensOf text = .word name.toList :: tokensOf rest :=
  narrow.tokensOf_of_begins (.word name.toList) h.begins ⟨h.nonempty, h.chars, h.longest⟩

theorem BeginsName.isTypeName {name : String} {text rest : List Char} (h : BeginsName name text rest)
    (hKeyword : Primitive.ofKeyword? name = none) : IsTypeName name :=
  ⟨h.nonempty, h.chars, h.start, hKeyword⟩

theorem tokens_named_append_of {name : String} {arguments : List Ty} {kind : TypeKind} {tail more : List Token}
    (h : .comma :: tail = tokensOthers arguments ++ more) :
    .word name.toList :: .less :: tail = tokens (.named name arguments kind) ++ more := by
  cases arguments with
  | nil => cases h
  | cons first others =>
    obtain ⟨-, rfl⟩ := List.cons.inj h
    rfl

mutual

/-- A derived type is one that can be read, and its tokens are those of the text. -/
theorem Derives.tokensOf_eq {scope : List String} : ∀ {text : List Char} {type : Ty} {rest : List Char},
    Derives scope text type rest → HasNarrowBlanks text →
      type.WrittenIn scope ∧ HasNarrowBlanks rest ∧ tokensOf text = type.tokens ++ tokensOf rest
  | _, _, _, .primitive hName hKeyword, narrow => by
    obtain ⟨narrowRest, hTokens⟩ := narrow.tokensOf_of_beginsName hName
    refine ⟨trivial, narrowRest, ?_⟩
    rw [hTokens, tokens, Primitive.keyword_of_ofKeyword? hKeyword, List.singleton_append]
  | _, _, _, .parameter hName hKeyword hScope, narrow =>
    ⟨⟨hName.isTypeName hKeyword, hScope⟩, narrow.tokensOf_of_beginsName hName⟩
  | _, _, _, .bare hName hKeyword hScope, narrow =>
    ⟨⟨hName.isTypeName hKeyword, hScope, rfl, trivial⟩, narrow.tokensOf_of_beginsName hName⟩
  | _, _, _, .applied hName hKeyword hScope hOpen hArguments hClose, narrow => by
    obtain ⟨narrowOpening, hNameTokens⟩ := narrow.tokensOf_of_beginsName hName
    obtain ⟨narrowFirst, hOpenTokens⟩ := narrowOpening.tokensOf_of_begins .less hOpen trivial
    obtain ⟨written, narrowClosing, hTokens⟩ := hArguments.tokensOf_eq narrowFirst
    obtain ⟨narrowRest, hCloseTokens⟩ := narrowClosing.tokensOf_of_begins .greater hClose trivial
    refine ⟨⟨hName.isTypeName hKeyword, hScope, rfl, written⟩, narrowRest, ?_⟩
    rw [hNameTokens, hOpenTokens]
    exact tokens_named_append_of (hTokens _ hCloseTokens)
  | _, _, _, .array hElement hSuffix, narrow => by
    obtain ⟨written, narrowSuffix, hTokens⟩ := hElement.tokensOf_eq narrow
    obtain ⟨narrowRest, hSuffixTokens⟩ := narrowSuffix.tokensOf_of_begins .brackets hSuffix trivial
    refine ⟨written, narrowRest, ?_⟩
    rw [hTokens, hSuffixTokens, tokens, List.append_assoc, List.singleton_append]
  | _, _, _, .nullable hUnderlying hSuffix, narrow => by
    obtain ⟨written, narrowSuffix, hTokens⟩ := hUnderlying.tokensOf_eq narrow
    obtain ⟨narrowRest, hSuffixTokens⟩ := narrowSuffix.tokensOf_of_begins .question hSuffix trivial
    refine ⟨written, narrowRest, ?_⟩
    rw [hTokens, hSuffixTokens, tokens, List.append_assoc, List.singleton_append]

/-- The same for the arguments of a list, told as for arguments behind a comma. -/
theorem DerivesAll.tokensOf_eq {scope : List String} : ∀ {text : List Char} {types : List Ty} {rest : List Char},
    DerivesAll scope text types rest → HasNarrowBlanks text →
      AllWrittenIn scope types ∧ HasNarrowBlanks rest ∧
        ∀ more, tokensOf rest = .greater :: more → .comma :: tokensOf text = tokensOthers types ++ more
  | _, _, _, .last hType, narrow => by
    obtain ⟨written, narrowRest, hTokens⟩ := hType.tokensOf_eq narrow
    refine ⟨⟨written, trivial⟩, narrowRest, fun more hMore => ?_⟩
    rw [hTokens, hMore, tokensOthers, tokensOthers, List.cons_append, List.append_assoc, List.singleton_append]
  | _, _, _, .more hType hComma hOthers, narrow => by
    obtain ⟨written, narrowSeparator, hTokens⟩ := hType.tokensOf_eq narrow
    obtain ⟨narrowFollowing, hCommaTokens⟩ := narrowSeparator.tokensOf_of_begins .comma hComma trivial
    obtain ⟨allWritten, narrowRest, hAllTokens⟩ := hOthers.tokensOf_eq narrowFollowing
    refine ⟨⟨written, allWritten⟩, narrowRest, fun more hMore => ?_⟩
    rw [hTokens, hCommaTokens, hAllTokens more hMore, tokensOthers, List.cons_append, List.append_assoc]

end

theorem isBlank_of_tokensOf_eq_nil {text : List Char} (h : tokensOf text = []) : ∀ c ∈ text, isBlank c = true := by
  induction text with
  | nil => simp
  | cons c cs ih =>
    cases hBlank : Text.isNarrowBlank c with
    | true =>
      rw [tokensOf_blank hBlank] at h
      refine List.forall_mem_cons.mpr ⟨?_, ih h⟩
      rw [isBlank, hBlank, Bool.true_or]
    | false =>
      rcases exists_token hBlank cs with ⟨token, rest, hText, hEnd⟩ | ⟨token, more, -, hTokens⟩
      · rw [hText, tokensOf_spelling hEnd] at h
        cases h
      · rw [hTokens] at h
        cases h

theorem exists_begins {token : Token} {text : List Char} {more : List Token} (h : tokensOf text = token :: more)
    (hToken : ¬token.IsFlaw) :
    ∃ rest, Begins token.spelling text rest ∧ token.EndsBefore rest ∧ tokensOf rest = more := by
  induction text with
  | nil => cases h
  | cons c cs ih =>
    cases hBlank : Text.isNarrowBlank c with
    | true =>
      rw [tokensOf_blank hBlank] at h
      obtain ⟨rest, ⟨blanks, hBlanks, rfl⟩, hEnd, hMore⟩ := ih h
      refine ⟨rest, ⟨c :: blanks, List.forall_mem_cons.mpr ⟨?_, hBlanks⟩, rfl⟩, hEnd, hMore⟩
      rw [isBlank, hBlank, Bool.true_or]
    | false =>
      rcases exists_token hBlank cs with ⟨found, rest, hText, hEnd⟩ | ⟨found, others, hFlaw, hTokens⟩
      · rw [hText, tokensOf_spelling hEnd] at h
        obtain ⟨rfl, hMore⟩ := List.cons.inj h
        exact ⟨rest, ⟨[], by simp, hText⟩, hEnd, hMore⟩
      · rw [hTokens] at h
        obtain ⟨rfl, -⟩ := List.cons.inj h
        exact absurd hFlaw hToken

theorem exists_beginsName {name : String} {text : List Char} {more : List Token}
    (h : tokensOf text = .word name.toList :: more) (start : startsWithDigit name.toList = false) :
    ∃ rest, BeginsName name text rest ∧ tokensOf rest = more := by
  obtain ⟨rest, hBegins, ⟨nonempty, chars, longest⟩, hMore⟩ := exists_begins h not_false
  exact ⟨rest, ⟨hBegins, nonempty, chars, start, longest⟩, hMore⟩

mutual

theorem exists_derives {scope : List String} : ∀ (type : Ty), type.WrittenIn scope →
    ∀ (text : List Char) (more : List Token), tokensOf text = type.tokens ++ more →
    ∃ rest, Derives scope text type rest ∧ tokensOf rest = more
  | .primitive p, _, text, more, h => by
    obtain ⟨rest, hName, hMore⟩ := exists_beginsName h (startsWithDigit_keyword p)
    exact ⟨rest, .primitive hName (Primitive.ofKeyword?_keyword p), hMore⟩
  | .parameter name, written, text, more, h => by
    obtain ⟨rest, hName, hMore⟩ := exists_beginsName h written.1.start
    exact ⟨rest, .parameter hName written.1.notKeyword written.2, hMore⟩
  | .named name [] kind, written, text, more, h => by
    obtain ⟨hTypeName, hScope, rfl, -⟩ := written
    obtain ⟨rest, hName, hMore⟩ := exists_beginsName h hTypeName.start
    exact ⟨rest, .bare hName hTypeName.notKeyword hScope, hMore⟩
  | .named name (argument :: others) kind, written, text, more, h => by
    obtain ⟨hTypeName, hScope, rfl, hArgument, hOthers⟩ := written
    rw [tokens, List.cons_append, List.cons_append, List.append_assoc] at h
    obtain ⟨opening, hName, hOpening⟩ := exists_beginsName h hTypeName.start
    obtain ⟨first, hOpen, -, hFirst⟩ := exists_begins hOpening not_false
    obtain ⟨separator, hDerives, hSeparator⟩ := exists_derives argument hArgument first _ hFirst
    obtain ⟨closing, rest, hAll, hClose, hMore⟩ :=
      exists_derivesAll others hOthers argument first separator more hDerives hSeparator
    exact ⟨rest, .applied hName hTypeName.notKeyword hScope hOpen hAll hClose, hMore⟩
  | .array element, written, text, more, h => by
    rw [tokens, List.append_assoc] at h
    obtain ⟨suffix, hElement, hSuffix⟩ := exists_derives element written text _ h
    obtain ⟨rest, hBrackets, -, hMore⟩ := exists_begins hSuffix not_false
    exact ⟨rest, .array hElement hBrackets, hMore⟩
  | .nullable underlying, written, text, more, h => by
    rw [tokens, List.append_assoc] at h
    obtain ⟨suffix, hUnderlying, hSuffix⟩ := exists_derives underlying written text _ h
    obtain ⟨rest, hQuestion, -, hMore⟩ := exists_begins hSuffix not_false
    exact ⟨rest, .nullable hUnderlying hQuestion, hMore⟩

theorem exists_derivesAll {scope : List String} : ∀ (others : List Ty), AllWrittenIn scope others →
    ∀ (first : Ty) (text separator : List Char) (more : List Token), Derives scope text first separator →
    tokensOf separator = tokensOthers others ++ more →
    ∃ closing rest, DerivesAll scope text (first :: others) closing ∧ Begins ['>'] closing rest ∧ tokensOf rest = more
  | [], _, first, text, separator, more, hFirst, h => by
    obtain ⟨rest, hClose, -, hMore⟩ := exists_begins h not_false
    exact ⟨separator, rest, .last hFirst, hClose, hMore⟩
  | type :: others, written, first, text, separator, more, hFirst, h => by
    rw [tokensOthers, List.cons_append, List.append_assoc] at h
    obtain ⟨following, hComma, -, hFollowing⟩ := exists_begins h not_false
    obtain ⟨next, hType, hNext⟩ := exists_derives type written.1 following _ hFollowing
    obtain ⟨closing, rest, hAll, hClose, hMore⟩ :=
      exists_derivesAll others written.2 type following next more hType hNext
    exact ⟨closing, rest, .more hFirst hComma hAll, hClose, hMore⟩

end

/-- A text whose white space is of one byte is read as a type exactly if it spells the type. -/
theorem read_eq_ok_iff_spells {scope : List String} {text : String} {type : Ty}
    (narrow : HasNarrowBlanks text.toList) : read text scope = .ok type ↔ Spells scope text.toList type := by
  rw [read_eq_ok_iff]
  constructor
  · rintro ⟨written, hTokens⟩
    rw [← List.append_nil type.tokens] at hTokens
    obtain ⟨rest, hDerives, hRest⟩ := exists_derives type written text.toList [] hTokens
    exact ⟨rest, hDerives, isBlank_of_tokensOf_eq_nil hRest⟩
  · rintro ⟨rest, hDerives, hBlanks⟩
    obtain ⟨written, narrowRest, hTokens⟩ := hDerives.tokensOf_eq narrow
    have hRest : tokensOf rest = [] := by
      have hNarrow : ∀ c ∈ rest, Text.isNarrowBlank c = true := fun c hc =>
        isNarrowBlank_of_isBlank (hBlanks c hc) (narrowRest c hc (hBlanks c hc))
      rw [← List.append_nil rest, tokensOf_blanks hNarrow]
      rfl
    rw [hRest, List.append_nil] at hTokens
    exact ⟨written, hTokens⟩

theorem read_eq_ok_iff_spells_nested :
    HasNarrowBlanks "Maß<\tT[] ,größe.x >?\n".toList ∧
      Spells ["T"] "Maß<\tT[] ,größe.x >?\n".toList
        (.nullable (.named "Maß" [.array (.parameter "T"), .named "größe.x" [] .reference] .reference)) ∧
      HasNarrowBlanks "T<int>".toList ∧ ∀ type, ¬Spells ["T"] "T<int>".toList type := by
  have hNested : HasNarrowBlanks "Maß<\tT[] ,größe.x >?\n".toList := by decide
  have hApplied : HasNarrowBlanks "T<int>".toList := by decide
  refine ⟨hNested, (read_eq_ok_iff_spells hNested).mp rfl, hApplied, fun type h => ?_⟩
  cases (read_eq_ok_iff_spells hApplied).mpr h

end RecordSynthesis.Ty
