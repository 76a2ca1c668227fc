import RecordSynthesis.Ty.Reader

/-!
# The lexemes of a text

Every lexeme starts where its first character stands, so lexemes stand in the order of the text. A word is cut where the
text goes on with no character of a word, and no character of a word is white space.
-/

namespace RecordSynthesis.Ty

set_option autoImplicit false

def blanks : List Nat :=
  [0x09, 0x0a, 0x0b, 0x0c, 0x0d, 0x20, 0x85, 0xa0, 0x1680, 0x2000, 0x2001, 0x2002, 0x2003, 0x2004, 0x2005, 0x2006,
   0x2007, 0x2008, 0x2009, 0x200a, 0x2028, 0x2029, 0x202f, 0x205f, 0x3000]

theorem mem_blanks {c : Char} (h : (Text.isNarrowBlank c || Text.isWideBlank c) = true) : c.toNat ∈ blanks := by
  simp only [Text.isNarrowBlank, Text.isWideBlank, Bool.or_eq_true, decide_eq_true_eq, Bool.and_eq_true] at h
  simp only [blanks, List.mem_cons, List.not_mem_nil, or_false]
  rcases h with (rfl | h) | h
  · decide
  · omega
  · omega

/-- No character of a word is white space. -/
theorem not_blank_of_isWordChar {c : Char} (h : isWordChar c = true) :
    Text.isNarrowBlank c = false ∧ Text.isWideBlank c = false := by
  have hNone : ∀ n ∈ blanks, isWordChar (Char.ofNat n) = false := by decide +kernel
  rw [← Bool.or_eq_false_iff]
  cases hBlank : Text.isNarrowBlank c || Text.isWideBlank c with
  | false => rfl
  | true =>
    have hChar := hNone c.toNat (mem_blanks hBlank)
    rw [Char.ofNat_toNat, h] at hChar
    cases hChar

/-- White space adds no lexeme; every other character begins one that starts where it stands. -/
theorem pushChar_cases (offset : Nat) (c : Char) (following : List Lexeme) :
    (Text.isNarrowBlank c = true ∧ pushChar offset c following = following) ∨
      ∃ token others, pushChar offset c following = ⟨token, offset⟩ :: others ∧ others ⊆ following ∧
        ∀ chars, token = .word chars →
          isWordChar c = true ∧ (chars = [c] ∨ ∃ more start, chars = c :: more ∧ ⟨.word more, start⟩ ∈ following) := by
  rw [pushChar.eq_def]
  split
  · exact .inl ⟨‹_›, rfl⟩
  refine .inr ?_
  split
  · exact ⟨_, _, rfl, List.Subset.refl _, by simp⟩
  split
  · rename_i hWord
    split
    · rename_i more start others
      split
      · refine ⟨_, _, rfl, List.subset_cons_self _ _, ?_⟩
        rintro _ ⟨⟩
        exact ⟨hWord, .inr ⟨more, start, rfl, List.mem_cons_self⟩⟩
      · exact ⟨_, _, rfl, List.Subset.refl _, by rintro _ ⟨⟩; exact ⟨hWord, .inl rfl⟩⟩
    · exact ⟨_, _, rfl, List.Subset.refl _, by rintro _ ⟨⟩; exact ⟨hWord, .inl rfl⟩⟩
  split
  · split
    · split
      · exact ⟨_, _, rfl, List.subset_cons_self _ _, by simp⟩
      · exact ⟨_, _, rfl, List.Subset.refl _, by simp⟩
    · exact ⟨_, _, rfl, List.Subset.refl _, by simp⟩
  · refine ⟨_, _, rfl, List.Subset.refl _, ?_⟩
    intro chars hToken
    repeat' split at hToken
    all_goals cases hToken

theorem le_of_mem_lexemes (offset : Nat) (cs : List Char) : ∀ lexeme ∈ lexemes offset cs, offset ≤ lexeme.offset := by
  induction cs generalizing offset with
  | nil => simp [lexemes]
  | cons c cs ih =>
    have hLater : ∀ lexeme ∈ lexemes (offset + c.utf8Size) cs, offset ≤ lexeme.offset :=
      fun lexeme h => Nat.le_trans (Nat.le_add_right _ _) (ih _ lexeme h)
    intro lexeme hMem
    rw [lexemes] at hMem
    rcases pushChar_cases offset c (lexemes (offset + c.utf8Size) cs) with
      ⟨-, hSame⟩ | ⟨token, others, hSame, hOthers, -⟩
    · rw [hSame] at hMem
      exact hLater lexeme hMem
    · rw [hSame] at hMem
      rcases List.mem_cons.mp hMem with rfl | hMem
      · exact Nat.le_refl _
      · exact hLater lexeme (hOthers hMem)

/-- The words of a text are not empty and hold nothing but the characters of words. -/
theorem chars_of_mem_lexemes (offset : Nat) (cs : List Char) : ∀ chars start, ⟨.word chars, start⟩ ∈ lexemes offset cs →
    chars ≠ [] ∧ ∀ c ∈ chars, isWordChar c = true := by
  induction cs generalizing offset with
  | nil => simp [lexemes]
  | cons c cs ih =>
    intro chars start hMem
    rw [lexemes] at hMem
    rcases pushChar_cases offset c (lexemes (offset + c.utf8Size) cs) with
      ⟨-, hSame⟩ | ⟨token, others, hSame, hOthers, hWord⟩
    · rw [hSame] at hMem
      exact ih _ chars start hMem
    · rw [hSame] at hMem
      rcases List.mem_cons.mp hMem with hHead | hMem
      · cases hHead
        obtain ⟨hChar, rfl | ⟨more, begins, rfl, hMore⟩⟩ := hWord chars rfl
        · exact ⟨List.cons_ne_nil _ _, by simpa using hChar⟩
        · exact ⟨List.cons_ne_nil _ _, List.forall_mem_cons.mpr ⟨hChar, (ih _ more begins hMore).2⟩⟩
      · exact ih _ chars start (hOthers hMem)

def BreaksAt (offset : Nat) (following : List Lexeme) : Prop :=
  ∀ chars others, following ≠ ⟨.word chars, offset⟩ :: others

theorem breaksAt_lexemes {offset : Nat} {cs : List Char} (h : ∀ c ∈ cs.head?, isWordChar c = false) :
    BreaksAt offset (lexemes offset cs) := by
  intro chars others hSame
  cases cs with
  | nil => cases hSame
  | cons c cs =>
    have hLater := le_of_mem_lexemes (offset + c.utf8Size) cs
    rw [lexemes] at hSame
    rcases pushChar_cases offset c (lexemes (offset + c.utf8Size) cs) with ⟨-, hBlank⟩ | ⟨token, _, hPushed, -, hWord⟩
    · have hMem := hLater ⟨.word chars, offset⟩ (by rw [← hBlank, hSame]; exact List.mem_cons_self)
      have := c.utf8Size_pos
      dsimp only at hMem
      omega
    · rw [hPushed] at hSame
      cases hSame
      simp [h c rfl] at hWord

theorem pushChar_word_of_breaksAt {offset : Nat} {c : Char} {following : List Lexeme} (h : isWordChar c = true)
    (breaks : BreaksAt (offset + c.utf8Size) following) :
    pushChar offset c following = ⟨.word [c], offset⟩ :: following := by
  obtain ⟨hNarrow, hWide⟩ := not_blank_of_isWordChar h
  rw [pushChar.eq_def]
  simp only [hNarrow, hWide, h, Bool.false_eq_true, if_false, if_true]
  split
  · rename_i more start others
    rw [if_neg]
    rintro rfl
    exact breaks more others rfl
  · rfl

theorem pushChar_word_word {offset : Nat} {c : Char} {chars : List Char} {others : List Lexeme}
    (h : isWordChar c = true) :
    pushChar offset c (⟨.word chars, offset + c.utf8Size⟩ :: others) = ⟨.word (c :: chars), offset⟩ :: others := by
  obtain ⟨hNarrow, hWide⟩ := not_blank_of_isWordChar h
  rw [pushChar.eq_def]
  simp only [hNarrow, hWide, h, Bool.false_eq_true, if_false, if_true]

/-- A word is one lexeme where the text does not go on with more of it. -/
theorem lexemes_word {chars rest : List Char} {offset : Nat} (nonempty : chars ≠ [])
    (hChars : ∀ c ∈ chars, isWordChar c = true) (hRest : ∀ c ∈ rest.head?, isWordChar c = false) :
    lexemes offset (chars ++ rest) = ⟨.word chars, offset⟩ :: lexemes (offset + Text.byteLength chars) rest := by
  induction chars generalizing offset with
  | nil => exact absurd rfl nonempty
  | cons c cs ih =>
    obtain ⟨hChar, hOthers⟩ := List.forall_mem_cons.mp hChars
    rw [List.cons_append, lexemes]
    cases cs with
    | nil => exact pushChar_word_of_breaksAt hChar (breaksAt_lexemes hRest)
    | cons d ds =>
      rw [ih (List.cons_ne_nil _ _) hOthers, pushChar_word_word hChar, Nat.add_assoc]
      rfl

end RecordSynthesis.Ty
