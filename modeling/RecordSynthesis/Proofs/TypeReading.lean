import RecordSynthesis.Proofs.TypeIdentity
import RecordSynthesis.Proofs.TypeText

/-!
# What reading accepts

The machine takes in one token at each step, so the tokens of a text are those of the type that is read from it. A type
that has been read is therefore read again from its canonical text.
-/

namespace RecordSynthesis.Ty

set_option autoImplicit false

def openTokens : List Frame → List Token
  | [] => []
  | frame :: frames =>
    openTokens frames ++ .word frame.name.toList :: .less :: frame.arguments.flatMap fun type => type.tokens ++ [.comma]

def Mode.tokens : Mode → List Token
  | .name => []
  | .after type _ => type.tokens

theorem tokens_tokensOthers_append (first : Ty) (types : List Ty) (last : Ty) :
    first.tokens ++ tokensOthers (types ++ [last]) =
      ((first :: types).flatMap fun type => type.tokens ++ [.comma]) ++ (last.tokens ++ [.greater]) := by
  induction types generalizing first with
  | nil => simp [tokensOthers]
  | cons type types ih => simp [tokensOthers, ih type]

theorem tokens_named_append (name : String) (arguments : List Ty) (last : Ty) (kind : TypeKind) :
    tokens (.named name (arguments ++ [last]) kind) =
      .word name.toList :: .less ::
        ((arguments.flatMap fun type => type.tokens ++ [.comma]) ++ (last.tokens ++ [.greater])) := by
  cases arguments with
  | nil => rfl
  | cons first others => rw [List.cons_append, tokens, tokens_tokensOthers_append]

variable {scope : List String} {size : Nat}

theorem tokens_ofWord (scope : List String) (word : String) : (ofWord scope word).tokens = [.word word.toList] := by
  rw [ofWord]
  split
  · rename_i hKeyword
    rw [← Primitive.keyword_of_ofKeyword? hKeyword]
    rfl
  · split <;> rfl

/-- Each step adds the token it reads. -/
theorem tokens_of_step {mode next : Mode} {frames stack : List Frame} {lexeme : Lexeme} (hMode : mode.IsWritten scope)
    (h : step scope mode frames lexeme = .ok (next, stack)) :
    openTokens stack ++ next.tokens = openTokens frames ++ mode.tokens ++ [lexeme.token] := by
  rw [step.eq_def] at h
  split at h
  case h_1 | h_3 | h_9 | h_10 => cases h
  case h_2 _ chars _ =>
    split at h
    · cases h
    · cases h
      rw [tokens_ofWord, String.toList_ofList, Mode.tokens, List.append_nil]
  case h_4 type name _ =>
    cases h
    rw [hMode.2 name rfl]
    simp [openTokens, Mode.tokens, tokens]
  case h_5 | h_6 =>
    cases h
    simp [Mode.tokens, tokens]
  case h_7 type bare frame frames _ =>
    cases h
    simp [openTokens, Mode.tokens]
  case h_8 type bare frame frames _ =>
    cases h
    simp [openTokens, Mode.tokens, tokens_named_append]

theorem tokens_of_run {mode : Mode} {frames : List Frame} {lexed : List Lexeme} {type : Ty}
    (cut : ∀ lexeme ∈ lexed, lexeme.IsCut) (hMode : mode.IsWritten scope)
    (hFrames : ∀ frame ∈ frames, frame.IsWritten scope) (h : run scope size mode frames lexed = .ok type) :
    openTokens frames ++ mode.tokens ++ lexed.map Lexeme.token = type.tokens := by
  induction lexed generalizing mode frames with
  | nil =>
    cases mode with
    | name => cases h
    | after read bare =>
      cases frames with
      | nil =>
        cases h
        exact List.append_nil _
      | cons => cases h
  | cons lexeme others ih =>
    rw [run] at h
    split at h
    · rename_i next stack hStep
      obtain ⟨hNext, hStack⟩ := step_isWritten (cut lexeme List.mem_cons_self) hMode hFrames hStep
      rw [← ih (fun other hOther => cut other (List.mem_cons_of_mem _ hOther)) hNext hStack h,
        tokens_of_step hMode hStep]
      simp
    · cases h

/-- What is read is decided by the tokens of the text alone. -/
theorem read_eq_ok_iff {text : String} {type : Ty} :
    read text scope = .ok type ↔ type.WrittenIn scope ∧ (lexemes 0 text.toList).map Lexeme.token = type.tokens := by
  constructor
  · intro h
    refine ⟨writtenIn_of_read h, ?_⟩
    rw [read] at h
    split at h
    · rename_i hRun
      cases h
      have hStart : Mode.IsWritten scope .name := trivial
      exact tokens_of_run isCut_of_mem_lexemes hStart (by simp) hRun
    · cases h
  · rintro ⟨written, hTokens⟩
    have hRun : run scope (Text.byteLength text.toList) .name [] (lexemes 0 text.toList ++ []) = _ :=
      run_tokens type written [] _ [] hTokens
    rw [List.append_nil] at hRun
    rw [read]
    simp only [hRun, run]

/-- What is read can be printed and read again, and printing tells apart what is read in one scope. -/
theorem printed_types_read_back (scope : List String) :
    (∀ text type, read text scope = .ok type →
      read type.canonical scope = .ok type ∧ (read type.canonical scope).map canonical = .ok type.canonical) ∧
    ∀ text other first second, read text scope = .ok first → read other scope = .ok second →
      (first = second ↔ first.canonical = second.canonical) ∧
        (first.same second = true ↔ first.canonical = second.canonical) := by
  constructor
  · intro text type h
    have hBack := read_canonical (writtenIn_of_read h)
    exact ⟨hBack, by rw [hBack]; rfl⟩
  · intro text other first second hFirst hSecond
    have hText : first.canonical = second.canonical → first = second :=
      eq_of_canonical_eq (writtenIn_of_read hFirst) (writtenIn_of_read hSecond)
    refine ⟨⟨congrArg canonical, hText⟩, ⟨fun hSame => ?_, fun h => ?_⟩⟩
    · rw [← canonical_unkinded first, (same_iff first second).mp hSame, canonical_unkinded]
    · rw [hText h, same_refl]

def table : Ty :=
  .nullable (.named "Map" [.string, .array (.named "List" [.parameter "T"] .reference)] .reference)

theorem printed_types_read_back_table :
    read " Map< string,List<T>[] > ?" ["T"] = .ok table ∧ read "Map<string, List<T>[]>?" ["T"] = .ok table ∧
      read "T [ ]" ["T"] ≠ .ok (.array (.parameter "T")) ∧ read "T []" ["T"] = .ok (.array (.parameter "T")) ∧
      (table = .array (.parameter "T") ↔ table.canonical = "T[]") := by
  have hTable : read " Map< string,List<T>[] > ?" ["T"] = .ok table := rfl
  have hArray : read "T []" ["T"] = .ok (.array (.parameter "T")) := rfl
  have hText : table.canonical = "Map<string, List<T>[]>?" := by decide
  obtain ⟨hBack, hApart⟩ := printed_types_read_back ["T"]
  refine ⟨hTable, hText ▸ (hBack _ table hTable).1, ?_, hArray, (hApart _ _ _ _ hTable hArray).1⟩
  intro h
  cases h

end RecordSynthesis.Ty
