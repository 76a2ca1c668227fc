import RecordSynthesis.Text.Quoted

/-!
# Reading quoted text

A quoted text ends at the first double quote that is not escaped, and the characters it stands for can be read back from
it one by one.
-/

namespace RecordSynthesis.Text

set_option autoImplicit false

def hexValue (digit : Char) : Nat :=
  if digit.isDigit then digit.toNat - '0'.toNat else 10 + digit.toNat - 'a'.toNat

def readHex (value : Nat) (digits : List Char) : Nat :=
  digits.foldl (fun read digit => 16 * read + hexValue digit) value

theorem digitChar_hex : ∀ n < 16, hexValue n.digitChar = n ∧ n.digitChar ≠ '}' := by decide

theorem readHex_append (value : Nat) (digits : List Char) (last : Char) :
    readHex value (digits ++ [last]) = 16 * readHex value digits + hexValue last := by
  rw [readHex, List.foldl_append]
  rfl

theorem readHex_hexDigits (n : Nat) : readHex 0 (hexDigits n) = n ∧ '}' ∉ hexDigits n := by
  induction n using Nat.strongRecOn with
  | ind n ih =>
    rw [hexDigits]
    by_cases hSmall : n < 16
    · obtain ⟨hValue, hBrace⟩ := digitChar_hex n hSmall
      rw [Nat.toDigits_of_lt_base hSmall]
      refine ⟨by simp [readHex, hValue], ?_⟩
      rw [List.mem_singleton]
      exact hBrace.symm
    · obtain ⟨hValue, hBrace⟩ := digitChar_hex (n % 16) (Nat.mod_lt _ (by omega))
      obtain ⟨hHigh, hNone⟩ := ih (n / 16) (by omega)
      rw [hexDigits] at hHigh hNone
      rw [Nat.toDigits_of_base_le (by omega) (by omega)]
      constructor
      · rw [readHex_append, hHigh, hValue]
        omega
      · rw [List.mem_append, List.mem_singleton]
        exact not_or.mpr ⟨hNone, hBrace.symm⟩

/-- Where the reader stands in a quoted text: between characters, behind a backslash, before the brace of a code point,
or inside one, with the number read so far. -/
inductive Escape
  | none
  | opened
  | brace
  | code (value : Nat)

def unescape (c : Char) : Char :=
  if c = 'n' then '\n' else if c = 'r' then '\r' else if c = 't' then '\t' else if c = '0' then Char.ofNat 0 else c

def unquote : Escape → List Char → List Char × List Char
  | _, [] => ([], [])
  | .none, c :: cs =>
    if c = '"' then ([], cs)
    else if c = '\\' then unquote .opened cs
    else (unquote .none cs).map (c :: ·) id
  | .opened, c :: cs => if c = 'u' then unquote .brace cs else (unquote .none cs).map (unescape c :: ·) id
  | .brace, _ :: cs => unquote (.code 0) cs
  | .code value, c :: cs =>
    if c = '}' then (unquote .none cs).map (Char.ofNat value :: ·) id
    else unquote (.code (16 * value + hexValue c)) cs

theorem unquote_code {digits : List Char} (h : '}' ∉ digits) (value : Nat) (rest : List Char) :
    unquote (.code value) (digits ++ '}' :: rest) =
      (unquote .none rest).map (Char.ofNat (readHex value digits) :: ·) id := by
  induction digits generalizing value with
  | nil => rfl
  | cons c cs ih =>
    obtain ⟨hChar, hOthers⟩ := not_or.mp (mt List.mem_cons.mpr h)
    rw [List.cons_append, unquote, if_neg (Ne.symm hChar), ih hOthers]
    rfl

theorem unquote_quotedChar (c : Char) (rest : List Char) :
    unquote .none (quotedChar c ++ rest) = (unquote .none rest).map (c :: ·) id := by
  rw [quotedChar]
  split
  · subst c
    rfl
  split
  · subst c
    rfl
  split
  · subst c
    rfl
  split
  · subst c
    rfl
  split
  · subst c
    rfl
  split
  · rename_i hNull
    rw [← Char.ofNat_toNat c, hNull]
    rfl
  split
  · obtain ⟨hValue, hBrace⟩ := readHex_hexDigits c.toNat
    have hCode := unquote_code hBrace 0 rest
    rw [hValue, Char.ofNat_toNat] at hCode
    rw [List.append_assoc, List.append_assoc, ← hCode]
    rfl
  · rename_i hQuote hBackslash _ _ _ _ _
    rw [List.singleton_append, unquote, if_neg hQuote, if_neg hBackslash]

/-- A quoted text is read back, and so is where it ends. -/
theorem unquote_quoted (s : String) (rest : List Char) :
    (quoted s).toList ++ rest = '"' :: (s.toList.flatMap quotedChar ++ '"' :: rest) ∧
      unquote .none (s.toList.flatMap quotedChar ++ '"' :: rest) = (s.toList, rest) := by
  constructor
  · simp [quoted]
  · induction s.toList with
    | nil => rfl
    | cons c cs ih => rw [List.flatMap_cons, List.append_assoc, unquote_quotedChar, ih]; rfl

end RecordSynthesis.Text
