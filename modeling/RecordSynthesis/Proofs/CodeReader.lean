import Mathlib.Computability.StateTransition
import RecordSynthesis.Proofs.CodeWords
import RecordSynthesis.Proofs.QuotedText

/-!
# The reader of expressions

The text of an expression is read by a machine that either waits for an operand or has one and looks at what follows. The
frames hold what is still open: parentheses, argument lists, and operators that wait for their right operand, each with
the strength at which it holds on to that operand. Every state has at most one next state.
-/

namespace RecordSynthesis.Code

set_option autoImplicit false

inductive Reader.Frame
  | group
  | operator (strength : Nat) (finish : ExprSkeleton → ExprSkeleton)
  | arguments (finish : List ExprSkeleton → ExprSkeleton) (done : List ExprSkeleton)

inductive Reader.Mode
  | operand
  | after (read : ExprSkeleton)

structure Reader where
  mode : Reader.Mode
  frames : List Reader.Frame
  text : List Char

namespace Reader

def splitName (text : List Char) : List Char × List Char :=
  (text.takeWhile isNameChar, text.dropWhile isNameChar)

def splitFieldName : List Char → List Char × List Char
  | '<' :: text =>
    let (property, rest) := splitName text
    (splitName rest.tail).map (('<' :: (property ++ ['>'])) ++ ·) id
  | text => splitName text

def called (frames : List Frame) (callee : Callee) (inside : List Char) : Reader :=
  ⟨.operand, .arguments (.call callee) [] :: frames, inside⟩

def operations : List Builtin :=
  [.valueEquals, .virtualEquals, .hash, .combine, .referenceEquals, .concat, .toText]

def operation? (word : String) : Option Builtin :=
  operations.find? (·.word = word)

def readCall (frames : List Frame) (callee : String → Callee) : List Char × List Char → Option Reader
  | (name, '(' :: inside) => some (called frames (callee (String.ofList name)) inside)
  | _ => none

def readTypedCall (frames : List Frame) (operation : Builtin) : List Char × List Char → Option Reader
  | ('<' :: type, '(' :: inside) =>
    some (called frames (.builtin operation (some (String.ofList type.dropLast))) inside)
  | _ => none

def readTypeHash (frames : List Frame) : List Char × List Char → Option Reader
  | (type, ')' :: rest) => some ⟨.after (.typeHash (String.ofList type)), frames, rest⟩
  | _ => none

def readWord (frames : List Frame) (word : String) (rest : List Char) : Option Reader :=
  if word = "this" then some ⟨.after .this, frames, rest⟩
  else if word = "true" then some ⟨.after (.bool true), frames, rest⟩
  else if word = "false" then some ⟨.after (.bool false), frames, rest⟩
  else if word = "new" then readCall frames .create (segment 0 rest.tail)
  else if word = "base" then readCall frames .base (splitName rest.tail)
  else if word = "" ∨ word ∈ reservedWords then none
  else
    match rest with
    | '(' :: inside =>
      if word = "typehash" then readTypeHash frames (segment 0 inside)
      else (operation? word).map fun operation => called frames (.builtin operation none) inside
    | '<' :: _ => (operation? word).bind fun operation => readTypedCall frames operation (segment 0 rest)
    | _ => some ⟨.after (.parameter word), frames, rest⟩

def readName (frames : List Frame) (text : List Char) : Option Reader :=
  match segment 0 text with
  | (owner, ':' :: ':' :: rest) => readCall frames (.static (String.ofList owner)) (splitName rest)
  | _ => readWord frames (String.ofList (splitName text).1) (splitName text).2

def readOperand (frames : List Frame) : List Char → Option Reader
  | ')' :: rest =>
    match frames with
    | .arguments finish [] :: outer => some ⟨.after (finish []), outer, rest⟩
    | _ => none
  | '"' :: rest =>
    let (value, rest) := Text.unquote .none rest
    some ⟨.after (.text (String.ofList value)), frames, rest⟩
  | '!' :: rest => some ⟨.operand, .operator unaryStrength .not :: frames, rest⟩
  | '(' :: rest =>
    match segment 0 rest with
    | (c :: type, ')' :: operand) =>
      some ⟨.operand, .operator unaryStrength (.cast · (String.ofList (c :: type))) :: frames, operand⟩
    | _ => some ⟨.operand, .group :: frames, rest⟩
  | text => readName frames text

inductive Operator
  | equal
  | isNull
  | isExactly
  | andAlso
  | orElse

def operator? : List Char → Option (Operator × List Char)
  | ' ' :: '=' :: '=' :: ' ' :: rest => some (.equal, rest)
  | ' ' :: '&' :: '&' :: ' ' :: rest => some (.andAlso, rest)
  | ' ' :: '|' :: '|' :: ' ' :: rest => some (.orElse, rest)
  | ' ' :: 'i' :: 's' :: ' ' :: 'n' :: 'u' :: 'l' :: 'l' :: rest => some (.isNull, rest)
  | ' ' :: 'i' :: 's' :: ' ' :: 'e' :: 'x' :: 'a' :: 'c' :: 't' :: 'l' :: 'y' :: ' ' :: rest => some (.isExactly, rest)
  | _ => none

/-- How strongly an operator draws the operand to its left to itself. -/
def Operator.pull : Operator → Nat
  | .equal | .isNull | .isExactly => unaryStrength
  | .andAlso => andStrength
  | .orElse => orStrength

def pull : List Char → Nat
  | '.' :: _ => atomStrength
  | text =>
    match operator? text with
    | some (operator, _) => operator.pull
    | none => 0

def Operator.write : Operator → List Char
  | .equal => " == ".toList
  | .isNull => " is null".toList
  | .isExactly => " is exactly ".toList
  | .andAlso => " && ".toList
  | .orElse => " || ".toList

def takeOperator (read : ExprSkeleton) (frames : List Frame) : Operator → List Char → Reader
  | .equal, rest => ⟨.operand, .operator comparisonStrength (.equal read) :: frames, rest⟩
  | .andAlso, rest => ⟨.operand, .operator andStrength (.andAlso read) :: frames, rest⟩
  | .orElse, rest => ⟨.operand, .operator orStrength (.orElse read) :: frames, rest⟩
  | .isNull, rest => ⟨.after (.isNull read), frames, rest⟩
  | .isExactly, rest =>
    let (type, rest) := segment 0 rest
    ⟨.after (.isExactly read (String.ofList type)), frames, rest⟩

def close (read : ExprSkeleton) : List Frame → List Char → Option Reader
  | .group :: outer, ')' :: rest => some ⟨.after read, outer, rest⟩
  | .arguments finish done :: outer, ',' :: ' ' :: rest =>
    some ⟨.operand, .arguments finish (done ++ [read]) :: outer, rest⟩
  | .arguments finish done :: outer, ')' :: rest => some ⟨.after (finish (done ++ [read])), outer, rest⟩
  | _, _ => none

def readMember (read : ExprSkeleton) (frames : List Frame) (text : List Char) : Reader :=
  match splitFieldName text with
  | (method, '(' :: inside) => ⟨.operand, .arguments (.send read (String.ofList method)) [] :: frames, inside⟩
  | (name, rest) => ⟨.after (.load read (String.ofList name)), frames, rest⟩

def shift (read : ExprSkeleton) (frames : List Frame) (text : List Char) : Option Reader :=
  match operator? text with
  | some (operator, rest) => some (takeOperator read frames operator rest)
  | none => close read frames text

/-- An operator that waits for its right operand gets it unless what follows pulls more strongly. -/
def readAfter (read : ExprSkeleton) (frames : List Frame) (text : List Char) : Option Reader :=
  match text with
  | '.' :: rest => some (readMember read frames rest)
  | _ =>
    match frames with
    | .operator strength finish :: outer =>
      if pull text ≤ strength then some ⟨.after (finish read), outer, text⟩ else shift read frames text
    | _ => shift read frames text

def step : Reader → Option Reader
  | ⟨.operand, frames, text⟩ => readOperand frames text
  | ⟨.after read, frames, text⟩ => readAfter read frames text

def followers : List Char :=
  ['.', ')', ',', ' ', ':', '\n']

def segmentEnds : List Char :=
  ['(', ')', ',', ' ', ':', '\n', '"', '!']

def exit? (text : List Char) : Option Char :=
  (segment 0 text).2.head?

theorem exit?_absorbed {chars : List Char} (h : Absorbed 0 chars) (rest : List Char) :
    exit? (chars ++ rest) = exit? rest := by
  rw [exit?, h 0 rest (Nat.le_refl 0)]
  rfl

/-- The text goes on in a way that may follow an expression at a place of this strength. -/
structure Follows (place : Nat) (text : List Char) : Prop where
  pull_le : pull text ≤ place
  stops : ∀ c ∈ text.head?, c ∈ followers
  unscoped : ¬[':', ':'] <+: (segment 0 text).2

/-- The frames leave an operand at a place of this strength to what follows it, if that pulls more strongly. -/
def Admits (place : Nat) : List Frame → Prop
  | .operator strength _ :: _ => strength < place
  | _ => True

theorem Follows.weaken {place other : Nat} {text : List Char} (h : Follows place text) (hPlace : place ≤ other) :
    Follows other text :=
  ⟨Nat.le_trans h.pull_le hPlace, h.stops, h.unscoped⟩

theorem Admits.weaken {place other : Nat} {frames : List Frame} (h : Admits place frames) (hPlace : place ≤ other) :
    Admits other frames := by
  cases frames with
  | nil => trivial
  | cons frame outer =>
    cases frame with
    | operator => exact Nat.lt_of_lt_of_le h hPlace
    | group | arguments => trivial

abbrev Reads : Reader → Reader → Prop :=
  StateTransition.Reaches step

/-- Wherever an expression may stand, the text of this skeleton is read as this skeleton. -/
def Readable (skeleton : ExprSkeleton) : Prop :=
  ∀ place frames rest, place ≤ atomStrength → Admits place frames → Follows place rest →
    Reads ⟨.operand, frames, skeleton.write place ++ rest⟩ ⟨.after skeleton, frames, rest⟩

theorem splitName_append {name rest : List Char} (hName : ∀ c ∈ name, isNameChar c = true)
    (hRest : ∀ c ∈ rest.head?, isNameChar c = false) : splitName (name ++ rest) = (name, rest) := by
  rw [splitName, List.takeWhile_append_of_pos hName, List.dropWhile_append_of_pos hName]
  cases rest with
  | nil => simp
  | cons c cs => simp [hRest c rfl]

theorem not_isNameChar_of_stop {text : List Char} (h : ∀ c ∈ text.head?, c ∈ followers) :
    ∀ c ∈ text.head?, isNameChar c = false := by
  have hStops : ∀ c ∈ followers, isNameChar c = false := List.all_iff_forall_prop.mp rfl
  exact fun c hc => hStops c (h c hc)

/-- A segment that goes over a text goes over its first character. -/
theorem readOperand_absorbed {chars : List Char} (h : Absorbed 0 chars) (nonempty : chars ≠ []) (frames : List Frame)
    (rest : List Char) : readOperand frames (chars ++ rest) = readName frames (chars ++ rest) := by
  cases chars with
  | nil => exact absurd rfl nonempty
  | cons c cs =>
    have hSegment := congrArg Prod.fst (h 0 [] (Nat.le_refl 0))
    rw [List.cons_append] at hSegment ⊢
    rw [readOperand.eq_def]
    split
    case h_5 => rfl
    all_goals
      rename_i hText
      cases hText
      cases hSegment

theorem step_word {word : String} (h : IsName word) {rest : List Char} (hRest : ∀ c ∈ rest.head?, isNameChar c = false)
    (hScope : ¬[':', ':'] <+: (segment 0 rest).2) (frames : List Frame) :
    step ⟨.operand, frames, word.toList ++ rest⟩ = readWord frames word rest := by
  rw [step, readOperand_absorbed h.absorbed h.nonempty, readName, h.absorbed 0 rest (Nat.le_refl 0)]
  split
  · rename_i hText
    rw [Prod.map, Prod.mk.injEq] at hText
    exact absurd ⟨_, hText.2.symm⟩ hScope
  · rw [splitName_append h.chars hRest, String.ofList_toList]

theorem segment_end {c : Char} (h : c ∈ segmentEnds) (text : List Char) : segment 0 (c :: text) = ([], c :: text) := by
  have hEnds : ∀ c ∈ segmentEnds, c ≠ '<' ∧ c ≠ '>' ∧ (Ty.isWordChar c || c ∈ ['[', ']', '?']) = false :=
    List.all_iff_forall_prop.mp rfl
  obtain ⟨hLess, hGreater, hOther⟩ := hEnds c h
  rw [segment, if_neg hLess, if_neg hGreater, hOther]
  rfl

theorem segment_append_end {chars : List Char} (hChars : Absorbed 0 chars) {c : Char} (h : c ∈ segmentEnds)
    (text : List Char) : segment 0 (chars ++ c :: text) = (chars, c :: text) := by
  rw [hChars 0 _ (Nat.le_refl 0), segment_end h]
  simp [Prod.map]

theorem unscoped_absorbed {chars : List Char} (hChars : Absorbed 0 chars) {c : Char} (h : c ∈ segmentEnds)
    (hColon : c ≠ ':') (text : List Char) : ¬[':', ':'] <+: (segment 0 (chars ++ c :: text)).2 := by
  rw [segment_append_end hChars h, List.cons_prefix_cons]
  exact fun hScope => hColon hScope.1.symm

theorem unscoped_end {c : Char} (h : c ∈ segmentEnds) (hColon : c ≠ ':') (text : List Char) :
    ¬[':', ':'] <+: (segment 0 (c :: text)).2 :=
  unscoped_absorbed absorbed_nil h hColon text

theorem follows_end {c : Char} {place : Nat} {text : List Char} (h : c ∈ [')', ',', ' ', '\n'])
    (hPull : pull (c :: text) ≤ place) : Follows place (c :: text) := by
  have hEnds : ∀ c ∈ [')', ',', ' ', '\n'], c ∈ followers ∧ c ∈ segmentEnds ∧ c ≠ ':' :=
    List.all_iff_forall_prop.mp rfl
  obtain ⟨hStop, hEnd, hColon⟩ := hEnds c h
  refine ⟨hPull, ?_, unscoped_end hEnd hColon text⟩
  rintro d ⟨⟩
  exact hStop

theorem pull_of_ne_blank {c : Char} (hDot : c ≠ '.') (hBlank : c ≠ ' ') (text : List Char) : pull (c :: text) = 0 := by
  have hNone : operator? (c :: text) = none := by
    rw [operator?.eq_def]
    split
    case h_6 => rfl
    all_goals
      rename_i hText
      exact absurd (List.cons.inj hText).1 hBlank
  rw [pull.eq_def]
  split
  · rename_i hText
    exact absurd (List.cons.inj hText).1 hDot
  · rw [hNone]

theorem Follows.segment_eq {place : Nat} {text : List Char} (h : Follows place text) (hPlace : place < atomStrength) :
    segment 0 text = ([], text) := by
  cases text with
  | nil => rfl
  | cons c cs =>
    have hEnds : [')', ',', ' ', ':', '\n'] ⊆ segmentEnds := by decide
    have hDot : c ≠ '.' := by
      rintro rfl
      exact absurd h.pull_le (Nat.not_le.mpr hPlace)
    exact segment_end (hEnds ((List.mem_cons.mp (h.stops c rfl)).resolve_left hDot)) cs

end Reader

end RecordSynthesis.Code
