import Mathlib.Data.Bool.AllAny
import RecordSynthesis.Members.State
import RecordSynthesis.Proofs.CodeSkeletons
import RecordSynthesis.Proofs.TypeText

/-!
# Names and types in the text of code

Names are runs of letters, numbers and underscores. A segment is a longest run of what types and names are written with:
it goes over commas and spaces only between angle brackets. So a segment takes in whole types and whole names.
-/

namespace RecordSynthesis.Code

set_option autoImplicit false

def isNameChar (c : Char) : Bool :=
  Text.isAlphanumeric c || c = '_'

structure IsName (name : String) : Prop where
  nonempty : name.toList ≠ []
  chars : ∀ c ∈ name.toList, isNameChar c = true

instance (name : String) : Decidable (IsName name) :=
  decidable_of_iff (name.toList ≠ [] ∧ name.toList.all isNameChar = true)
    ⟨fun h => ⟨h.1, List.all_eq_true.mp h.2⟩, fun h => ⟨h.nonempty, List.all_eq_true.mpr h.chars⟩⟩

def reservedWords : List String :=
  ["this", "base", "new", "true", "false", "return", "out", "call", "if", "is", "null", "exactly"]

structure IsFreeName (name : String) : Prop extends IsName name where
  free : name ∉ reservedWords

instance (name : String) : Decidable (IsFreeName name) :=
  decidable_of_iff (IsName name ∧ name ∉ reservedWords) ⟨fun h => ⟨h.1, h.2⟩, fun h => ⟨h.toIsName, h.free⟩⟩

theorem IsFreeName.ne_reserved {name word : String} (h : IsFreeName name) (hWord : word ∈ reservedWords) :
    name ≠ word := by
  rintro rfl
  exact h.free hWord

def IsFieldName (name : String) : Prop :=
  IsFreeName name ∨ ∃ property, IsName property ∧ name = backingFieldName property

theorem isWordChar_of_isNameChar {c : Char} (h : isNameChar c = true) : Ty.isWordChar c = true := by
  rw [Ty.isWordChar, ← isNameChar, h, Bool.true_or]

/-- The longest run of what types and names are written with, at this depth of angle brackets, and the text behind it. -/
def segment : Nat → List Char → List Char × List Char
  | _, [] => ([], [])
  | depth, c :: cs =>
    if c = '<' then (segment (depth + 1) cs).map (c :: ·) id
    else if c = '>' then (segment (depth - 1) cs).map (c :: ·) id
    else if Ty.isWordChar c || c ∈ ['[', ']', '?'] || (0 < depth && c ∈ [',', ' ']) then
      (segment depth cs).map (c :: ·) id
    else ([], c :: cs)

/-- Every segment goes over these characters, at this depth of angle brackets and below. -/
def Absorbed (least : Nat) (chars : List Char) : Prop :=
  ∀ depth rest, least ≤ depth → segment depth (chars ++ rest) = (segment depth rest).map (chars ++ ·) id

theorem Absorbed.deeper {chars : List Char} (h : Absorbed 0 chars) (least : Nat) : Absorbed least chars :=
  fun depth rest _ => h depth rest (Nat.zero_le _)

theorem Absorbed.append {least : Nat} {chars more : List Char} (h : Absorbed least chars)
    (hMore : Absorbed least more) : Absorbed least (chars ++ more) := by
  intro depth rest hDepth
  rw [List.append_assoc, h _ _ hDepth, hMore _ _ hDepth]
  simp [Prod.map]

theorem absorbed_char {c : Char} (h : (Ty.isWordChar c || c ∈ ['[', ']', '?']) = true) : Absorbed 0 [c] := by
  intro depth rest _
  have hLess : c ≠ '<' := by rintro rfl; revert h; decide
  have hGreater : c ≠ '>' := by rintro rfl; revert h; decide
  rw [List.singleton_append, segment, if_neg hLess, if_neg hGreater, h, Bool.true_or, if_pos rfl]
  rfl

theorem absorbed_nil : Absorbed 0 [] :=
  fun _ _ _ => rfl

theorem absorbed_word {chars : List Char} (h : ∀ c ∈ chars, Ty.isWordChar c = true) : Absorbed 0 chars := by
  induction chars with
  | nil => exact absorbed_nil
  | cons c cs ih =>
    obtain ⟨hChar, hOthers⟩ := List.forall_mem_cons.mp h
    exact (absorbed_char (by rw [hChar, Bool.true_or])).append (ih hOthers)

theorem absorbed_separator : Absorbed 1 [',', ' '] := by
  intro depth rest hDepth
  obtain ⟨outer, rfl⟩ := Nat.exists_eq_add_of_le' hDepth
  rfl

/-- Brackets lead one level down and back. -/
theorem Absorbed.enclosed {chars : List Char} (h : Absorbed 1 chars) : Absorbed 0 ('<' :: (chars ++ ['>'])) := by
  intro depth rest _
  have hClose : segment (depth + 1) ('>' :: rest) = (segment depth rest).map ('>' :: ·) id := rfl
  rw [List.cons_append, segment, if_pos rfl, List.append_assoc, List.singleton_append, h _ _ (Nat.le_add_left _ _),
    hClose]
  simp [Prod.map]

theorem IsName.absorbed {name : String} (h : IsName name) : Absorbed 0 name.toList :=
  absorbed_word fun c hc => isWordChar_of_isNameChar (h.chars c hc)

theorem toList_backingFieldName (property : String) :
    (backingFieldName property).toList = '<' :: (property.toList ++ ['>']) ++ "k__BackingField".toList := by
  simp [backingFieldName]

theorem IsFieldName.absorbed {name : String} (h : IsFieldName name) : Absorbed 0 name.toList := by
  rcases h with hName | ⟨property, hProperty, rfl⟩
  · exact hName.absorbed
  · rw [toList_backingFieldName]
    exact (hProperty.absorbed.deeper 1).enclosed.append (absorbed_word (List.all_eq_true.mp rfl))

mutual

def HasWords : Ty → Prop
  | .primitive _ => True
  | .named name arguments _ => (name.toList ≠ [] ∧ ∀ c ∈ name.toList, Ty.isWordChar c = true) ∧ AllHaveWords arguments
  | .parameter name => name.toList ≠ [] ∧ ∀ c ∈ name.toList, Ty.isWordChar c = true
  | .array element => HasWords element
  | .nullable underlying => HasWords underlying

def AllHaveWords : List Ty → Prop
  | [] => True
  | type :: others => HasWords type ∧ AllHaveWords others

end

mutual

theorem absorbed_canonical : ∀ type : Ty, HasWords type → Absorbed 0 type.canonical.toList
  | .primitive p, _ => absorbed_word (Ty.isWord_keyword p).2
  | .parameter _, h => absorbed_word h.2
  | .named _ [] _, h => absorbed_word h.1.2
  | .named name (argument :: others) kind, ⟨hName, hArgument, hOthers⟩ => by
    have hInside := ((absorbed_canonical argument hArgument).deeper 1).append (absorbed_canonicalOthers others hOthers)
    rw [Ty.toList_canonical_named]
    have hText := (absorbed_word hName.2).append hInside.enclosed
    rwa [List.append_assoc] at hText
  | .array element, h => by
    rw [Ty.canonical, String.toList_append]
    exact (absorbed_canonical element h).append ((absorbed_char rfl).append (absorbed_char rfl))
  | .nullable underlying, h => by
    rw [Ty.canonical, String.toList_append]
    exact (absorbed_canonical underlying h).append (absorbed_char rfl)

theorem absorbed_canonicalOthers : ∀ types : List Ty, AllHaveWords types →
    Absorbed 1 (Ty.canonicalOthers types).toList
  | [], _ => fun _ _ _ => rfl
  | type :: others, ⟨hType, hOthers⟩ => by
    rw [Ty.canonicalOthers, String.toList_append, String.toList_append]
    exact (absorbed_separator.append ((absorbed_canonical type hType).deeper 1)).append
      (absorbed_canonicalOthers others hOthers)

end

theorem canonical_ne_nil : ∀ type : Ty, HasWords type → type.canonical.toList ≠ []
  | .primitive p, _ => (Ty.isWord_keyword p).1
  | .parameter _, h => h.1
  | .named _ [] _, h => h.1.1
  | .named _ (_ :: _) _, h => by
    rw [Ty.toList_canonical_named]
    exact List.append_ne_nil_of_left_ne_nil h.1.1 _
  | .array element, h | .nullable element, h => by
    rw [Ty.canonical, String.toList_append]
    exact List.append_ne_nil_of_left_ne_nil (canonical_ne_nil element h) _

def IsTypeText (text : String) : Prop :=
  ∃ type, HasWords type ∧ type.canonical = text

theorem IsTypeText.absorbed {text : String} (h : IsTypeText text) : Absorbed 0 text.toList := by
  obtain ⟨type, hWords, rfl⟩ := h
  exact absorbed_canonical type hWords

theorem IsTypeText.ne_nil {text : String} (h : IsTypeText text) : text.toList ≠ [] := by
  obtain ⟨type, hWords, rfl⟩ := h
  exact canonical_ne_nil type hWords

def Callee.IsPlain : Callee → Prop
  | .create type => IsTypeText type
  | .base method => IsFreeName method
  | .static owner method => IsTypeText owner ∧ IsFreeName method
  | .builtin _ type => ∀ text ∈ type, IsTypeText text

mutual

/-- Parameters, properties and methods have names that are no reserved words, fields may have those of backing fields, and
types are written with words. -/
def ExprSkeleton.IsPlain : ExprSkeleton → Prop
  | .this | .bool _ | .text _ => True
  | .parameter name => IsFreeName name
  | .load target name => target.IsPlain ∧ IsFieldName name
  | .call callee arguments => callee.IsPlain ∧ AllPlain arguments
  | .send receiver method arguments => receiver.IsPlain ∧ IsFreeName method ∧ AllPlain arguments
  | .typeHash type => IsTypeText type
  | .equal left right | .andAlso left right | .orElse left right => left.IsPlain ∧ right.IsPlain
  | .not operand | .isNull operand => operand.IsPlain
  | .isExactly operand type | .cast operand type => operand.IsPlain ∧ IsTypeText type

def AllPlain : List ExprSkeleton → Prop
  | [] => True
  | expr :: others => expr.IsPlain ∧ AllPlain others

end

mutual

def StmtSkeleton.IsPlain : StmtSkeleton → Prop
  | .store target field value => target.IsPlain ∧ IsFieldName field ∧ value.IsPlain
  | .storeOut parameter value => IsFreeName parameter ∧ value.IsPlain
  | .callBaseConstructor type arguments => IsTypeText type ∧ AllPlain arguments
  | .when condition body => condition.IsPlain ∧ BlockIsPlain body
  | .exit none | .userBody _ => True
  | .exit (some value) => value.IsPlain

def BlockIsPlain : List StmtSkeleton → Prop
  | [] => True
  | stmt :: others => stmt.IsPlain ∧ BlockIsPlain others

end

end RecordSynthesis.Code
