import Mathlib.Data.List.Chain
import RecordSynthesis.Code.Lowering
import RecordSynthesis.Proofs.Lineage

/-!
# Printed text

The text form of a record is one concatenation of literal texts and of the texts of what the record prints. It is put
together from left to right, and a literal behind a literal goes into the one before it. So what is carried through the
whole concatenation is what one addition keeps: the text that comes out, the reads, and that no literal is empty or stands
beside another.
-/

namespace RecordSynthesis

set_option autoImplicit false

open Decl (CompilationUnit)

namespace Code

def Expr.isLiteral : Expr → Bool
  | .text _ => true
  | _ => false

@[simp] theorem Expr.isLiteral_text (value : String) : (Expr.text value).isLiteral = true := rfl

@[simp] theorem Expr.isLiteral_toText (value : Expr) (type : Ty) : (Expr.toText value type).isLiteral = false := rfl

/-- What a concatenation comes to once its values have these texts; nothing if they are too many or too few, or if a part
is neither a literal nor the text of a value. -/
def filled : List Expr → List String → Option String
  | [], [] => some ""
  | .text literal :: parts, values => (filled parts values).map (literal ++ ·)
  | .toText _ _ :: parts, value :: values => (filled parts values).map (value ++ ·)
  | _, _ => none

theorem filled_concat_text (parts : List Expr) (values : List String) (added : String) :
    filled (parts ++ [.text added]) values = (filled parts values).map (· ++ added) := by
  induction parts generalizing values with
  | nil => cases values <;> simp [filled]
  | cons part parts ih =>
    cases part with
    | text literal => simp [filled, ih, Function.comp_def, String.append_assoc]
    | toText value type => cases values <;> simp [filled, ih, Function.comp_def, String.append_assoc]
    | _ => simp [filled]

theorem filled_concat_value {parts : List Expr} {values : List String} {shown : String}
    (h : filled parts values = some shown) (target : Expr) (type : Ty) (value : String) :
    filled (parts ++ [.toText target type]) (values ++ [value]) = some (shown ++ value) := by
  fun_induction filled parts values generalizing shown with
  | case1 =>
    cases h
    simp [filled]
  | case2 literal parts values ih | case3 _ _ parts literal values ih =>
    obtain ⟨rest, hRest, rfl⟩ := Option.map_eq_some_iff.mp h
    simp [filled, ih hRest, String.append_assoc]
  | case4 => cases h

def addText (parts : List Expr) (added : String) : List Expr :=
  match parts.getLast? with
  | some (.text last) => parts.dropLast ++ [.text (last ++ added)]
  | _ => parts ++ [.text added]

theorem addText_text (parts : List Expr) (last added : String) :
    addText (parts ++ [.text last]) added = parts ++ [.text (last ++ added)] := by
  simp [addText]

def EndsOpen (parts : List Expr) : Prop :=
  ∀ last ∈ parts.getLast?, last.isLiteral = false

theorem addText_of_endsOpen {parts : List Expr} (h : EndsOpen parts) (added : String) :
    addText parts added = parts ++ [.text added] := by
  rw [addText]
  split
  · rename_i last hLast
    cases h _ hLast
  · rfl

/-- What a concatenation reads, what it comes to, and how its literals stand in it. -/
structure Prints (parts : List Expr) (reads : List MemberRead) (values : List String) (shown : String) : Prop where
  filled : filled parts values = some shown
  reads : parts.filter (fun part => !part.isLiteral) = reads.map fun read => .toText (read.load .this) read.type
  apart : parts.IsChain fun part next => ¬(part.isLiteral = true ∧ next.isLiteral = true)
  nonempty : ∀ literal, .text literal ∈ parts → literal ≠ ""

namespace Prints

variable {parts : List Expr} {reads : List MemberRead} {values : List String} {shown : String}

theorem nil : Prints [] [] [] "" where
  filled := rfl
  reads := rfl
  apart := .nil
  nonempty := by simp

theorem text (prints : Prints parts reads values shown) (added : String) (h : added ≠ "") :
    Prints (addText parts added) reads values (shown ++ added) := by
  by_cases hLast : EndsOpen parts
  · rw [addText_of_endsOpen hLast]
    refine ⟨?_, ?_, ?_, ?_⟩
    · rw [filled_concat_text, prints.filled, Option.map_some]
    · simpa using prints.reads
    · refine List.isChain_append.mpr ⟨prints.apart, .singleton _, fun last h next _ hBoth => ?_⟩
      simp [hLast last h] at hBoth
    · simpa [or_imp, forall_and, h] using prints.nonempty
  · obtain ⟨last, hLast, hLiteral⟩ : ∃ last ∈ parts.getLast?, last.isLiteral = true := by
      simpa [EndsOpen] using hLast
    obtain ⟨front, rfl⟩ := List.getLast?_eq_some_iff.mp hLast
    cases last with
    | text literal =>
      obtain ⟨hFront, -, hEnd⟩ := List.isChain_append.mp prints.apart
      rw [addText_text]
      refine ⟨?_, ?_, List.isChain_append.mpr ⟨hFront, .singleton _, ?_⟩, ?_⟩
      · obtain ⟨before, hBefore, rfl⟩ := Option.map_eq_some_iff.mp (filled_concat_text .. ▸ prints.filled)
        rw [filled_concat_text, hBefore, Option.map_some, String.append_assoc]
      · simpa using prints.reads
      · simpa using hEnd
      · intro other hOther
        rcases List.mem_append.mp hOther with hOther | hOther
        · exact prints.nonempty other (List.mem_append_left _ hOther)
        · cases List.mem_singleton.mp hOther
          simp [h]
    | _ => cases hLiteral

theorem value (prints : Prints parts reads values shown) (read : MemberRead) (value : String) :
    Prints (parts ++ [.toText (read.load .this) read.type]) (reads ++ [read]) (values ++ [value]) (shown ++ value) where
  filled := filled_concat_value prints.filled _ _ _
  reads := by simp [prints.reads]
  apart := List.isChain_append.mpr ⟨prints.apart, .singleton _, by simp⟩
  nonempty := by simpa using prints.nonempty

end Prints

end Code

open Code

def MemberRead.printed (read : MemberRead) (value : String) : String :=
  read.name ++ " = " ++ value

/-- The text of a record: its name and, in braces, its printed members. -/
def printedText (name : String) (members : List String) : String :=
  if members.isEmpty then name ++ " \x7b \x7d" else name ++ " \x7b " ++ String.intercalate ", " members ++ " \x7d"

theorem intercalate_cons (separator first : String) (others : List String) :
    String.intercalate separator (first :: others) = first ++ String.join (others.map (separator ++ ·)) := by
  induction others generalizing first with
  | nil => simp
  | cons next others ih => rw [String.intercalate_cons_cons, ih]; simp [String.append_assoc]

namespace MemberSet

def addRead (parts : List Expr) : MemberRead × Nat → List Expr
  | (read, position) =>
    addText (if position = 0 then parts else addText parts ", ") (read.name ++ " = ")
      ++ [.toText (read.load .this) read.type]

/-- The parts of the text form as they are put together, one after the other. -/
def assembledParts (set : MemberSet) : List Expr :=
  if set.printable.isEmpty then addText [] (set.recordName ++ " \x7b \x7d")
  else addText (set.printable.zipIdx.foldl addRead (addText [] (set.recordName ++ " \x7b "))) " \x7d"

theorem endsOpen_printedMember (parts : List Expr) (lead : String) (read : MemberRead) :
    EndsOpen (parts ++ printedMember lead read) := by
  simp [EndsOpen, printedMember]

theorem addText_printedMember (parts : List Expr) (lead : String) (read : MemberRead) :
    addText (parts ++ [.text lead]) (read.name ++ " = ") ++ [.toText (read.load .this) read.type] =
      parts ++ printedMember lead read := by
  rw [addText_text, printedMember, String.append_assoc, List.append_assoc]
  rfl

theorem foldl_addRead (reads : List MemberRead) (position : Nat) {parts : List Expr} (h : EndsOpen parts) :
    (reads.zipIdx (position + 1)).foldl addRead parts = parts ++ reads.flatMap (printedMember ", ") ∧
      EndsOpen (parts ++ reads.flatMap (printedMember ", ")) := by
  induction reads generalizing position parts with
  | nil => simpa using h
  | cons read reads ih =>
    have hAdded : addRead parts (read, position + 1) = parts ++ printedMember ", " read := by
      rw [addRead, if_neg (Nat.succ_ne_zero _), addText_of_endsOpen h, addText_printedMember]
    rw [List.zipIdx_cons, List.foldl_cons, hAdded, List.flatMap_cons, ← List.append_assoc]
    exact ih _ (endsOpen_printedMember parts ", " read)

/-- Adding one read after the other gives the parts that lowering writes down at once. -/
theorem assembledParts_eq (set : MemberSet) : set.assembledParts = set.printedParts := by
  rw [assembledParts, printedParts]
  cases set.printable with
  | nil => rfl
  | cons read reads =>
    have hFirst : addRead (addText [] (set.recordName ++ " \x7b ")) (read, 0) =
        printedMember (set.recordName ++ " \x7b ") read :=
      addText_printedMember [] _ read
    obtain ⟨hParts, hOpen⟩ :=
      foldl_addRead reads 0 (endsOpen_printedMember [] (set.recordName ++ " \x7b ") read)
    rw [List.nil_append] at hParts hOpen
    rw [List.isEmpty_cons, if_neg Bool.false_ne_true, List.zipIdx_cons, List.foldl_cons, hFirst, hParts,
      addText_of_endsOpen hOpen]

end MemberSet

namespace Code.Prints

open MemberSet (addRead assembledParts)

variable {parts : List Expr} {done : List MemberRead} {before : List String} {shown : String}

theorem addRead_succ (prints : Prints parts done before shown) (read : MemberRead) (value : String) (position : Nat) :
    Prints (addRead parts (read, position + 1)) (done ++ [read]) (before ++ [value])
      (shown ++ (", " ++ read.printed value)) := by
  have hAdded := ((prints.text ", " (by decide)).text (read.name ++ " = ") (by simp)).value read value
  rw [MemberRead.printed]
  simpa [addRead, String.append_assoc] using hAdded

theorem foldl_addRead (prints : Prints parts done before shown) (reads : List MemberRead) (values : List String)
    (h : values.length = reads.length) (position : Nat) :
    Prints ((reads.zipIdx (position + 1)).foldl addRead parts) (done ++ reads) (before ++ values)
      (shown ++ String.join ((List.zipWith MemberRead.printed reads values).map (", " ++ ·))) := by
  -- What has been put together so far varies: each read adds to the parts that the reads before it leave.
  induction reads generalizing parts done before shown values position with
  | nil =>
    obtain rfl := List.eq_nil_of_length_eq_zero h
    simpa using prints
  | cons read reads ih =>
    obtain ⟨value, values, rfl⟩ := List.exists_cons_of_length_eq_add_one h
    have hOthers := ih (prints.addRead_succ read value position) values (Nat.succ.inj h) (position + 1)
    simpa [String.append_assoc] using hOthers

theorem assembledParts (set : MemberSet) (values : List String) (h : values.length = set.printable.length) :
    Prints set.assembledParts set.printable values
      (printedText set.recordName (List.zipWith MemberRead.printed set.printable values)) := by
  rw [MemberSet.assembledParts]
  cases hPrintable : set.printable with
  | nil =>
    obtain rfl := List.eq_nil_of_length_eq_zero (hPrintable ▸ h)
    exact nil.text _ (by simp)
  | cons read reads =>
    obtain ⟨value, values, rfl⟩ := List.exists_cons_of_length_eq_add_one (hPrintable ▸ h)
    have hName := nil.text (set.recordName ++ " \x7b ") (by simp)
    have hFirst := (hName.text (read.name ++ " = ") (by simp)).value read value
    have hAll := (hFirst.foldl_addRead reads values (by simpa [hPrintable] using h) 0).text " \x7d" (by decide)
    rw [List.zipWith_cons_cons, printedText, List.isEmpty_cons, if_neg Bool.false_ne_true, intercalate_cons]
    simpa [addRead, MemberRead.printed, String.append_assoc] using hAll

end Code.Prints

/-- A synthesized text form is one concatenation, which comes out as the name of the record and its printed members in
order, whatever the texts of their values are. It reads these members and nothing else, each through its owner, and has no
empty literal and no two beside each other. In a checked unit the printed members are the public state of all levels of
the record, the most distant ancestor first, and each level owns its own. -/
theorem text_form_prints_state (set : MemberSet) (synthesized : set.textForm = some .synthesized) :
    ∃ function parts, set.lower .textForm = .ok function ∧ function.body = [.exit (some (.concat parts))] ∧
      (∀ values : List String, values.length = set.printable.length →
        Code.filled parts values =
          some (printedText set.recordName (List.zipWith MemberRead.printed set.printable values))) ∧
      parts.filter (fun part => !part.isLiteral) =
        set.printable.map (fun read => .toText (read.load .this) read.type) ∧
      (parts.IsChain fun part next => ¬(part.isLiteral = true ∧ next.isLiteral = true)) ∧
      (∀ literal, .text literal ∈ parts → literal ≠ "") ∧
      parts = set.assembledParts ∧
      ∀ (unit : CompilationUnit) (options : SynthesisOptions), set ∈ (checkUnit unit options).table.sets →
        ∃ ancestors, (checkUnit unit options).table.Ancestry set ancestors ∧
          set.printable = (ancestors ++ [set]).flatMap MemberSet.ownReads := by
  have prints := Code.Prints.assembledParts set
  have hShape := prints (List.replicate set.printable.length "") (List.length_replicate ..)
  refine ⟨set.lowerTextForm, set.assembledParts, ?_, ?_, fun values h => (prints values h).filled, hShape.reads,
    hShape.apart, hShape.nonempty, rfl, ?_⟩
  · rw [MemberSet.lower, MemberSet.lower?, if_pos synthesized]
  · rw [set.assembledParts_eq, MemberSet.lowerTextForm]
  · intro unit options mem
    obtain ⟨ancestors, hAncestry, -, -, hPrintable⟩ := (checkUnit_grown unit options).exists_ancestry mem
    exact ⟨ancestors, hAncestry, hPrintable⟩

/-- A manager prints a name, a badge and a level, each of another level. -/
theorem text_form_prints_state_manager :
    staffManager.textForm = some .synthesized ∧
    ∃ function parts, staffManager.lower .textForm = .ok function ∧ function.body = [.exit (some (.concat parts))] ∧
      Code.filled parts ["Ada", "7", "3"] = some "Manager \x7b Name = Ada, Badge = 7, Level = 3 \x7d" ∧
      parts.length = 7 := by
  have synthesized : staffManager.textForm = some .synthesized := rfl
  obtain ⟨function, parts, hLowered, hBody, hFilled, -, -, -, rfl, -⟩ := text_form_prints_state staffManager synthesized
  exact ⟨synthesized, function, _, hLowered, hBody, (hFilled _ rfl).trans (by decide +kernel), by decide +kernel⟩

end RecordSynthesis
