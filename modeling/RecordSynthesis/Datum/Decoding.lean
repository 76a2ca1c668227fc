import RecordSynthesis.Datum.Basic
import RecordSynthesis.Text.Position
import RecordSynthesis.Ty.Reader

/-!
# Decoding data trees

Readers for the shapes that declarations and settings are made of, and the reasons for which a datum is refused. A
structure may be written as a table of its fields or as the list of their values in order. Of several faults the one
that comes first in the document is reported, and what is missing comes last.
-/

namespace RecordSynthesis

set_option autoImplicit false

inductive DecodeError
  | missingField (field : String)
  | duplicateField (field : String)
  | unknownField (field : String) (known : List String)
  | unknownVariant (name : String) (known : List String)
  | wrongShape (found expected : String)
  | outOfRange (found expected : String)
  | wrongLength (length : Nat) (expected : String)
  | reversedSpan (start stop : UInt32)
  | badType (error : Ty.ReadError)
  /-- The text of the document goes wrong. -/
  | malformed
  deriving Repr

/-- A choice of names as a message lists it. -/
def DecodeError.choice (known : List String) : String :=
  let quote (name : String) := "`" ++ name ++ "`"
  match known with
  | [] => "nothing"
  | [only] => quote only
  | [first, second] => quote first ++ " or " ++ quote second
  | _ => "one of " ++ String.intercalate ", " (known.map quote)

def DecodeError.message : DecodeError → String
  | missingField field => "missing field `" ++ field ++ "`"
  | duplicateField field => "duplicate field `" ++ field ++ "`"
  | unknownField field known => "unknown field `" ++ field ++ "`, expected " ++ choice known
  | unknownVariant name known => "unknown variant `" ++ name ++ "`, expected " ++ choice known
  | wrongShape found expected => "invalid type: " ++ found ++ ", expected " ++ expected
  | outOfRange found expected => "invalid value: " ++ found ++ ", expected " ++ expected
  | wrongLength length expected => "invalid length " ++ toString length ++ ", expected " ++ expected
  | reversedSpan start stop =>
    "span start (" ++ toString start ++ ") must be <= end (" ++ toString stop ++ ")"
  | badType error => error.message
  | malformed => "malformed text"

def failure? {α : Type} : Except DecodeError α → Option DecodeError
  | .ok _ => none
  | .error error => some error

/-- Where a datum comes from, which decides what becomes of the surplus items of a list. -/
inductive Reading
  | tree
  | document
  | tables
  /-- A tagged datum, held back until its tag is known. -/
  | buffered
  deriving DecidableEq, Repr

/-- What is wrong, if anything, with a list of `length` items of which `used` were wanted. -/
def Reading.surplus (reading : Reading) (length used : Nat) : Option DecodeError :=
  if length ≤ used then none
  else match reading with
    | .tree => some (.wrongLength length "fewer elements in array")
    | .document => some .malformed
    | .tables => none
    | .buffered =>
      some (.wrongLength length (toString used ++ (if used = 1 then " element" else " elements") ++ " in sequence"))

/-- The number of levels that lists and tables may nest in what is held back: a document nests at most 127 levels deep
where it is held back, and what is tagged stands in the fifth of them. -/
def heldLevels : Nat := 122

/-- Whether a datum can be held back. Only in the text of a document may it go wrong or nest too deep for that. -/
def Reading.holds (reading : Reading) (datum : Datum) : Bool :=
  reading ≠ .document || datum.isSound heldLevels

namespace Datum

def mismatch (datum : Datum) (expected : String) : DecodeError :=
  if datum.isMark then .malformed else .wrongShape datum.describe expected

def asText : Datum → Except DecodeError String
  | text value => .ok value
  | other => .error (other.mismatch "a string")

def asBool : Datum → Except DecodeError Bool
  | bool value => .ok value
  | other => .error (other.mismatch "a boolean")

def asWord : Datum → Except DecodeError UInt32
  | int value =>
    if 0 ≤ value ∧ value < Int.ofNat UInt32.size then .ok (UInt32.ofNat value.toNat)
    else .error (.outOfRange (int value).describe "u32")
  | other => .error (other.mismatch "u32")

def asList {α : Type} (item : Datum → Except DecodeError α) : Datum → Except DecodeError (List α)
  | list items => items.mapM item
  | other => .error (other.mismatch "a sequence")

def asOption {α : Type} (value : Datum → Except DecodeError α) : Datum → Except DecodeError (Option α)
  | null => .ok none
  | other => (value other).map some

/-- A type in its spelling, with no type parameters in scope. -/
def asType (datum : Datum) : Except DecodeError Ty := do
  let spelling ← datum.asText
  match Ty.read spelling [] with
  | .ok type => .ok type
  | .error error => .error (.badType error)

/-- A pair of offsets in order; null is the empty span at 0. -/
def asSpan (reading : Reading) : Datum → Except DecodeError Span
  | null => .ok {}
  | list [] => .error (.wrongLength 0 "an array of length 2")
  | list [start] => do
    let _ ← start.asWord
    .error (.wrongLength 1 "an array of length 2")
  | list (start :: stop :: others) => do
    let first ← start.asWord
    let last ← stop.asWord
    match reading.surplus (others.length + 2) 2 with
    | some error => .error error
    | none => if first ≤ last then .ok ⟨first, last⟩ else .error (.reversedSpan first last)
  | other => .error (other.mismatch "an array of length 2")

/-- One of a closed list of names, written alone or as the only key of a table that holds nothing of interest. -/
def asVariant {α : Type} (reading : Reading) (variants : List (String × α)) (datum : Datum) : Except DecodeError α :=
  let find (name : String) : Except DecodeError α :=
    match variants.find? fun variant => variant.1 = name with
    | some variant => .ok variant.2
    | none => .error (.unknownVariant name (variants.map (·.1)))
  match datum with
  | text name => find name
  | table [(name, payload)] => do
    let variant ← find name
    match payload, reading with
    | null, _ => .ok variant
    | table [], .buffered => .ok variant
    | _, _ => .error (payload.mismatch "unit")
  | table _ => .error (.outOfRange "map" "map with a single key")
  | other => .error (other.mismatch "string or map")

end Datum

/-! ## Structures -/

/-- The name and the fields of a structure. A closed layout admits no other keys. -/
structure Layout where
  name : String
  fields : List String
  closed : Bool := false

/-- A structure laid open: the entries found for its fields. -/
structure Opened where
  layout : Layout
  positional : Bool
  entries : List (String × Datum)
  /-- What is wrong with the items behind the last field, if anything. -/
  surplus : Option DecodeError

def Layout.open (layout : Layout) (reading : Reading) : Datum → Except DecodeError Opened
  | .table entries => .ok ⟨layout, false, entries, none⟩
  | .list items =>
    .ok ⟨layout, true, layout.fields.zip items, reading.surplus items.length layout.fields.length⟩
  | other => .error (other.mismatch ("struct " ++ layout.name))

/-- The first fault among the entries of a table, given what is wrong with the value of each field. -/
def Layout.fault? (layout : Layout) (failures : List (String × Option DecodeError)) (seen : List String) :
    List (String × Datum) → Option DecodeError
  | [] => none
  | (_, .misnamed _) :: _ => some .malformed
  | (key, value) :: others =>
    match failures.lookup key with
    | some failure =>
      if seen.contains key then some (.duplicateField key)
      else failure.or (layout.fault? failures (key :: seen) others)
    | none =>
      if layout.closed then some (.unknownField key layout.fields)
      else if value.isPassable then layout.fault? failures seen others
      else some .malformed

namespace Opened

/-- Why a field that has no entry cannot be left out. -/
def missing (opened : Opened) (field : String) : DecodeError :=
  if opened.positional then
    let size := opened.layout.fields.length
    .wrongLength (opened.layout.fields.idxOf field)
      ("struct " ++ opened.layout.name ++ " with " ++ toString size ++ (if size = 1 then " element" else " elements"))
  else .missingField field

def required {α : Type} (opened : Opened) (field : String) (decode : Datum → Except DecodeError α) :
    Except DecodeError α :=
  match opened.entries.lookup field with
  | some datum => decode datum
  | none => .error (opened.missing field)

/-- A field that stands for `default` where it is left out. -/
def optional {α : Type} (opened : Opened) (field : String) (default : α) (decode : Datum → Except DecodeError α) :
    Except DecodeError α :=
  match opened.entries.lookup field with
  | some datum => decode datum
  | none => .ok default

/-- Reports the first fault of the structure, given what is wrong with each of its fields in turn. -/
def settle (opened : Opened) (failures : List (Option DecodeError)) : Except DecodeError Unit :=
  let met :=
    if opened.positional then none
    else opened.layout.fault? (opened.layout.fields.zip failures) [] opened.entries
  match (met.or (failures.findSome? id)).or opened.surplus with
  | some error => .error error
  | none => .ok ()

end Opened

end RecordSynthesis
