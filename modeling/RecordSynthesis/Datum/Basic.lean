import RecordSynthesis.Text.Quoted

/-!
# Data trees

What a document holds once its notation is read away. Tables keep their entries in the order of the document, repeated
keys included. A document may go wrong on the way: its datum then has marks in it, and whoever reads the datum in order
meets a mark where a reader of the text would stop.
-/

namespace RecordSynthesis

set_option autoImplicit false

inductive Datum
  | null
  | bool (value : Bool)
  | int (value : Int)
  /-- A number with a fraction or an exponent, as it is shown. -/
  | real (shown : String)
  | text (value : String)
  | list (items : List Datum)
  | table (entries : List (String × Datum))
  /-- A date or a time of day, as it is written. -/
  | moment (shown : String)
  /-- Mark of a number or a text that is spelled well and has no value. It may be passed over. -/
  | unusable
  /-- Mark of an entry whose key is such a text. -/
  | misnamed (value : Datum)
  /-- Mark of the place where the text goes wrong. Nothing behind it is read. -/
  | broken
  deriving Repr, Inhabited

namespace Datum

/-- How a message names a datum that stands where another was expected. -/
def describe : Datum → String
  | null => "null"
  | bool value => "boolean `" ++ (if value then "true" else "false") ++ "`"
  | int value => "integer `" ++ toString value ++ "`"
  | real shown => "floating point `" ++ shown ++ "`"
  | text value => "string " ++ Text.quoted value
  | list _ => "sequence"
  | table _ => "map"
  | moment _ => "map"
  | unusable | misnamed _ | broken => "malformed text"

def isMark : Datum → Bool
  | unusable | misnamed _ | broken => true
  | _ => false

mutual

/-- Whether a datum can be passed over, whatever it holds. -/
def isPassable : Datum → Bool
  | broken => false
  | misnamed value => isPassable value
  | list items => areItemsPassable items
  | table entries => areEntriesPassable entries
  | _ => true

def areItemsPassable : List Datum → Bool
  | [] => true
  | item :: others => isPassable item && areItemsPassable others

def areEntriesPassable : List (String × Datum) → Bool
  | [] => true
  | (_, value) :: others => isPassable value && areEntriesPassable others

end

mutual

/-- Whether a datum holds no mark and its lists and tables nest at most so many levels deep. -/
def isSound (levels : Nat) : Datum → Bool
  | unusable | misnamed _ | broken => false
  | list items => decide (0 < levels) && areItemsSound (levels - 1) items
  | table entries => decide (0 < levels) && areEntriesSound (levels - 1) entries
  | _ => true

def areItemsSound (levels : Nat) : List Datum → Bool
  | [] => true
  | item :: others => isSound levels item && areItemsSound levels others

def areEntriesSound (levels : Nat) : List (String × Datum) → Bool
  | [] => true
  | (_, value) :: others => isSound levels value && areEntriesSound levels others

end

/-- Puts an entry into a table sorted by key, in place of an entry with its key. -/
def insertSorted (key : String) (value : Datum) : List (String × Datum) → List (String × Datum)
  | [] => [(key, value)]
  | (k, v) :: others =>
    if key < k then (key, value) :: (k, v) :: others
    else if key = k then (key, value) :: others
    else (k, v) :: insertSorted key value others

mutual

/-- The same datum with the keys of every table in increasing order; of repeated keys the last stays. -/
def sorted : Datum → Datum
  | list items => list (sortedItems items)
  | table entries => table (sortedEntries [] entries)
  | other => other

def sortedItems : List Datum → List Datum
  | [] => []
  | item :: others => sorted item :: sortedItems others

def sortedEntries (done : List (String × Datum)) : List (String × Datum) → List (String × Datum)
  | [] => done
  | (key, value) :: others => sortedEntries (insertSorted key (sorted value) done) others

end

end Datum

structure Document where
  datum : Datum
  /-- Whether nothing follows the datum. -/
  isClosed : Bool
  deriving Repr, Inhabited

end RecordSynthesis
