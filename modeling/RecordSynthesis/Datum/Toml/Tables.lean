import RecordSynthesis.Datum.Basic

/-!
# TOML tables under construction

The statements of a document fill a tree of tables. How a table came to be decides who may add to it: a header opens a
table once, a longer header or a dotted key brings tables about on its way.
-/

namespace RecordSynthesis.Toml

set_option autoImplicit false

inductive TableStatus
  /-- By its own header, or as the whole document. -/
  | opened
  /-- On the way of a longer header. -/
  | implied
  /-- On the way of a dotted key. -/
  | dotted
  deriving DecidableEq, Repr

inductive Node
  | value (datum : Datum)
  | table (status : TableStatus) (entries : List (String × Node))
  /-- A list of tables, the last one first. -/
  | tables (items : List (List (String × Node)))

abbrev Entries := List (String × Node)

namespace Entries

/-- Changes what stands under a key, which may be nothing. -/
def alter (key : String) (change : Option Node → Option Node) : Entries → Option Entries
  | [] => (change none).map fun node => [(key, node)]
  | (k, node) :: others =>
    if k = key then (change (some node)).map fun changed => (k, changed) :: others
    else (alter key change others).map ((k, node) :: ·)

/-- Changes the table at the end of a path. Tables missing on the way are made with the status `made`; a dotted key does
not pass through a table with a header of its own. -/
def descend (made : TableStatus) (change : TableStatus → Entries → Option Entries) :
    List String → TableStatus → Entries → Option Entries
  | [], status, entries => change status entries
  | key :: path, _, entries =>
    entries.alter key fun
      | none => (descend made change path made []).map (.table made)
      | some (.value _) => none
      | some (.table status inner) =>
        if made = .dotted ∧ status = .opened then none
        else (descend made change path status inner).map (.table status)
      | some (.tables []) => none
      | some (.tables (last :: earlier)) =>
        (descend made change path .opened last).map fun changed => .tables (changed :: earlier)

/-- Adds a value under a dotted key. A table brought about by dotted keys takes more of them but no header, and the
other way round. -/
def add (path : List String) (key : String) (value : Datum) : TableStatus → Entries → Option Entries :=
  descend .dotted
    (fun status entries =>
      if status = .dotted ↔ path = [] then none
      else entries.alter key fun
        | none => some (.value value)
        | some _ => none)
    path

/-- Opens the table of a header, which must be new or only implied so far. It stands behind what is there: tables come
in the order of their own headers. -/
def openTable (path : List String) (key : String) : Entries → Option Entries :=
  descend .implied
    (fun _ entries =>
      let opened (inner : Entries) : Entries := entries.filter (·.1 ≠ key) ++ [(key, .table .opened inner)]
      match entries.lookup key with
      | none => some (opened [])
      | some (.table .implied inner) => some (opened inner)
      | some _ => none)
    path .opened

def openItem (path : List String) (key : String) : Entries → Option Entries :=
  descend .implied
    (fun _ entries => entries.alter key fun
      | none => some (.tables [[]])
      | some (.tables items) => some (.tables ([] :: items))
      | some _ => none)
    path .opened

/-- Adds a value inside the table that the last header opened. -/
def addUnder (header : List String) (path : List String) (key : String) (value : Datum) : Entries → Option Entries :=
  descend .implied (add path key value) header .opened

end Entries

/-! ## Finished tables -/

mutual

def Node.toDatum : Node → Datum
  | .value datum => datum
  | .table _ entries => .table (entriesToData entries)
  | .tables items => .list (itemsToData [] items)

def entriesToData : List (String × Node) → List (String × Datum)
  | [] => []
  | (key, node) :: others => (key, node.toDatum) :: entriesToData others

/-- The tables of a list, put into the order of the document. -/
def itemsToData (done : List Datum) : List (List (String × Node)) → List Datum
  | [] => done
  | item :: others => itemsToData (.table (entriesToData item) :: done) others

end

end RecordSynthesis.Toml
