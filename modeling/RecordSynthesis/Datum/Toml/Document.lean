import RecordSynthesis.Datum.Toml.Scalar
import RecordSynthesis.Datum.Toml.Tables

/-!
# TOML documents

A document is a sequence of statements, each on a line of its own: a header opens a table, a pair puts a value into the
table opened last. Only values in brackets spread over several lines.
-/

namespace RecordSynthesis.Toml

set_option autoImplicit false

/-! ## White space -/

def skipBlanks (cs : List Char) : List Char := cs.dropWhile isBlank

/-- Skips blanks, line ends and comments. -/
def skipFiller (inComment : Bool) : List Char → List Char
  | [] => []
  | '\n' :: rest => skipFiller false rest
  | '\r' :: '\n' :: rest => skipFiller false rest
  | c :: rest =>
    if inComment then if isPlain c then skipFiller true rest else c :: rest
    else if isBlank c then skipFiller false rest
    else if c = '#' then skipFiller true rest
    else c :: rest

/-- Goes past the end of a line on which nothing follows but a comment. -/
def endLine (cs : List Char) : Option (List Char) :=
  let rest := match skipBlanks cs with
    | '#' :: comment => comment.dropWhile isPlain
    | other => other
  match rest with
  | [] => some []
  | _ => afterNewline? rest

/-! ## Keys -/

/-- A key with its dots: the names on the way and the last name. -/
structure Key where
  path : List String
  name : String
  deriving DecidableEq, Repr

/-- The number of names from which on a dotted key is too long, and of brackets from which on a value is too deep. -/
def nestingLimit : Nat := 80

def readName : Reader String := fun cs =>
  match cs with
  | '"' :: _ => readLine cs
  | '\'' :: _ => readLine cs
  | _ =>
    match cs.takeWhile isBareKeyChar with
    | [] => none
    | name => some (String.ofList name, cs.dropWhile isBareKeyChar)

/-- The names of a key with `earlier` names before it, last name first. The first argument bounds their number. -/
def readNames : Nat → List String → Reader (List String)
  | 0, _, _ => none
  | fuel + 1, earlier, cs =>
    match readName (skipBlanks cs) with
    | none => none
    | some (name, rest) =>
      match skipBlanks rest with
      | '.' :: following => readNames fuel (name :: earlier) following
      | other => some (name :: earlier, other)

def readKey : Reader Key := fun cs =>
  match readNames (nestingLimit - 1) [] cs with
  | some (name :: path, rest) => some (⟨path.reverse, name⟩, rest)
  | _ => none

/-! ## Values -/

section

variable (readValue : Reader Datum)

/-- A key and its value, up to the blanks behind them. -/
def readPair : Reader (Key × Datum) := fun cs =>
  match readKey cs with
  | some (key, '=' :: rest) =>
    match readValue (skipBlanks rest) with
    | some (value, rest) => some ((key, value), skipBlanks rest)
    | none => none
  | _ => none

/-- The items of a list up to its closing bracket. A comma may stand behind the last. -/
def readItems : Nat → List Datum → Reader (List Datum)
  | 0, _, _ => none
  | fuel + 1, done, cs =>
    match skipFiller false cs with
    | ']' :: rest => some (done.reverse, rest)
    | start =>
      match readValue start with
      | none => none
      | some (item, rest) =>
        match skipFiller false rest with
        | ',' :: rest => readItems fuel (item :: done) rest
        | ']' :: rest => some ((item :: done).reverse, rest)
        | _ => none

/-- The pairs of a table in braces up to its closing brace. No comma stands behind the last. -/
def readPairs : Nat → Entries → Reader Entries
  | 0, _, _ => none
  | fuel + 1, entries, cs =>
    match readPair readValue cs with
    | none => none
    | some ((key, value), rest) =>
      match entries.add key.path key.name value .opened with
      | none => none
      | some added =>
        match rest with
        | ',' :: rest => readPairs fuel added rest
        | '\x7d' :: rest => some (added, rest)
        | _ => none

end

/-- One value, with at most `depth` brackets around its scalars. -/
def readValue : Nat → Reader Datum
  | 0 => readScalar
  | depth + 1 => fun
    | '[' :: rest =>
      (readItems (readValue depth) (rest.length + 1) [] rest).map fun (items, rest) => (.list items, rest)
    | '\x7b' :: rest =>
      match skipBlanks rest with
      | '\x7d' :: rest => some (.table [], rest)
      | rest =>
        (readPairs (readValue depth) (rest.length + 1) [] rest).map fun (entries, rest) =>
          (.table (entriesToData entries), rest)
    | cs => readScalar cs

/-! ## Statements -/

inductive Statement
  | pair (key : Key) (value : Datum)
  | header (key : Key)
  | itemHeader (key : Key)

def readStatement : Reader Statement
  | '[' :: '[' :: rest =>
    match readKey rest with
    | some (key, ']' :: ']' :: rest) => some (.itemHeader key, rest)
    | _ => none
  | '[' :: rest =>
    match readKey rest with
    | some (key, ']' :: rest) => some (.header key, rest)
    | _ => none
  | cs => (readPair (readValue (nestingLimit - 1)) cs).map fun ((key, value), rest) => (.pair key value, rest)

/-- The statements of a text. The first argument bounds their number. -/
def readStatements : Nat → List Statement → List Char → Option (List Statement)
  | 0, _, _ => none
  | fuel + 1, done, cs =>
    match skipFiller false cs with
    | [] => some done.reverse
    | start =>
      match readStatement start with
      | none => none
      | some (statement, rest) =>
        match endLine rest with
        | none => none
        | some rest => readStatements fuel (statement :: done) rest

/-! ## The document -/

/-- The tables filled so far, and the path of the table that was opened last. -/
structure Document where
  entries : Entries := []
  header : List String := []

def Document.apply (document : Document) : Statement → Option Document
  | .pair key value =>
    (document.entries.addUnder document.header key.path key.name value).map fun entries => { document with entries }
  | .header key =>
    (document.entries.openTable key.path key.name).map fun entries => ⟨entries, key.path ++ [key.name]⟩
  | .itemHeader key =>
    (document.entries.openItem key.path key.name).map fun entries => ⟨entries, key.path ++ [key.name]⟩

def read (text : String) : Option Datum :=
  let chars := match text.toList with
    | c :: rest => if c.toNat = 0xfeff then rest else c :: rest
    | [] => []
  match readStatements (chars.length + 1) [] chars with
  | none => none
  | some statements =>
    (statements.foldlM Document.apply {}).map fun document => .table (entriesToData document.entries)

end RecordSynthesis.Toml
