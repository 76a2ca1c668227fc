import RecordSynthesis.Datum.Json

/-!
# TOML scalars

Strings, numbers, truth values, dates and times. Every reader takes one scalar off the front of the text and hands back
what follows it.
-/

namespace RecordSynthesis.Toml

set_option autoImplicit false

/-- Takes a value off the front of a text, if there is one. -/
abbrev Reader (α : Type) := List Char → Option (α × List Char)

/-! ## Characters -/

def isBlank (c : Char) : Bool := c = ' ' || c = '\t'

/-- Whether a comment or a string may hold the character as it is; no control character but the tab. -/
def isPlain (c : Char) : Bool := c = '\t' || (32 ≤ c.toNat && c.toNat ≠ 127)

def isBareKeyChar (c : Char) : Bool := c.isAlphanum || c = '_' || c = '-'

def isHexDigit (c : Char) : Bool := (Json.hexValue c).isSome

def afterNewline? : List Char → Option (List Char)
  | '\n' :: rest => some rest
  | '\r' :: '\n' :: rest => some rest
  | _ => none

/-! ## Strings -/

def codePoint? (digits : List Char) : Option Char :=
  match Json.hexNumber digits with
  | some n => if n.isValidChar then some (Char.ofNat n) else none
  | none => none

def shortEscape? (c : Char) : Option Char :=
  if c = '/' then none else Json.shortEscape c

def readBasic (done : List Char) : Reader String
  | [] => none
  | '"' :: rest => some (String.ofList done.reverse, rest)
  | '\\' :: 'u' :: a :: b :: c :: d :: rest =>
    match codePoint? [a, b, c, d] with
    | some x => readBasic (x :: done) rest
    | none => none
  | '\\' :: 'U' :: a :: b :: c :: d :: e :: f :: g :: h :: rest =>
    match codePoint? [a, b, c, d, e, f, g, h] with
    | some x => readBasic (x :: done) rest
    | none => none
  | '\\' :: c :: rest =>
    match shortEscape? c with
    | some x => readBasic (x :: done) rest
    | none => none
  | c :: rest => if isPlain c then readBasic (c :: done) rest else none

/-- The rest of a string on one line that knows no escapes. -/
def readLiteral (done : List Char) : Reader String
  | [] => none
  | c :: rest =>
    if c = '\'' then some (String.ofList done.reverse, rest)
    else if isPlain c then readLiteral (c :: done) rest
    else none

/-- Closes a string of several lines at three quotes. Up to two more quotes belong to its text. -/
def closeLines (quote : Char) (done : List Char) : Reader String
  | a :: b :: c :: rest =>
    if a = quote ∧ b = quote ∧ c = quote then
      let more := (rest.takeWhile (· = quote)).take 2
      some (String.ofList (done.reverse ++ more), rest.drop more.length)
    else none
  | _ => none

/-- The rest of a string of several lines without escapes. -/
def readLiteralLines (done : List Char) : Reader String
  | [] => none
  | '\r' :: '\n' :: rest => readLiteralLines ('\n' :: done) rest
  | c :: rest =>
    match closeLines '\'' done (c :: rest) with
    | some closed => some closed
    | none => if c = '\n' || isPlain c then readLiteralLines (c :: done) rest else none

/-- Whether nothing but blanks stands before the end of the line. -/
def endsLine (cs : List Char) : Bool :=
  (afterNewline? (cs.dropWhile isBlank)).isSome

/-- The rest of a string of several lines. A backslash at the end of a line takes all white space after it away, which
is what `trimming` is about. -/
def readBasicLines (trimming : Bool) (done : List Char) : Reader String
  | [] => none
  | '\r' :: '\n' :: rest => readBasicLines trimming (if trimming then done else '\n' :: done) rest
  | '\n' :: rest => readBasicLines trimming (if trimming then done else '\n' :: done) rest
  | '\\' :: 'u' :: a :: b :: c :: d :: rest =>
    match codePoint? [a, b, c, d] with
    | some x => readBasicLines false (x :: done) rest
    | none => none
  | '\\' :: 'U' :: a :: b :: c :: d :: e :: f :: g :: h :: rest =>
    match codePoint? [a, b, c, d, e, f, g, h] with
    | some x => readBasicLines false (x :: done) rest
    | none => none
  | '\\' :: c :: rest =>
    if endsLine (c :: rest) then readBasicLines true done (c :: rest)
    else
      match shortEscape? c with
      | some x => readBasicLines false (x :: done) rest
      | none => none
  | c :: rest =>
    if trimming && isBlank c then readBasicLines true done rest
    else
      match closeLines '"' done (c :: rest) with
      | some closed => some closed
      | none => if isPlain c then readBasicLines false (c :: done) rest else none

/-- A newline right behind the opening quotes is not part of the text. -/
def skipFirstNewline (cs : List Char) : List Char :=
  (afterNewline? cs).getD cs

/-- A string of one line, as keys may be. -/
def readLine : Reader String
  | '"' :: rest => readBasic [] rest
  | '\'' :: rest => readLiteral [] rest
  | _ => none

def readString : Reader String
  | '"' :: '"' :: '"' :: rest => readBasicLines false [] (skipFirstNewline rest)
  | '\'' :: '\'' :: '\'' :: rest => readLiteralLines [] (skipFirstNewline rest)
  | cs => readLine cs

/-! ## Numbers -/

/-- A run of digits. One underscore may stand between two of them. -/
def digitRun (isDigit : Char → Bool) : Reader (List Char)
  | [] => none
  | [c] => if isDigit c then some ([c], []) else none
  | c :: '_' :: rest =>
    if isDigit c then (digitRun isDigit rest).map fun (digits, tail) => (c :: digits, tail) else none
  | c :: d :: rest =>
    if !isDigit c then none
    else if isDigit d then (digitRun isDigit (d :: rest)).map fun (digits, tail) => (c :: digits, tail)
    else some ([c], d :: rest)

def numberOf (base : Nat) (digits : List Char) : Nat :=
  digits.foldl (fun n c => base * n + (Json.hexValue c).getD 0) 0

/-- A whole number has to fit 64 bits with a sign. -/
def wholeNumber? (negative : Bool) (size : Nat) : Option Datum :=
  if negative then if size ≤ Nat.pow 2 63 then some (.int (-Int.ofNat size)) else none
  else if size < Nat.pow 2 63 then some (.int (Int.ofNat size))
  else none

/-- A number in another base, whose two characters of introduction are read. -/
def readRadix (base : Nat) (isDigit : Char → Bool) : Reader Datum := fun cs =>
  match digitRun isDigit cs with
  | some (digits, rest) => (wholeNumber? false (numberOf base digits)).map fun datum => (datum, rest)
  | none => none

def readSign : List Char → Bool × List Char
  | '-' :: rest => (true, rest)
  | '+' :: rest => (false, rest)
  | cs => (false, cs)

/-- The digits before a point: a zero stands alone. -/
def readWhole : Reader (List Char)
  | '0' :: rest => some (['0'], rest)
  | cs => digitRun Char.isDigit cs

/-- The digits behind a point, none without one. -/
def readFraction : Reader (List Char)
  | '.' :: rest => digitRun Char.isDigit rest
  | cs => some ([], cs)

/-- The power of ten, 0 where none is written. -/
def readExponent : Reader Int
  | c :: rest =>
    if c = 'e' ∨ c = 'E' then
      let (negative, digits) := readSign rest
      (digitRun Char.isDigit digits).map fun (digits, tail) =>
        (if negative then -Int.ofNat (numberOf 10 digits) else Int.ofNat (numberOf 10 digits), tail)
    else some (0, c :: rest)
  | [] => some (0, [])

/-- Whether `digits * 10 ^ power` is rounded to a value beyond the largest floating point number. -/
def overflows (digits : Nat) (power : Int) : Bool :=
  if digits = 0 then false
  else if 400 < power then true
  else
    let limit := Nat.pow 2 1024 - Nat.pow 2 970
    if 0 ≤ power then limit ≤ digits * Nat.pow 10 power.toNat
    else
      let size := (Nat.toDigits 10 digits).length
      if size ≤ power.natAbs then false else limit * Nat.pow 10 power.natAbs ≤ digits

/-- A decimal number. Only a positive one can be too large. -/
def readDecimal : Reader Datum := fun cs =>
  let (negative, unsigned) := readSign cs
  match unsigned with
  | 'i' :: 'n' :: 'f' :: rest => some (.real (if negative then "-inf" else "inf"), rest)
  | 'n' :: 'a' :: 'n' :: rest => some (.real "NaN", rest)
  | _ =>
    match readWhole unsigned with
    | none => none
    | some (whole, afterWhole) =>
      match readFraction afterWhole with
      | none => none
      | some (fraction, afterFraction) =>
        match readExponent afterFraction with
        | none => none
        | some (exponent, rest) =>
          if rest.length = afterWhole.length then
            (wholeNumber? negative (numberOf 10 whole)).map fun datum => (datum, rest)
          else if !negative && overflows (numberOf 10 (whole ++ fraction)) (exponent - fraction.length) then none
          else some (.real (String.ofList (cs.take (cs.length - rest.length))), rest)

def readNumber : Reader Datum
  | '0' :: 'x' :: rest => readRadix 16 isHexDigit rest
  | '0' :: 'o' :: rest => readRadix 8 (fun c => '0' ≤ c && c ≤ '7') rest
  | '0' :: 'b' :: rest => readRadix 2 (fun c => c = '0' || c = '1') rest
  | cs => readDecimal cs

/-! ## Dates and times -/

/-- A fixed count of digits whose number lies in a range. -/
def readField (count least most : Nat) : Reader Nat := fun cs =>
  let digits := cs.take count
  if digits.length = count ∧ digits.all Char.isDigit then
    let n := numberOf 10 digits
    if least ≤ n ∧ n ≤ most then some (n, cs.drop count) else none
  else none

def expect (c : Char) : List Char → Option (List Char)
  | d :: rest => if d = c then some rest else none
  | [] => none

def isLeapYear (year : Nat) : Bool :=
  year % 4 = 0 && (year % 100 ≠ 0 || year % 400 = 0)

def daysInMonth (year month : Nat) : Nat :=
  match month with
  | 2 => if isLeapYear year then 29 else 28
  | 4 | 6 | 9 | 11 => 30
  | _ => 31

def skipDate (cs : List Char) : Option (List Char) := do
  let (year, rest) ← readField 4 0 9999 cs
  let rest ← expect '-' rest
  let (month, rest) ← readField 2 1 12 rest
  let rest ← expect '-' rest
  let (_, rest) ← readField 2 1 (daysInMonth year month) rest
  return rest

/-- What follows a time of day. The seconds are never left out; a leap second is admitted. -/
def skipTime (cs : List Char) : Option (List Char) := do
  let (_, rest) ← readField 2 0 23 cs
  let rest ← expect ':' rest
  let (_, rest) ← readField 2 0 59 rest
  let rest ← expect ':' rest
  let (_, rest) ← readField 2 0 60 rest
  match rest with
  | '.' :: fraction =>
    if fraction.takeWhile Char.isDigit = [] then none else some (fraction.dropWhile Char.isDigit)
  | _ => some rest

/-- What follows an offset from universal time; there may be none. -/
def skipOffset : List Char → Option (List Char)
  | 'Z' :: rest => some rest
  | 'z' :: rest => some rest
  | c :: rest =>
    if c = '+' ∨ c = '-' then do
      let (_, rest) ← readField 2 0 23 rest
      let rest ← expect ':' rest
      let (_, rest) ← readField 2 0 59 rest
      return rest
    else some (c :: rest)
  | [] => some []

/-- What follows a date with or without a time, or a time alone. Behind a blank a time has to be meant as one. -/
def skipMoment (cs : List Char) : Option (List Char) :=
  match skipDate cs with
  | none => skipTime cs
  | some rest =>
    match rest with
    | 'T' :: time => (skipTime time).bind skipOffset
    | 't' :: time => (skipTime time).bind skipOffset
    | ' ' :: time =>
      match (skipTime time).bind skipOffset with
      | some rest => some rest
      | none => some rest
    | _ => some rest

/-! ## Scalars -/

def readScalar : Reader Datum
  | 't' :: 'r' :: 'u' :: 'e' :: rest => some (.bool true, rest)
  | 'f' :: 'a' :: 'l' :: 's' :: 'e' :: rest => some (.bool false, rest)
  | cs =>
    match readString cs with
    | some (value, rest) => some (.text value, rest)
    | none =>
      match skipMoment cs with
      | some rest => some (.moment (String.ofList (cs.take (cs.length - rest.length))), rest)
      | none => readNumber cs

end RecordSynthesis.Toml
