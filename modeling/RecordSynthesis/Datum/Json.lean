import RecordSynthesis.Datum.Basic
import RecordSynthesis.Datum.Decimal

/-!
# JSON text

Reading data trees from JSON and writing them as compact JSON. A whole number that fits neither 64-bit word becomes a
floating point number, and so does minus zero. A number that is too large and a text with half a surrogate pair have no
value.
-/

namespace RecordSynthesis.Json

set_option autoImplicit false

/-! ## Writing -/

def hexByte (n : Nat) : List Char := [Nat.digitChar (n / 16), Nat.digitChar (n % 16)]

/-- One character as it stands in a JSON string. -/
def escapedChar (c : Char) : List Char :=
  if c = '"' then ['\\', '"']
  else if c = '\\' then ['\\', '\\']
  else if c = '\n' then ['\\', 'n']
  else if c = '\r' then ['\\', 'r']
  else if c = '\t' then ['\\', 't']
  else if c.toNat = 8 then ['\\', 'b']
  else if c.toNat = 12 then ['\\', 'f']
  else if c.toNat < 32 then ['\\', 'u', '0', '0'] ++ hexByte c.toNat
  else [c]

def writeString (s : String) : String :=
  String.ofList (['"'] ++ s.toList.flatMap escapedChar ++ ['"'])

mutual

/-- Compact JSON, with table entries in their own order. -/
def write : Datum → String
  | .null => "null"
  | .bool value => if value then "true" else "false"
  | .int value => toString value
  | .real shown => shown
  | .text value => writeString value
  | .moment shown => writeString shown
  | .unusable | .misnamed _ | .broken => "null"
  | .list [] => "[]"
  | .list (item :: others) => "[" ++ write item ++ writeItems others ++ "]"
  | .table [] => "\x7b\x7d"
  | .table ((key, value) :: others) =>
    "\x7b" ++ writeString key ++ ":" ++ write value ++ writeEntries others ++ "\x7d"

def writeItems : List Datum → String
  | [] => ""
  | item :: others => "," ++ write item ++ writeItems others

def writeEntries : List (String × Datum) → String
  | [] => ""
  | (key, value) :: others => "," ++ writeString key ++ ":" ++ write value ++ writeEntries others

end

/-! ## Reading -/

def skipBlank (cs : List Char) : List Char :=
  cs.dropWhile fun c => c = ' ' || c = '\n' || c = '\t' || c = '\r'

def hexValue (c : Char) : Option Nat :=
  if c.isDigit then some (c.toNat - '0'.toNat)
  else if 'a' ≤ c ∧ c ≤ 'f' then some (c.toNat - 'a'.toNat + 10)
  else if 'A' ≤ c ∧ c ≤ 'F' then some (c.toNat - 'A'.toNat + 10)
  else none

def hexNumber (cs : List Char) : Option Nat :=
  cs.foldlM (fun n c => (hexValue c).map (16 * n + ·)) 0

def shortEscape (c : Char) : Option Char :=
  if c = '"' ∨ c = '\\' ∨ c = '/' then some c
  else if c = 'b' then some (Char.ofNat 8)
  else if c = 'f' then some (Char.ofNat 12)
  else if c = 'n' then some '\n'
  else if c = 'r' then some '\r'
  else if c = 't' then some '\t'
  else none

/-- The character beyond the first plane that a pair of surrogates stands for. -/
def pairedChar (high low : Nat) : Char :=
  Char.ofNat (0x10000 + (high - 0xd800) * 0x400 + (low - 0xdc00))

/-- The rest of a string whose opening quote is read. A character beyond the first plane takes a pair of escapes, of
which `half` is the first if it was read last; a string with half a pair is no text. -/
def readString (isText : Bool) (half : Option Nat) (done : List Char) :
    List Char → Option (Option String × List Char)
  | [] => none
  | '"' :: rest => some (if isText && half.isNone then some (String.ofList done.reverse) else none, rest)
  | '\\' :: 'u' :: a :: b :: c :: d :: rest =>
    match hexNumber [a, b, c, d], half with
    | none, _ => none
    | some code, some high =>
      if 0xdc00 ≤ code ∧ code < 0xe000 then readString isText none (pairedChar high code :: done) rest
      else readString false none done rest
    | some code, none =>
      if 0xd800 ≤ code ∧ code < 0xdc00 then readString isText (some code) done rest
      else if 0xdc00 ≤ code ∧ code < 0xe000 then readString false none done rest
      else readString isText none (Char.ofNat code :: done) rest
  | '\\' :: c :: rest =>
    match shortEscape c with
    | none => none
    | some escaped => readString (isText && half.isNone) none (escaped :: done) rest
  | c :: rest => if c.toNat < 32 then none else readString (isText && half.isNone) none (c :: done) rest

/-- A decimal significand of at most 64 bits with a power of ten. -/
structure Scaled where
  significand : Nat
  power : Int

/-- Takes one more digit of the significand, if it still fits. -/
def Scaled.push? (number : Scaled) (digit : Char) : Option Nat :=
  let next := 10 * number.significand + (digit.toNat - '0'.toNat)
  if next < UInt64.size then some next else none

/-- Digits before the point: those that no longer fit only raise the power. -/
def Scaled.whole (number : Scaled) : List Char → Scaled
  | [] => number
  | digit :: others =>
    match if number.power = 0 then number.push? digit else none with
    | some next => Scaled.whole ⟨next, 0⟩ others
    | none => ⟨number.significand, number.power + (others.length + 1)⟩

/-- Digits behind the point: those that no longer fit are dropped. -/
def Scaled.fraction (number : Scaled) : List Char → Scaled
  | [] => number
  | digit :: others =>
    match number.push? digit with
    | some next => Scaled.fraction ⟨next, number.power - 1⟩ others
    | none => number

/-- The floating point number nearest to the scaled one up to the rounding of one product or quotient for every 308
powers of ten; nothing if it is too large. -/
def Scaled.toFloat? (number : Scaled) : Option Float :=
  let start := Float.ofNat number.significand
  let power (n : Nat) : Float := Float.ofScientific 1 false n
  if 0 ≤ number.power then
    if number.power ≤ 308 then
      let value := start * power number.power.toNat
      if value.isInf then none else some value
    else if number.significand = 0 then some start else none
  else
    let steps := number.power.natAbs
    if steps ≤ 308 then some (start / power steps)
    else if steps ≤ 616 then some (start / power 308 / power (steps - 308))
    else some (start / power 308 / power 308 / power (min (steps - 616) 308))

/-- A number: no leading zeros, and digits on both sides of a point. -/
def readNumber (cs : List Char) : Option (Datum × List Char) :=
  let (negative, cs) := match cs with
    | '-' :: rest => (true, rest)
    | _ => (false, cs)
  let whole := cs.takeWhile Char.isDigit
  let cs := cs.dropWhile Char.isDigit
  if whole = [] ∨ (whole.length > 1 ∧ whole.head? = some '0') then none
  else
    let scaled := Scaled.whole ⟨0, 0⟩ whole
    let real (number : Scaled) (rest : List Char) : Option (Datum × List Char) :=
      match number.toFloat? with
      | some value => some (.real (Decimal.text (if negative then -value else value)), rest)
      | none => some (.unusable, rest)
    let exponent (number : Scaled) : List Char → Option (Datum × List Char)
      | e :: rest =>
        if e = 'e' ∨ e = 'E' then
          let (down, rest) := match rest with
            | '-' :: tail => (true, tail)
            | '+' :: tail => (false, tail)
            | _ => (false, rest)
          let digits := rest.takeWhile Char.isDigit
          let size := digits.foldl (fun n c => min (10 * n + (c.toNat - '0'.toNat)) 1000000) 0
          if digits = [] then none
          else real ⟨number.significand, if down then number.power - size else number.power + size⟩
            (rest.dropWhile Char.isDigit)
        else real number (e :: rest)
      | [] => real number []
    match cs with
    | '.' :: rest =>
      let digits := rest.takeWhile Char.isDigit
      if digits = [] then none else exponent (scaled.fraction digits) (rest.dropWhile Char.isDigit)
    | 'e' :: _ => exponent scaled cs
    | 'E' :: _ => exponent scaled cs
    | _ =>
      if scaled.power ≠ 0 then real scaled cs
      else if negative then
        if scaled.significand = 0 ∨ scaled.significand > Nat.pow 2 63 then real scaled cs
        else some (.int (-Int.ofNat scaled.significand), cs)
      else some (.int (Int.ofNat scaled.significand), cs)

mutual

/-- One value, and the rest of the text unless it goes wrong. The first argument bounds the number of nested calls; the
length of the text is enough. -/
def readValue : Nat → List Char → Datum × Option (List Char)
  | 0, _ => (.broken, none)
  | fuel + 1, cs =>
    match skipBlank cs with
    | '\x7b' :: rest =>
      match skipBlank rest with
      | '\x7d' :: rest => (.table [], some rest)
      | rest =>
        let (entries, rest) := readEntries fuel [] rest
        (.table entries, rest)
    | '[' :: rest =>
      match skipBlank rest with
      | ']' :: rest => (.list [], some rest)
      | rest =>
        let (items, rest) := readItems fuel [] rest
        (.list items, rest)
    | '"' :: rest =>
      match readString true none [] rest with
      | some (some value, rest) => (.text value, some rest)
      | some (none, rest) => (.unusable, some rest)
      | none => (.broken, none)
    | 't' :: 'r' :: 'u' :: 'e' :: rest => (.bool true, some rest)
    | 'f' :: 'a' :: 'l' :: 's' :: 'e' :: rest => (.bool false, some rest)
    | 'n' :: 'u' :: 'l' :: 'l' :: rest => (.null, some rest)
    | rest =>
      match readNumber rest with
      | some (number, rest) => (number, some rest)
      | none => (.broken, none)

def readItems : Nat → List Datum → List Char → List Datum × Option (List Char)
  | 0, done, _ => ((.broken :: done).reverse, none)
  | fuel + 1, done, cs =>
    match readValue fuel cs with
    | (item, none) => ((item :: done).reverse, none)
    | (item, some rest) =>
      match skipBlank rest with
      | ',' :: rest => readItems fuel (item :: done) rest
      | ']' :: rest => ((item :: done).reverse, some rest)
      | _ => ((.broken :: item :: done).reverse, none)

def readEntries : Nat → List (String × Datum) → List Char → List (String × Datum) × Option (List Char)
  | 0, done, _ => ((("", .broken) :: done).reverse, none)
  | fuel + 1, done, cs =>
    match skipBlank cs with
    | '"' :: rest =>
      match readString true none [] rest with
      | none => ((("", .broken) :: done).reverse, none)
      | some (key, rest) =>
        let entry (value : Datum) : String × Datum :=
          match key with
          | some name => (name, value)
          | none => ("", .misnamed value)
        match skipBlank rest with
        | ':' :: rest =>
          match readValue fuel rest with
          | (value, none) => ((entry value :: done).reverse, none)
          | (value, some rest) =>
            match skipBlank rest with
            | ',' :: rest => readEntries fuel (entry value :: done) rest
            | '\x7d' :: rest => ((entry value :: done).reverse, some rest)
            | _ => ((("", .broken) :: entry value :: done).reverse, none)
        | _ => ((entry .broken :: done).reverse, none)
    | _ => ((("", .broken) :: done).reverse, none)

end

/-- The datum at the front of a text, with marks where the text goes wrong. -/
def scan (text : String) : Document :=
  let chars := text.toList
  match readValue (chars.length + 1) chars with
  | (datum, some rest) => ⟨datum, (skipBlank rest).isEmpty⟩
  | (datum, none) => ⟨datum, false⟩

def read (text : String) : Option Datum :=
  let document := scan text
  if document.isClosed && document.datum.isSound text.length then some document.datum else none

end RecordSynthesis.Json
