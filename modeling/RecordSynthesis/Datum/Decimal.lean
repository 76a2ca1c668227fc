/-!
# Decimal text of binary numbers

The shortest decimal digits that name a binary floating point number among all of its kind, and the text made of them.
A positive finite number is `mantissa · 2 ^ exponent`; all comparisons are made exactly, on natural numbers.
-/

namespace RecordSynthesis.Decimal

set_option autoImplicit false

/-- A positive number `mantissa · 2 ^ exponent` as the floating point format holds it. -/
structure Binary where
  mantissa : Nat
  exponent : Int

/-- The number held by the 63 bits below the sign, unless it is infinite or not a number. -/
def Binary.ofBits (bits : Nat) : Binary :=
  let fraction := bits % Nat.pow 2 52
  let level : Nat := bits / Nat.pow 2 52
  if level = 0 then ⟨fraction, -1074⟩ else ⟨Nat.pow 2 52 + fraction, Int.ofNat level - 1075⟩

/-- A quarter of the unit in the last place, as a numerator and a denominator. -/
def Binary.quarter (number : Binary) : Nat × Nat :=
  let exponent := number.exponent - 2
  if exponent < 0 then (1, Nat.pow 2 exponent.natAbs) else (Nat.pow 2 exponent.natAbs, 1)

/-- Compares `a · 10 ^ power` with the fraction `num / den`. -/
def atMost (a : Nat) (power : Int) (num den : Nat) : Bool :=
  if power < 0 then a * den ≤ num * Nat.pow 10 power.natAbs else a * Nat.pow 10 power.natAbs * den ≤ num

def atLeast (a : Nat) (power : Int) (num den : Nat) : Bool :=
  if power < 0 then num * Nat.pow 10 power.natAbs ≤ a * den else num ≤ a * Nat.pow 10 power.natAbs * den

/-- The power of ten of the leading digit of `num / den`, searched downward from `power`. -/
def leadingPower (num den : Nat) : Nat → Int → Int
  | 0, power => power
  | fuel + 1, power => if atMost 1 power num den then power else leadingPower num den fuel (power - 1)

/-- Whether the decimal `a · 10 ^ power` rounds to the number. An even mantissa keeps the ends of its interval. -/
def rounds (number : Binary) (a : Nat) (power : Int) : Bool :=
  let (num, den) := number.quarter
  let middle := 4 * number.mantissa
  let low := if number.mantissa = Nat.pow 2 52 ∧ number.exponent > -1074 then middle - 1 else middle - 2
  let high := middle + 2
  if number.mantissa % 2 = 0 then atLeast a power (low * num) den && atMost a power (high * num) den
  else !atMost a power (low * num) den && !atLeast a power (high * num) den

/-- Distance from `a · 10 ^ power` to the number, on a scale common to all `a`. -/
def distance (number : Binary) (a : Nat) (power : Int) : Nat :=
  let (num, den) := number.quarter
  let (x, y) :=
    if power < 0 then (a * den, 4 * number.mantissa * num * Nat.pow 10 power.natAbs)
    else (a * Nat.pow 10 power.natAbs * den, 4 * number.mantissa * num)
  if x ≤ y then y - x else x - y

/-- The two neighbours of the number on the grid of the given power of ten. -/
def neighbours (number : Binary) (power : Int) : Nat × Nat :=
  let (num, den) := number.quarter
  let whole := 4 * number.mantissa * num
  let below := if power < 0 then whole * Nat.pow 10 power.natAbs / den else whole / (den * Nat.pow 10 power.natAbs)
  (below, below + 1)

/-- The digits on the first grid that names the number, with the power of ten of the last of them. Seventeen digits
always do. Of two neighbours that name it the nearer is taken, and halfway between them the even one. -/
def shortestFrom (number : Binary) : Nat → Int → Nat × Int
  | 0, power => ((neighbours number power).1, power)
  | fuel + 1, power =>
    let (below, above) := neighbours number power
    match rounds number below power, rounds number above power with
    | true, true =>
      let down := distance number below power
      let up := distance number above power
      (if down < up ∨ (down = up ∧ below % 2 = 0) then below else above, power)
    | true, false => (below, power)
    | false, true => (above, power)
    | false, false => shortestFrom number fuel (power - 1)

def trim : Nat → Nat × Int → Nat × Int
  | 0, shown => shown
  | fuel + 1, (digits, power) => if digits % 10 = 0 then trim fuel (digits / 10, power + 1) else (digits, power)

def shortest (number : Binary) : Nat × Int :=
  let (num, den) := number.quarter
  trim 17 (shortestFrom number 17 (leadingPower (4 * number.mantissa * num) den 640 309))

/-- Digits with the last at `power`: positional when the point falls at most sixteen places right of the first digit or
four zeros left of it, else with an exponent, which has a sign. -/
def layout (digits : Nat) (power : Int) : String :=
  let shown := toString digits
  let count := Int.ofNat shown.length
  let point := count + power
  if 0 ≤ power ∧ point ≤ 16 then shown ++ String.ofList (List.replicate power.toNat '0') ++ ".0"
  else if 0 < point ∧ point ≤ 16 then
    String.ofList (shown.toList.take point.toNat) ++ "." ++ String.ofList (shown.toList.drop point.toNat)
  else if -5 < point ∧ point ≤ 0 then "0." ++ String.ofList (List.replicate point.natAbs '0') ++ shown
  else
    let rest := shown.toList.drop 1
    let mantissa := String.ofList (shown.toList.take 1) ++ (if rest.isEmpty then "" else "." ++ String.ofList rest)
    mantissa ++ "e" ++ (if 1 ≤ point then "+" else "") ++ toString (point - 1)

def text (value : Float) : String :=
  let bits := value.toBits.toNat
  let magnitude := bits % Nat.pow 2 63
  let body :=
    if magnitude = 0 then "0.0"
    else
      let (digits, power) := shortest (Binary.ofBits magnitude)
      layout digits power
  if bits < Nat.pow 2 63 then body else "-" ++ body

end RecordSynthesis.Decimal
