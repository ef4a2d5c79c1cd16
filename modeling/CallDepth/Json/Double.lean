/-
# The text of decimals

A decimal is written as the double it stands for, with the fewest digits that read back as that
double.

* `Double.ofDecimal` scales the significand by the power of ten, rounding each step to the nearest
  double, ties to even.
* `Double.shortest` tries one digit, two digits, and so on: on each decimal grid only the two
  neighbours of the value can read back.
* `decimalText` writes the digits positionally when the point falls among the first sixteen places
  or at most five places before the first digit, and with an exponent otherwise. An exponent always
  has a sign.
-/
import CallDepth.Json.Numeral

namespace CallDepth.Json

/-- The magnitude `mantissa * 2 ^ exponent` of a double. -/
structure Double where
  mantissa : Nat
  exponent : Int
deriving DecidableEq, Repr

/-- A quotient rounded to the nearest natural number, ties to even. -/
def roundQuotient (numerator denominator : Nat) : Nat :=
  let floor := numerator / denominator
  let rest := numerator % denominator
  if denominator < 2 * rest || (denominator = 2 * rest && floor % 2 = 1) then floor + 1 else floor

/-- Numerator and denominator of a quotient times `2 ^ exponent`. -/
def scaleBinary (numerator denominator : Nat) (exponent : Int) : Nat × Nat :=
  (numerator * Nat.pow 2 exponent.toNat, denominator * Nat.pow 2 (-exponent).toNat)

/-- Numerator and denominator of a quotient times `10 ^ exponent`. -/
def scaleDecimal (numerator denominator : Nat) (exponent : Int) : Nat × Nat :=
  (numerator * Nat.pow 10 exponent.toNat, denominator * Nat.pow 10 (-exponent).toNat)

namespace Double

def leastExponent : Int := -1074

/-- The double nearest to a quotient on the grid of an exponent. -/
def onGrid (numerator denominator : Nat) (exponent : Int) : Double :=
  let (n, d) := scaleBinary numerator denominator (-exponent)
  let mantissa := roundQuotient n d
  if mantissa = Nat.pow 2 53 then ⟨Nat.pow 2 52, exponent + 1⟩ else ⟨mantissa, exponent⟩

/-- The double nearest to a quotient. -/
def nearest (numerator denominator : Nat) : Double :=
  let exponent := (numerator.log2 : Int) - denominator.log2 - 52
  let (n, d) := scaleBinary numerator denominator (-exponent)
  onGrid numerator denominator
    (max leastExponent (if n / d < Nat.pow 2 52 then exponent - 1 else exponent))

def ratio (x : Double) : Nat × Nat :=
  scaleBinary x.mantissa 1 x.exponent

def divNat (x : Double) (divisor : Nat) : Double :=
  nearest x.ratio.1 (x.ratio.2 * divisor)

/-- Divide by a power of ten, at most `10 ^ 308` at a time. The result is zero after three such
steps. -/
def scaleDown (x : Double) (places : Nat) : Nat → Double
  | 0 => x
  | steps + 1 =>
      if 308 < places && x.mantissa ≠ 0 then
        (x.divNat (nearestDouble (Nat.pow 10 308))).scaleDown (places - 308) steps
      else x.divNat (nearestDouble (Nat.pow 10 (min places 308)))

/-- The double that a significand times a power of ten stands for. -/
def ofDecimal (significand : Nat) (exponent : Int) : Double :=
  let start := nearest significand 1
  if significand = 0 then start
  else if 0 ≤ exponent then
    nearest (nearestDouble significand * nearestDouble (Nat.pow 10 exponent.toNat)) 1
  else start.scaleDown (-exponent).toNat 4

/-- Four times the mantissa, and the ends of the interval of reals that round to the double, on the
grid of a quarter of its unit. -/
def interval (x : Double) : Nat × Nat × Nat :=
  let middle := 4 * x.mantissa
  let startsBinade := x.mantissa = Nat.pow 2 52 && x.exponent ≠ leastExponent
  let low := if startsBinade then middle - 1 else middle - 2
  (middle, low, middle + 2)

/-- The decimal `digits * 10 ^ power` reads back as the double. -/
def readsBack (x : Double) (digits : Nat) (power : Int) : Bool :=
  let (_, low, high) := x.interval
  let (n, d) := scaleDecimal digits 1 power
  let (n, d) := scaleBinary n d (2 - x.exponent)
  if x.mantissa % 2 = 0 then low * d ≤ n && n ≤ high * d else low * d < n && n < high * d

/-- The power of ten of the first digit: the greatest `power`, counting down from a start, with
`10 ^ power` at most the value. -/
def magnitude (x : Double) (power : Int) : Nat → Int
  | 0 => power
  | steps + 1 =>
      let (n, d) := scaleDecimal x.ratio.1 x.ratio.2 (-power)
      if d ≤ n then power else x.magnitude (power - 1) steps

/-- The fewest digits, and their power of ten, that read back as the double. -/
def shortestFrom (x : Double) (top : Int) (count : Nat) : Nat → Nat × Int
  | 0 => (0, 0)
  | steps + 1 =>
      let power := top - count + 1
      let (n, d) := scaleDecimal x.ratio.1 x.ratio.2 (-power)
      let below := n / d
      let nearer := roundQuotient n d
      let farther := if nearer = below then below + 1 else below
      if x.readsBack nearer power then (nearer, power)
      else if x.readsBack farther power then (farther, power)
      else x.shortestFrom top (count + 1) steps

def shortest (x : Double) : Nat × Int :=
  x.shortestFrom (x.magnitude 309 640) 1 17

end Double

/-- Drop final zeros of digits, raising the power of ten instead. -/
def trimZeros (digits : List Char) (power : Int) : List Char × Int :=
  let kept := (digits.reverse.dropWhile (· = '0')).reverse
  (kept, power + (digits.length - kept.length : Nat))

/-- The text of an exponent: its sign and its digits. -/
def exponentText (value : Int) : List Char :=
  (if value < 0 then '-' else '+') :: Nat.toDigits 10 value.natAbs

/-- Digits times a power of ten, positionally or with an exponent. -/
def placedText (digits : List Char) (power : Int) : List Char :=
  let point := (digits.length : Int) + power
  if 0 ≤ power && point ≤ 16 then
    digits ++ List.replicate power.toNat '0' ++ ['.', '0']
  else if 0 < point && point ≤ 16 then
    digits.take point.toNat ++ '.' :: digits.drop point.toNat
  else if -5 < point && point ≤ 0 then
    '0' :: '.' :: List.replicate (-point).toNat '0' ++ digits
  else
    let tail := digits.drop 1
    digits.take 1 ++ (if tail.isEmpty then [] else '.' :: tail) ++ 'e' :: exponentText (point - 1)

def decimalText (isNegative : Bool) (significand : Nat) (exponent : Int) : List Char :=
  let x := Double.ofDecimal significand exponent
  let magnitude :=
    if x.mantissa = 0 then ['0', '.', '0']
    else
      let (digits, power) := x.shortest
      let (digits, power) := trimZeros (Nat.toDigits 10 digits) power
      placedText digits power
  if isNegative then '-' :: magnitude else magnitude

end CallDepth.Json
