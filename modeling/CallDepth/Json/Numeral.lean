/-
# Number literals

`Numeral.ofChars?` takes a number literal apart by the grammar of JSON: an optional minus sign, a
whole part without leading zeros, an optional fraction, an optional exponent. `Numeral.number?`
gives the number it denotes.

* An integer literal that fits a machine word is that integer.
* Any other literal is a decimal whose significand keeps the leading digits that fit 64 bits.
* A literal denotes no number when its magnitude rounds beyond the largest double.
-/
import CallDepth.Digits
import CallDepth.Json.Basic

namespace CallDepth.Json

/-- A number literal taken apart. -/
structure Numeral where
  isNegative : Bool
  whole : List Char
  fraction : Option (List Char)
  /-- Whether the exponent is negative, and its digits. -/
  exponent : Option (Bool × List Char)
deriving DecidableEq, Repr

namespace Numeral

/-- A whole part: digits, the first of several not zero. -/
def isWhole : List Char → Bool
  | [] => false
  | [_] => true
  | first :: _ => first ≠ '0'

/-- Split a fraction off the front: `none` when a point has no digits after it. -/
def fraction? : List Char → Option (Option (List Char) × List Char)
  | '.' :: rest =>
      let digits := rest.takeWhile isDigit
      if digits.isEmpty then none else some (some digits, rest.dropWhile isDigit)
  | rest => some (none, rest)

/-- The digits of an exponent, up to the end of the literal. -/
def exponentDigits? (isNegative : Bool) (digits : List Char) : Option (Option (Bool × List Char)) :=
  if !digits.isEmpty && digits.all isDigit then some (some (isNegative, digits)) else none

def exponent? : List Char → Option (Option (Bool × List Char))
  | [] => some none
  | mark :: rest =>
      if mark = 'e' || mark = 'E' then
        match rest with
        | '+' :: digits => exponentDigits? false digits
        | '-' :: digits => exponentDigits? true digits
        | digits => exponentDigits? false digits
      else none

def unsigned? (isNegative : Bool) (chars : List Char) : Option Numeral :=
  let whole := chars.takeWhile isDigit
  if isWhole whole then
    match fraction? (chars.dropWhile isDigit) with
    | none => none
    | some (fraction, rest) =>
        (exponent? rest).map fun exponent => { isNegative, whole, fraction, exponent }
  else none

/-- Take a number literal apart. -/
def ofChars? : List Char → Option Numeral
  | '-' :: rest => unsigned? true rest
  | chars => unsigned? false chars

/-- The literal has neither fraction nor exponent. -/
def isInteger (numeral : Numeral) : Bool :=
  numeral.fraction.isNone && numeral.exponent.isNone

/-- Extend a significand by the leading digits that keep it below `2 ^ 64`; the other digits are
left. -/
def extend (significand : Nat) : List Char → Nat × List Char
  | [] => (significand, [])
  | digit :: rest =>
      let next := 10 * significand + digitValue digit
      if next < wordBound then extend next rest else (significand, digit :: rest)

def writtenExponent (numeral : Numeral) : Int :=
  match numeral.exponent with
  | none => 0
  | some (true, digits) => -(digitsValue digits : Int)
  | some (false, digits) => digitsValue digits

/-- The significand of 64 bits and the power of ten it is scaled by. -/
def decimal (numeral : Numeral) : Nat × Int :=
  let fraction := numeral.fraction.getD []
  let (high, wholeLeft) := extend 0 numeral.whole
  let (significand, fractionLeft) := extend high fraction
  let places := fraction.length - fractionLeft.length
  (significand, numeral.writtenExponent + wholeLeft.length - places)

end Numeral

/-- The double nearest to a natural number, ties to even. -/
def nearestDouble (value : Nat) : Nat :=
  let excess := value.log2 + 1 - 53
  let unit := Nat.pow 2 excess
  let floor := value / unit
  let rest := value % unit
  let up := unit < 2 * rest || (unit = 2 * rest && floor % 2 = 1)
  (if up then floor + 1 else floor) * unit

/-- The least magnitude that rounds beyond the largest double. -/
def overflowBound : Nat := Nat.pow 2 1024 - Nat.pow 2 970

/-- The significand times the power of ten, both as doubles, rounds beyond the largest double. -/
def overflows (significand : Nat) (exponent : Int) : Bool :=
  significand ≠ 0 &&
    (308 < exponent ||
      (0 ≤ exponent &&
        overflowBound ≤ nearestDouble significand * nearestDouble (Nat.pow 10 exponent.toNat)))

/-- The number a literal denotes, if it denotes one. -/
def Numeral.number? (numeral : Numeral) : Option Number :=
  let value := digitsValue numeral.whole
  if numeral.isInteger && !numeral.isNegative && value < wordBound then some (.natural value)
  else if numeral.isInteger && numeral.isNegative && 1 ≤ value && 2 * value ≤ wordBound then
    some (.negative value)
  else
    let (significand, exponent) := numeral.decimal
    if overflows significand exponent then none
    else some (.decimal numeral.isNegative significand exponent)

end CallDepth.Json
