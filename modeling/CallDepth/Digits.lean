/-
# Decimal digits

The ten ASCII digits and the natural numbers that runs of them denote. Digits of other scripts are
no digits here.
-/

namespace CallDepth

def isDigit (c : Char) : Bool :=
  '0' ≤ c && c ≤ '9'

def digitValue (c : Char) : Nat :=
  c.toNat - '0'.toNat

/-- The natural number that digits denote, most significant first. -/
def digitsValue (digits : List Char) : Nat :=
  digits.foldl (fun value c => 10 * value + digitValue c) 0

/-- One more than the largest number of a 32-bit word, `2 ^ 32`. -/
def halfWordBound : Nat := 0x100000000

/-- One more than the largest number of a 64-bit word, `2 ^ 64`. -/
def wordBound : Nat := 0x10000000000000000

/-- The natural number below a bound that a text of digits denotes; a plus sign may stand in front
and zeros may lead. -/
def boundedNat? (bound : Nat) (text : String) : Option Nat :=
  let digits := match text.toList with
    | '+' :: rest => rest
    | chars => chars
  if !digits.isEmpty && digits.all isDigit && digitsValue digits < bound then
    some (digitsValue digits)
  else none

end CallDepth
