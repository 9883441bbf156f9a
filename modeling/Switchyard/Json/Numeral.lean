import Switchyard.Json

/-!
# JSON numbers

A number as written. One that is no integer of 64 bits stands for a binary fraction with 53 digits. Its value is
found in two steps: the digits are gathered into a significand, from the first that does not fit in 64 bits on they
only move the point; then the significand is scaled by a power of ten. Significand, power and product are each rounded
to 53 binary digits, and a number whose product leaves the range is too large (`Numeral.isTooLarge`).
-/

namespace Switchyard.Json

open Text (ofDigits)

/-- The parts of a number as written. -/
structure Numeral where
  negative : Bool
  whole : List Char
  fraction : List Char := []
  exponent : Option Int := none
  written : List Char

/-- The least integer of 64 bits with a sign. -/
def minInteger : Int := -9223372036854775808

/-- The greatest integer of 64 bits without one. -/
def maxInteger : Nat := 18446744073709551615

/-! ## Rounding -/

/-- The number of binary digits that are kept. -/
def precision : Nat := 53

/-- The nearest number with so many binary digits before its zeros; of two the one whose last digit is even. -/
def nearest (n : Nat) : Nat :=
  let unit := Nat.pow 2 (n.log2 + 1 - precision)
  let rest := n % unit
  if unit < 2 * rest || (unit = 2 * rest && n / unit % 2 = 1) then (n / unit + 1) * unit else n / unit * unit

/-- From here on a product is rounded out of the range. -/
def outOfRange : Nat :=
  Nat.pow 2 1024 - Nat.pow 2 970

/-- The largest power of ten in the range. -/
def maxPower : Int := 308

/-! ## The value of a number -/

/-- Adds digits to a significand as long as it keeps to 64 bits; gives the digits left over. -/
def gather (significand : Nat) : List Char → Nat × List Char
  | [] => (significand, [])
  | d :: ds =>
    let next := significand * 10 + ofDigits 10 [d]
    if maxInteger < next then (significand, d :: ds) else gather next ds

namespace Numeral

/-- The significand, and the power of ten it is scaled by. -/
def scaled (n : Numeral) : Nat × Int :=
  let (significand, left) := gather 0 n.whole
  let (significand, unused) := gather significand n.fraction
  (significand, (left.length : Int) - (n.fraction.length - unused.length : Nat) + n.exponent.getD 0)

/-- Whether the value leaves the range of binary fractions. -/
def isTooLarge (n : Numeral) : Bool :=
  let (significand, power) := n.scaled
  significand != 0 &&
    (maxPower < power || (0 ≤ power && outOfRange ≤ nearest significand * nearest (Nat.pow 10 power.toNat)))

/-- The value of a number: a decimal where it is no integer of 64 bits; so is the negative zero. -/
def toJson? (n : Numeral) : Option Json :=
  let value : Int := if n.negative then -(ofDigits 10 n.whole) else ofDigits 10 n.whole
  let isInteger := n.fraction.isEmpty && n.exponent.isNone && !(n.negative && value = 0)
  if isInteger && minInteger ≤ value && value ≤ maxInteger then some (.int value)
  else if n.isTooLarge then none
  else
    let written := String.ofList n.written
    some (.decimal (if n.fraction.isEmpty && n.exponent.isNone then written ++ ".0" else written))

end Numeral

end Switchyard.Json
