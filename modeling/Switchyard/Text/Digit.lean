/-!
# Digits

The value of a digit in a base up to sixteen, in either case, and the number that a row of digits stands for.

- an upper-case digit has the value it was made for (`digit?_upperHex`).
-/

namespace Switchyard.Text

/-- The value of a digit in a base up to sixteen. -/
def digit? (base : Nat) (c : Char) : Option Nat :=
  let value? :=
    if '0' ≤ c ∧ c ≤ '9' then some (c.toNat - '0'.toNat)
    else if 'a' ≤ c ∧ c ≤ 'f' then some (c.toNat - 'a'.toNat + 10)
    else if 'A' ≤ c ∧ c ≤ 'F' then some (c.toNat - 'A'.toNat + 10)
    else none
  value?.filter (· < base)

/-- The number that digits stand for, the highest place first. -/
def ofDigits (base : Nat) (digits : List Char) : Nat :=
  digits.foldl (fun acc c => acc * base + (digit? base c).getD 0) 0

/-- An upper-case hexadecimal digit. -/
def upperHex (n : Nat) : Char :=
  if n < 10 then .ofNat ('0'.toNat + n) else .ofNat ('A'.toNat + (n - 10))

/-- A number in lower-case hexadecimal. -/
def hex (n : Nat) : String :=
  .ofList (Nat.toDigits 16 n)

theorem digit?_upperHex : ∀ n < 16, digit? 16 (upperHex n) = some n := by
  decide

end Switchyard.Text
