import Bookbinder.Text.Basic

/-!
# Decimal notation

Numbers written with digits, a point and an exponent, and whether such a number rounds to a finite
double.
-/

namespace Bookbinder

/-- The value of a digit in bases up to 36. -/
def digitValue? (c : Char) : Option Nat :=
  if '0' ≤ c ∧ c ≤ '9' then some (c.toNat - '0'.toNat)
  else if 'a' ≤ c ∧ c ≤ 'z' then some (c.toNat - 'a'.toNat + 10)
  else if 'A' ≤ c ∧ c ≤ 'Z' then some (c.toNat - 'A'.toNat + 10)
  else none

/-- The number that a non-empty run of digits of a base stands for. -/
def natOfDigits? (base : Nat) (t : Text) : Option Nat :=
  if t.isEmpty then none
  else t.foldlM (fun n c => (digitValue? c).bind fun v => if v < base then some (n * base + v) else none) 0

/-- The number that decimal digits stand for. -/
def natOfDigits (t : Text) : Nat := t.foldl (fun n c => n * 10 + (c.toNat - '0'.toNat)) 0

/-- A number in decimal notation: its digits without the point, the number of digits behind the point,
and the exponent with its sign. -/
structure Decimal where
  digits : Text
  places : Nat := 0
  negativeExponent : Bool := false
  exponent : Nat := 0

namespace Decimal

/-- The least number that no longer rounds to a finite double. -/
def overflow : Nat := Nat.pow 2 1024 - Nat.pow 2 970

/-- The number rounds to a finite double. -/
def isFinite (d : Decimal) : Bool :=
  let n := natOfDigits d.digits
  if n = 0 then true
  else if d.negativeExponent then
    -- Dividing by more than the digits can hold leaves a number below one.
    if d.digits.length < d.exponent then true
    else decide (n < overflow * Nat.pow 10 (d.places + d.exponent))
  else if d.exponent ≤ d.places then decide (n < overflow * Nat.pow 10 (d.places - d.exponent))
  else if 400 < d.exponent - d.places then false
  else decide (n * Nat.pow 10 (d.exponent - d.places) < overflow)

end Decimal

end Bookbinder
