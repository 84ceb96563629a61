import ScimDirectory.Decimal.Shortest
import ScimDirectory.Json.Basic

/-!
# The value of a number

A number without point and power of ten that fits a 64-bit word is an integer; every other number
is read in binary64 arithmetic. Its leading digits, as many as fit a 64-bit word, are scaled by the
power of ten that their place and the written exponent give. A number beyond the binary64 range has
no value.
-/

namespace ScimDirectory

/-- The value of a number. -/
inductive NumberValue where
  | integer (value : Int)
  | float (value : Float)

/-- The digits of a number that fit a 64-bit word, and the power of ten they are scaled by. -/
structure Scaled where
  significand : Nat := 0
  exponent : Int := 0
  /-- A digit did not fit. -/
  full : Bool := false

namespace Scaled

/-- The next digit before the point: one that does not fit only moves the place of the others. -/
def pushWhole (s : Scaled) (digit : Fin 10) : Scaled :=
  let next := 10 * s.significand + digit.val
  if s.full || Nat.pow 2 64 ≤ next then { s with exponent := s.exponent + 1, full := true }
  else { s with significand := next }

/-- The next digit behind the point: one that does not fit ends the reading of digits. -/
def pushFraction (s : Scaled) (digit : Fin 10) : Scaled :=
  let next := 10 * s.significand + digit.val
  if s.full || Nat.pow 2 64 ≤ next then { s with full := true }
  else { s with significand := next, exponent := s.exponent - 1 }

/-- A power of ten within the binary64 range. -/
def powerOfTen (exponent : Nat) : Float :=
  Float.ofScientific 1 false exponent

/-- Divide by the largest power of ten until the exponent is in range, or nothing is left. -/
def scaleDown : Nat → Float → Nat → Float
  | 0, x, _ => x
  | fuel + 1, x, exponent =>
      if exponent ≤ 308 then x / powerOfTen exponent
      else if x == 0 then x
      else scaleDown fuel (x / powerOfTen 308) (exponent - 308)

/-- The binary64 value, unless it is out of range. A 64-bit significand vanishes within four
divisions by the largest power of ten. -/
def toFloat? (s : Scaled) : Option Float :=
  let x := s.significand.toUInt64.toFloat
  if s.exponent < 0 then some (scaleDown 4 x s.exponent.natAbs)
  else if s.exponent.natAbs ≤ 308 then
    let scaled := x * powerOfTen s.exponent.natAbs
    if scaled.isInf then none else some scaled
  else if x == 0 then some x
  else none

end Scaled

namespace Numeral

/-- The value of a number, unless it is out of range. -/
def value? (numeral : Numeral) : Option NumberValue :=
  let whole := numeral.whole.foldl Scaled.pushWhole {}
  let signed (x : Float) := NumberValue.float (if numeral.negative then -x else x)
  let isInteger :=
    numeral.fraction.isEmpty && numeral.exponent.isNone && !whole.full &&
      (!numeral.negative || 0 < whole.significand && whole.significand ≤ Nat.pow 2 63)
  if isInteger then
    some (.integer (if numeral.negative then -whole.significand else whole.significand))
  else
    let digits := numeral.fraction.foldl Scaled.pushFraction { whole with full := false }
    let scaled := { digits with exponent := digits.exponent + numeral.exponent.getD 0 }
    scaled.toFloat?.map signed

end Numeral

end ScimDirectory
