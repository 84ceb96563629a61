/-!
# Shortest decimals

A binary64 number is shown by the shortest decimal that lies among the reals that round to it. The
digits are found by exact arithmetic on the bits of the number, one grid of decimals after another.

## Main definitions

* `Binary.readsBack`: a decimal rounds to the given binary number.
* `Binary.shortest`: the first grid with a decimal that reads back, and the closer one on it.
* `Decimal.text`: a decimal with all its places, or with a power of ten if these are many.
-/

namespace ScimDirectory

/-- A finite binary64 number without its sign, `significand * 2 ^ exponent`. -/
structure Binary where
  significand : Nat
  exponent : Int
  /-- The number below is half as far away as the number above. -/
  narrowBelow : Bool

/-- The decimal `digits * 10 ^ exponent`. -/
structure Decimal where
  digits : Nat
  exponent : Int
deriving DecidableEq, Repr

/-- The number that the bits of a finite binary64 number stand for, the sign apart. -/
def Binary.ofBits (bits : UInt64) : Binary :=
  let exponent := ((bits >>> 52) &&& 0x7FF).toNat
  let fraction := (bits &&& 0xFFFFFFFFFFFFF).toNat
  if exponent = 0 then ⟨fraction, -1074, false⟩
  else ⟨Nat.pow 2 52 + fraction, exponent - 1075, fraction = 0 && exponent > 1⟩

/-- Compare a decimal with `n * 2 ^ e`, exactly. -/
def Decimal.compareBinary (d : Decimal) (n : Nat) (e : Int) : Ordering :=
  compare (d.digits * Nat.pow 10 d.exponent.toNat * Nat.pow 2 (-e).toNat)
    (n * Nat.pow 2 e.toNat * Nat.pow 10 (-d.exponent).toNat)

namespace Binary

/-- **A decimal reads back** as the number when it lies between the halfway points to the numbers
below and above; the halfway points belong to the number with the even significand. -/
def readsBack (x : Binary) (d : Decimal) : Bool :=
  let below := if x.narrowBelow then 4 * x.significand - 1 else 4 * x.significand - 2
  let above := 4 * x.significand + 2
  let even := x.significand % 2 = 0
  let low := d.compareBinary below (x.exponent - 2)
  let high := d.compareBinary above (x.exponent - 2)
  (low = .gt || even && low = .eq) && (high = .lt || even && high = .eq)

/-- The number of decimal digits before the point; for a number below one, the negated number of
zeros behind the point. -/
def magnitude (x : Binary) : Int :=
  let numerator := x.significand * Nat.pow 2 x.exponent.toNat
  let denominator := Nat.pow 2 (-x.exponent).toNat
  if denominator ≤ numerator then (Nat.toDigits 10 (numerator / denominator)).length
  else
    ((List.range 400).find? fun zeros => denominator ≤ numerator * Nat.pow 10 (zeros + 1)).elim 0
      fun zeros => -(zeros : Int)

/-- The decimals next to the number on the grid of the powers `10 ^ e`. -/
def neighbours (x : Binary) (e : Int) : Decimal × Decimal :=
  let numerator := x.significand * Nat.pow 2 x.exponent.toNat * Nat.pow 10 (-e).toNat
  let denominator := Nat.pow 2 (-x.exponent).toNat * Nat.pow 10 e.toNat
  let floor := numerator / denominator
  (⟨floor, e⟩, ⟨floor + 1, e⟩)

/-- The decimal on the grid of the powers `10 ^ e` that shows the number, if one of its neighbours
there reads back: the closer of two, and of two equally close ones the even. -/
def onGrid? (x : Binary) (e : Int) : Option Decimal :=
  let (lower, upper) := x.neighbours e
  match x.readsBack lower, x.readsBack upper with
  | false, false => none
  | true, false => some lower
  | false, true => some upper
  | true, true =>
      let middle : Decimal := ⟨10 * lower.digits + 5, e - 1⟩
      match middle.compareBinary x.significand x.exponent with
      | .lt => some upper
      | .eq => some (if lower.digits % 2 = 0 then lower else upper)
      | .gt => some lower

/-- **The shortest decimal of a number**: the one on the first grid that has any. Seventeen digits
always suffice; were they not to, the lower neighbour there is given. -/
def shortest (x : Binary) : Decimal :=
  let grids := (List.range 17).map fun (n : Nat) => x.magnitude - (n + 1)
  (grids.findSome? x.onGrid?).getD (x.neighbours (x.magnitude - 17)).1

end Binary

namespace Decimal

/-- The digits of a decimal, without zeros at their end. -/
def significant (d : Decimal) : List Char :=
  ((Nat.toDigits 10 d.digits).reverse.dropWhile (· == '0')).reverse

/-- The power of ten that the first digit counts. -/
def order (d : Decimal) : Int :=
  (Nat.toDigits 10 d.digits).length - 1 + d.exponent

/-- The text with every place written out, at least one of them behind the point. -/
def positional (d : Decimal) : List Char :=
  let digits := List.replicate (-d.order).toNat '0' ++ d.significant
  let places := d.order.toNat + 1
  let whole := digits.take places
  let fraction := digits.drop places
  whole ++ List.replicate (places - whole.length) '0' ++
    '.' :: (if fraction.isEmpty then ['0'] else fraction)

/-- The text with one digit before the point, no point where none follows, and a signed power of
ten. -/
def scientific (d : Decimal) : List Char :=
  let fraction := d.significant.drop 1
  d.significant.take 1 ++ (if fraction.isEmpty then [] else '.' :: fraction) ++
    'e' :: (if d.order < 0 then '-' else '+') :: Nat.toDigits 10 d.order.natAbs

/-- The text of a decimal: up to sixteen places before the point, and down to the fifth behind it,
are written out. -/
def text (d : Decimal) : List Char :=
  if -5 ≤ d.order ∧ d.order ≤ 15 then d.positional else d.scientific

end Decimal

/-- The shortest text of a finite binary64 number. -/
def shortestText (x : Float) : String :=
  let bits := x.toBits
  let magnitude := Binary.ofBits (bits &&& 0x7FFFFFFFFFFFFFFF)
  let decimal : Decimal := if magnitude.significand = 0 then ⟨0, 0⟩ else magnitude.shortest
  String.ofList ((if bits >>> 63 = 1 then ['-'] else []) ++ decimal.text)

end ScimDirectory
