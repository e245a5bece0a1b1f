import WideColumn.Binary.Unbounded
import WideColumn.Decimal.Basic
import WideColumn.Integer
/-!
Decimals cut off to integers and rounded to doubles.
-/

namespace WideColumn.Decimal

/-- Digits before the point; zero or fewer for a number below one. -/
def integerDigits (d : Decimal) : Int := Numeral.digitCount d.unscaled.natAbs - d.scale.val

/-- The integer `n · 10 ^ -scale` cut off toward zero. -/
def truncated (n : Int) (scale : Int) : Int :=
  if scale ≤ 0 then n * Nat.pow 10 (-scale).toNat else n.tdiv (Nat.pow 10 scale.toNat)

/-- The decimal cut off to an integer of 64 bits. The number of digits before the point decides first whether
powers of ten are computed at all. -/
def toInt64 (d : Decimal) : Except ArithmeticError Int :=
  if d.isZero ∨ d.integerDigits ≤ 0 then .ok 0
  else if 19 < d.integerDigits then .error .tooBig
  else
    let n := truncated d.unscaled d.scale.val
    if Integer.Fits 64 n then .ok n else .error .tooBig

/-- A power by repeated squaring in doubles, each product rounded. `k` bounds the bits of the exponent. -/
def powerOf (k : Nat) (base : Double) (exponent : Nat) (product : Double) : Double :=
  match k with
  | 0 => product
  | k + 1 =>
    let product := if exponent % 2 = 1 then product.mul base else product
    if exponent / 2 = 0 then product else powerOf k (base.mul base) (exponent / 2) product

/-- Cuts a long number at the end, nineteen digits at a time, to between about 25 and 44 digits. The number
of digits is taken from the number of bits. -/
def shortened (n : Nat) (scale : Int) : Nat × Int :=
  let digits : Nat := (TwosComplement.bitLength n + 1) * 30102999566398119521 / 100000000000000000000
  let cuts : Nat := (digits - 25) / 19
  (n / Nat.pow 10 (19 * cuts), scale - 19 * cuts)

/-- The double for a positive number `n · 10 ^ -scale`. A whole number is rounded at once; one with a negative
scale is rounded, then multiplied in doubles; any other is the literal `n` with its exponent. -/
def magnitudeDouble (n : Nat) (scale : Int) : Double :=
  if scale = 0 then Binary.ofUnbounded n
  else
    let (n, scale) := shortened n scale
    if scale ≤ 0 then
      let exponent := (-scale).toNat
      let power := powerOf (TwosComplement.bitLength exponent + 1) (Binary.ofInt 10) exponent (Binary.ofInt 1)
      (Binary.ofUnbounded n).mul power
    else Binary.ofDecimal false n (-scale)

/-- The decimal as a double. Numbers with too many digits before the point, or too many zeros after it, are
infinite or zero without being computed. -/
def toDouble (d : Decimal) : Double :=
  let negative := decide (d.unscaled < 0)
  if ¬d.isZero ∧ 310 < d.integerDigits then Binary.infinite negative
  else if d.isZero ∨ d.integerDigits < -400 then Binary.zero negative
  else
    let x := magnitudeDouble d.unscaled.natAbs d.scale.val
    if negative then x.neg else x

end WideColumn.Decimal
