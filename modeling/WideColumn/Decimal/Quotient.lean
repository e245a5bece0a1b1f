import WideColumn.Decimal.Basic
import WideColumn.Numeral
import WideColumn.Rounding
/-!
Quotients and square roots of decimals, which need not end: both keep a hundred significant digits. They are
computed on pairs of an unscaled integer and an unbounded scale.
-/

namespace WideColumn.Decimal

/-- How many significant digits a quotient or a root keeps. -/
def keptDigits : Nat := 100

/-- Whether the pair is written as a one with `scale` zeros after the point, for scales up to 38. -/
def isUnit (unscaled scale : Int) : Bool :=
  decide (0 ≤ scale) && decide (scale ≤ 38) && unscaled == Nat.pow 10 scale.toNat

/-- A long division under way: the digits so far, the remainder times ten, and the scale of the digits. -/
structure LongDivision where
  digits : Nat
  remainder : Nat
  scale : Int

/-- Brings down up to `k` more digits of a division by `den`, fewer if it comes out even. -/
def LongDivision.extend (den : Nat) : Nat → LongDivision → LongDivision
  | 0, s => s
  | k + 1, s =>
    if s.remainder = 0 then s
    else LongDivision.extend den k
      ⟨s.digits * 10 + s.remainder / den, s.remainder % den * 10, s.scale + 1⟩

/-- Divides magnitudes. The dividend is first raised by the fewest powers of ten that make it reach the
divisor; the last digit is rounded by the next one, five and above upward. -/
def divideMagnitudes (num den : Nat) (scale : Int) : Nat × Int :=
  let lift := Numeral.tenExponent ((den - 1) / num)
  let num := num * Nat.pow 10 lift
  let start : LongDivision := ⟨num / den, num % den * 10, scale + lift⟩
  let done := start.extend den (keptDigits - Numeral.digitCount start.digits)
  (if 5 * den ≤ done.remainder then done.digits + 1 else done.digits, done.scale)

/-- The quotient by a number that is not zero. A dividend of zero and a division by one leave the dividend
as it is, and equal unscaled integers give one. -/
def quotient (a : Int) (aScale : Int) (b : Int) (bScale : Int) : Int × Int :=
  let scale := aScale - bScale
  if a = 0 ∨ isUnit b bScale then (a, aScale)
  else if a = b then (1, scale)
  else
    let (n, s) := divideMagnitudes a.natAbs b.natAbs scale
    (a.sign * b.sign * n, s)

/-- The square root of a number that is not negative. Zero and one are their own roots. Otherwise the number
is given at least 210 digits and an even scale, and its integer root is rounded to a hundred digits. -/
def root (n : Nat) (scale : Int) : Nat × Int :=
  if n = 0 ∨ isUnit n scale then (n, scale)
  else
    let lift := 2 * keptDigits + 10 - Numeral.digitCount n
    let lift := if (scale + lift) % 2 = 0 then lift else lift + 1
    let r := (n * Nat.pow 10 lift).sqrt
    let extra := Numeral.digitCount r - keptDigits
    (divideEven r (Nat.pow 10 extra), (scale + lift) / 2 - extra)

end WideColumn.Decimal
