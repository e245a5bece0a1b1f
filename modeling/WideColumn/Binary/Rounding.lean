import WideColumn.Binary.Basic
import WideColumn.Rounding
/-!
Rounding exact values to the nearest number of a format, a tie to the one with the even pattern. All
arithmetic goes through here, so each operation is its exact result rounded once.
-/

namespace WideColumn

namespace BinaryFormat

variable (f : BinaryFormat)

/-- The magnitude pattern nearest to `n · 2 ^ e`. With `rest` the value lies strictly between `n · 2 ^ e` and
`(n + 1) · 2 ^ e`, and `n` must then have at least two bits more than the format keeps. Beyond the largest
finite number the result is the infinity. -/
def nearest (n : Nat) (e : Int) (rest : Bool) : Nat :=
  if n = 0 then 0
  else
    let last := max (TwosComplement.bitLength n + e - f.precision) f.unitExponent
    let shift := last - e
    let significand := if shift ≤ 0 then n <<< (-shift).toNat else halveEven n shift.toNat rest
    min f.infinity ((last - f.unitExponent).toNat * f.exponentWeight + significand)

/-- The magnitude pattern nearest to `n / d · 2 ^ e`. -/
def nearestRatio (n d : Nat) (e : Int) : Nat :=
  let shift := f.precision + 2 + TwosComplement.bitLength d - TwosComplement.bitLength n
  let scaled := n <<< shift
  f.nearest (scaled / d) (e - shift) (scaled % d != 0)

/-- The magnitude pattern nearest to the square root of `n · 2 ^ e`. -/
def nearestRoot (n : Nat) (e : Int) : Nat :=
  let shift := 2 * (f.precision + 3)
  let shift := if (e - shift) % 2 = 0 then shift else shift + 1
  let scaled := n <<< shift
  let root := scaled.sqrt
  f.nearest root ((e - shift) / 2) (root * root != scaled)

end BinaryFormat

namespace Binary

variable {f : BinaryFormat}

def ofInt (n : Int) : Binary f := ofMagnitude (n < 0) (f.nearest n.natAbs 0 false)

/-- The number nearest to one of another format. -/
def convert {g : BinaryFormat} (x : Binary g) : Binary f :=
  match x.datum with
  | .nan => nan
  | .infinite s => infinite s
  | .finite s n => ofMagnitude s (f.nearest n g.unitExponent false)

/-- The number nearest to `n · 10 ^ e`, with a sign. Exponents far outside the format are not computed:
`reach` bounds the decimal exponents that it has numbers for. -/
def ofDecimal (negative : Bool) (n : Nat) (e : Int) : Binary f :=
  let reach : Int := Nat.pow 2 f.exponentBits
  if n = 0 then zero negative
  else if Nat.log2 n / 3 + 1 + e < -reach then zero negative
  else if Nat.log2 n / 4 + e > reach then infinite negative
  else if 0 ≤ e then ofMagnitude negative (f.nearest (n * Nat.pow 10 e.toNat) 0 false)
  else ofMagnitude negative (f.nearestRatio n (Nat.pow 10 (-e).toNat) 0)

end Binary

end WideColumn
