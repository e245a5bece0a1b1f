import WideColumn.Binary.Rounding
import WideColumn.Numeral
/-!
Binary floating-point numbers as text: decimal literals of any exponent, a fixed number of decimals, and the
shortest digits that read back.
-/

namespace WideColumn.Binary

variable {f : BinaryFormat}

/-! ## Reading -/

/-- The exponent after a mantissa: nothing, or the letter `e` and a signed numeral. -/
def exponent? : List Char → Option Int
  | [] => some 0
  | c :: cs => if c = 'e' ∨ c = 'E' then Numeral.integer? cs else none

/-- Digits with an optional point among, before or after them, then an optional exponent: the digits as
one number, and the power of ten that it is to be multiplied by. -/
def literal? (cs : List Char) : Option (Nat × Int) := do
  let whole := cs.takeWhile Numeral.isDigit
  let rest := cs.dropWhile Numeral.isDigit
  let (fraction, rest) := match rest with
    | '.' :: cs => (cs.takeWhile Numeral.isDigit, cs.dropWhile Numeral.isDigit)
    | cs => ([], cs)
  let n ← Numeral.natural? (whole ++ fraction)
  let e ← exponent? rest
  return (n, e - fraction.length)

/-- A number without sign: a literal, an infinity or NaN by name in any case. -/
def unsigned? (negative : Bool) (cs : List Char) : Option (Binary f) :=
  let name := String.ofList (cs.map Char.toLower)
  if name = "nan" then some nan
  else if name = "inf" ∨ name = "infinity" then some (infinite negative)
  else (literal? cs).map fun (n, e) => ofDecimal negative n e

/-- The number nearest to a literal with an optional sign. -/
def ofText? (s : String) : Option (Binary f) :=
  match s.toList with
  | '-' :: cs => unsigned? true cs
  | '+' :: cs => unsigned? false cs
  | cs => unsigned? false cs

/-! ## Writing -/

/-- Puts a point before the last `places` digits, with zeros in front where digits are missing. -/
def pointed (digits : List Char) (places : Nat) : List Char :=
  if places = 0 then digits
  else
    let padded := List.replicate (places + 1 - digits.length) '0' ++ digits
    padded.take (padded.length - places) ++ '.' :: padded.drop (padded.length - places)

/-- Zeros after a whole number, or a point within or before it: `digits · 10 ^ e` without exponent. -/
def positional (digits : List Char) (e : Int) : List Char :=
  if 0 ≤ e then digits ++ List.replicate e.toNat '0' else pointed digits (-e).toNat

/-- The exact value rounded to `places` decimals, a tie to the even digit. A zero keeps its sign. -/
def fixed (places : Nat) (x : Binary f) : String :=
  match x.datum with
  | .nan => "NaN"
  | .infinite s => Numeral.withSign s "inf".toList
  | .finite s n =>
    let scaled := n * Nat.pow 10 places
    let rounded := if f.unitExponent < 0 then divideEven scaled (Nat.pow 2 (-f.unitExponent).toNat)
      else scaled * Nat.pow 2 f.unitExponent.toNat
    Numeral.withSign s (pointed (Numeral.digits rounded) places)

/-- The greatest `k` with `10 ^ k ≤ n / d`, for positive `n` and `d`. -/
def leadingExponent (n d : Nat) : Int :=
  if d ≤ n then Numeral.digitCount (n / d) - 1 else -Numeral.tenExponent ((d - 1) / n)

/-- Where a decimal must lie to read back as one number: the number and the two ends, all as numerators over
one denominator, and whether the ends belong to it. -/
structure Interval where
  low : Nat
  value : Nat
  high : Nat
  denominator : Nat
  closed : Bool

/-- Whether `c · 10 ^ k` lies in the interval. -/
def Interval.holds (i : Interval) (k : Int) (c : Nat) : Bool :=
  let scaled := c * Nat.pow 10 k.toNat * i.denominator
  let low := i.low * Nat.pow 10 (-k).toNat
  let high := i.high * Nat.pow 10 (-k).toNat
  if i.closed then decide (low ≤ scaled) && decide (scaled ≤ high)
  else decide (low < scaled) && decide (scaled < high)

/-- The neighbour of the value on the grid of step `10 ^ k` that lies in the interval: of two the nearer, and
the upper one at equal distance. -/
def Interval.gridPoint? (i : Interval) (k : Int) : Option Nat :=
  let value := i.value * Nat.pow 10 (-k).toNat
  let step := i.denominator * Nat.pow 10 k.toNat
  let lower := value / step
  match i.holds k lower, i.holds k (lower + 1) with
  | true, true => some (if 2 * (value % step) < step then lower else lower + 1)
  | true, false => some lower
  | false, true => some (lower + 1)
  | false, false => none

/-- The first grid with a point in the interval, of those with steps `10 ^ k`, `10 ^ (k - 1)`, and so on. -/
def Interval.coarsest (i : Interval) : Nat → Int → Nat × Int
  | 0, k => (i.value * Nat.pow 10 (-k).toNat / (i.denominator * Nat.pow 10 k.toNat), k)
  | n + 1, k =>
    match i.gridPoint? k with
    | some c => (c, k)
    | none => i.coarsest n (k - 1)

/-- The reals that round to a positive magnitude pattern, as numerators over a common denominator. -/
def interval (f : BinaryFormat) (magnitude : Nat) : Interval where
  low := f.units (magnitude - 1) + f.units magnitude
  value := 2 * f.units magnitude
  high := f.units magnitude + f.units (magnitude + 1)
  denominator := Nat.pow 2 (1 - f.unitExponent).toNat
  closed := magnitude % 2 = 0

/-- Digits `n` and exponent `e` of the shortest decimal `n · 10 ^ e` that reads back as the number with the
given magnitude pattern, zero excepted. The search starts above the value, where a power of ten may lie in the
interval, so the digits never end in a zero. -/
def shortestDigits (f : BinaryFormat) (magnitude : Nat) : Nat × Int :=
  let i := interval f magnitude
  i.coarsest f.precision (leadingExponent i.value i.denominator + 1)

/-- The shortest decimal that reads back, without exponent. -/
def shortest (x : Binary f) : String :=
  if x.isNaN then "NaN"
  else if x.isInfinite then Numeral.withSign x.negative "inf".toList
  else if x.isZero then Numeral.withSign x.negative ['0']
  else
    let (n, e) := shortestDigits f x.magnitude
    Numeral.withSign x.negative (positional (Numeral.digits n) e)

end WideColumn.Binary
