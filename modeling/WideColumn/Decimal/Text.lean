import WideColumn.Decimal.Basic
import WideColumn.Integer.Range
import WideColumn.Numeral
import WideColumn.Binary.Text
/-!
Decimals as text. Every digit that the scale calls for is written, until the zeros that pad the number would
be more than 64; then the text has an exponent.
-/

namespace WideColumn.Decimal

/-! ## Writing -/

/-- Most zeros that pad a number written without exponent. -/
def mostPadding : Nat := 64

/-- An exponent with its sign. -/
def exponentText (e : Int) : List Char :=
  'E' :: (if e < 0 then '-' else '+') :: Numeral.digits e.natAbs

/-- The zeros that a number without exponent needs after or before its digits. -/
def padding (d : Decimal) (digitCount : Nat) : Nat :=
  if d.scale.val ≤ 0 then d.scale.val.natAbs else (d.scale.val - digitCount).toNat

/-- Puts a point after the first of several digits. -/
def pointAfterFirst : List Char → List Char
  | first :: second :: rest => first :: '.' :: second :: rest
  | few => few

/-- The magnitude of a decimal: plain, or one digit, a point, the other digits and an exponent. -/
def magnitudeText (d : Decimal) : List Char :=
  let digits := Numeral.digits d.unscaled.natAbs
  if d.scale.val ≤ 0 ∧ d.unscaled = 0 then ['0']
  else if mostPadding < d.padding digits.length then
    if d.unscaled = 0 then '0' :: exponentText (-d.scale.val)
    else pointAfterFirst digits ++ exponentText (digits.length - 1 - d.scale.val)
  else Binary.positional digits (-d.scale.val)

def text (d : Decimal) : String := Numeral.withSign (d.unscaled < 0) d.magnitudeText

/-! ## Reading -/

def isExponentMark (c : Char) : Bool := c == 'e' || c == 'E'

/-- Splits a text at the first `e` of either case; without one the exponent is zero. The exponent needs no
bound of its own, as the scale that comes of it has one. -/
def splitExponent? (cs : List Char) : Option (List Char × Int) :=
  match cs.dropWhile (!isExponentMark ·) with
  | [] => some (cs, 0)
  | _ :: exponent => (Numeral.integer? exponent).map fun e => (cs.takeWhile (!isExponentMark ·), e)

/-- Takes the first point out of a mantissa, and counts the digits behind it. A point at the end counts as
none. -/
def splitPoint (cs : List Char) : List Char × Nat :=
  let whole := cs.takeWhile (· ≠ '.')
  match cs.dropWhile (· ≠ '.') with
  | [] => (cs, 0)
  | _ :: fraction => (whole ++ fraction, (fraction.filter (· ≠ '_')).length)

/-- The unscaled integer and the scale that a literal denotes. The scale fits 64 bits. -/
def literal? (cs : List Char) : Option (Int × Int) := do
  let (mantissa, e) ← splitExponent? cs
  let (digits, places) := splitPoint mantissa
  let n ← Numeral.groupedInteger? digits
  let scale := places - e
  if Integer.Fits 64 scale then some (n, scale) else none

/-- The decimal that a literal denotes: none if the text is no literal, an error if it is one whose scale does
not fit. -/
def ofText? (s : String) : Option (Except ArithmeticError Decimal) :=
  (literal? s.toList).map fun (n, scale) => ofScaled n scale

/-- The decimal of the shortest text that reads back as the double; none for NaN and the infinities. -/
def ofDouble? (x : Double) : Option (Except ArithmeticError Decimal) :=
  if x.isFinite then ofText? x.shortest else none

end WideColumn.Decimal
