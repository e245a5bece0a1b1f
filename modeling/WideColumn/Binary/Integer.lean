import WideColumn.Binary.Arithmetic
import WideColumn.Integer.Range
/-!
Binary floating-point numbers cut off to integers.
-/

namespace WideColumn.Binary

variable {f : BinaryFormat}

/-- The number without its fraction; none for NaN and the infinities. -/
def truncate? (x : Binary f) : Option Int :=
  match x.datum with
  | .finite s n =>
    let shift := f.unitExponent
    some (signedUnits s (if shift < 0 then n >>> (-shift).toNat else n <<< shift.toNat))
  | _ => none

/-- The integer that a number stands for, or zero where it stands for none. -/
def whole (x : Binary f) : Int := x.truncate?.getD 0

/-- The number cut off to a signed integer of 64 bits. The upper bound is the greatest such integer as a
double, which is one more. -/
def toInt64 (x : Binary f) : Except ArithmeticError Int :=
  match x.truncate? with
  | some n =>
    if n < Integer.least 64 ∨ (ofInt (Integer.greatest 64) : Double).whole ≤ n then .error .tooBig else .ok n
  | none => .error .tooBig

end WideColumn.Binary
