import WideColumn.Binary.Arithmetic
/-!
The order of binary floating-point numbers: by value, then by the bit pattern read as a signed integer. So
the negative zero precedes the positive one, and NaN equals itself and follows everything else.
-/

namespace WideColumn.Binary

variable {f : BinaryFormat}

/-- Whether the value of one number is less than that of another; never so with NaN. -/
def lt (x y : Binary f) : Bool :=
  match x.datum, y.datum with
  | .nan, _ => false
  | _, .nan => false
  | .infinite s, .infinite t => s && !t
  | .infinite s, .finite _ _ => s
  | .finite _ _, .infinite t => !t
  | .finite s m, .finite t n => decide (signedUnits s m < signedUnits t n)

/-- By value, then by pattern. -/
def order (x y : Binary f) : Ordering :=
  if x.lt y then .lt else if y.lt x then .gt else compare x.bits.toInt y.bits.toInt

end WideColumn.Binary
