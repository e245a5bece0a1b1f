import WideColumn.Binary.Integer
import WideColumn.Numeral
/-!
Signed integers of a fixed width. Every operation either gives the exact result or says why there is none.
-/

namespace WideColumn.Integer

variable {w : Nat}

/-! ## Words -/

def ofInt? (w : Nat) (n : Int) : Option (BitVec w) := if Fits w n then some (BitVec.ofInt w n) else none

/-- The word for a double without its fraction, if it fits. The upper bound is computed in doubles, so past
53 bits adding one leaves it where it is. -/
def ofDouble? (w : Nat) (x : Double) : Option (BitVec w) := do
  let n ← x.truncate?
  if n < least w ∨ ((Binary.ofInt (greatest w)).add (Binary.ofInt 1) : Double).whole ≤ n then none
  else some (BitVec.ofInt w n)

/-- The word for an optional sign and decimal digits, if it fits. -/
def ofText? (w : Nat) (s : String) : Option (BitVec w) := Numeral.integer? s.toList >>= ofInt? w

/-! ## Arithmetic -/

/-- The result of an operation that has wrapped if `overflow` holds. -/
def fitting (overflow : Bool) (result : BitVec w) : Except ArithmeticError (BitVec w) :=
  if overflow then .error .tooBig else .ok result

def add (a b : BitVec w) : Except ArithmeticError (BitVec w) := fitting (a.saddOverflow b) (a + b)

def sub (a b : BitVec w) : Except ArithmeticError (BitVec w) := fitting (a.ssubOverflow b) (a - b)

def mul (a b : BitVec w) : Except ArithmeticError (BitVec w) := fitting (a.smulOverflow b) (a * b)

/-- The quotient cut off toward zero. The least integer divided by minus one does not fit. -/
def div (a b : BitVec w) : Except ArithmeticError (BitVec w) :=
  if b = 0 then .error .divisionByZero
  else fitting (a == BitVec.intMin w && b == BitVec.allOnes w) (a.sdiv b)

/-- The remainder of that quotient, with the sign of the dividend. It always fits. -/
def modulo (a b : BitVec w) : Except ArithmeticError (BitVec w) :=
  if b = 0 then .error .moduloByZero else .ok (a.srem b)

/-- The absolute value, which the least integer has not. -/
def abs (a : BitVec w) : Except ArithmeticError (BitVec w) :=
  if a = BitVec.intMin w then .error .noAbsoluteValue else .ok a.abs

/-- The negation, which does not fit for the least integer. -/
def neg (a : BitVec w) : Except ArithmeticError (BitVec w) := fitting a.negOverflow (-a)

/-! ## Square root -/

/-- Counts down to the first root whose square is not above `v`. -/
def lowerRoot (v : Nat) : Nat → Nat
  | 0 => 0
  | r + 1 => if v < (r + 1) * (r + 1) then lowerRoot v r else r + 1

/-- Counts up while the square of the next root is not above `v`. -/
def raiseRoot (v r : Nat) : Nat :=
  if (r + 1) * (r + 1) ≤ v then raiseRoot v (r + 1) else r
termination_by v - r
decreasing_by
  have : r + 1 ≤ (r + 1) * (r + 1) := Nat.le_mul_self _
  omega

/-- The floor of the square root of `v`, from any estimate: first down, then up. -/
def rootFrom (estimate v : Nat) : Nat := raiseRoot v (lowerRoot v estimate)

/-- The root of `v` computed in doubles, without its fraction. It can be off on either side. -/
def rootEstimate (v : Nat) : Nat :=
  match (Binary.ofInt v : Double).sqrt with
  | .ok r => r.whole.toNat
  | .error _ => 0

def sqrt (a : BitVec w) : Except ArithmeticError (BitVec w) :=
  if a.toInt < 0 then .error .negativeRoot
  else .ok (BitVec.ofNat w (rootFrom (rootEstimate a.toInt.toNat) a.toInt.toNat))

def binary : BinaryOp → BitVec w → BitVec w → Except ArithmeticError (BitVec w)
  | .add => add
  | .sub => sub
  | .mul => mul
  | .div => div
  | .modulo => modulo

def unary : UnaryOp → BitVec w → Except ArithmeticError (BitVec w)
  | .abs => abs
  | .neg => neg
  | .sqrt => sqrt

/-! ## Conversions -/

/-- The double nearest to an integer. -/
def toDouble (a : BitVec w) : Double := Binary.ofInt a.toInt

def text (a : BitVec w) : String := Numeral.text a.toInt

/-- The two's-complement bytes, most significant first. -/
def bytes (a : BitVec w) : Bytes := Bytes.bigEndian (w / 8) a.toNat

end WideColumn.Integer
