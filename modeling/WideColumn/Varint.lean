import WideColumn.Binary.Unbounded
import WideColumn.Integer
/-!
Integers without bounds.
-/

namespace WideColumn.Varint

/-- The quotient cut off toward zero. -/
def div (a b : Int) : Except ArithmeticError Int :=
  if b = 0 then .error .divisionByZero else .ok (a.tdiv b)

/-- The remainder of that quotient, with the sign of the dividend. -/
def modulo (a b : Int) : Except ArithmeticError Int :=
  if b = 0 then .error .moduloByZero else .ok (a.tmod b)

def sqrt (a : Int) : Except ArithmeticError Int :=
  if a < 0 then .error .negativeRoot else .ok a.toNat.sqrt

def binary : BinaryOp → Int → Int → Except ArithmeticError Int
  | .add, a, b => .ok (a + b)
  | .sub, a, b => .ok (a - b)
  | .mul, a, b => .ok (a * b)
  | .div, a, b => div a b
  | .modulo, a, b => modulo a b

def unary : UnaryOp → Int → Except ArithmeticError Int
  | .abs, a => .ok a.natAbs
  | .neg, a => .ok (-a)
  | .sqrt, a => sqrt a

def toInt64 (a : Int) : Except ArithmeticError Int :=
  match Integer.ofInt? 64 a with
  | some _ => .ok a
  | none => .error .tooBig

/-- The integer as a double, infinite beyond the greatest one. -/
def toDouble (a : Int) : Double := Binary.ofUnbounded a

/-- The integer written by an optional sign and digits, which underscores may group. -/
def ofText? (s : String) : Option Int := Numeral.groupedInteger? s.toList

/-- The double without its fraction; none for NaN and the infinities. -/
def ofDouble? (x : Double) : Option Int := x.truncate?

end WideColumn.Varint
