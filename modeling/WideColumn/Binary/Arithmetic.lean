import WideColumn.Arithmetic
import WideColumn.Binary.Rounding
/-!
Arithmetic of binary floating-point numbers. Division, remainder and square root refuse the operands for
which the result would be no number.
-/

namespace WideColumn.Binary

variable {f : BinaryFormat}

/-- The number nearest to an integer number of units; zero takes the sign `ifZero`. -/
def ofUnits (n : Int) (ifZero : Bool) : Binary f :=
  if n = 0 then zero ifZero else ofMagnitude (n < 0) (f.nearest n.natAbs f.unitExponent false)

/-- A signed number of units. -/
def signedUnits (negative : Bool) (n : Nat) : Int := if negative then -n else n

/-- The sum. A sum that is exactly zero is negative only if both operands are. -/
def add (x y : Binary f) : Binary f :=
  match x.datum, y.datum with
  | .nan, _ => nan
  | _, .nan => nan
  | .infinite s, .infinite t => if s = t then infinite s else nan
  | .infinite s, _ => infinite s
  | _, .infinite t => infinite t
  | .finite s m, .finite t n => ofUnits (signedUnits s m + signedUnits t n) (s && t)

def neg (x : Binary f) : Binary f :=
  if x.isNaN then nan else ofMagnitude (!x.negative) x.magnitude

def abs (x : Binary f) : Binary f :=
  if x.isNaN then nan else ofMagnitude false x.magnitude

/-- The difference, which is a sum with the opposite. -/
def sub (x y : Binary f) : Binary f := x.add y.neg

/-- The product. Zero times infinity is no number. -/
def mul (x y : Binary f) : Binary f :=
  match x.datum, y.datum with
  | .nan, _ => nan
  | _, .nan => nan
  | .infinite s, .infinite t => infinite (s != t)
  | .infinite s, .finite t n => if n = 0 then nan else infinite (s != t)
  | .finite s m, .infinite t => if m = 0 then nan else infinite (s != t)
  | .finite s m, .finite t n => ofMagnitude (s != t) (f.nearest (m * n) (2 * f.unitExponent) false)

/-- The quotient by a number that is not zero. -/
def quotient (x y : Binary f) : Binary f :=
  match x.datum, y.datum with
  | .nan, _ => nan
  | _, .nan => nan
  | .infinite _, .infinite _ => nan
  | .infinite s, .finite t _ => infinite (s != t)
  | .finite s _, .infinite t => zero (s != t)
  | .finite s m, .finite t n => ofMagnitude (s != t) (f.nearestRatio m n 0)

/-- The remainder by a number that is not zero, with the sign of the dividend. -/
def remainder (x y : Binary f) : Binary f :=
  match x.datum, y.datum with
  | .nan, _ => nan
  | _, .nan => nan
  | .infinite _, _ => nan
  | .finite _ _, .infinite _ => x
  | .finite s m, .finite _ n => ofMagnitude s (f.nearest (m % n) f.unitExponent false)

/-- The quotient. A zero of either sign divides nothing. -/
def div (x y : Binary f) : Except ArithmeticError (Binary f) :=
  if y.isZero then .error .divisionByZero else .ok (x.quotient y)

/-- The remainder. A zero of either sign divides nothing. -/
def modulo (x y : Binary f) : Except ArithmeticError (Binary f) :=
  if y.isZero then .error .moduloByZero else .ok (x.remainder y)

/-- The square root. A zero is its own root; any other number below zero has none. -/
def sqrt (x : Binary f) : Except ArithmeticError (Binary f) :=
  match x.datum with
  | .nan => .ok nan
  | .infinite s => if s then .error .negativeRoot else .ok (infinite s)
  | .finite s n =>
    if n = 0 then .ok x
    else if s then .error .negativeRoot
    else .ok (ofMagnitude false (f.nearestRoot n f.unitExponent))

def binary : BinaryOp → Binary f → Binary f → Except ArithmeticError (Binary f)
  | .add, x, y => .ok (x.add y)
  | .sub, x, y => .ok (x.sub y)
  | .mul, x, y => .ok (x.mul y)
  | .div, x, y => x.div y
  | .modulo, x, y => x.modulo y

def unary : UnaryOp → Binary f → Except ArithmeticError (Binary f)
  | .abs, x => .ok x.abs
  | .neg, x => .ok x.neg
  | .sqrt, x => x.sqrt

end WideColumn.Binary
