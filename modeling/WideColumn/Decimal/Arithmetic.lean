import WideColumn.Decimal.Quotient
/-!
Arithmetic of decimals. Sums, differences and remainders take the larger scale, products add the scales.
-/

namespace WideColumn.Decimal

/-- The widest gap between two scales that is bridged. -/
def widestGap : Nat := 100000

/-- The unscaled integer of `d` at another scale that is not smaller. -/
def unscaledAt (d : Decimal) (s : Scale) : Int := d.unscaled * Nat.pow 10 (s.val - d.scale.val).toNat

/-- Both decimals at the larger of their scales. -/
def aligned (a b : Decimal) : Except ArithmeticError (Int × Int × Scale) :=
  if widestGap < (a.scale.val - b.scale.val).natAbs then .error (.scalesApart a.scale.val b.scale.val)
  else
    let s := a.scale.max b.scale
    .ok (a.unscaledAt s, b.unscaledAt s, s)

def add (a b : Decimal) : Except ArithmeticError Decimal :=
  (aligned a b).map fun (m, n, s) => ⟨m + n, s⟩

def sub (a b : Decimal) : Except ArithmeticError Decimal :=
  (aligned a b).map fun (m, n, s) => ⟨m - n, s⟩

def mul (a b : Decimal) : Except ArithmeticError Decimal :=
  match Scale.ofInt? (a.scale.val + b.scale.val) with
  | some s => .ok ⟨a.unscaled * b.unscaled, s⟩
  | none => .error .scaleOverflow

/-- The quotient, of a hundred significant digits where it does not end before. -/
def div (a b : Decimal) : Except ArithmeticError Decimal :=
  if b.isZero then .error .divisionByZero
  else
    let (n, s) := quotient a.unscaled a.scale.val b.unscaled b.scale.val
    ofScaled n s

/-- What is left of `a` after taking `b` away a whole number of times, with the sign of `a`. -/
def modulo (a b : Decimal) : Except ArithmeticError Decimal :=
  if b.isZero then .error .moduloByZero
  else (aligned a b).map fun (m, n, s) => ⟨m.tmod n, s⟩

/-- The absolute value, at the same scale. -/
def abs (d : Decimal) : Decimal := ⟨d.unscaled.natAbs, d.scale⟩

/-- The negation, at the same scale. -/
def neg (d : Decimal) : Decimal := ⟨-d.unscaled, d.scale⟩

/-- The square root to a hundred significant digits. -/
def sqrt (d : Decimal) : Except ArithmeticError Decimal :=
  if d.unscaled < 0 then .error .negativeRoot
  else
    let (n, s) := root d.unscaled.toNat d.scale.val
    ofScaled n s

def binary : BinaryOp → Decimal → Decimal → Except ArithmeticError Decimal
  | .add => add
  | .sub => sub
  | .mul => mul
  | .div => div
  | .modulo => modulo

def unary : UnaryOp → Decimal → Except ArithmeticError Decimal
  | .abs, d => .ok d.abs
  | .neg, d => .ok d.neg
  | .sqrt, d => d.sqrt

end WideColumn.Decimal
