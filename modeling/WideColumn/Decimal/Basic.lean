import WideColumn.Arithmetic
import WideColumn.TwosComplement
/-!
Decimals: an unscaled integer and a scale, the number of its digits after the point. Scales are signed
integers of 32 bits, and `1.0` and `1.00` are different decimals.
-/

namespace WideColumn

/-- A count of decimal places, in 32 bits. -/
structure Scale where
  val : Int
  lower : -2147483648 ≤ val
  upper : val ≤ 2147483647
  deriving DecidableEq

namespace Scale

def ofInt? (n : Int) : Option Scale :=
  if h : -2147483648 ≤ n ∧ n ≤ 2147483647 then some ⟨n, h.1, h.2⟩ else none

def zero : Scale := ⟨0, by decide, by decide⟩

def max (a b : Scale) : Scale := if a.val ≤ b.val then b else a

def word (s : Scale) : UInt32 := UInt32.ofBitVec (BitVec.ofInt 32 s.val)

def bytes (s : Scale) : Bytes := Bytes.bigEndian 4 (BitVec.ofInt 32 s.val).toNat

end Scale

/-- The number `unscaled · 10 ^ -scale`. -/
structure Decimal where
  unscaled : Int
  scale : Scale
  deriving DecidableEq

namespace Decimal

/-- The decimal of an integer, without places. -/
def ofInt (n : Int) : Decimal := ⟨n, .zero⟩

/-- The decimal whose unscaled integer has the given two's-complement form. -/
def ofBytes (bs : Bytes) (scale : Scale) : Decimal := ⟨TwosComplement.decode bs, scale⟩

/-- The shortest two's-complement form of the unscaled integer. -/
def unscaledBytes (d : Decimal) : Bytes := TwosComplement.encode d.unscaled

def isZero (d : Decimal) : Bool := d.unscaled == 0

/-- By scale, then by the unscaled integer. -/
def order (a b : Decimal) : Ordering :=
  (compare a.scale.val b.scale.val).then (compare a.unscaled b.unscaled)

/-- The decimal with a computed scale, if that is one. -/
def ofScaled (unscaled scale : Int) : Except ArithmeticError Decimal :=
  match Scale.ofInt? scale with
  | some s => .ok ⟨unscaled, s⟩
  | none => .error (.scaleTooWide scale)

end Decimal

end WideColumn
