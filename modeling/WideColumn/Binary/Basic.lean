import WideColumn.TwosComplement
/-!
Binary floating-point numbers as bit patterns with a single NaN.

A finite number is counted in units, the value of the last place of the smallest numbers of its format, so
that every finite number is a signed natural number of units and comparisons need no fractions.
-/

namespace WideColumn

/-- An interchange format: its significant bits, the leading one included, and its exponent bits. -/
structure BinaryFormat where
  precision : Nat
  exponentBits : Nat
  deriving DecidableEq

namespace BinaryFormat

/-- The format of 32 bits. -/
def single : BinaryFormat := ⟨24, 8⟩

/-- The format of 64 bits. -/
def double : BinaryFormat := ⟨53, 11⟩

variable (f : BinaryFormat)

/-- Bits of a pattern: the sign, the exponent field and the fraction field. -/
abbrev width : Nat := f.precision + f.exponentBits

/-- Weight of the sign bit. -/
def signWeight : Nat := Nat.pow 2 (f.width - 1)

/-- Weight of the lowest bit of the exponent field. -/
def exponentWeight : Nat := Nat.pow 2 (f.precision - 1)

/-- Magnitude pattern of the infinities: the largest exponent field and no fraction. -/
def infinity : Nat := (Nat.pow 2 f.exponentBits - 1) * f.exponentWeight

/-- A unit is two to this power. -/
def unitExponent : Int := 3 - Nat.pow 2 (f.exponentBits - 1) - f.precision

/-- Units of a magnitude pattern, the pattern with the sign bit cleared. Without exponent the fraction counts
itself; each further exponent doubles the spacing. -/
def units (magnitude : Nat) : Nat :=
  let exponent := magnitude / f.exponentWeight
  let fraction := magnitude % f.exponentWeight
  if exponent = 0 then fraction else (fraction + f.exponentWeight) <<< (exponent - 1)

/-- The pattern without its sign bit. -/
def magnitude (bits : BitVec f.width) : Nat := bits.toNat % f.signWeight

def negative (bits : BitVec f.width) : Bool := decide (f.signWeight ≤ bits.toNat)

/-- The pattern that stands for every NaN: positive, with only the first fraction bit set. -/
def quietNaN : BitVec f.width := BitVec.ofNat f.width (f.infinity + Nat.pow 2 (f.precision - 2))

def IsNaN (bits : BitVec f.width) : Prop := f.infinity < f.magnitude bits

instance (bits : BitVec f.width) : Decidable (f.IsNaN bits) :=
  inferInstanceAs (Decidable (f.infinity < f.magnitude bits))

end BinaryFormat

/-- A number of the format `f` as its bit pattern; of the NaN patterns only one is used. -/
structure Binary (f : BinaryFormat) where
  bits : BitVec f.width
  canonical : f.IsNaN bits → bits = f.quietNaN
  deriving DecidableEq

/-- What a pattern denotes. A finite number is a sign and a number of units. -/
inductive Datum where
  | nan
  | infinite (negative : Bool)
  | finite (negative : Bool) (units : Nat)
  deriving DecidableEq

namespace Binary

variable {f : BinaryFormat}

/-- The number with the given pattern. Every NaN pattern gives the one NaN. -/
def ofBits (bits : BitVec f.width) : Binary f :=
  if h : f.IsNaN bits then ⟨f.quietNaN, fun _ => rfl⟩ else ⟨bits, fun h' => absurd h' h⟩

/-- The number with a given sign and magnitude pattern. -/
def ofMagnitude (negative : Bool) (magnitude : Nat) : Binary f :=
  ofBits (BitVec.ofNat f.width ((if negative then f.signWeight else 0) + magnitude))

def nan : Binary f := ⟨f.quietNaN, fun _ => rfl⟩

def infinite (negative : Bool) : Binary f := ofMagnitude negative f.infinity

def zero (negative : Bool) : Binary f := ofMagnitude negative 0

/-- The largest finite number, or its negation. -/
def largest (negative : Bool) : Binary f := ofMagnitude negative (f.infinity - 1)

def negative (x : Binary f) : Bool := f.negative x.bits

def magnitude (x : Binary f) : Nat := f.magnitude x.bits

/-- What a number denotes. -/
def datum (x : Binary f) : Datum :=
  if f.infinity < x.magnitude then .nan
  else if x.magnitude = f.infinity then .infinite x.negative
  else .finite x.negative (f.units x.magnitude)

def isNaN (x : Binary f) : Bool := decide (f.infinity < x.magnitude)

def isInfinite (x : Binary f) : Bool := decide (x.magnitude = f.infinity)

def isFinite (x : Binary f) : Bool := decide (x.magnitude < f.infinity)

def isZero (x : Binary f) : Bool := decide (x.magnitude = 0)

def bytes (x : Binary f) : Bytes := Bytes.bigEndian (f.width / 8) x.bits.toNat

end Binary

/-- Numbers of 32 bits. -/
abbrev Single := Binary .single

/-- Numbers of 64 bits. -/
abbrev Double := Binary .double

end WideColumn
