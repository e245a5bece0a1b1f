import WideColumn.Error
/-!
Settings: how floating-point numbers are written, and which protocol version goes over the wire.
-/

namespace WideColumn

/-- Settings of texts: the decimals of floating-point numbers. -/
structure DisplayConfig where
  floatPrecision : Nat
  deriving DecidableEq

structure WireConfig where
  protocol : Protocol
  deriving DecidableEq

structure Config where
  display : DisplayConfig
  wire : WireConfig
  deriving DecidableEq

namespace Config

/-- Most decimals of a floating-point number. -/
def maxFloatPrecision : Nat := 40

/-- Fourteen decimals and version 4. -/
def standard : Config := ⟨⟨14⟩, ⟨.v4⟩⟩

/-- For peers that speak version 2 only. -/
def legacy : Config := ⟨⟨14⟩, ⟨.v2⟩⟩

/-- Refuses more decimals than are allowed. -/
def validate (c : Config) : Except Error Unit :=
  if maxFloatPrecision < c.display.floatPrecision then .error (.tooPrecise maxFloatPrecision) else .ok ()

end Config

end WideColumn
