/-!
Versions of the native protocol, which decide the width of counts and lengths on the wire.
-/

namespace WideColumn

inductive Shape where
  | list | set | map
  deriving DecidableEq

def Shape.name : Shape → String
  | .list => "list"
  | .set => "set"
  | .map => "map"

inductive Protocol where
  | v2 | v3 | v4 | v5
  deriving DecidableEq

namespace Protocol

def all : List Protocol := [v2, v3, v4, v5]

def name : Protocol → String
  | v2 => "V2"
  | v3 => "V3"
  | v4 => "V4"
  | v5 => "V5"

/-- Bytes of a count or a length: unsigned 16 bits in version 2, signed 32 bits from version 3 on. -/
def fieldWidth : Protocol → Nat
  | v2 => 2
  | _ => 4

/-- The largest count or length that a field holds. -/
def fieldMax : Protocol → Nat
  | v2 => 65535
  | _ => 2147483647

end Protocol

end WideColumn
