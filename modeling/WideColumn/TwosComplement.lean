import WideColumn.Bytes
/-!
Big-endian two's complement of unbounded length: the shortest byte string that holds an integer with its
sign, and the integer that any byte string holds.
-/

namespace WideColumn.TwosComplement

/-- Number of binary digits; zero has none. -/
def bitLength (n : Nat) : Nat := if n = 0 then 0 else n.log2 + 1

/-- Fewest bytes that hold `n` together with a sign bit. -/
def width (n : Int) : Nat := bitLength (if n < 0 then -n - 1 else n).toNat / 8 + 1

/-- The shortest two's-complement form of `n`. Zero is one zero byte. -/
def encode (n : Int) : Bytes := Bytes.bigEndian (width n) (n % Nat.pow 256 (width n)).toNat

/-- The integer held by a byte string whose first bit is the sign; the empty string holds zero. -/
def decode (bs : Bytes) : Int :=
  match bs with
  | [] => 0
  | b :: _ => if b < 128 then Bytes.value bs else Bytes.value bs - Nat.pow 256 bs.length

end WideColumn.TwosComplement
