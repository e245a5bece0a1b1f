import WideColumn.Binary.Rounding
/-!
Integers of any length rounded by way of a word of 64 bits.

A number longer than a word is first cut to its leading 64 bits, and the last of these is set where the cut
took something off, so that rounding the word to fewer bits sees no tie that was none. What the cut took off is
looked for in each lower word only as far up as the top word reaches; bits above that are lost.
-/

namespace WideColumn.Binary

variable {f : BinaryFormat}

/-- Bits of the top word of a number cut into words of 64 bits from its low end. -/
def topLength (n : Nat) : Nat := (TwosComplement.bitLength n - 1) % 64 + 1

/-- Whether any word below the top one has a bit set among its lowest `k`. -/
def hasLowBits (k n : Nat) : Bool :=
  (List.range ((TwosComplement.bitLength n - 1) / 64)).any fun i => (n >>> (64 * i)) % Nat.pow 2 k != 0

/-- The leading 64 bits of a longer number, the last of them set where the lower words have low bits. -/
def leadingWord (n : Nat) : Nat :=
  let leading := n >>> (TwosComplement.bitLength n - 64)
  if hasLowBits (topLength n) n then leading ||| 1 else leading

/-- The number for an integer of any length: its leading word rounded to nearest, in the place that the word
has in the integer. -/
def ofUnbounded (n : Int) : Binary f :=
  let length := TwosComplement.bitLength n.natAbs
  if length ≤ 64 then ofInt n else ofMagnitude (n < 0) (f.nearest (leadingWord n.natAbs) (length - 64) false)

end WideColumn.Binary
