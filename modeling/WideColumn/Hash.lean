import WideColumn.Bytes
/-!
Hash words of 32 bits: mixing one word into another, folding wider numbers into a word, and the CRC-32
of a byte string.
-/

namespace WideColumn.Hash

/-- Mixes the word `h` into `seed`, with the golden ratio as the constant term. -/
def mix (seed h : UInt32) : UInt32 :=
  seed ^^^ (h + 0x9e3779b9 + (seed <<< (6 : UInt32)) + (seed >>> (2 : UInt32)))

/-- Both halves of a 64-bit pattern, added without carry. -/
def fold (v : BitVec 64) : UInt32 := UInt32.ofBitVec (v.setWidth 32 ^^^ (v >>> 32).setWidth 32)

/-- Mixes the words of a list into `seed`, first word first. -/
def mixAll (seed : UInt32) (words : List UInt32) : UInt32 := words.foldl mix seed

/-- The `k` low digits of `n` in base 2^64, least significant first, without leading zero digits. -/
def limbs : Nat → Nat → List (BitVec 64)
  | 0, _ => []
  | k + 1, n => if n = 0 then [] else BitVec.ofNat 64 n :: limbs k (n >>> 64)

/-- Mixes the magnitude `n` into `seed`, 64 bits at a time from the low end. -/
def magnitude (seed : UInt32) (n : Nat) : UInt32 :=
  mixAll seed ((limbs (n.log2 / 64 + 1) n).map fold)

/-- One shift of the CRC-32 register, by the reflected IEEE polynomial. -/
def crcShift (r : UInt32) : UInt32 :=
  if r &&& 1 = 1 then (r >>> (1 : UInt32)) ^^^ 0xedb88320 else r >>> (1 : UInt32)

/-- Feeds one byte to the CRC-32 register. -/
def crcByte (r : UInt32) (b : UInt8) : UInt32 :=
  crcShift <| crcShift <| crcShift <| crcShift <| crcShift <| crcShift <| crcShift <| crcShift <|
    r ^^^ b.toUInt32

def crc32 (bs : Bytes) : UInt32 := bs.foldl crcByte 0xffffffff ^^^ 0xffffffff

end WideColumn.Hash
