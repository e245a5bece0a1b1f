import WideColumn.Bytes
import WideColumn.Numeral
/-!
Internet addresses of both versions and their text: four decimal octets, or hexadecimal groups of which one
run of zeros may be left out.
-/

namespace WideColumn

inductive Inet where
  | v4 (bits : BitVec 32)
  | v6 (bits : BitVec 128)
  deriving DecidableEq

namespace Inet

def isV4 : Inet → Bool
  | v4 _ => true
  | v6 _ => false

def bytes : Inet → Bytes
  | v4 b => Bytes.bigEndian 4 b.toNat
  | v6 b => Bytes.bigEndian 16 b.toNat

/-- The address of 4 or 16 bytes. -/
def ofBytes? (bs : Bytes) : Option Inet :=
  if bs.length = 4 then some (v4 (BitVec.ofNat 32 (Bytes.value bs)))
  else if bs.length = 16 then some (v6 (BitVec.ofNat 128 (Bytes.value bs)))
  else none

/-! ## Writing -/

/-- The `count` digits of `n` in base `2 ^ width`, most significant first. -/
def fields (width count n : Nat) : List Nat :=
  (List.range count).map fun i => n >>> (width * (count - 1 - i)) % Nat.pow 2 width

/-- Pieces of text with a separator between them. -/
def joined (separator : Char) : List (List Char) → List Char
  | [] => []
  | [piece] => piece
  | piece :: rest => piece ++ separator :: joined separator rest

/-- Four decimal octets with points between them. -/
def octetText (bits : BitVec 32) : List Char :=
  joined '.' ((fields 8 4 bits.toNat).map Numeral.digits)

/-- Hexadecimal groups with colons between them, without leading zeros. -/
def groupText (groups : List Nat) : List Char := joined ':' (groups.map (Nat.toDigits 16))

/-- How many zeros a list of groups begins with. -/
def zeroRun (groups : List Nat) : Nat := (groups.takeWhile (· = 0)).length

/-- Start and length of the first longest run of zeros among the places `0` to `n - 1`. -/
def longestRun (groups : List Nat) : Nat → Nat × Nat
  | 0 => (0, 0)
  | n + 1 =>
    let best := longestRun groups n
    if best.2 < zeroRun (groups.drop n) then (n, zeroRun (groups.drop n)) else best

/-- Groups of version 6; the first longest run of two or more zeros is left out. -/
def compressedText (groups : List Nat) : List Char :=
  let (start, length) := longestRun groups groups.length
  if length < 2 then groupText groups
  else groupText (groups.take start) ++ ':' :: ':' :: groupText (groups.drop (start + length))

/-- The text of an address. Addresses of version 4 mapped into version 6 keep their octets. -/
def chars : Inet → List Char
  | v4 b => octetText b
  | v6 b =>
    if b >>> 32 = 0xffff then "::ffff:".toList ++ octetText (b.setWidth 32)
    else compressedText (fields 16 8 b.toNat)

def text (a : Inet) : String := String.ofList a.chars

/-! ## Reading -/

/-- The pieces of a text between separators, at least one. -/
def pieces (separator : Char) : List Char → List (List Char)
  | [] => [[]]
  | c :: cs =>
    if c = separator then [] :: pieces separator cs
    else
      match pieces separator cs with
      | [] => [[c]]
      | piece :: rest => (c :: piece) :: rest

/-- A decimal octet, without leading zeros. -/
def octet? (cs : List Char) : Option Nat := do
  let n ← Numeral.natural? cs
  if (cs.length = 1 ∨ cs.head? ≠ some '0') ∧ cs.length ≤ 3 ∧ n ≤ 255 then some n else none

/-- Numbers as the digits of one number in the base `2 ^ width`. -/
def assembled (width : Nat) (ns : List Nat) : Nat := ns.foldl (fun n d => n * Nat.pow 2 width + d) 0

/-- Four octets as a number of 32 bits. -/
def octets? (cs : List Char) : Option Nat := do
  let ns ← (pieces '.' cs).mapM octet?
  if ns.length = 4 then some (assembled 8 ns) else none

/-- A group of one to four hexadecimal digits. -/
def group? (cs : List Char) : Option Nat := do
  let ns ← cs.mapM Bytes.hexValue?
  if 1 ≤ ns.length ∧ ns.length ≤ 4 then some (assembled 4 ns) else none

/-- Groups of 16 bits, of which the last two may be written as four octets if `octetsLast` allows it. -/
def groupsOf? (octetsLast : Bool) : List (List Char) → Option (List Nat)
  | [] => some []
  | [piece] =>
    match octetsLast, octets? piece with
    | true, some n => some (fields 16 2 n)
    | _, _ => (group? piece).map ([·])
  | piece :: rest => do
    let n ← group? piece
    let ns ← groupsOf? octetsLast rest
    return n :: ns

/-- Groups with colons between them; an empty text has none. -/
def groups? (octetsLast : Bool) (cs : List Char) : Option (List Nat) :=
  if cs = [] then some [] else groupsOf? octetsLast (pieces ':' cs)

/-- What stands before and after the first double colon. -/
def gap? : List Char → Option (List Char × List Char)
  | ':' :: ':' :: cs => some ([], cs)
  | [] => none
  | c :: cs => (gap? cs).map fun (before, after) => (c :: before, after)

/-- Eight groups; a double colon stands for one or more zeros. -/
def eightGroups? (cs : List Char) : Option (List Nat) :=
  match gap? cs with
  | none => do
    let ns ← groups? true cs
    if ns.length = 8 then some ns else none
  | some (before, after) => do
    let front ← groups? false before
    let back ← groups? true after
    if front.length + back.length ≤ 7 then
      some (front ++ List.replicate (8 - front.length - back.length) 0 ++ back)
    else none

def ofText? (s : String) : Option Inet :=
  match octets? s.toList with
  | some n => some (v4 (BitVec.ofNat 32 n))
  | none => (eightGroups? s.toList).map fun ns => v6 (BitVec.ofNat 128 (assembled 16 ns))

end Inet

end WideColumn
