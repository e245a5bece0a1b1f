import WideColumn.Bytes
/-!
Identifiers of 128 bits, their text in five groups of hexadecimal digits, and those that carry a time.
-/

namespace WideColumn

/-- An identifier of 128 bits. -/
structure Uuid where
  bits : BitVec 128
  deriving DecidableEq

/-- Why a text is no identifier. -/
inductive UuidError where
  | length (found : Nat)
  | character (found : Char) (position : Nat)
  | groupCount (found : Nat)
  | groupLength (group expected found : Nat)
  deriving DecidableEq

def UuidError.message : UuidError → String
  | .length n => s!"invalid length: found {n}"
  | .character c i => s!"invalid character: found `{c}` at {i}"
  | .groupCount n => s!"invalid group count: expected 5, found {n}"
  | .groupLength g e n => s!"invalid group length in group {g}: expected {e}, found {n}"

namespace Uuid

/-! ## Parts -/

def bytes (u : Uuid) : Bytes := Bytes.bigEndian 16 u.bits.toNat

def ofBytes (bs : Bytes) : Uuid := ⟨BitVec.ofNat 128 (Bytes.value bs)⟩

def high (u : Uuid) : BitVec 64 := u.bits.extractLsb' 64 64

def low (u : Uuid) : BitVec 64 := u.bits.extractLsb' 0 64

/-- The version, in the first four bits of the seventh byte. -/
def version (u : Uuid) : Nat := (u.bits.extractLsb' 76 4).toNat

/-- By the first half, then by the second, both unsigned. -/
def order (a b : Uuid) : Ordering :=
  (compare a.high.toNat b.high.toNat).then (compare a.low.toNat b.low.toNat)

/-! ## Text -/

/-- Where the four hyphens stand. -/
def hyphens : List Nat := [8, 13, 18, 23]

/-- Groups of 8, 4, 4, 4 and 12 lowercase digits with hyphens between them. -/
def text (u : Uuid) : String :=
  let ds := u.bytes.hexDigits
  String.ofList (ds.take 8 ++ '-' :: (ds.drop 8).take 4 ++ '-' :: (ds.drop 12).take 4 ++
    '-' :: (ds.drop 16).take 4 ++ '-' :: ds.drop 20)

/-- The identifier of 32 digits. -/
def ofDigits? (cs : List Char) : Option Uuid :=
  if cs.length = 32 then (Bytes.ofHexDigits? cs).map ofBytes else none

/-- The identifier of 36 characters with hyphens in their places. -/
def ofGroups? (cs : List Char) : Option Uuid :=
  if hyphens.all fun i => cs[i]? == some '-' then
    ofDigits? (cs.take 8 ++ (cs.drop 9).take 4 ++ (cs.drop 14).take 4 ++ (cs.drop 19).take 4 ++ cs.drop 24)
  else none

/-- Bytes of a text in UTF-8. -/
def byteCount : List Char → Nat
  | [] => 0
  | c :: cs => c.utf8Size + byteCount cs

/-- Whether a text stands within braces. -/
def isBraced (cs : List Char) : Bool :=
  decide (2 ≤ byteCount cs) && cs.head? == some '\x7b' && cs.getLast? == some '\x7d'

/-- The mark of the form as a resource name. -/
def urnMark : List Char := "urn:uuid:".toList

/-- Whether a text begins with the mark of a resource name, in any case. -/
def isNamed (cs : List Char) : Bool := (cs.take urnMark.length).map Char.toLower == urnMark

/-- What stands within braces or after the mark of a resource name, in texts as long as those forms are. -/
def unwrapped? (cs : List Char) : Option (List Char) :=
  if byteCount cs = 38 ∧ isBraced cs then some (cs.drop 1).dropLast
  else if byteCount cs = 45 ∧ isNamed cs then some (cs.drop urnMark.length)
  else none

/-- Position of the first group that does not end at its hyphen, or else the last group. `hyphensFound` are
the places of four hyphens, `total` the bytes of the whole text. -/
def groupFault (hyphensFound : List Nat) (total : Nat) : UuidError :=
  match (hyphensFound.zip hyphens).zipIdx.find? fun ((found, place), _) => found ≠ place with
  | some ((found, place), g) =>
    let expected := if g = 0 then 8 else 4
    .groupLength g expected (found - (place - expected))
  | none => .groupLength 4 12 (total - 24)

/-- What is wrong with a text. `grouped` tells that it can only be one with hyphens. -/
def fault (grouped : Bool) (cs : List Char) : UuidError :=
  let total := byteCount cs
  if total = 0 ∨ 45 < total then .length total
  else
    let braced := !grouped && isBraced cs
    let named := !grouped && isNamed cs
    let offset := if braced then 1 else if named then urnMark.length else 0
    let inner := if braced then (cs.drop 1).dropLast else cs.drop offset
    match inner.zipIdx.find? fun (c, _) => (Bytes.hexValue? c).isNone && c != '-' with
    | some (c, i) => .character c (i + offset)
    | none =>
      let found := (inner.zipIdx.filter fun (c, _) => c == '-').map (·.2)
      if !grouped && !braced && !named && found.isEmpty then .length total
      else if found.length ≠ 4 then .groupCount (found.length + 1)
      else groupFault found total

/-- The identifier that a text denotes: 32 digits, or groups that may be wrapped. -/
def ofText (s : String) : Except UuidError Uuid :=
  let cs := s.toList
  let total := byteCount cs
  if total = 36 then (ofGroups? cs).elim (.error (fault true cs)) .ok
  else
    match unwrapped? cs with
    | some inner => (ofGroups? inner).elim (.error (fault true inner)) .ok
    | none => (ofDigits? cs).elim (.error (fault false cs)) .ok

end Uuid

/-- An identifier of version 1, which carries a time. -/
structure TimeUuid where
  uuid : Uuid
  version_eq : uuid.version = 1
  deriving DecidableEq

namespace TimeUuid

/-- Ticks between the start of the count, in 1582, and the year 1970. -/
def epoch : Nat := 0x01b21dd213814000

/-- The time as a count of 60 bits of ticks of 100 nanoseconds: the first 32 bits are the low end, the next 16
the middle, and the 12 bits after the version the high end. -/
def ticks (u : TimeUuid) : Nat :=
  let low := (u.uuid.bits.extractLsb' 96 32).toNat
  let middle := (u.uuid.bits.extractLsb' 80 16).toNat
  let high := (u.uuid.bits.extractLsb' 64 12).toNat
  high <<< 48 + middle <<< 32 + low

/-- Milliseconds since 1970. Ticks since then are a word of 64 bits, so times before 1970 wrap around. -/
def millis (u : TimeUuid) : Nat :=
  let sinceEpoch := (BitVec.ofNat 64 u.ticks - BitVec.ofNat 64 epoch).toNat
  sinceEpoch / 10000000 * 1000 + sinceEpoch % 10000000 * 100 / 1000000

end TimeUuid

end WideColumn
