import WideColumn.Binary.Order
import WideColumn.Decimal.Basic
import WideColumn.Error
import WideColumn.Hash
import WideColumn.Inet
import WideColumn.Timestamp
/-!
Single values of the sixteen scalar types: their order, their hashes and their bytes on the wire.
-/

namespace WideColumn

/-- A single value. The constructors do not check the content of an `ascii` text. -/
inductive Scalar where
  | ascii (text : String)
  | varchar (text : String)
  | text (text : String)
  | blob (bytes : Bytes)
  | boolean (value : Bool)
  | int (value : BitVec 32)
  | bigint (value : BitVec 64)
  | counter (value : BitVec 64)
  | timestamp (value : Timestamp)
  | float (value : Single)
  | double (value : Double)
  | decimal (value : Decimal)
  | varint (value : Int)
  | uuid (value : Uuid)
  | timeuuid (value : TimeUuid)
  | inet (value : Inet)
  deriving DecidableEq

namespace Scalar

def type : Scalar → ScalarType
  | ascii _ => .ascii
  | varchar _ => .varchar
  | text _ => .text
  | blob _ => .blob
  | boolean _ => .boolean
  | int _ => .int
  | bigint _ => .bigint
  | counter _ => .counter
  | timestamp _ => .timestamp
  | float _ => .float
  | double _ => .double
  | decimal _ => .decimal
  | varint _ => .varint
  | uuid _ => .uuid
  | timeuuid _ => .timeuuid
  | inet _ => .inet

def asText? : Scalar → Option String
  | ascii s | varchar s | text s => some s
  | _ => none

/-! ## ASCII -/

/-- Place of the first byte above 127 in the UTF-8 form. -/
def firstNonAscii? (s : String) : Option Nat := (Text.utf8 s).findIdx? (128 ≤ ·)

def checkAscii (s : String) : Except Error Unit :=
  match firstNonAscii? s with
  | some offset => .error (.notAscii offset)
  | none => .ok ()

/-- The `ascii` value of a text of that kind. -/
def ofAscii (s : String) : Except Error Scalar := (checkAscii s).map fun _ => ascii s

/-- The value as one of a type that accepts it: texts take on the type, and for `ascii` they are checked even
if they claim to be of that type already. -/
def recast (target : ScalarType) (v : Scalar) : Except Error Scalar :=
  match v.asText?, target with
  | some s, .ascii => ofAscii s
  | _, _ =>
    if v.type = target then .ok v
    else
      match v, target with
      | text s, .varchar => .ok (varchar s)
      | varchar s, .text => .ok (text s)
      | _, _ => .error (.unaccepted target v.type)

/-! ## Bytes -/

def bytes : Scalar → Bytes
  | ascii s | varchar s | text s => Text.utf8 s
  | blob bs => bs
  | boolean b => [if b then 1 else 0]
  | int n => Integer.bytes n
  | bigint n | counter n => Integer.bytes n
  | timestamp t => Integer.bytes t.millis
  | float x => x.bytes
  | double x => x.bytes
  | decimal d => d.scale.bytes ++ d.unscaledBytes
  | varint n => TwosComplement.encode n
  | uuid u => u.bytes
  | timeuuid u => u.uuid.bytes
  | inet a => a.bytes

/-! ## Order -/

/-- The order of values: within a type by its own rule, across types by the types. -/
def order : Scalar → Scalar → Ordering
  | ascii a, ascii b | varchar a, varchar b | text a, text b => Bytes.order (Text.utf8 a) (Text.utf8 b)
  | blob a, blob b => Bytes.order a b
  | boolean a, boolean b => compare a.toNat b.toNat
  | int a, int b => compare a.toInt b.toInt
  | bigint a, bigint b | counter a, counter b => compare a.toInt b.toInt
  | timestamp a, timestamp b => compare a.value b.value
  | float a, float b => a.order b
  | double a, double b => a.order b
  | decimal a, decimal b => a.order b
  | varint a, varint b => compare a b
  | uuid a, uuid b => a.order b
  | timeuuid a, timeuuid b => a.uuid.order b.uuid
  | inet a, inet b => Bytes.order a.bytes b.bytes
  | a, b => compare a.type.rank b.type.rank

/-! ## Hash -/

/-- The hash of an identifier: its two halves, folded and mixed. -/
def identifierHash (u : Uuid) : UInt32 := Hash.mix (Hash.fold u.high) (Hash.fold u.low)

def hash : Scalar → UInt32
  | ascii s | varchar s | text s => Hash.crc32 (Text.utf8 s)
  | blob bs => Hash.crc32 bs
  | boolean b => if b then 1 else 0
  | int n => UInt32.ofBitVec n
  | bigint n | counter n => Hash.fold n
  | timestamp t => Hash.fold t.millis
  | float x => UInt32.ofBitVec x.bits
  | double x => Hash.fold x.bits
  | decimal d => Hash.magnitude d.scale.word d.unscaled.natAbs
  | varint n => Hash.magnitude 0 n.natAbs
  | uuid u => identifierHash u
  | timeuuid u => identifierHash u.uuid
  | inet a => Hash.crc32 a.bytes

end Scalar

end WideColumn
