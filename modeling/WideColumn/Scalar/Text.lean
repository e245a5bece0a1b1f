import WideColumn.Decimal.Text
import WideColumn.Scalar.Basic
import WideColumn.Varint
/-!
Single values as text: how they are written, and how each type reads its own.
-/

namespace WideColumn.Scalar

/-! ## Writing -/

/-- The text of a value. Floating-point numbers are written with `places` decimals. -/
def format (places : Nat) : Scalar → String
  | ascii s | varchar s | text s => s
  | blob bs => Blob.text bs
  | boolean b => if b then "true" else "false"
  | int n => Integer.text n
  | bigint n | counter n => Integer.text n
  | timestamp t => t.text
  | float x => x.fixed places
  | double x => x.fixed places
  | decimal d => d.text
  | varint n => Numeral.text n
  | uuid u => u.text
  | timeuuid u => u.uuid.text
  | inet a => a.text

/-! ## Reading -/

/-- Turns a reading into a value, or refuses the text. -/
def reading {α : Type} (type : ScalarType) (s : String) (make : α → Scalar) (r : Option α) :
    Except Error Scalar :=
  match r with
  | some a => .ok (make a)
  | none => .error (.unreadable type s)

def readUuid (s : String) : Except Error Uuid := (Uuid.ofText s).mapError (.badUuid s)

/-- An identifier as one that carries a time. -/
def ofTimeUuid (u : Uuid) : Except Error Scalar :=
  if h : u.version = 1 then .ok (timeuuid ⟨u, h⟩) else .error (.notTimeBased u)

/-- A decimal from a reading that may fail in two ways. -/
def ofDecimal (refusal : Error) : Option (Except ArithmeticError Decimal) → Except Error Scalar
  | some (.ok d) => .ok (decimal d)
  | some (.error e) => .error (.arithmetic e)
  | none => .error refusal

/-- The value of a type that a text denotes. Texts denote themselves; truth values are not read from text. -/
def ofText (type : ScalarType) (s : String) : Except Error Scalar :=
  match type with
  | .ascii => ofAscii s
  | .varchar => .ok (varchar s)
  | .text => .ok (text s)
  | .blob => ((Blob.ofText s).map blob).mapError (.badHex s)
  | .boolean => .error (.unreadable .boolean s)
  | .int => reading .int s int (Integer.ofText? 32 s)
  | .bigint => reading .bigint s bigint (Integer.ofText? 64 s)
  | .counter => reading .bigint s counter (Integer.ofText? 64 s)
  | .timestamp => reading .timestamp s timestamp (Timestamp.ofText? s)
  | .float => reading .float s float (Binary.ofText? s)
  | .double => reading .double s double (Binary.ofText? s)
  | .decimal => ofDecimal (.unreadable .decimal s) (Decimal.ofText? s)
  | .varint => reading .varint s varint (Varint.ofText? s)
  | .uuid => (readUuid s).map uuid
  | .timeuuid => readUuid s >>= ofTimeUuid
  | .inet => reading .inet s inet (Inet.ofText? s)

/-! ## Conversions -/

/-- The value of a numeric type that a double stands for. Integers drop the fraction. -/
def ofDouble (type : ScalarType) (x : Double) : Except Error Scalar :=
  let refuse := fun type => Except.error (Error.unfitDouble type x)
  match type with
  | .int => (Integer.ofDouble? 32 x).elim (refuse .int) (.ok <| int ·)
  | .bigint => (Integer.ofDouble? 64 x).elim (refuse .bigint) (.ok <| bigint ·)
  | .counter => (Integer.ofDouble? 64 x).elim (refuse .bigint) (.ok <| counter ·)
  | .float => .ok (float (Binary.convert x))
  | .double => .ok (double x)
  | .decimal => ofDecimal (.unfitDouble .decimal x) (Decimal.ofDouble? x)
  | .varint => (Varint.ofDouble? x).elim (refuse .varint) (.ok <| varint ·)
  | type => .error (.notNumeric type.name)

/-- The value of a numeric type for an integer. -/
def ofInt (type : ScalarType) (n : Int) : Except Error Scalar :=
  let refuse := fun type => Except.error (Error.unfitInteger type n)
  match type with
  | .int => (Integer.ofInt? 32 n).elim (refuse .int) (.ok <| int ·)
  | .bigint => (Integer.ofInt? 64 n).elim (refuse .bigint) (.ok <| bigint ·)
  | .counter => (Integer.ofInt? 64 n).elim (refuse .bigint) (.ok <| counter ·)
  | .float => .ok (float (Binary.ofInt n))
  | .double => .ok (double (Binary.ofInt n))
  | .decimal => .ok (decimal (.ofInt n))
  | .varint => .ok (varint n)
  | type => .error (.notNumeric type.name)

/-- The instant of whole seconds and microseconds. -/
def ofParts (seconds micros : BitVec 64) : Except Error Scalar :=
  (Timestamp.ofParts? seconds micros).elim (.error .instantOutside) (.ok <| timestamp ·)

def ofAddressBytes (bs : Bytes) : Except Error Scalar :=
  (Inet.ofBytes? bs).elim (.error (.addressLength bs.length)) (.ok <| inet ·)

end WideColumn.Scalar
