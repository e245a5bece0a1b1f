import WideColumn.Error
/-!
A collection under way to the wire: the bytes of its elements, each after its length, and in front of them
all the number of entries. Elements are counted, and only the declared number of them closes it.
-/

namespace WideColumn

/-- A collection on the wire with some of its elements. -/
structure Frame where
  shape : Shape
  protocol : Protocol
  /-- Declared number of elements, or of pairs for a map. -/
  entries : Nat
  count : Nat
  /-- The elements so far, each after its length. -/
  payload : Array UInt8

namespace Frame

/-- A frame for a declared number of entries, without elements. -/
def empty (shape : Shape) (protocol : Protocol) (entries : Nat) : Frame := ⟨shape, protocol, entries, 0, #[]⟩

/-- The number of elements that closes the frame: a pair has two. -/
def expected (f : Frame) : Nat :=
  match f.shape with
  | .map => f.entries * 2
  | _ => f.entries

/-- A count or a length, if the protocol has a field for it. -/
def field (protocol : Protocol) (n : Nat) : Except Error Bytes :=
  if protocol.fieldMax < n then .error (.tooLong n protocol) else .ok (Bytes.bigEndian protocol.fieldWidth n)

/-- What one more element adds to the payload: its length, then its bytes, which are not asked for if the frame
has all its elements. -/
def framed (f : Frame) (bytes : Unit → Except Error Bytes) : Except Error Bytes :=
  if f.expected ≤ f.count then .error (.full f.shape f.count)
  else do
    let bytes ← bytes ()
    return (← field f.protocol bytes.length) ++ bytes

/-- The frame with one more element, given with its length. -/
def extend (f : Frame) (framed : Bytes) : Frame :=
  { f with count := f.count + 1, payload := f.payload ++ framed }

def push (f : Frame) (bytes : Unit → Except Error Bytes) : Except Error Frame :=
  match f.framed bytes with
  | .ok framed => .ok (f.extend framed)
  | .error e => .error e

def close (f : Frame) : Except Error Bytes :=
  if f.count = f.expected then do return (← field f.protocol f.entries) ++ f.payload.toList
  else .error (.incomplete f.shape f.expected f.count)

end Frame

end WideColumn
