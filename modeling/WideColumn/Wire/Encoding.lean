import WideColumn.Collection.Stream
import WideColumn.Wire.Frame
/-!
The bytes of values on the wire. A collection is the number of its entries, then each entry after its length;
collections within it are entries like others.
-/

namespace WideColumn

namespace Value

mutual

/-- The bytes of a value where a type is declared. Single values need only be accepted by the type, but what
goes to `ascii` must be ASCII; collections must have exactly the type. -/
def encode (p : Protocol) (declared : DataType) : Value → Except Error Bytes
  | null => .error (.nullBytes declared)
  | scalar s =>
    match declared with
    | .custom name => .error (.customBytes name)
    | .scalar t =>
      if t.accepts s.type then
        match t, s.asText? with
        | .ascii, some text => ((Scalar.checkAscii text).mapError .brokenOff).map fun _ => s.bytes
        | _, _ => .ok s.bytes
      else .error (.mismatchedBytes s.type.name declared)
    | _ => .error (.mismatchedBytes s.type.name declared)
  | list ⟨t, vs, _, _⟩ =>
    match declared with
    | .custom name => .error (.customBytes name)
    | declared =>
      if declared = .list t then pushElements p t (.empty .list p vs.length) vs >>= Frame.close
      else .error (.mismatchedBytes (DataType.list t).name declared)
  | set ⟨t, vs, _, _⟩ =>
    match declared with
    | .custom name => .error (.customBytes name)
    | declared =>
      if declared = .set t then pushElements p t (.empty .set p vs.length) vs >>= Frame.close
      else .error (.mismatchedBytes (DataType.set t).name declared)
  | map ⟨k, v, es, _, _⟩ =>
    match declared with
    | .custom name => .error (.customBytes name)
    | declared =>
      if declared = .map k v then pushEntries p k v (.empty .map p es.length) es >>= Frame.close
      else .error (.mismatchedBytes (DataType.map k v).name declared)

/-- Adds the bytes of elements of one type to a frame. -/
def pushElements (p : Protocol) (t : DataType) (f : Frame) : List Value → Except Error Frame
  | [] => .ok f
  | v :: vs => do
    let f ← f.push fun _ => encode p t v
    pushElements p t f vs

/-- Adds the bytes of each key and then of its value to a frame. -/
def pushEntries (p : Protocol) (kt vt : DataType) (f : Frame) : List (Value × Value) → Except Error Frame
  | [] => .ok f
  | (k, v) :: es => do
    let f ← f.push fun _ => encode p kt k
    let f ← f.push fun _ => encode p vt v
    pushEntries p kt vt f es

end

end Value

namespace Frame

/-- Adds one element by its value and declared type. -/
def append (f : Frame) (t : DataType) (v : Value) : Except Error Frame := f.push fun _ => v.encode f.protocol t

/-- A frame as a receiver of entries. What it refuses leaves it as it was. -/
def receiver : Receiver Frame := fun f t v =>
  match f.framed fun _ => v.encode f.protocol t with
  | .ok framed => (.ok (), f.extend framed)
  | .error e => (.error e, f)

/-- The bytes of entries as a collection of a given shape. -/
def bytesOf (shape : Shape) (p : Protocol) (entries : Nat) (stream : List (DataType × Value)) : Except Error Bytes :=
  match receiver.feed (empty shape p entries) stream with
  | (.ok (), f) => f.close
  | (.error e, _) => .error e

end Frame

def TypedList.toBytes (l : TypedList Value) (p : Protocol) : Except Error Bytes :=
  Frame.bytesOf .list p l.elements.length l.stream

/-- The bytes of a set, in the order of insertion. -/
def TypedSet.toBytes (s : TypedSet Value) (p : Protocol) : Except Error Bytes :=
  Frame.bytesOf .set p s.elements.length s.stream

/-- The bytes of a map, in the order of insertion. -/
def TypedMap.toBytes (m : TypedMap Value) (p : Protocol) : Except Error Bytes :=
  Frame.bytesOf .map p m.entries.length m.stream

end WideColumn
