import WideColumn.Config
/-!
Types and settings as documents of nested objects and arrays. A structure is an object with all its fields, or
an array of exactly its fields in order; a choice is an object whose one key names it, and one without content
may be the bare name.
-/

namespace WideColumn

/-- A document. Of numbers only the natural ones are told apart. -/
inductive Document where
  | null
  | boolean (value : Bool)
  | natural (value : Nat)
  | otherNumber
  | text (value : String)
  | array (items : List Document)
  | object (fields : List (String × Document))

namespace Document

/-- The content of a field of an object. -/
def field? (fields : List (String × Document)) (key : String) : Option Document :=
  (fields.find? (·.1 == key)).map (·.2)

/-- The one field of a structure. -/
def only? (key : String) : Document → Option Document
  | object fields => field? fields key
  | array [d] => some d
  | _ => none

/-- The two fields of a structure. -/
def both? (first second : String) : Document → Option (Document × Document)
  | object fields => do return (← field? fields first, ← field? fields second)
  | array [d, e] => some (d, e)
  | _ => none

/-- The name of a choice without content. -/
def choice? : Document → Option String
  | text name => some name
  | object [(name, null)] => some name
  | _ => none

/-- A natural number of 64 bits. -/
def word? : Document → Option Nat
  | natural n => if n < Nat.pow 2 64 then some n else none
  | _ => none

end Document

/-! ## Protocols and settings -/

def Protocol.ofDocument? (d : Document) : Option Protocol := do
  let name ← d.choice?
  Protocol.all.find? (·.name == name)

def DisplayConfig.ofDocument? (d : Document) : Option DisplayConfig := do
  return ⟨← (← d.only? "float_precision").word?⟩

/-- The settings of the wire that a document holds. -/
def WireConfig.ofDocument? (d : Document) : Option WireConfig := do
  return ⟨← Protocol.ofDocument? (← d.only? "protocol_version")⟩

/-- The settings that a document holds. Fields of other names are passed over. -/
def Config.ofDocument? (d : Document) : Option Config := do
  let (display, wire) ← d.both? "display" "wire"
  return ⟨← DisplayConfig.ofDocument? display, ← WireConfig.ofDocument? wire⟩

/-- The document of the settings, every structure as an object. -/
def Config.toDocument (c : Config) : Document :=
  .object [
    ("display", .object [("float_precision", .natural c.display.floatPrecision)]),
    ("wire", .object [("protocol_version", .text c.wire.protocol.name)])]

/-! ## Types -/

def ScalarType.ofDocument? (d : Document) : Option ScalarType := d.choice? >>= ScalarType.ofName?

def DataType.ofDocument? : Document → Option DataType
  | .object [("Scalar", d)] => (ScalarType.ofDocument? d).map .scalar
  | .object [("List", d)] => (ofDocument? d).map .list
  | .object [("Set", d)] => (ofDocument? d).map .set
  | .object [("Map", .array [k, v])] => do return .map (← ofDocument? k) (← ofDocument? v)
  | .object [("Custom", .text name)] => some (.custom name)
  | _ => none

/-- The document of a type, every choice as an object with one key. -/
def DataType.toDocument : DataType → Document
  | .scalar t => .object [("Scalar", .text t.name)]
  | .list e => .object [("List", e.toDocument)]
  | .set e => .object [("Set", e.toDocument)]
  | .map k v => .object [("Map", .array [k.toDocument, v.toDocument])]
  | .custom name => .object [("Custom", .text name)]

end WideColumn
