import WideColumn.Collection.Admission
import WideColumn.TypeName
/-!
Operations on maps. A key that is set again keeps its place and its first form.
-/

namespace WideColumn.TypedMap

variable (m : TypedMap Value)

/-- A map of the scalar types with given names; the name of the key type is looked up first. -/
def ofTypeNames (key value : String) : Except Error (TypedMap Value) := do
  let k ← DataType.ofName key
  let v ← DataType.ofName value
  return empty k v

def size : Nat := m.entries.length

def keys : List Value := m.entries.map (·.1)

def values : List Value := m.entries.map (·.2)

/-- Place of the entry with a key equal to an admitted one. -/
def placeOfKey? (k : Value) : Option Nat := placeOf? k m.keys

/-! ## Entries -/

/-- Sets the value under a key: in the place of an equal key, or in a new entry at the end. -/
def set (k v : Value) : Except Error (TypedMap Value) := do
  let k ← admitted m.keyType .key k
  let v ← admitted m.valueType .value v
  return match m.placeOfKey? k with
    | some i => { m with entries := m.entries.modify i fun (k, _) => (k, v), knownHash := none }
    | none => { m with entries := m.entries ++ [(k, v)], knownHash := none }

def get (k : Value) : Except Error (Option Value) := do
  let k ← admitted m.keyType .key k
  return m.placeOfKey? k >>= fun i => m.entries[i]?.map (·.2)

def contains (k : Value) : Except Error Bool := do
  let k ← admitted m.keyType .key k
  return (m.placeOfKey? k).isSome

/-- Takes out the entry under a key; tells whether there was one. -/
def remove (k : Value) : Except Error (Bool × TypedMap Value) := do
  let k ← admitted m.keyType .key k
  return match m.placeOfKey? k with
    | some i =>
      (true, { m with entries := m.entries.eraseIdx i, cursor := m.cursor.afterRemoval i, knownHash := none })
    | none => (false, m)

/-- Takes out everything; the cursor goes back to the first place. -/
def clear : TypedMap Value := { m with entries := [], cursor := .start, knownHash := none }

/-! ## Cursor -/

/-- Sends the cursor back to the first place. -/
def rewind : TypedMap Value := { m with cursor := .start }

def advance : TypedMap Value := { m with cursor := m.cursor.advance }

def entry? : Option (Value × Value) := m.cursor.index? m.size >>= fun i => m.entries[i]?

def valid : Bool := (m.cursor.index? m.size).isSome

def key? : Option Value := m.entry?.map (·.1)

def current? : Option Value := m.entry?.map (·.2)

/-! ## Hash -/

/-- The hash of the map, and the map with it known. -/
def readHash : UInt32 × TypedMap Value :=
  match (Value.map m).readHash with
  | (h, .map m) => (h, m)
  | (h, _) => (h, m)

end WideColumn.TypedMap
