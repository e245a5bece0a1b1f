import WideColumn.Collection.Admission
import WideColumn.TypeName
/-!
Operations on lists.
-/

namespace WideColumn.TypedList

variable (l : TypedList Value)

/-- A list of the scalar type with a given name. -/
def ofTypeName (name : String) : Except Error (TypedList Value) :=
  (DataType.ofName name).map empty

def size : Nat := l.elements.length

/-! ## Elements -/

/-- Puts a value at the end. -/
def add (v : Value) : Except Error (TypedList Value) := do
  let v ← admitted l.elementType .element v
  return { l with elements := l.elements ++ [v], knownHash := none }

/-- Puts several values at the end, all or none. -/
def addAll (vs : List Value) : Except Error (TypedList Value) := do
  let vs ← vs.mapM (admitted l.elementType .element)
  return if vs.isEmpty then l else { l with elements := l.elements ++ vs, knownHash := none }

def get? (i : Nat) : Option Value := l.elements[i]?

def find (v : Value) : Except Error (Option Nat) := do
  let v ← admitted l.elementType .element v
  return placeOf? v l.elements

def contains (v : Value) : Except Error Bool := do return (← l.find v).isSome

/-- Takes out the element at a place; without one there the list stays as it is. -/
def remove (i : Nat) : Option Value × TypedList Value :=
  match l.elements[i]? with
  | some v =>
    (some v, { l with elements := l.elements.eraseIdx i, cursor := l.cursor.afterRemoval i, knownHash := none })
  | none => (none, l)

/-- Takes out everything; the cursor goes back to the first place. -/
def clear : TypedList Value := { l with elements := [], cursor := .start, knownHash := none }

/-! ## Cursor -/

/-- Sends the cursor back to the first place. -/
def rewind : TypedList Value := { l with cursor := .start }

def advance : TypedList Value := { l with cursor := l.cursor.advance }

/-- Place of the cursor, if an element stands there. -/
def key? : Option Nat := l.cursor.index? l.size

def valid : Bool := l.key?.isSome

def current? : Option Value := l.key? >>= l.get?

/-! ## Hash -/

/-- The hash of the list, and the list with it known. -/
def readHash : UInt32 × TypedList Value :=
  match (Value.list l).readHash with
  | (h, .list l) => (h, l)
  | (h, _) => (h, l)

end WideColumn.TypedList
