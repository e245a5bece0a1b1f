import WideColumn.Collection.Admission
import WideColumn.TypeName
/-!
Operations on sets. Of equal values the first to come in is kept, in its place.
-/

namespace WideColumn.TypedSet

variable (s : TypedSet Value)

/-- A set of the scalar type with a given name. -/
def ofTypeName (name : String) : Except Error (TypedSet Value) :=
  (DataType.ofName name).map empty

def size : Nat := s.elements.length

/-! ## Elements -/

/-- Puts a value at the end unless an equal one is there; tells whether it did. -/
def add (v : Value) : Except Error (Bool × TypedSet Value) := do
  let v ← admitted s.elementType .element v
  return match placeOf? v s.elements with
    | some _ => (false, s)
    | none => (true, { s with elements := s.elements ++ [v], knownHash := none })

def contains (v : Value) : Except Error Bool := do
  let v ← admitted s.elementType .element v
  return (placeOf? v s.elements).isSome

/-- Takes out the element equal to a value; tells whether there was one. -/
def remove (v : Value) : Except Error (Bool × TypedSet Value) := do
  let v ← admitted s.elementType .element v
  return match placeOf? v s.elements with
    | some i =>
      (true, { s with elements := s.elements.eraseIdx i, cursor := s.cursor.afterRemoval i, knownHash := none })
    | none => (false, s)

/-- Takes out everything; the cursor goes back to the first place. -/
def clear : TypedSet Value := { s with elements := [], cursor := .start, knownHash := none }

/-! ## Cursor -/

/-- Sends the cursor back to the first place. -/
def rewind : TypedSet Value := { s with cursor := .start }

def advance : TypedSet Value := { s with cursor := s.cursor.advance }

/-- Place of the cursor, if an element stands there. -/
def key? : Option Nat := s.cursor.index? s.size

def valid : Bool := s.key?.isSome

def current? : Option Value := s.key? >>= fun i => s.elements[i]?

/-! ## Hash -/

/-- The hash of the set, and the set with it known. -/
def readHash : UInt32 × TypedSet Value :=
  match (Value.set s).readHash with
  | (h, .set s) => (h, s)
  | (h, _) => (h, s)

end WideColumn.TypedSet
